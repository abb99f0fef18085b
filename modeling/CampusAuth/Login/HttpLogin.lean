import CampusAuth.Login.HttpTask

/- The direct login attempt (`login/http_login.rs`): `run_once` for a task with one request
   and `run_flow_once` for a task with steps.

   What the network, the script host and the clock answer is part of the input. Values are
   taken out of responses by `Extractors`; the logout request in front of a login has no
   bearing on the report. -/
namespace CampusAuth.Login
open Lib Bridge

/-- What takes a value out of a response: by a path of a pre-request, by a rule of a step. -/
structure Extractors where
  preValue : Text → Text → Except Text Text
  flowValue : HttpExtractRule → HttpResponse → Except Text Text

def maxExtractValueBytes : Nat := 8 * 1024

def maxFlowVariableBytes : Nat := 128 * 1024

/-! ## Reports -/

/-- A request with its templates filled. -/
structure Rendered where
  url : Text := []
  headers : Text := []
  body : Text := []

structure HttpStepReport where
  id : Text
  name : Text
  kind : HttpFlowStepKind
  outcome : Text
  message : Text
  producedVars : List Text := []
  rendered : Rendered := {}
  status : Option Nat := none
  responseHeaders : Text := []
  responseSnippet : Text := []

def HttpStepReport.redact (report : HttpStepReport) (secrets : List Text) : HttpStepReport :=
  { report with
    message := redactText report.message secrets
    producedVars := report.producedVars.map fun name => redactText name secrets
    rendered :=
      { url := redactUrl report.rendered.url secrets
        headers := redactText report.rendered.headers secrets
        body := redactText report.rendered.body secrets }
    responseHeaders := redactText report.responseHeaders secrets
    responseSnippet := redactText report.responseSnippet secrets }

structure HttpAttemptReport where
  stepReports : List HttpStepReport := []
  outcome : Outcome
  message : Text
  rendered : Rendered := {}
  status : Option Nat := none
  responseHeaders : Text := []
  responseSnippet : Text := []
  scriptError : Option Text := none

/-- What the session makes of the report. -/
def HttpAttemptReport.toStructured (report : HttpAttemptReport) : StructuredResult :=
  { outcome := report.outcome
    message := String.ofList report.message
    data := .obj
      [("http_status", match report.status with
        | some code => .number (toString code)
        | none => .null),
       ("response_snippet", .str (String.ofList report.responseSnippet))] }

/-- The part of a response a report shows: the status code, the headers and the snippet. -/
structure Shown where
  status : Nat
  headers : Text
  snippet : Text

def abortReport (outcome : Outcome) (message : Text) (rendered : Option Rendered := none)
    (response : Option Shown := none) (scriptError : Option Text := none) : HttpAttemptReport :=
  let shown := response.getD ⟨0, [], []⟩
  { outcome, message, scriptError
    rendered := rendered.getD {}
    status := if shown.status = 0 then none else some shown.status
    responseHeaders := shown.headers
    responseSnippet := shown.snippet }

/-! ## What answers an attempt -/

/-- What answers one step of a flow. -/
structure StepAnswer where
  /-- The total time of the flow was used up before the step. -/
  late : Bool := false
  values : Except Text Vars := .ok []
  response : Except Text HttpResponse := .error []
  /-- The wait behind the request fitted into the total time. -/
  waited : Bool := true

structure HttpAnswers where
  /-- The egress, with the address it is bound to. -/
  egress : Except Text (Option LocalAddress) := .ok none
  client : Except Text Unit := .ok ()
  script : Except Text Vars := .ok []
  preRequest : Except Text HttpResponse := .error []
  login : Except Text HttpResponse := .error []
  steps : Nat → StepAnswer := fun _ => {}

/-! ## A task with one request -/

/-- The request as the egress binds it. -/
def bindAddress (req : HttpLoginRequest) : Option LocalAddress → HttpLoginRequest
  | some addr => req.withLocalAddress addr
  | none => req

def renderRequest (url headers body : Text) (vars : Vars) : Rendered :=
  { url := substitute url vars, headers := substitute headers vars, body := substitute body vars }

def redactRendered (rendered : Rendered) (secrets : List Text) : Rendered :=
  { url := redactUrl rendered.url secrets
    headers := redactText rendered.headers secrets
    body := redactText rendered.body secrets }

/-- The variables and the dictionary before the login request, or the report of a failure. -/
structure Prepared where
  req : HttpLoginRequest
  vars : Vars
  secrets : List Text

/-- The value a pre-request takes out of the body. -/
def preExtract (X : Extractors) (pre : HttpPreRequest) (body : Text) : Except Text Text :=
  match pre.extractPath with
  | .ok path => X.preValue path body
  | .error e => .error e

/-- The pre-request fetches its value. -/
def runPreRequest (X : Extractors) (pre : HttpPreRequest) (prepared : Prepared)
    (answer : Except Text HttpResponse) : Except HttpAttemptReport Prepared :=
  let secrets := normalizeSecrets prepared.secrets
  let rendered := redactRendered (renderRequest pre.url pre.headers pre.body prepared.vars) secrets
  match answer with
  | .error e =>
    .error (abortReport .networkError (redactText ("前置请求失败: ".toList ++ e) secrets)
      (some rendered))
  | .ok response =>
    match preExtract X pre response.body with
    | .ok value =>
      .ok { prepared with
        vars := prepared.vars.insert pre.placeholderName value
        secrets := addSecret secrets value }
    | .error e =>
      .error (abortReport .unknownError
        (redactText ("前置请求未取到占位符: ".toList ++ e) secrets) (some rendered)
        (some { status := response.status.code
                headers := redactText response.headersText secrets
                snippet := redactText (truncateSnippet response.body) secrets }))

/-- The variables and what the script makes of them. -/
def prepareVars (req : HttpLoginRequest) (answers : HttpAnswers) :
    Except HttpAttemptReport Prepared :=
  match answers.egress with
  | .error e => .error (abortReport .navigationTimeout e)
  | .ok addr =>
    let req := bindAddress req addr
    match answers.client with
    | .error e => .error (abortReport .unknownError ("HTTP 客户端构建失败: ".toList ++ e))
    | .ok () =>
      let vars := initialVars req
      let secrets := collectSecrets vars
      match (if req.usesCryptoScript then answers.script else .ok []) with
      | .error e =>
        let secrets := normalizeSecrets secrets
        .error (abortReport .unknownError
          (redactText ("加密脚本执行失败: ".toList ++ e) secrets) none none
          (some (redactText e secrets)))
      | .ok values =>
        .ok { req
              vars := vars.extend values
              secrets := values.foldl (fun secrets v => addSecret secrets v.2) secrets }

/-- Everything before the login request. -/
def prepareLogin (X : Extractors) (req : HttpLoginRequest) (answers : HttpAnswers) :
    Except HttpAttemptReport Prepared :=
  match prepareVars req answers with
  | .error report => .error report
  | .ok prepared =>
    match prepared.req.preRequest with
    | none => .ok prepared
    | some pre => runPreRequest X pre prepared answers.preRequest

def httpSuffix (status : HttpStatus) : Text := "（HTTP ".toList ++ status.text ++ "）".toList

/-- The login request itself and the judgement of its response. -/
def sendLogin (prepared : Prepared) (answer : Except Text HttpResponse) : HttpAttemptReport :=
  let req := prepared.req
  let secrets := normalizeSecrets prepared.secrets
  let rendered := redactRendered (renderRequest req.url req.headers req.body prepared.vars) secrets
  match answer with
  | .error e =>
    abortReport .networkError (redactText ("直连请求失败: ".toList ++ e) secrets) (some rendered)
  | .ok response =>
    let snippet := truncateSnippet response.body
    let (outcome, message) := match classifyResponse req response.status response.body with
      | .failure outcome =>
        (outcome, "门户返回失败标识".toList ++ httpSuffix response.status ++ ": ".toList ++
          redactText snippet secrets)
      | .success =>
        (Outcome.success,
          if req.successCheck = .network then
            "已发送登录请求".toList ++ httpSuffix response.status ++
              "，成功与否由登录后网络检测判定".toList
          else "直连请求成功".toList ++ httpSuffix response.status)
      | .missingSuccess =>
        (.assertionFailed, "未命中成功标识".toList ++ httpSuffix response.status ++ ": ".toList ++
          redactText snippet secrets)
    { outcome, message, rendered
      status := some response.status.code
      responseHeaders := redactText response.headersText secrets
      responseSnippet := redactText snippet secrets }

/-! ## A task with steps -/

/-- The step's diagnosis; it is masked when all variables are known. -/
def flowStepReport (step : HttpFlowStep) (outcome : String) (message : Text) (rendered : Rendered)
    (response : Option HttpResponse) : HttpStepReport :=
  { id := step.id, name := step.name, kind := step.kind
    outcome := outcome.toList
    message
    rendered
    status := response.bind fun r => if r.status.code = 0 then none else some r.status.code
    responseHeaders := (response.map (·.headersText)).getD []
    responseSnippet := truncateSnippet ((response.map (·.body)).getD []) }

/-- What a flow has come to. -/
structure FlowState where
  vars : Vars
  secrets : List Text
  reports : List HttpStepReport := []
  /-- The response to be judged with its request. -/
  result : Option (HttpResponse × Rendered) := none

/-- Why a flow stops. -/
structure FlowAbort where
  outcome : Outcome
  message : Text
  rendered : Option Rendered := none
  response : Option HttpResponse := none
  scriptError : Option Text := none

def FlowState.push (st : FlowState) (report : HttpStepReport) : FlowState :=
  { st with reports := st.reports ++ [report] }

def flowTimeout : FlowAbort :=
  { outcome := .networkError, message := "HTTP 登录流程超时".toList }

def stepFailed (step : HttpFlowStep) (what : String) (e : Text) : Text :=
  "步骤「".toList ++ step.name ++ "」".toList ++ what.toList ++ ": ".toList ++ e

/-- The values taken out of a response so far. -/
structure Extraction where
  pending : List (Text × Text) := []
  variableBytes : Nat
  secrets : List Text
  issue : Option (Text × Outcome) := none

/-- The length of the value a rule overwrites. -/
def previousLen (vars : Vars) (pending : List (Text × Text)) (name : Text) : Nat :=
  (((pending.reverse.find? fun v => v.1 = name).map fun v => byteLen v.2) <|>
    (Vars.get vars name).map byteLen).getD 0

/-- Applies the rules in order up to the first that fails. -/
def extractRules (X : Extractors) (vars : Vars) (response : HttpResponse) :
    List HttpExtractRule → Extraction → Extraction
  | [], x => x
  | rule :: rules, x =>
    match X.flowValue rule response with
    | .ok value =>
      let bytes := x.variableBytes - previousLen vars x.pending rule.name + byteLen value
      if byteLen value > maxExtractValueBytes ∨ bytes > maxFlowVariableBytes then
        let issue := ("提取 `".toList ++ rule.name ++ "` 失败: 变量超过大小限制".toList, .unknownError)
        { x with issue := some issue }
      else
        extractRules X vars response rules
          { x with
            pending := x.pending ++ [(rule.name, value)]
            variableBytes := bytes
            secrets := addSecret x.secrets value }
    | .error e =>
      let issue := ("提取 `".toList ++ rule.name ++ "` 失败: ".toList ++ e, .unknownError)
      { x with issue := some issue }

/-- What a step took out of its response: the state, the names and the issue. -/
structure Taken where
  st : FlowState
  produced : List Text := []
  issue : Option (Text × Outcome) := none

def takeValues (X : Extractors) (st : FlowState) (step : HttpFlowStep) (response : HttpResponse) :
    Taken :=
  if !step.extracts.isEmpty then
    let x := extractRules X st.vars response step.extracts
      { variableBytes := st.vars.totalLen, secrets := st.secrets }
    let st := { st with secrets := x.secrets }
    match x.issue with
    | some issue => { st, issue := some issue }
    | none => { st := { st with vars := st.vars.extend x.pending }, produced := x.pending.map (·.1) }
  else if !(strip step.extract).isEmpty then
    let pre : HttpPreRequest := { extract := step.extract, name := step.extractAs }
    match preExtract X pre response.body with
    | .ok value =>
      if byteLen value > maxExtractValueBytes ∨
          st.vars.totalLen + byteLen value > maxFlowVariableBytes then
        { st, issue := some ("提取变量失败: 变量超过大小限制".toList, .unknownError) }
      else
        { st := { st with
            secrets := addSecret st.secrets value
            vars := st.vars.insert pre.placeholderName value }
          produced := [pre.placeholderName] }
    | .error e => { st, issue := some ("提取变量失败: ".toList ++ e, .unknownError) }
  else { st }

/-- A step that computes variables. -/
def transformStep (st : FlowState) (step : HttpFlowStep) (values : Except Text Vars) :
    FlowState × Option FlowAbort :=
  match values with
  | .ok values =>
    if (values.any fun v => decide (byteLen v.2 > maxExtractValueBytes)) ∨
        st.vars.totalLen + Vars.totalLen values > maxFlowVariableBytes then
      (st.push (flowStepReport step "failed" "计算结果中的变量超过大小限制".toList {} none),
        some { outcome := .unknownError, message := "HTTP 流程变量超过大小限制".toList })
    else
      let report := flowStepReport step "success"
        ("计算完成，生成 ".toList ++ (toString values.length).toList ++ " 个字段".toList) {} none
      ({ st with
          secrets := values.foldl (fun secrets v => addSecret secrets v.2) st.secrets
          vars := st.vars.extend values
          reports := st.reports ++ [{ report with producedVars := values.map (·.1) }] }, none)
  | .error e =>
    (st.push (flowStepReport step "failed" ("计算失败: ".toList ++ e) {} none),
      some { outcome := .unknownError, message := stepFailed step "计算失败" e,
             scriptError := some e })

/-- A step that sends a request. -/
def requestStep (X : Extractors) (resultId : Text) (st : FlowState) (step : HttpFlowStep)
    (answer : StepAnswer) : FlowState × Option FlowAbort :=
  let rendered := renderRequest step.url step.headers step.body st.vars
  let wait := if answer.waited then none else some flowTimeout
  match answer.response with
  | .error e =>
    if step.onError = .continue then
      (st.push (flowStepReport step "ignored" ("请求失败: ".toList ++ e) rendered none), wait)
    else
      (st.push (flowStepReport step "failed" ("请求失败: ".toList ++ e) rendered none),
        some { outcome := .networkError, message := stepFailed step "请求失败" e,
               rendered := some rendered })
  | .ok response =>
    let taken := takeValues X st step response
    let isResult := decide (step.id = resultId)
    let unread := (strip step.extract).isEmpty && step.extracts.isEmpty
    let issue := taken.issue <|>
      if !response.status.isSuccess && !isResult && unread then
        some ("HTTP ".toList ++ response.status.text, .assertionFailed)
      else none
    let ignored := issue.isSome && step.onError == .continue
    let outcome := if ignored then "ignored" else if issue.isSome then "failed" else "success"
    let message := (issue.map (·.1)).getD ("HTTP ".toList ++ response.status.text)
    let report := flowStepReport step outcome message rendered (some response)
    let st := taken.st.push { report with producedVars := taken.produced }
    match (if ignored then none else issue) with
    | some (error, outcome) =>
      (st, some { outcome, message := stepFailed step "失败" error, rendered := some rendered,
                  response := some response })
    | none => (if isResult then { st with result := some (response, rendered) } else st, wait)

/-- Step `i` of the flow. -/
def flowStep (X : Extractors) (resultId : Text) (st : FlowState) (step : HttpFlowStep)
    (answer : StepAnswer) : FlowState × Option FlowAbort :=
  if answer.late then (st, some flowTimeout)
  else
    match step.kind with
    | .transform => transformStep st step answer.values
    | .request => requestStep X resultId st step answer

/-- The steps in order, up to the first that stops the flow. -/
def flowSteps (X : Extractors) (resultId : Text) (answers : Nat → StepAnswer) :
    Nat → List HttpFlowStep → FlowState → FlowState × Option FlowAbort
  | _, [], st => (st, none)
  | i, step :: steps, st =>
    match flowStep X resultId st step (answers i) with
    | (st, some abort) => (st, some abort)
    | (st, none) => flowSteps X resultId answers (i + 1) steps st

/-- The report of a flow that stopped. -/
def flowAbort (abort : FlowAbort) (reports : List HttpStepReport) (secrets : List Text) :
    HttpAttemptReport :=
  let secrets := normalizeSecrets secrets
  let result := abortReport abort.outcome (redactText abort.message secrets) abort.rendered
    (abort.response.map fun r => ⟨r.status.code, r.headersText, r.body⟩)
    (abort.scriptError.map fun e => redactText e secrets)
  { result with
    rendered := redactRendered result.rendered secrets
    responseHeaders := redactText result.responseHeaders secrets
    responseSnippet := redactText (truncateSnippet result.responseSnippet) secrets
    stepReports := reports.map (·.redact secrets) }

/-- The step whose response is judged: the given one, else the last request. -/
def resultStep (req : HttpLoginRequest) : Text :=
  if req.resultStepId.isEmpty then
    ((req.steps.reverse.find? (·.kind == .request)).map (·.id)).getD []
  else req.resultStepId

/-- The judgement of a flow. -/
def judgeFlow (req : HttpLoginRequest) (resultId : Text) (response : HttpResponse) :
    Outcome × Text :=
  let step := "步骤「".toList ++ resultId ++ "」".toList
  match classifyResponse req response.status response.body with
  | .failure outcome => (outcome, step ++ "命中失败标识".toList ++ httpSuffix response.status)
  | .success =>
    (.success,
      if req.successCheck = .network then
        "已完成 HTTP 登录流程".toList ++ httpSuffix response.status ++
          "，由登录后网络检测判断结果".toList
      else "HTTP 登录流程成功".toList ++ httpSuffix response.status)
  | .missingSuccess =>
    (.assertionFailed, step ++ "未命中成功标识".toList ++ httpSuffix response.status)

/-- The report of a flow that ran to its end. -/
def finishFlow (req : HttpLoginRequest) (resultId : Text) (st : FlowState) : HttpAttemptReport :=
  match st.result with
  | none =>
    flowAbort { outcome := .unknownError, message := "结果判断引用的请求没有得到响应".toList }
      st.reports st.secrets
  | some (response, rendered) =>
    let (outcome, message) := judgeFlow req resultId response
    let secrets := normalizeSecrets st.secrets
    { stepReports := st.reports.map (·.redact secrets)
      outcome
      message := redactText message secrets
      rendered := redactRendered rendered secrets
      status := some response.status.code
      responseHeaders := redactText response.headersText secrets
      responseSnippet := redactText (truncateSnippet response.body) secrets }

/-- The state a flow starts from. -/
def flowStart (req : HttpLoginRequest) : FlowState :=
  { vars := initialVars req, secrets := collectSecrets (initialVars req) }

def runFlowOnce (X : Extractors) (req : HttpLoginRequest) (answers : HttpAnswers) :
    HttpAttemptReport :=
  match answers.egress with
  | .error e => abortReport .navigationTimeout e
  | .ok addr =>
    let req := bindAddress req addr
    match answers.client with
    | .error e => abortReport .unknownError ("HTTP 客户端构建失败: ".toList ++ e)
    | .ok () =>
      let resultId := resultStep req
      match flowSteps X resultId answers.steps 0 req.steps (flowStart req) with
      | (st, some abort) => flowAbort abort st.reports st.secrets
      | (st, none) => finishFlow req resultId st

/-- One attempt of an HTTP login. -/
def runOnce (X : Extractors) (req : HttpLoginRequest) (answers : HttpAnswers) :
    HttpAttemptReport :=
  if !req.steps.isEmpty then runFlowOnce X req answers
  else
    match prepareLogin X req answers with
    | .error report => report
    | .ok prepared => sendLogin prepared answers.login

end CampusAuth.Login
