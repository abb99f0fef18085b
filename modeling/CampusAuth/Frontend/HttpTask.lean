import CampusAuth.Lib.Trim
import CampusAuth.Frontend.ScheduledDraft
import CampusAuth.Tasks.Loader

/- The draft of a direct login task in the editor (`frontend/src/utils/httpTask.ts`): the draft of
   a task that is opened, what is missing before it can be saved, and what is then sent.

   The editor shows every task as steps. A task without steps is shown as the steps its requests
   amount to, and is sent in its old form as long as no step is touched (`flowEnabled`). -/
namespace CampusAuth.Frontend.HttpTask
open Lib Login Tasks
open ScheduledDraft (isSpace)

def trim (text : Text) : Text := trimBy isSpace text

/-- `text || fallback` -/
def orText (text fallback : Text) : Text := if text.isEmpty then fallback else text

def httpTaskPlaceholderUrl : Text := "\x7bgateway_host\x7d".toList

def httpTaskDefaultName : Text := "新建 HTTP 登录任务".toList

/-! ## Patterns -/

/-- `/^[a-zA-Z0-9_]{1,64}$/`, with more characters. -/
def matchesName (extra : List Char) (name : Text) : Bool :=
  !name.isEmpty && name.length ≤ 64 && name.all fun c => c.isAlphanum || extra.contains c

/-- `HTTP_TASK_ID_PATTERN` -/
def matchesId (id : Text) : Bool := matchesName ['_', '-'] id

/-- What `.` does not match. -/
def isLineTerminator (c : Char) : Bool :=
  c == '\n' || c == '\r' || c == '\u2028' || c == '\u2029'

def sourceKinds : List Text :=
  ["json", "header", "url", "redirect", "html", "regex"].map String.toList

/-- `/^(json|header|url|redirect|html|regex):.+/`: no kind has a colon. -/
def matchesSource (source : Text) : Bool :=
  match splitOnce ':' source with
  | some (kind, c :: _) => sourceKinds.contains kind && !isLineTerminator c
  | _ => false

/-- `toLowerCase` makes an ASCII letter of these schemes out of no other character. -/
def hasHttpHost (raw : Text) : Bool :=
  match splitAt "://".toList (trim raw) with
  | none => false
  | some (scheme, rest) =>
    let host := rest.takeWhile fun c => !(c == '/' || c == '?' || c == '#')
    isHttpScheme scheme && !host.isEmpty

/-! ## Tasks as the interface has them -/

/-- A task (`api/types.ts`); what may be `undefined` or `null` is an option. -/
structure HttpTaskConfig where
  schemaVersion : Option Nat := none
  steps : Option (List Tasks.HttpFlowStep) := none
  resultStepId : Option Text := none
  taskId : Text
  name : Text
  description : Text
  method : HttpRequestMethod
  url : Text
  authUrl : Text
  headers : Text
  body : Text
  successPattern : Text
  failurePattern : Text
  failureAction : Option HttpFailureAction := none
  cryptoScript : Text
  preRequest : Option HttpPreRequest := none
  logoutRequest : Option HttpActionRequest := none
  ignoreHttpsErrors : Option Bool := none
  successCheck : Option HttpSuccessCheck := none
  metadata : Option Json := none

def emptyHttpRequestStep (id name : Text) : Tasks.HttpFlowStep where
  id := id
  name := name
  kind := .request

/-- The requests of a task without steps, in the order in which they are sent. -/
def legacyHttpSteps (config : HttpTaskConfig) : List Tasks.HttpFlowStep :=
  let logout := (config.logoutRequest.filter fun logout => !logout.url.isEmpty).map fun logout =>
    { emptyHttpRequestStep "logout".toList "清理旧会话".toList with
      method := logout.method
      url := logout.url
      headers := logout.headers
      body := logout.body
      waitSecs := logout.waitSecs
      onError := .continue }
  let credentials : Option Tasks.HttpFlowStep :=
    if (trim config.cryptoScript).isEmpty then none
    else some { emptyHttpRequestStep "credentials".toList "计算凭据".toList with
      kind := .transform
      script := config.cryptoScript }
  let prepare := (config.preRequest.filter fun pre => !pre.url.isEmpty).map fun pre =>
    { emptyHttpRequestStep "prepare".toList "获取登录参数".toList with
      method := pre.method
      url := pre.url
      headers := pre.headers
      body := pre.body
      extract := pre.extract
      extractAs := pre.name }
  logout.toList ++ credentials.toList ++ prepare.toList ++
    [{ emptyHttpRequestStep "login".toList "登录请求".toList with
      method := config.method
      url := config.url
      headers := config.headers
      body := config.body }]

/-! ## Drafts -/

structure HttpTaskDraft where
  steps : List Tasks.HttpFlowStep
  resultStepId : Text
  flowEnabled : Bool
  id : Text
  name : Text
  description : Text
  method : HttpRequestMethod
  url : Text
  authUrl : Text
  headers : Text
  body : Text
  successPattern : Text
  failurePattern : Text
  failureAction : HttpFailureAction
  successCheck : HttpSuccessCheck
  cryptoScript : Text
  preRequestMethod : HttpRequestMethod
  preRequestUrl : Text
  preRequestHeaders : Text
  preRequestBody : Text
  preRequestExtract : Text
  preRequestName : Text
  logoutMethod : HttpRequestMethod
  logoutUrl : Text
  logoutHeaders : Text
  logoutBody : Text
  logoutWaitSecs : Rat
  ignoreHttpsErrors : Option Bool
  isNew : Bool

/-- What comes behind the last point. -/
def lastPart (text : Text) : Text := (text.splitOn '.').getLast?.getD []

/-- The name of the variable of a single value. -/
def singleName (step : Tasks.HttpFlowStep) : Text :=
  orText (orText step.extractAs (lastPart step.extract)) "value".toList

/-- The rule for a single value. -/
def singleRule (step : Tasks.HttpFlowStep) : List HttpExtractRule :=
  if (trim step.extract).isEmpty then [] else [⟨step.extract, singleName step⟩]

/-- A step of a flow, whose values are all read by rules. -/
def draftStep (step : Tasks.HttpFlowStep) : Tasks.HttpFlowStep :=
  { step with
    extracts := if step.extracts.isEmpty then singleRule step else step.extracts
    extract := []
    extractAs := [] }

def draftLegacyStep (step : Tasks.HttpFlowStep) : Tasks.HttpFlowStep :=
  { step with extracts := singleRule step, extract := [], extractAs := [] }

def lastRequestId (steps : List Tasks.HttpFlowStep) : Text :=
  ((steps.reverse.find? (·.kind == .request)).map (·.id)).getD []

def httpTaskDraftFromConfig (config : HttpTaskConfig) : HttpTaskDraft :=
  let steps := config.steps.getD []
  { steps := if steps.isEmpty then (legacyHttpSteps config).map draftLegacyStep
      else steps.map draftStep
    resultStepId := orText (config.resultStepId.getD [])
      (if steps.isEmpty then "login".toList else lastRequestId steps)
    flowEnabled := !steps.isEmpty || 1 < config.schemaVersion.getD 1
    id := config.taskId
    name := orText config.name httpTaskDefaultName
    description := config.description
    method := config.method
    url := config.url
    authUrl := config.authUrl
    headers := config.headers
    body := config.body
    successPattern := config.successPattern
    failurePattern := config.failurePattern
    failureAction := config.failureAction.getD .credential
    successCheck := config.successCheck.getD .response
    cryptoScript := config.cryptoScript
    preRequestMethod := (config.preRequest.map (·.method)).getD .get
    preRequestUrl := (config.preRequest.map (·.url)).getD []
    preRequestHeaders := (config.preRequest.map (·.headers)).getD []
    preRequestBody := (config.preRequest.map (·.body)).getD []
    preRequestExtract := (config.preRequest.map (·.extract)).getD []
    preRequestName := (config.preRequest.map (·.name)).getD []
    logoutMethod := (config.logoutRequest.map (·.method)).getD .get
    logoutUrl := (config.logoutRequest.map (·.url)).getD []
    logoutHeaders := (config.logoutRequest.map (·.headers)).getD []
    logoutBody := (config.logoutRequest.map (·.body)).getD []
    logoutWaitSecs := ((config.logoutRequest.map (·.waitSecs)).filter (0 < ·)).getD 0
    ignoreHttpsErrors := config.ignoreHttpsErrors
    isNew := false }

/-! ## What is sent -/

def payloadStep (step : Tasks.HttpFlowStep) : Tasks.HttpFlowStep :=
  { step with
    url := trim step.url
    extract := []
    extractAs := []
    extracts := step.extracts.map fun rule => ⟨trim rule.source, trim rule.name⟩ }

/-- The old request fields are left blank in a flow. -/
def httpTaskPayload (draft : HttpTaskDraft) : HttpTaskConfig :=
  if draft.flowEnabled then
    { schemaVersion := some 2
      taskId := draft.id
      name := orText (trim draft.name) httpTaskDefaultName
      description := trim draft.description
      steps := some (draft.steps.map payloadStep)
      resultStepId := some draft.resultStepId
      method := .get
      url := []
      authUrl := trim draft.authUrl
      headers := []
      body := []
      successPattern := draft.successPattern
      failurePattern := draft.failurePattern
      failureAction := some draft.failureAction
      successCheck := some draft.successCheck
      cryptoScript := []
      preRequest := none
      logoutRequest := none
      ignoreHttpsErrors := draft.ignoreHttpsErrors }
  else
    { taskId := draft.id
      name := orText (trim draft.name) httpTaskDefaultName
      description := trim draft.description
      method := draft.method
      url := trim draft.url
      authUrl := trim draft.authUrl
      headers := draft.headers
      body := draft.body
      successPattern := draft.successPattern
      failurePattern := draft.failurePattern
      failureAction := some draft.failureAction
      successCheck := some draft.successCheck
      cryptoScript := draft.cryptoScript
      preRequest := if (trim draft.preRequestUrl).isEmpty then none else some {
        method := draft.preRequestMethod
        url := trim draft.preRequestUrl
        headers := draft.preRequestHeaders
        body := draft.preRequestBody
        extract := trim draft.preRequestExtract
        name := trim draft.preRequestName }
      logoutRequest := if (trim draft.logoutUrl).isEmpty then none else some {
        method := draft.logoutMethod
        url := trim draft.logoutUrl
        headers := draft.logoutHeaders
        body := draft.logoutBody
        waitSecs := if 0 < draft.logoutWaitSecs then draft.logoutWaitSecs else 0 }
      ignoreHttpsErrors := draft.ignoreHttpsErrors }

/-! ## What is missing -/

def gap (missing : Bool) (message : Text) : List Text := if missing then [message] else []

/-- A rule is called by its number, from 1. -/
def ruleGaps (label : Text) : Nat → List Text → List HttpExtractRule → List Text
  | _, _, [] => []
  | index, names, rule :: rules =>
    let place := label ++ " 第 ".toList ++ printNat (index + 1)
    gap (!matchesSource (trim rule.source)) (place ++ " 条取值来源".toList) ++
    gap (!matchesName ['_'] (trim rule.name) || names.contains (trim rule.name))
      (place ++ " 条变量名（需唯一）".toList) ++
    ruleGaps label (index + 1) (trim rule.name :: names) rules

def requestGaps (label : Text) (step : Tasks.HttpFlowStep) : List Text :=
  (if (trim step.url).isEmpty || trim step.url == httpTaskPlaceholderUrl then
      [label ++ " 请求地址".toList]
    else gap (!hasHttpHost step.url)
      (label ++ " 请求地址（需为带主机名的 http/https URL）".toList)) ++
  gap (12 < step.extracts.length) (label ++ " 取值规则（最多 12 条）".toList) ++
  ruleGaps label 0 [] step.extracts ++
  gap (step.waitSecs < 0 || 30 < step.waitSecs) (label ++ " 等待秒数（0～30）".toList)

def stepGaps (label : Text) (step : Tasks.HttpFlowStep) : List Text :=
  match step.kind with
  | .request => requestGaps label step
  | .transform => gap (trim step.script).isEmpty (label ++ " 计算脚本".toList)

/-- The gaps of the steps, from the number of the first. -/
def stepsGaps : Nat → List Text → List Tasks.HttpFlowStep → List Text
  | _, _, [] => []
  | index, ids, step :: steps =>
    let label := "步骤 ".toList ++ printNat (index + 1)
    gap (!matchesId step.id || ids.contains step.id) (label ++ " ID（需唯一）".toList) ++
    stepGaps label step ++ stepsGaps (index + 1) (step.id :: ids) steps

def flowGaps (draft : HttpTaskDraft) : List Text :=
  gap (draft.steps.isEmpty || 16 < draft.steps.length) "请求步骤（1～16 个）".toList ++
  stepsGaps 0 [] draft.steps ++
  match draft.steps.find? fun step => step.kind == .request && step.id == draft.resultStepId with
  | none => ["结果判断引用的请求步骤".toList]
  | some step => gap (step.onError == .continue) "结果来源步骤不能忽略失败".toList

def preRequestGaps (draft : HttpTaskDraft) : List Text :=
  let extract := trim draft.preRequestExtract
  if (trim draft.preRequestUrl).isEmpty then
    gap (!extract.isEmpty) "前置请求的请求地址（填了取值方式就必须有地址）".toList
  else
    gap (!hasHttpHost draft.preRequestUrl)
      "前置请求地址（需为带主机名的 http/https URL）".toList ++
    if extract.isEmpty then ["前置请求的取值方式（如 json:csrf_token）".toList]
    else gap (!"json:".toList.isPrefixOf extract)
      "前置请求的取值方式需以 json: 开头（如 json:data.token）".toList

def logoutGaps (draft : HttpTaskDraft) : List Text :=
  if (trim draft.logoutUrl).isEmpty then []
  else
    gap (!hasHttpHost draft.logoutUrl)
      "退出登录地址（需为带主机名的 http/https URL）".toList ++
    gap (draft.logoutWaitSecs < 0 || 30 < draft.logoutWaitSecs)
      "退出登录的等待秒数（0~30）".toList

def httpTaskDraftGaps (draft : HttpTaskDraft) : List Text :=
  gap (draft.isNew && !matchesId (trim draft.id))
    "任务 ID（1~64 位字母、数字、下划线或连字符）".toList ++
  gap (!(trim draft.authUrl).isEmpty && !hasHttpHost draft.authUrl)
    "认证页面地址（需为带主机名的 http/https URL）".toList ++
  if draft.flowEnabled then flowGaps draft
  else
    (if (trim draft.url).isEmpty || trim draft.url == httpTaskPlaceholderUrl then
        ["请求地址".toList]
      else gap (!hasHttpHost draft.url) "请求地址（需为带主机名的 http/https URL）".toList) ++
    preRequestGaps draft ++ logoutGaps draft

end CampusAuth.Frontend.HttpTask
