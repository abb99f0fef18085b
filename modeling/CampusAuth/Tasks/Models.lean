import Mathlib.Data.Rat.Defs
import CampusAuth.Lib.Serde
import CampusAuth.Login.HttpTask

/- The documents of direct login tasks (`tasks/models.rs`): what a document is read as, and the
   checks that saving a task and logging in with it share. -/
namespace CampusAuth.Tasks
open Lib Login

def maxHttpScriptBytes : Nat := 128 * 1024

def maxHttpUrlBytes : Nat := 8 * 1024

def maxHttpHeadersBytes : Nat := 64 * 1024

def maxHttpBodyBytes : Nat := 256 * 1024

/-- What the checks take from the libraries around them. -/
structure Outside where
  /-- The double a number of a document stands for; a document has no other. -/
  float : String → Rat
  printFloat : Rat → Text
  /-- The scheme and the host of a URL, or why it is none. -/
  parseUrl : Text → Except Text (Text × Option Text)
  /-- The groups of a regular expression, the whole match being the first. -/
  captures : Text → Except Text Nat
  /-- Why a document is not read as a type. -/
  typeError : String → Json → Text

def printNat (n : Nat) : Text := (toString n).toList

/-! ## Addresses -/

/-- The text before and after the first `pattern`. -/
def splitAt (pattern : Text) : Text → Option (Text × Text)
  | [] => none
  | c :: cs =>
    match (c :: cs).dropPrefix? pattern with
    | some rest => some ([], rest)
    | none => (splitAt pattern cs).map fun parts => (c :: parts.1, parts.2)

/-- The scheme and the host, as they are cut without a parser of URLs. -/
def cutUrl (url : Text) : Text × Text :=
  let parts := (splitAt "://".toList url).getD ([], [])
  (parts.1, parts.2.takeWhile fun c => !(c == '/' || c == '?' || c == '#'))

def isHttpScheme (scheme : Text) : Bool :=
  let lower := scheme.map Char.toLower
  lower == "http".toList || lower == "https".toList

/-- The address of a request beside the login request: `what` names the request. -/
def checkAddress (what missing : String) (url : Text) : Except Text Unit := do
  let url := strip url
  if url.isEmpty then .error missing.toList
  let (scheme, host) := cutUrl url
  if !isHttpScheme scheme then .error (what ++ "的地址仅支持 http/https").toList
  if host.isEmpty then .error (what ++ "的地址缺少主机名").toList

/-- The texts of a task and their bounds; the first that is too long is the error. -/
def checkSizes (message : String → Nat → Text) : List (String × Text × Nat) → Except Text Unit
  | [] => .ok ()
  | (label, text, limit) :: checks =>
    if byteLen text > limit then .error (message label limit) else checkSizes message checks

def isName (extra : List Char) (limit : Nat) (name : Text) : Bool :=
  !name.isEmpty && byteLen name ≤ limit && name.all fun c => c.isAlphanum || extra.contains c

end CampusAuth.Tasks

namespace CampusAuth.Login
open Lib Tasks

/-- The shape of a request whose answer has a value for the login. -/
def HttpPreRequest.validate (pre : HttpPreRequest) : Except Text Unit := do
  checkAddress "前置请求" "前置请求缺少请求地址（不需要前置请求就把整块留空）" pre.url
  let _ ← pre.extractPath

/-- Where a value of a response is, and what it is called. -/
def HttpExtractRule.validate (o : Outside) (rule : HttpExtractRule) : Except Text Unit := do
  let source := strip rule.source
  if byteLen source > 1024 then .error "取值规则超过 1024 字节".toList
  match splitOnce ':' source with
  | none =>
    .error "取值来源需写成 json:、header:、url:、redirect:、html: 或 regex: 开头".toList
  | some (kind, arg) =>
    if (strip arg).isEmpty then .error "取值来源缺少字段或表达式".toList
    if kind == "regex".toList then
      match o.captures arg with
      | .error e => .error ("取值正则无效: ".toList ++ e)
      | .ok groups => if groups < 2 then .error "取值正则必须包含一个捕获组".toList
    else if !(["json", "header", "url", "redirect", "html"].any (kind == ·.toList)) then
      .error "不支持的取值来源".toList
    if !isName ['_'] 64 rule.name then .error "变量名需为 1～64 位字母、数字或下划线".toList

end CampusAuth.Login

namespace CampusAuth.Tasks
open Lib Login

/-! ## Requests beside the login request -/

structure HttpActionRequest where
  method : HttpRequestMethod := .get
  url : Text := []
  headers : Text := []
  body : Text := []
  waitSecs : Rat := 0

/-- The shape of the request that logs out. -/
def HttpActionRequest.validate (o : Outside) (logout : HttpActionRequest) : Except Text Unit := do
  checkAddress "退出登录请求" "退出登录请求缺少请求地址（不需要就把整块留空）" logout.url
  if logout.waitSecs < 0 then .error "退出登录请求的等待秒数需 ≥ 0".toList
  if logout.waitSecs > 30 then
    .error ("退出登录请求的等待秒数最大 30（当前 ".toList ++ o.printFloat logout.waitSecs ++ "）".toList)

/-! ## The steps of a flow -/

/-- The rules of a step, whose names are distinct. -/
def validateRules (o : Outside) (names : List Text) : List HttpExtractRule → Except Text Unit
  | [] => .ok ()
  | rule :: rules => do
    rule.validate o
    if names.contains rule.name then
      .error ("变量名 `".toList ++ rule.name ++ "` 重复".toList)
    validateRules o (rule.name :: names) rules

/-- A step with all that its checks read. -/
structure HttpFlowStep extends Login.HttpFlowStep where
  stopOnRedirect : Bool := false
  script : Text := []
  waitSecs : Rat := 0

namespace HttpFlowStep

def validateRequest (o : Outside) (step : HttpFlowStep) : Except Text Unit := do
  if !(strip step.script).isEmpty then .error "请求步骤不能包含计算脚本".toList
  let (scheme, host) := cutUrl (strip step.url)
  if !isHttpScheme scheme || host.isEmpty then
    .error "请求步骤地址需为带主机名的 http/https URL".toList
  checkSizes (fun label limit => label.toList ++ "超过 ".toList ++ printNat limit ++ " 字节".toList)
    [("请求地址", step.url, 8 * 1024), ("请求头", step.headers, 64 * 1024),
     ("请求体", step.body, 256 * 1024), ("取值方式", step.extract, 8 * 1024),
     ("占位符名", step.extractAs, 128)]
  if step.extracts.length > 12 then .error "每个请求步骤最多提取 12 个变量".toList
  validateRules o [] step.extracts
  if !step.extracts.isEmpty && !(strip step.extract).isEmpty then
    .error "多字段取值与旧单字段取值不能同时使用".toList
  if !(strip step.extract).isEmpty then
    let _ ← HttpPreRequest.extractPath { extract := step.extract }
  else if !(strip step.extractAs).isEmpty then
    .error "填写占位符名时还需填写取值方式".toList
  if !(strip step.extractAs).isEmpty &&
      !step.extractAs.all (fun c => c.isAlphanum || c == '_') then
    .error "占位符名仅支持字母、数字与下划线".toList
  if step.waitSecs < 0 || step.waitSecs > 30 then
    .error "步骤等待秒数需在 0～30 之间".toList

def validateTransform (step : HttpFlowStep) : Except Text Unit := do
  if !(strip step.url).isEmpty || !(strip step.headers).isEmpty || !(strip step.body).isEmpty ||
      !(strip step.extract).isEmpty || !(strip step.extractAs).isEmpty ||
      !step.extracts.isEmpty || step.stopOnRedirect || step.onError != .stop ||
      step.waitSecs != 0 then
    .error "计算步骤只接受脚本内容，请把请求参数放入请求步骤".toList
  if (strip step.script).isEmpty then .error "计算步骤缺少脚本内容".toList
  if byteLen step.script > 128 * 1024 then .error "计算步骤脚本超过 131072 字节".toList

def validate (o : Outside) (step : HttpFlowStep) : Except Text Unit := do
  if !isName ['_', '-'] 64 step.id then
    .error "步骤 ID 需为 1～64 位字母、数字、下划线或连字符".toList
  if byteLen step.name > 128 then .error "步骤名称超过 128 字节".toList
  match step.kind with
  | .request => step.validateRequest o
  | .transform => step.validateTransform

end HttpFlowStep

/-! ## Tasks -/

structure CommonFields where
  taskId : Text := []
  name : Text := "未命名任务".toList
  description : Text := []

structure HttpTaskConfig where
  common : CommonFields := {}
  schemaVersion : Nat := 1
  steps : List HttpFlowStep := []
  resultStepId : Text := []
  method : HttpRequestMethod := .get
  url : Text := []
  authUrl : Text := []
  headers : Text := []
  body : Text := []
  successPattern : Text := []
  failurePattern : Text := []
  failureAction : HttpFailureAction := .credential
  successCheck : HttpSuccessCheck := .response
  cryptoScript : Text := []
  preRequest : Option HttpPreRequest := none
  logoutRequest : Option HttpActionRequest := none
  ignoreHttpsErrors : Option Bool := none

namespace HttpTaskConfig

/-- The steps in order, from the number of the first: the last request among them. -/
def validateSteps (o : Outside) (index : Nat) (ids : List Text) (lastRequest : Option Text) :
    List HttpFlowStep → Except Text (Option Text)
  | [] => .ok lastRequest
  | step :: steps => do
    match step.validate o with
    | .error e => .error ("步骤 ".toList ++ printNat (index + 1) ++ "：".toList ++ e)
    | .ok () => pure ()
    if ids.contains step.id then .error ("步骤 ID 重复：".toList ++ step.id)
    validateSteps o (index + 1) (step.id :: ids)
      (if step.kind = .request then some step.id else lastRequest) steps

def validateFlow (o : Outside) (task : HttpTaskConfig) : Except Text Unit := do
  if task.steps.isEmpty then
    if task.schemaVersion != 1 then
      .error "HTTP 流程版本无效，旧任务使用 1，新流程需使用 2 且至少有一个步骤".toList
    return
  if task.schemaVersion != 2 then .error "HTTP 步骤任务的 schema_version 必须为 2".toList
  if task.steps.length > 16 then .error "HTTP 登录流程最多支持 16 个步骤".toList
  let lastRequest ← validateSteps o 0 [] none task.steps
  let selected ←
    if task.resultStepId.isEmpty then
      match lastRequest with
      | some id => pure id
      | none => .error "HTTP 登录流程至少需要一个请求步骤".toList
    else pure task.resultStepId
  if !task.steps.any (fun step => step.id == selected && step.kind == .request) then
    .error "结果判断必须引用一个现有的请求步骤".toList
  if task.steps.any (fun step => step.id == selected && step.onError == .continue) then
    .error "结果判断引用的请求步骤不能忽略失败".toList

end HttpTaskConfig

/-! ## Reading a document -/

open Json

def readMethod : Json → Option HttpRequestMethod := readEnum [("GET", .get), ("POST", .post)]

def readPreRequest (j : Json) : Option HttpPreRequest := do
  let m ← j.fields ["method", "url", "headers", "body", "extract", "name"]
  return {
    method := ← field readMethod .get m "method"
    url := ← field readText [] m "url"
    headers := ← field readText [] m "headers"
    body := ← field readText [] m "body"
    extract := ← field readText [] m "extract"
    name := ← field readText [] m "name" }

def readActionRequest (o : Outside) (j : Json) : Option HttpActionRequest := do
  let m ← j.fields ["method", "url", "headers", "body", "wait_secs"]
  return {
    method := ← field readMethod .get m "method"
    url := ← field readText [] m "url"
    headers := ← field readText [] m "headers"
    body := ← field readText [] m "body"
    waitSecs := ← field (readNumber o.float) 0 m "wait_secs" }

def readRule (j : Json) : Option HttpExtractRule := do
  let m ← j.fields ["source", "name"]
  return {
    source := ← field readText [] m "source"
    name := ← field readText [] m "name" }

def readStep (o : Outside) (j : Json) : Option HttpFlowStep := do
  let m ← j.fields ["id", "name", "kind", "method", "url", "headers", "body", "extract",
    "extract_as", "extracts", "stop_on_redirect", "script", "on_error", "wait_secs"]
  return {
    id := ← field readText [] m "id"
    name := ← field readText [] m "name"
    kind := ← field (readEnum [("request", .request), ("transform", .transform)]) .request m "kind"
    method := ← field readMethod .get m "method"
    url := ← field readText [] m "url"
    headers := ← field readText [] m "headers"
    body := ← field readText [] m "body"
    extract := ← field readText [] m "extract"
    extractAs := ← field readText [] m "extract_as"
    extracts := ← field (readVec readRule) [] m "extracts"
    stopOnRedirect := ← field asBool false m "stop_on_redirect"
    script := ← field readText [] m "script"
    onError := ← field (readEnum [("stop", .stop), ("continue", .continue)]) .stop m "on_error"
    waitSecs := ← field (readNumber o.float) 0 m "wait_secs" }

def readCommon (m : List (String × Json)) : Option CommonFields := do
  return {
    taskId := ← field readText [] m "task_id"
    name := ← field readText "未命名任务".toList m "name"
    description := ← field readText [] m "description" }

/-- A task is read from an object only: its common fields are members of its own. -/
def HttpTaskConfig.read (o : Outside) : Json → Option HttpTaskConfig
  | .obj m => do
    return {
      common := ← readCommon m
      schemaVersion := ← field readU32 1 m "schema_version"
      steps := ← field (readVec (readStep o)) [] m "steps"
      resultStepId := ← field readText [] m "result_step_id"
      method := ← field readMethod .get m "method"
      url := ← field readText [] m "url"
      authUrl := ← field readText [] m "auth_url"
      headers := ← field readText [] m "headers"
      body := ← field readText [] m "body"
      successPattern := ← field readText [] m "success_pattern"
      failurePattern := ← field readText [] m "failure_pattern"
      failureAction := ← field (readEnum [("credential", .credential), ("retry", .retry),
        ("manual", .manual)]) .credential m "failure_action"
      successCheck := ← field (readEnum [("response", .response), ("network", .network)])
        .response m "success_check"
      cryptoScript := ← field readText [] m "crypto_script"
      preRequest := ← field (readOption readPreRequest) none m "pre_request"
      logoutRequest := ← field (readOption (readActionRequest o)) none m "logout_request"
      ignoreHttpsErrors := ← field (readOption asBool) none m "ignore_https_errors" }
  | _ => none

/-- The task a document of the type `http` is loaded as (`TaskKind`). -/
def loadHttpTask (o : Outside) (config : Json) : Option HttpTaskConfig :=
  if (config.get "type").bind asStr = some "http" then HttpTaskConfig.read o config else none

end CampusAuth.Tasks
