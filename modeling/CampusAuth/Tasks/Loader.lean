import CampusAuth.Tasks.Models

/- The check of a document that is to be saved as a direct login task (`tasks/loader.rs`, the
   `http` arm of `validate_task`). All errors are collected; a document without one is
   accepted. -/
namespace CampusAuth.Tasks
open Lib Login

def report (wrong : Bool) (message : Text) : List Text := if wrong then [message] else []

/-- What a check that stops at its first error reports. -/
def reportResult : Except Text Unit → List Text
  | .ok () => []
  | .error e => [e]

/-- A text of a document, or nothing. -/
def member (config : Json) (name : String) : Text := (config.text name).toList

/-- Every text that is too long is reported. -/
def sizeErrors (checks : List (String × Text × Nat)) : List Text :=
  checks.flatMap fun (field, text, limit) =>
    report (byteLen text > limit) (field.toList ++ " 超过 ".toList ++ printNat limit ++
      " 字节上限（当前 ".toList ++ printNat (byteLen text) ++ "）".toList)

/-- The document has steps, or a version that only a task with steps has. -/
def isFlowTask (config : Json) : Bool :=
  (config.get "steps").any (fun steps => !steps.isNull && !steps.asArray.any List.isEmpty) ||
    (config.get "schema_version").any fun version => !version.isNull && version.asU64 != some 1

def flowErrors (o : Outside) (config : Json) : List Text :=
  match HttpTaskConfig.read o config with
  | none => ["HTTP 流程字段类型不正确: ".toList ++ o.typeError "HttpTaskConfig" config]
  | some task =>
    let authUrl := strip task.authUrl
    let (scheme, host) := cutUrl authUrl
    reportResult (task.validateFlow o) ++
    report (!authUrl.isEmpty && (!isHttpScheme scheme || host.isEmpty))
      "HTTP 登录任务的认证地址需为带主机名的 http/https URL".toList ++
    sizeErrors [("auth_url", task.authUrl, maxHttpUrlBytes),
      ("success_pattern", task.successPattern, maxHttpUrlBytes),
      ("failure_pattern", task.failurePattern, maxHttpUrlBytes)]

/-- A request of the document that may be missing. -/
def requestErrors {α : Type*} (o : Outside) (config : Json) (name type : String)
    (read : Json → Option α) (errors : α → List Text) : List Text :=
  match (config.get name).filter (fun v => !v.isNull) with
  | none => []
  | some raw =>
    match read raw with
    | none => [name.toList ++ " 字段类型不正确: ".toList ++ o.typeError type raw]
    | some request => errors request

def preRequestErrors (pre : HttpPreRequest) : List Text :=
  reportResult pre.validate ++
  sizeErrors [("pre_request.url", pre.url, maxHttpUrlBytes),
    ("pre_request.headers", pre.headers, maxHttpHeadersBytes),
    ("pre_request.body", pre.body, maxHttpBodyBytes)]

def logoutRequestErrors (o : Outside) (logout : HttpActionRequest) : List Text :=
  reportResult (logout.validate o) ++
  sizeErrors [("logout_request.url", logout.url, maxHttpUrlBytes),
    ("logout_request.headers", logout.headers, maxHttpHeadersBytes),
    ("logout_request.body", logout.body, maxHttpBodyBytes)]

def legacyErrors (o : Outside) (config : Json) : List Text :=
  let authUrl := strip (member config "auth_url")
  let (scheme, host) := cutUrl authUrl
  report (strip (member config "url")).isEmpty "直连任务缺少请求地址".toList ++
  report (!authUrl.isEmpty && !isHttpScheme scheme) "直连任务的认证地址仅支持 http/https".toList ++
  report (!authUrl.isEmpty && isHttpScheme scheme && host.isEmpty)
    "直连任务的认证地址缺少主机名".toList ++
  sizeErrors [("crypto_script", member config "crypto_script", maxHttpScriptBytes)] ++
  sizeErrors [("url", member config "url", maxHttpUrlBytes),
    ("headers", member config "headers", maxHttpHeadersBytes),
    ("body", member config "body", maxHttpBodyBytes)] ++
  requestErrors o config "pre_request" "HttpPreRequest" readPreRequest preRequestErrors ++
  requestErrors o config "logout_request" "HttpActionRequest" (readActionRequest o)
    (logoutRequestErrors o)

/-- The task of the browser that is there from the start. -/
def defaultTaskId : Text := "default".toList

/-- The errors of a document of the type `http`. -/
def validateHttpTask (o : Outside) (config : Json) : List Text :=
  report (strip (member config "name")).isEmpty "name 不能为空".toList ++
  report (member config "task_id" == defaultTaskId)
    ("任务 ID「".toList ++ defaultTaskId ++ "」保留给内置浏览器任务，请换一个 ID".toList) ++
  if isFlowTask config then flowErrors o config else legacyErrors o config

end CampusAuth.Tasks
