import CampusAuth.Tasks.Models

/- The request of a direct login (`login/http_login.rs`, `HttpLoginRequest::from_task`): a task
   with the credentials of a profile, checked before anything is sent. -/
namespace CampusAuth.Tasks
open Lib Login

def maxUrlBytes : Nat := 8 * 1024

def maxHeadersBytes : Nat := 64 * 1024

def maxRequestBodyBytes : Nat := 256 * 1024

def maxPatternBytes : Nat := 8 * 1024

def maxScriptBytes : Nat := 128 * 1024

/-- What a profile and its caller bring to a task. -/
structure Credentials where
  username : Text
  password : Text
  isp : Text
  authUrl : Text
  fetchPage : Bool
  globalIgnoreHttpsErrors : Bool
  deriving Inhabited

structure HttpLoginRequest where
  steps : List HttpFlowStep
  resultStepId : Text
  method : HttpRequestMethod
  url : Text
  headers : Text
  body : Text
  successPattern : Text
  failurePattern : Text
  failureAction : HttpFailureAction
  successCheck : HttpSuccessCheck
  cryptoScript : Text
  preRequest : Option HttpPreRequest
  logoutRequest : Option HttpActionRequest
  username : Text
  password : Text
  isp : Text
  authUrl : Text
  localIp : Text
  localMac : Text
  fetchPage : Bool
  ignoreHttpsErrors : Bool

def tooLong (label : String) (limit : Nat) : Text :=
  label.toList ++ "过长（最多 ".toList ++ printNat limit ++ " 字节）".toList

/-- An address that the parser of URLs takes for one of a web server. -/
def validateUrl (o : Outside) (raw : Text) : Except Text Unit :=
  match o.parseUrl (strip raw) with
  | .error e => .error ("直连请求 URL 无法解析: ".toList ++ e)
  | .ok (scheme, host) =>
    if scheme == "http".toList || scheme == "https".toList then
      if host.any (!·.isEmpty) then .ok () else .error "直连请求 URL 缺少主机名".toList
    else .error ("直连请求 URL 仅支持 http/https，当前为 ".toList ++ scheme)

namespace HttpLoginRequest

def validateTemplates (url headers body successPattern failurePattern cryptoScript : Text) :
    Except Text Unit :=
  checkSizes tooLong [("直连请求 URL", url, maxUrlBytes), ("直连请求头", headers, maxHeadersBytes),
    ("直连请求体", body, maxRequestBodyBytes), ("成功关键字", successPattern, maxPatternBytes),
    ("失败关键字", failurePattern, maxPatternBytes), ("加密脚本", cryptoScript, maxScriptBytes)]

def validatePreRequest (pre : HttpPreRequest) : Except Text Unit := do
  pre.validate
  checkSizes tooLong [("前置请求 URL", pre.url, maxUrlBytes),
    ("前置请求头", pre.headers, maxHeadersBytes), ("前置请求体", pre.body, maxRequestBodyBytes),
    ("前置请求取值方式", pre.extract, maxPatternBytes), ("前置请求占位符名", pre.name, maxPatternBytes)]

def validateLogoutRequest (o : Outside) (logout : HttpActionRequest) : Except Text Unit := do
  logout.validate o
  checkSizes tooLong [("退出登录请求 URL", logout.url, maxUrlBytes),
    ("退出登录请求头", logout.headers, maxHeadersBytes),
    ("退出登录请求体", logout.body, maxRequestBodyBytes)]

/-- A request that may be missing. -/
def whenSome {α : Type*} (check : α → Except Text Unit) : Option α → Except Text Unit
  | some request => check request
  | none => .ok ()

def validate (o : Outside) (req : HttpLoginRequest) : Except Text Unit := do
  if req.steps.isEmpty then validateUrl o req.url
  else
    HttpTaskConfig.validateFlow o
      { schemaVersion := 2, steps := req.steps, resultStepId := req.resultStepId }
  validateTemplates req.url req.headers req.body req.successPattern req.failurePattern
    req.cryptoScript
  whenSome validatePreRequest req.preRequest
  whenSome (validateLogoutRequest o) req.logoutRequest

def ofTask (task : HttpTaskConfig) (who : Credentials) : HttpLoginRequest where
  steps := task.steps
  resultStepId := task.resultStepId
  method := task.method
  url := strip task.url
  headers := task.headers
  body := task.body
  successPattern := task.successPattern
  failurePattern := task.failurePattern
  failureAction := task.failureAction
  successCheck := task.successCheck
  cryptoScript := task.cryptoScript
  preRequest := task.preRequest
  logoutRequest := task.logoutRequest
  username := strip who.username
  password := who.password
  isp := strip who.isp
  authUrl := strip who.authUrl
  localIp := []
  localMac := []
  fetchPage := who.fetchPage
  ignoreHttpsErrors := task.ignoreHttpsErrors.getD who.globalIgnoreHttpsErrors

def fromTask (o : Outside) (task : HttpTaskConfig) (who : Credentials) :
    Except Text HttpLoginRequest := do
  task.validateFlow o
  if task.steps.isEmpty && (strip task.url).isEmpty then
    .error "直连任务缺少请求地址，请在「任务 · 直连任务」里填写".toList
  if task.steps.isEmpty then validateUrl o task.url
  let request := ofTask task who
  request.validate o
  return request

end HttpLoginRequest
end CampusAuth.Tasks
