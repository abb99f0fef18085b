import CampusAuth.Lib.Text
import CampusAuth.Bridge.Ipc
import CampusAuth.Config.Runtime
import CampusAuth.Login.Result

/- One attempt of a login session (`login/session.rs`): its plan, what comes back from
   it and how that is classified. -/
namespace CampusAuth.Login
open Lib Status Bridge Config

/-- What a result calls for. -/
inductive ResultAction where
  | terminal (kind : LoginTerminal)
  | retry
  | exhausted
  deriving DecidableEq, Repr

/-- The result of the network verification after a login. -/
inductive NetworkVerification where
  | online | retryableFailure | cancelled
  deriving DecidableEq, Repr

def classify : Outcome → ResultAction
  | .success => .terminal .success
  | .cancelled => .terminal .cancelled
  | .invalidCredential => .terminal .failed
  | .manualRequired => .terminal .failed
  | .unknownError => .terminal .failed
  | .captchaFailed => .retry
  | .navigationTimeout => .retry
  | .selectorFailed => .retry
  | .assertionFailed => .retry
  | .networkError => .retry

def shouldForceRecycle (outcome : Outcome) : Bool := outcome == .networkError

/-- The page's dialogs as a suffix of the message. -/
def dialogNote (data : Json) : String :=
  let msgs := match (data.get "dialogs").bind Json.asArray with
    | some arr => arr.filterMap Json.asStr
    | none => []
  if msgs.isEmpty then "" else "；页面提示: " ++ " / ".intercalate msgs

/-- The plan of a login, one of the three channels. -/
inductive LoginAttemptPlan where
  /-- The worker's configuration, a JSON object. -/
  | browser (config : List (String × Json))
  | http
  | script

namespace LoginAttemptPlan

def channel : LoginAttemptPlan → LoginChannel
  | .browser _ => .browser
  | .http => .http
  | .script => .script

def usesBridge : LoginAttemptPlan → Bool
  | .browser _ => true
  | .http | .script => false

def hasExplicitSuccessCondition : LoginAttemptPlan → Bool
  | .browser config =>
    match (((Json.obj config).get "task_config").bind (Json.get "success_condition")).bind
        Json.asStr with
    | some s => !isBlank s
    | none => false
  | .http | .script => false

end LoginAttemptPlan

/-- The parameters of a session; times are in milliseconds. -/
structure SessionParams where
  source : LoginSource
  taskId : Option String := none
  maxRetries : UInt32
  retryInterval : Nat
  loginTimeout : Nat
  profileId : String
  plan : LoginAttemptPlan

/-- The call that runs an attempt. -/
inductive AttemptCall where
  | bridge (method : String) (params : List (String × Json))
  | http
  | script

/-- The work of an attempt; `cancelId` names it to the worker. -/
def SessionParams.attemptCall (p : SessionParams) (cancelId : String) : AttemptCall :=
  match p.plan with
  | .http => .http
  | .script => .script
  | .browser workerConfig =>
    let method := match p.source with
      | .browser => "execute_browser_task"
      | _ => "execute_login_attempt"
    let params := setMember workerConfig "cancel_id" (.str cancelId)
    match p.taskId with
    | some tid => .bridge method (setMember params "task_id" (.str tid))
    | none => .bridge method params

def parseIpcResponse (resp : IpcResult) : StructuredResult :=
  if resp.success then
    match resp.data with
    | .ok s => s
    | .error e => { outcome := .unknownError, message := "结果解析失败: " ++ e }
  else { outcome := .unknownError, message := resp.error.getD "Worker 返回失败" }

/-- What the call came back with. -/
inductive WorkResult where
  | bridge (res : Except BridgeError IpcResult)
  | inProcess (res : StructuredResult)

/-- The result of the attempt. The worker crashing, not starting, being busy or having no
    way out counts as a network error; every other bridge error ends the session. -/
def WorkResult.result : WorkResult → Except String StructuredResult
  | .inProcess res => .ok res
  | .bridge (.ok resp) => .ok (parseIpcResponse resp)
  | .bridge (.error e) =>
    match e with
    | .workerCrashed _ | .workerStartupTimeout | .networkEgress _ =>
      .ok { outcome := .networkError, message := "Worker 异常: " ++ e.text }
    | .workerBusy =>
      .ok { outcome := .networkError,
            message := "Worker 忙（被其他任务占用，将重试）: " ++ e.text }
    | _ => .error ("Bridge 执行失败: " ++ e.text)

/-- The wait before the retry number `attempt`. -/
def retryBackoffDelay (base : Nat) (attempt : UInt32) : Nat :=
  max base 1000 * 2 ^ min (attempt.toNat - 1) 8

end CampusAuth.Login
