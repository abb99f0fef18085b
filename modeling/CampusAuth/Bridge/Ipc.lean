import CampusAuth.Lib.Json

/- What the Python worker answers and how a call to it can fail (`bridge/ipc.rs`,
   `bridge/mod.rs`). -/
namespace CampusAuth.Bridge
open Lib

/-- How an attempt ended. -/
inductive Outcome where
  | success | cancelled | navigationTimeout | selectorFailed | assertionFailed | captchaFailed
  | invalidCredential | manualRequired | networkError | unknownError
  deriving DecidableEq, Repr

structure StructuredResult where
  outcome : Outcome
  message : String
  data : Json := .null

/-- The `result` of an answer; `data` is what deserialising it gave. -/
structure IpcResult where
  success : Bool
  error : Option String
  data : Except String StructuredResult

inductive BridgeError where
  | networkEgress (reason : String)
  | workerNotInstalled
  | workerStartupTimeout
  | workerCrashed (reason : String)
  | workerBusy
  | ipcWriteError (source : String)
  | ipcReadError (source : String)
  | executionError (message : String)
  | timeout
  | cancelled
  | debugSessionClosed
  | supervisorNotRunning
  | spawnFailed (source : String)
  | internal (message : String)
  | workerSpawnBlocked
  | workerEnvironmentInvalid (reason : String)
  deriving DecidableEq, Repr

def BridgeError.text : BridgeError → String
  | .networkEgress reason => "校园网出口不可用: " ++ reason
  | .workerNotInstalled => "Worker 环境未安装"
  | .workerStartupTimeout => "Worker 启动超时"
  | .workerCrashed reason => "Worker 进程崩溃: " ++ reason
  | .workerBusy => "Worker 忙: 调试会话进行中"
  | .ipcWriteError source => "IPC 写入失败: " ++ source
  | .ipcReadError source => "IPC 读取失败: " ++ source
  | .executionError message => "Worker 执行错误: " ++ message
  | .timeout => "请求超时"
  | .cancelled => "请求已取消"
  | .debugSessionClosed => "调试会话已关闭"
  | .supervisorNotRunning => "Bridge Supervisor 未运行"
  | .spawnFailed source => "Worker 进程启动失败: " ++ source
  | .internal message => "Bridge 内部错误: " ++ message
  | .workerSpawnBlocked => "Worker 环境异常，请重新引导"
  | .workerEnvironmentInvalid reason => "Worker 环境验证失败: " ++ reason

end CampusAuth.Bridge
