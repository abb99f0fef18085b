import Mathlib.Data.List.Infix
import CampusAuth.Lib.Prog
import CampusAuth.Lib.Slices

/- The Python environment on disk, and what its programs ask of it (`environment/mod.rs`,
   `environment/health.rs`, `environment/uv.rs`, `environment/python.rs`).

   `Env` holds the files, the install token, the status record and a log of what happened, the
   newest entry first. `Answers` says what each question can be answered and what it changes: a
   uv command may change the project files and the packages whatever it returns, and the token
   can be cancelled before and after every answer. Paths are given from the base directory. -/
namespace CampusAuth.Environment
open Lib

/-! ## Errors -/

inductive EnvironmentError
  | unsupportedPlatform
  | bootstrapFailedShared (message : String)
  | bootstrapInvariant (message : String)
  | uvExtractFailed (source : String)
  | uvSyncFailed (exitCode : Option Int) (stderr : String)
  | uvSyncTimeout (timeoutSecs : Nat)
  | uvPackageAlterFailed (op : String) (exitCode : Option Int) (stderr : String)
  | venvCorrupted
  | venvRebuildFailed (path source : String)
  | workerProjectNotFound (path : String)
  | workerRuntimeInvalid (reason : String)
  | stateIo (path source : String)
  | stateDataInvalid (path reason : String)
  | cancelled
  /-- An error of the downloads of uv or of a browser, by its text. -/
  | download (text : String)
  deriving DecidableEq, Repr

/-- The debug form of an exit code. -/
def showExitCode : Option Int → String
  | none => "None"
  | some code => "Some(" ++ toString code ++ ")"

def EnvironmentError.text : EnvironmentError → String
  | .unsupportedPlatform =>
    "OpenWrt 版不支持自动安装 Python、浏览器或 OCR；脚本请显式选择设备上的解释器"
  | .bootstrapFailedShared message => "环境引导失败（复用并发前一轮结果）: " ++ message
  | .bootstrapInvariant message => "环境引导状态不一致: " ++ message
  | .uvExtractFailed source =>
    "uv 解压失败: " ++ source ++ "；可能原因：磁盘空间不足、安全软件拦截写入或目录被占用"
  | .uvSyncFailed code stderr =>
    "uv sync 失败 (exit code=" ++ showExitCode code ++ "): " ++ stderr ++
      "；可能原因：依赖源不可达/被限速或依赖冲突，详见 stderr 末尾"
  | .uvSyncTimeout secs =>
    "uv sync 超时 (>" ++ toString secs ++ "s)；可能原因：网络过慢或依赖源响应缓慢，可重试"
  | .uvPackageAlterFailed op code stderr =>
    "uv " ++ op ++ " 失败 (exit code=" ++ showExitCode code ++ "): " ++ stderr ++
      "；可能原因：依赖源不可达/被限速或依赖冲突，详见 stderr 末尾"
  | .venvCorrupted =>
    ".venv 损坏，需要重建；可能原因：上次安装被中断或安全软件改动过环境，可重新初始化"
  | .venvRebuildFailed path source => "无法安全重建虚拟环境 " ++ path ++ ": " ++ source
  | .workerProjectNotFound path =>
    "python_worker/ 目录不存在: " ++ path ++ "；可能原因：安装包解压不完整或程序目录被移动"
  | .workerRuntimeInvalid reason => "Python Worker 运行时不可用: " ++ reason
  | .stateIo path source => "环境状态文件读写失败 " ++ path ++ ": " ++ source
  | .stateDataInvalid path reason => "环境状态文件无效 " ++ path ++ ": " ++ reason
  | .cancelled => "安装被取消"
  | .download text => text

/-- The end of a text, with a note of what was cut off. -/
def tailChars (s : String) (maxChars : Nat) : String :=
  let total := s.toList.length
  if total ≤ maxChars then s
  else
    let skipped := total - maxChars
    "…（前 " ++ toString skipped ++ " 字符已截断）" ++ String.ofList (s.toList.drop skipped)

/-! ## State -/

inductive BootstrapStage
  | idle | checking | downloadingUv | syncingVenv | verifyingWorker | applyingOcr
  | installingPlaywright | done | error
  deriving DecidableEq, Repr

structure EnvironmentStatus where
  uvReady : Bool
  pythonReady : Bool
  workerReady : Bool
  manifestCurrent : Bool
  playwrightReady : Bool
  systemBrowserReady : Bool
  ocrEnabled : Bool
  ocrReady : Bool
  capabilityReady : Bool
  stage : BootstrapStage
  lastError : Option String
  deriving DecidableEq, Repr

/-- A file: a text, or bytes that are none. -/
inductive Content
  | text (t : Text)
  | raw (bs : List UInt8)
  deriving DecidableEq, Repr

def Content.bytes : Content → List UInt8
  | .text t => Lib.bytes t
  | .raw bs => bs

/-- `python-runtime-state.json`. -/
inductive StateFile
  | invalid
  | state (schemaVersion : Nat) (fingerprint workerVersion : Text)
  deriving DecidableEq, Repr

/-- `python-preferences.json`. -/
inductive PreferencesFile
  | invalid (reason : String)
  | preferences (schemaVersion : Nat) (ocrEnabled : Bool)
  deriving DecidableEq, Repr

inductive UvCommand
  | sync
  | add
  | remove
  | removeOptional
  deriving DecidableEq, Repr

/-- What came of a command: its exit, or why it was given up. -/
inductive CommandResult
  | success
  | failed (exitCode : Option Int) (stderr : String)
  | timeout
  | io (error : String)
  | cancelled
  deriving DecidableEq, Repr

inductive Event
  | uv (command : UvCommand) (result : CommandResult)
  | probe (ready : Bool)
  | record
  | unmark
  | stage (stage : BootstrapStage)
  | look
  | cancel
  deriving DecidableEq, Repr

structure Env where
  pyproject : Option Content
  lock : Option Content
  runtimeState : Option StateFile
  resyncMarker : Bool
  preferences : Option PreferencesFile
  ocrMarker : Bool
  ocrInstalled : Bool
  cancelled : Bool
  status : EnvironmentStatus
  log : List Event
  deriving DecidableEq, Repr

def Env.logged (s : Env) (e : Event) : Env := { s with log := e :: s.log }

/-- The import of the Worker in the Python of the environment. -/
structure WorkerRuntimeProbe where
  ready : Bool
  version : Option String
  error : Option String
  deriving DecidableEq, Repr

/-- The project files before a command that alters them. -/
structure ProjectFilesBackup where
  pyproject : Option Content
  lock : Option Content
  deriving DecidableEq, Repr

inductive Manifest
  | pyproject
  | lock
  deriving DecidableEq, Repr

def Env.manifest (s : Env) : Manifest → Option Content
  | .pyproject => s.pyproject
  | .lock => s.lock

/-! ## Questions -/

inductive Ask
  | cancelled
  | beginInstall
  | uvReady
  | downloadUv
  | pythonWorks
  | venvExists
  | quarantineVenv
  | restoreVenv
  | dropQuarantine
  | projectExists
  | createEnvDir
  | uv (command : UvCommand)
  | backup
  | restore (backup : ProjectFilesBackup)
  | resyncMarker
  | removeResyncMarker
  | manifest (file : Manifest)
  | runtimeState
  | recordRuntimeState (state : StateFile)
  | probe
  | preferences
  | savePreferences (file : PreferencesFile)
  | ocrMarker
  | removeOcrMarker
  | ocrInstalled
  | status
  | stage (stage : BootstrapStage)
  | write (update : EnvironmentStatus → EnvironmentStatus)
  | managedBrowser
  | systemBrowser
  | installPlaywright
  | bootstrapDone

/-- `Except String` answers give the text of an input or output error. -/
def Ask.Answer : Ask → Type
  | .cancelled | .uvReady | .pythonWorks | .venvExists | .projectExists | .resyncMarker
  | .ocrMarker | .ocrInstalled | .managedBrowser | .systemBrowser => Bool
  | .beginInstall | .restoreVenv | .dropQuarantine | .restore _ | .removeResyncMarker
  | .removeOcrMarker | .stage _ | .write _ | .bootstrapDone => Unit
  | .downloadUv | .installPlaywright => Except EnvironmentError Unit
  | .quarantineVenv | .createEnvDir | .recordRuntimeState _ | .savePreferences _ =>
    Except String Unit
  | .uv _ => CommandResult
  | .backup => Except String ProjectFilesBackup
  | .manifest _ => Except String Content
  | .runtimeState => Except String (Option StateFile)
  | .probe => WorkerRuntimeProbe
  | .preferences => Except String (Option PreferencesFile)
  | .status => EnvironmentStatus

/-- The answers a question can have, the token left as it is. A file that is not there is no
    error where the code asks for the kind of the error. -/
def Answers (s : Env) : (q : Ask) → q.Answer → Env → Prop
  | .cancelled, a, t => a = s.cancelled ∧ t = s.logged .look
  | .beginInstall, _, t => t = { s with cancelled := false }
  | .quarantineVenv, a, t =>
    match a with
    | .ok () => t = { s with ocrInstalled := false }
    | .error _ => t = s
  | .restoreVenv, _, t => ∃ installed, t = { s with ocrInstalled := installed }
  | .uv command, a, t =>
    (a = .cancelled ↔ s.cancelled = true) ∧ ∃ pyproject lock installed,
      t = { s with pyproject := pyproject, lock := lock, ocrInstalled := installed,
                   log := .uv command a :: s.log }
  | .backup, a, t => (∀ b, a = .ok b → b = ⟨s.pyproject, s.lock⟩) ∧ t = s
  | .restore _, _, t => ∃ pyproject lock, t = { s with pyproject := pyproject, lock := lock }
  | .resyncMarker, a, t => a = s.resyncMarker ∧ t = s
  | .removeResyncMarker, _, t =>
    t = s ∨ s.resyncMarker = true ∧ t = { s with resyncMarker := false, log := .unmark :: s.log }
  | .manifest file, a, t => (∀ c, a = .ok c → s.manifest file = some c) ∧ t = s
  | .runtimeState, a, t => (∀ c, a = .ok c → s.runtimeState = c) ∧ t = s
  | .recordRuntimeState state, a, t =>
    match a with
    | .ok () => t = { s with runtimeState := some state, log := .record :: s.log }
    | .error _ => t = s
  | .probe, a, t => t = s.logged (.probe a.ready)
  | .preferences, a, t => (∀ c, a = .ok c → s.preferences = c) ∧ t = s
  | .savePreferences file, a, t =>
    match a with
    | .ok () => t = { s with preferences := some file }
    | .error _ => t = s
  | .ocrMarker, a, t => a = s.ocrMarker ∧ t = s
  | .removeOcrMarker, _, t => t = s ∨ t = { s with ocrMarker := false }
  | .ocrInstalled, a, t => a = s.ocrInstalled ∧ t = s
  | .status, a, t => a = s.status ∧ t = s
  | .stage stage, _, t =>
    t = { s with status := { s.status with stage := stage }, log := .stage stage :: s.log }
  | .write update, _, t => t = { s with status := update s.status }
  | _, _, t => t = s

/-- Nothing, or the token is cancelled. -/
def MayCancel (s t : Env) : Prop :=
  t = s ∨ s.cancelled = false ∧ t = { s with cancelled := true, log := .cancel :: s.log }

/-- The token can be cancelled at any time. -/
def world : Prog.World Env Ask Ask.Answer := fun s q a t =>
  ∃ s' t', MayCancel s s' ∧ Answers s' q a t' ∧ MayCancel t' t

end CampusAuth.Environment
