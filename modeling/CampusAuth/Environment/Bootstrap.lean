import CampusAuth.Environment.Runtime

/- The programs that prepare the environment (`environment/bootstrap.rs`,
   `environment/health.rs`, `environment/uv.rs`, `environment/python.rs`).

   Each function of the source is a program over the questions of `Runtime`; a step that fails
   ends it, and `attempt` makes an error a value where the source looks at it. Progress reports,
   log lines and the removal of backup files are left out: no function reads them. -/
namespace CampusAuth.Environment
open Lib

abbrev Act (R : Type) := Prog.Fallible Ask Ask.Answer EnvironmentError R

def ask (q : Ask) : Act q.Answer := Prog.fetch q

/-- The result of a step as a value. -/
def attempt {R : Type} (x : Act R) : Act (Except EnvironmentError R) :=
  ExceptT.mk (x.run >>= fun r => pure (.ok r))

def failIf (b : Bool) (e : EnvironmentError) : Act Unit := if b then throw e else pure ()

def doIf (b : Bool) (x : Act Unit) : Act Unit := if b then x else pure ()

/-- The answer, or the error made of its text. -/
def orFail {R : Type} (error : String → EnvironmentError) : Except String R → Act R
  | .ok r => pure r
  | .error e => throw (error e)

/-- `if cancel.is_cancelled() { return Err(Cancelled) }` -/
def look : Act Unit := do
  let cancelled ← ask .cancelled
  failIf cancelled .cancelled

def markError (message : String) : Act Unit :=
  ask (.write fun s => { s with stage := .error, lastError := some (tailChars message 600) })

/-- A failed step leaves its message in the status. -/
def orMark {R : Type} (label : String) (x : Act R) : Act R := do
  match ← attempt x with
  | .ok r => pure r
  | .error e => do
    markError (label ++ e.text)
    throw e

/-! ## uv -/

def workerPath : String := "python_worker"

def uvSyncTimeoutSecs : Nat := 600

def uvDownloadMaxRetries : Nat := 3

/-- What both uv commands begin with. -/
def uvStart : Act Unit := do
  look
  let there ← ask .projectExists
  failIf (!there) (.workerProjectNotFound workerPath)
  let made ← ask .createEnvDir
  orFail .uvExtractFailed made

def syncError : CommandResult → EnvironmentError
  | .timeout => .uvSyncTimeout uvSyncTimeoutSecs
  | .io error => .uvExtractFailed error
  | .failed code stderr => .uvSyncFailed code (tailChars stderr 400)
  | _ => .cancelled

/-- One attempt; `again` says what follows where uv has not done it. -/
def syncOnce (again : CommandResult → Act Unit) : Act Unit := do
  look
  match ← ask (.uv .sync) with
  | .success => pure ()
  | .cancelled => throw .cancelled
  | result => again result

/-- An attempt and, when it fails, as many as are left. -/
def syncAttempts : Nat → Act Unit
  | 0 => syncOnce fun result => throw (syncError result)
  | left + 1 => syncOnce fun _ => syncAttempts left

def runUvSync : Act Unit := do
  uvStart
  syncAttempts (uvDownloadMaxRetries - 1)

def alterError (op : String) : CommandResult → EnvironmentError
  | .timeout => .uvSyncTimeout uvSyncTimeoutSecs
  | .io error => .uvExtractFailed error
  | .failed code stderr => .uvPackageAlterFailed op code (tailChars stderr 400)
  | _ => .cancelled

/-- One set of arguments, the project files put back where uv has not done it. -/
def alterOnce (command : UvCommand) (again : CommandResult → Act Unit) : Act Unit := do
  let backup ← orFail .uvExtractFailed (← ask .backup)
  match ← ask (.uv command) with
  | .success => pure ()
  | result => do
    ask (.restore backup)
    again result

/-- Only an exit with an error goes on to the next set of arguments. -/
def alterAttempts (op : String) : UvCommand → List UvCommand → Act Unit
  | command, [] => alterOnce command fun result => throw (alterError op result)
  | command, next :: rest => alterOnce command fun
    | .failed _ _ => alterAttempts op next rest
    | result => throw (alterError op result)

inductive PackageOp
  | add
  | remove

def runUvPackageAlter : PackageOp → Act Unit
  | .add => do
    uvStart
    alterAttempts "add" .add []
  | .remove => do
    uvStart
    alterAttempts "remove" .remove [.removeOptional]

/-! ## The virtual environment -/

/-- The old directory is put aside and uv builds a new one. -/
def rebuildVenv : Act Bool := do
  let old ← ask .venvExists
  doIf old do
    let moved ← ask .quarantineVenv
    orFail (.venvRebuildFailed "python_worker/.venv") moved
  match ← attempt runUvSync with
  | .error e => do
    doIf old (ask .restoreVenv)
    throw e
  | .ok () => do
    let works : Bool ← ask .pythonWorks
    if works then
      doIf old (ask .dropQuarantine)
      pure true
    else do
      doIf old (ask .restoreVenv)
      throw .venvCorrupted

/-- `ensure_venv_with_state`: was the environment synchronised? -/
def ensureVenv : Act Bool := do
  let works : Bool ← ask .pythonWorks
  if works then pure false else rebuildVenv

def prepareUv : Act Unit := do
  let ready ← ask .uvReady
  ask (.write fun s => { s with uvReady := ready })
  doIf (!ready) do
    ask (.stage .downloadingUv)
    orMark "uv 下载失败: " (ExceptT.mk (Prog.query Ask.downloadUv))
    ask (.write fun s => { s with uvReady := true })

def bootstrapPythonRuntime (openwrt : Bool) : Act Bool := do
  failIf openwrt .unsupportedPlatform
  prepareUv
  look
  ask (.stage .syncingVenv)
  let synchronized ← orMark "Python 环境安装失败: " ensureVenv
  ask (.write fun s => { s with pythonReady := true })
  look
  pure synchronized

/-! ## Evidence for the Worker -/

def expectedWorkerVersion : Text := "1.0.0".toList

def stateSchemaVersion : Nat := 1

def runtimeStatePath : String := "environment/python-runtime-state.json"

def preferencesPath : String := "environment/python-preferences.json"

inductive ManifestState
  | current
  | missing
  | stale
  deriving DecidableEq, Repr

inductive WorkerRuntimePlan
  | verifyThenRepair
  | verifyFreshSync
  | syncThenVerify
  deriving DecidableEq, Repr

def planWorkerRuntime (forceSync resyncPending : Bool) (manifestState : ManifestState)
    (venvSynchronized : Bool) : WorkerRuntimePlan :=
  if forceSync || resyncPending || manifestState = .stale then .syncThenVerify
  else
    match manifestState with
    | .current => .verifyThenRepair
    | .missing => if venvSynchronized then .verifyFreshSync else .syncThenVerify
    | .stale => .syncThenVerify

/-- SHA-256 in hexadecimal, and the system the program was built for. -/
structure Platform where
  sha256 : List UInt8 → Text
  os : Text
  arch : Text

def Platform.fingerprint (platform : Platform) (pyproject lock : Content) : Text :=
  platform.sha256 (bytes "pyproject.toml".toList ++ 0 :: pyproject.bytes ++ 0 ::
    (bytes "uv.lock".toList ++ 0 :: lock.bytes ++ 0 ::
      (bytes expectedWorkerVersion ++ bytes platform.os ++ bytes platform.arch)))

def readManifest (file : Manifest) : Act Content := do
  let name := match file with
    | .pyproject => "python_worker/pyproject.toml"
    | .lock => "python_worker/uv.lock"
  let content ← ask (.manifest file)
  orFail (.stateIo name) content

variable (platform : Platform)

def runtimeFingerprint : Act Text := do
  let pyproject ← readManifest .pyproject
  let lock ← readManifest .lock
  pure (platform.fingerprint pyproject lock)

/-- How the recorded state stands to the fingerprint. -/
def compareState (expected : Text) : Option StateFile → ManifestState
  | none => .missing
  | some .invalid => .stale
  | some (.state schema fingerprint version) =>
    if schema = stateSchemaVersion ∧ version = expectedWorkerVersion ∧ fingerprint = expected then
      .current
    else .stale

def runtimeManifestState : Act ManifestState := do
  let expected ← runtimeFingerprint platform
  let content ← ask .runtimeState
  let state ← orFail (.stateIo runtimeStatePath) content
  pure (compareState expected state)

def recordVerifiedRuntime : Act Unit := do
  let fingerprint ← runtimeFingerprint platform
  let made ← ask .createEnvDir
  orFail (.stateIo "environment") made
  let saved ← ask (.recordRuntimeState
    (.state stateSchemaVersion fingerprint expectedWorkerVersion))
  orFail (.stateIo runtimeStatePath) saved

def requireReady (fallback : String) (probe : WorkerRuntimeProbe) : Act Unit :=
  failIf (!probe.ready) (.workerRuntimeInvalid (probe.error.getD fallback))

/-- The probe, after one sync where an environment that was verified before fails it. -/
def probeOrRepair (plan : WorkerRuntimePlan) : Act WorkerRuntimeProbe := do
  let verified ← ask .probe
  if !verified.ready && plan = .verifyThenRepair then do
    runUvSync
    ask .probe
  else pure verified

def ensureWorkerRuntime (forceSync venvSynchronized : Bool) : Act Unit := do
  look
  let resyncPending ← ask .resyncMarker
  let state ← attempt (runtimeManifestState platform)
  let manifestState := match state with
    | .ok state => state
    | .error _ => .stale
  let plan := planWorkerRuntime forceSync resyncPending manifestState venvSynchronized
  doIf (plan = .syncThenVerify) runUvSync
  let verified ← probeOrRepair plan
  requireReady "Worker import 探针未通过" verified
  recordVerifiedRuntime platform
  ask .removeResyncMarker

/-! ## The optional OCR package -/

def ocrEnabled : Act Bool := do
  let content ← ask .preferences
  match ← orFail (.stateIo preferencesPath) content with
  | none => ask .ocrMarker
  | some (.invalid reason) => throw (.stateDataInvalid preferencesPath reason)
  | some (.preferences schema enabled) => pure (schema = stateSchemaVersion && enabled)

def setOcrEnabled (enabled : Bool) : Act Unit := do
  let made ← ask .createEnvDir
  orFail (.stateIo "environment") made
  let saved ← ask (.savePreferences (.preferences stateSchemaVersion enabled))
  orFail (.stateIo preferencesPath) saved

/-- A line declares the package before its comment. -/
def declaresDdddocr : Content → Bool
  | .raw _ => false
  | .text text => (text.splitOn '\n').any fun line =>
    let code := (line.takeWhile (· != '#')).map Char.toLower
    decide ("\"ddddocr".toList <:+: code) || decide ("'ddddocr".toList <:+: code)

def ddddocrDeclared : Act Bool := do
  let content ← ask (.manifest .pyproject)
  match content with
  | .ok content => pure (declaresDdddocr content)
  | .error _ => pure false

/-- Adds, removes or synchronises what does not match; was anything changed? -/
def alignOcr (enabled declared installed : Bool) : Act Bool :=
  match enabled, declared, installed with
  | true, false, _ => do
    runUvPackageAlter .add
    pure true
  | true, true, false | false, false, true => do
    runUvSync
    pure true
  | false, true, _ => do
    runUvPackageAlter .remove
    pure true
  | _, _, _ => pure false

def verifyAndRecordAfterAlter : Act Unit := do
  let probe ← ask .probe
  requireReady "OCR 依赖变更后 Worker import 验证失败" probe
  recordVerifiedRuntime platform

def reconcileOcrPreference : Act Unit := do
  let hadLegacyMarker ← ask .ocrMarker
  let enabled ← ocrEnabled
  doIf hadLegacyMarker (setOcrEnabled enabled)
  let declared ← ddddocrDeclared
  let installed ← ask .ocrInstalled
  let changed ← alignOcr enabled declared installed
  doIf changed (verifyAndRecordAfterAlter platform)
  let ready ← ask .ocrInstalled
  ask (.write fun s => { s with ocrEnabled := enabled, ocrReady := ready })
  doIf hadLegacyMarker (ask .removeOcrMarker)

/-! ## Bootstraps -/

def deriveCapabilityReady (uv python worker manifest managedBrowser systemBrowser : Bool) : Bool :=
  uv && python && worker && manifest && (managedBrowser || systemBrowser)

def refreshBrowserAndCapabilityStatus : Act Unit := do
  let managed ← ask .managedBrowser
  let system ← ask .systemBrowser
  ask (.write fun s => { s with
    playwrightReady := s.pythonReady && managed
    systemBrowserReady := system
    capabilityReady := deriveCapabilityReady s.uvReady s.pythonReady s.workerReady
      s.manifestCurrent managed system })

/-- The end of `bootstrap_worker_runtime`: the project files must be the ones recorded. -/
def concludeWorker (state : Except EnvironmentError ManifestState) : Act Unit :=
  match state with
  | .ok .current => do
    ask (.write fun s => { s with
      pythonReady := true, workerReady := true, manifestCurrent := true, lastError := none })
    refreshBrowserAndCapabilityStatus
    ask .bootstrapDone
  | _ => do
    markError "OCR 对齐后 Python 依赖清单未通过完整性验证"
    throw (.workerRuntimeInvalid "OCR 对齐后 Python 依赖清单未通过完整性验证")

def bootstrapWorkerRuntime (openwrt forceSync : Bool) : Act Unit := do
  failIf openwrt .unsupportedPlatform
  let synchronized ← bootstrapPythonRuntime openwrt
  ask (.stage .verifyingWorker)
  orMark "Worker 环境修复失败: " (ensureWorkerRuntime platform forceSync synchronized)
  ask (.stage .applyingOcr)
  -- an error of this step is only logged
  let _ ← attempt (reconcileOcrPreference platform)
  let state ← attempt (runtimeManifestState platform)
  concludeWorker state

def shouldDownloadManagedChromium (playwrightReady systemBrowserReady : Bool) : Bool :=
  !playwrightReady && !systemBrowserReady

def installBrowser : Act Unit := do
  ask (.stage .installingPlaywright)
  orMark "Playwright 安装失败: " (ExceptT.mk (Prog.query Ask.installPlaywright))

def bootstrapCapability (openwrt forceSync : Bool) : Act Unit := do
  failIf openwrt .unsupportedPlatform
  bootstrapWorkerRuntime platform openwrt forceSync
  let status ← ask .status
  doIf (shouldDownloadManagedChromium status.playwrightReady status.systemBrowserReady)
    installBrowser
  look
  refreshBrowserAndCapabilityStatus
  let status ← ask .status
  if status.capabilityReady then ask (.stage .done)
  else do
    let reason := status.lastError.getD "浏览器自动化能力最终验证未通过"
    markError reason
    throw (.workerRuntimeInvalid reason)

end CampusAuth.Environment
