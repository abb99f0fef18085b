import CampusAuth.Update.Distribution
import Mathlib.Order.Defs.LinearOrder

/- Applying a pending update: by the helper behind the main program (`run_apply_update` in
   `helper_main.rs`), and by the main program at its start (`apply_pending_on_startup` in
   `updater/mod.rs`). -/
namespace CampusAuth.Update.Pending
open Lib

variable {V : Type} [LinearOrder V] (parseVersion : Text → Option V)

def eqIgnoreAsciiCase (a b : Text) : Bool := a.map Char.toLower == b.map Char.toLower

/-- The digest of a file is the expected one; a file that cannot be read has none. -/
def digestMatches (slot : Slot) (expected : Text) : Upd Bool := do
  match ← ask (.digest slot) with
  | some actual => pure (eqIgnoreAsciiCase actual expected)
  | none => pure false

/-! ## The helper -/

structure HelperCli where
  staging : Option Text
  target : Option Text
  basePath : Text

def orExit {R : Type} : Option R → Upd R
  | some r => pure r
  | none => throw .failed

/-- The argument, when there is one and it is not empty; else what the record has. -/
def stagingDirOf (cli : HelperCli) (pending : PendingUpdate) : Upd Text :=
  match cli.staging with
  | some (c :: cs) => pure (c :: cs)
  | _ => if pending.stagingDir = [] then throw .failed else pure pending.stagingDir

def providedTarget (cli : HelperCli) (pending : PendingUpdate) : Option Text :=
  match cli.target with
  | some target => some target
  | none => if pending.targetExe = [] then none else some pending.targetExe

def isFileAt : Option Text → Upd Bool
  | some path => look (.isFile path)
  | none => pure false

/-- `resolve_target_exe`: whether there is an executable to replace. -/
def resolveTargetExe (derived provided : Option Text) : Upd Bool := do
  let derivedThere ← isFileAt derived
  match derived, provided, derivedThere with
  | some path, some given, true => look (.sameFile given path)
  | _, none, derivedThere => pure derivedThere
  | _, some given, _ =>
    if ← look (.isFile given) then look (.withinBase given) else pure false

def bundledWorkerDir (cli : HelperCli) : Text := cli.basePath ++ "/python_worker".toList

def workerTargetDir (cli : HelperCli) (pending : PendingUpdate) : Text :=
  let given := strip pending.workerTargetDir
  if given = [] then bundledWorkerDir cli else given

/-- The Worker is the one in the base directory. -/
def workerTargetValid (bundled target : Text) : Upd Bool := do
  if ← look (.isDir target) then
    if ← look (.isDir bundled) then look (.sameFile target bundled) else pure false
  else pure false

def pendingVersionAllowed (pending : Text) (current : V) : Bool :=
  match parseVersion pending with
  | some version => current < version
  | none => false

def verifyStagingSha256 (expected : Text) : Upd Bool :=
  if expected = [] then pure false else digestMatches .stagedExe expected

def cleanup (stagingDir : Text) : Upd Unit := do
  let _ ← ask .removeRecord
  if ← look (.withinBase stagingDir) then
    let _ ← ask .removeStaging

/-- What is staged cannot be trusted: the update is given up. -/
def trustStaged (stagingDir : Text) (ok : Bool) : Upd Unit :=
  if ok then pure ()
  else do
    cleanup stagingDir
    throw .failed

/-- A copy that fails is only logged. -/
def backUp : Upd Unit := do
  if ← look (.there .exe) then
    let _ ← ask (.copy .exe .backup)

def renameFresh : Copied → Upd Bool
  | .whole => do
    let renamed : Bool ← ask (.rename .fresh .exe)
    pure renamed
  | _ => pure false

/-- `atomic_replace_file` -/
def atomicReplaceFile : Upd Bool := do
  let copied ← ask (.copy .stagedExe .fresh)
  let replaced ← renameFresh copied
  if replaced then pure true
  else do
    let _ ← ask (.remove .fresh)
    pure false

/-- The executable could not be replaced. -/
def rollBack : Upd Unit := do
  if ← look (.there .backup) then
    let _ ← ask (.copy .backup .exe)

def replaceExe (alreadyReplaced : Bool) : Upd Unit :=
  if alreadyReplaced then pure ()
  else do
    backUp
    if ← atomicReplaceFile then pure ()
    else do
      rollBack
      throw .failed

def secondProbe : Probe → Upd Probe
  | .alive => do
    let _ ← ask .sleep
    let second : Probe ← ask .probe
    pure second
  | first => pure first

def decideBackupDeletion (first second : Probe) : Bool := first = .alive ∧ second = .alive

/-- The new program is started; when it stays alive, the backup goes. -/
def launch : Upd Unit := do
  if ← look .spawned then
    let first ← ask .probe
    let second ← secondProbe first
    if decideBackupDeletion first second then
      let _ ← ask (.remove .backup)

/-- What is done with a package that is trusted. -/
def applyStaged (stagingDir : Text) : Upd Unit := do
  let alreadyReplaced ← look .identical
  syncDistributionFiles
  replaceExe alreadyReplaced
  let _ ← look .permitted
  replaceHelper
  let _ ← succeeds syncPortableMarker
  launch
  cleanup stagingDir

def runApplyUpdate (own : V) (cli : HelperCli) : Upd Unit := do
  require (← look .helperLock)
  require (← look .mainExited)
  let pending ← orExit (← ask .readRecord)
  let stagingDir ← stagingDirOf cli pending
  let derived ← ask .derivedTarget
  require (← resolveTargetExe derived (providedTarget cli pending))
  require (← workerTargetValid (bundledWorkerDir cli) (workerTargetDir cli pending))
  require (pendingVersionAllowed parseVersion pending.version own)
  require (← look (.withinBase stagingDir))
  trustStaged stagingDir (← look (.there .stagedExe))
  trustStaged stagingDir (← verifyStagingSha256 pending.sha256)
  applyStaged stagingDir

/-! ## The start of the main program -/

def cleanupAfterApply : Upd Unit := do
  let _ ← ask .removeRecord
  let _ ← ask .removeStaging

/-- The pending update is given up. -/
def refuseUnless (ok : Bool) : Upd Unit :=
  if ok then pure ()
  else do
    cleanupAfterApply
    throw .notApplied

def orRefuse {R : Type} : Option R → Upd R
  | some r => pure r
  | none => do
    cleanupAfterApply
    throw .notApplied

def skipUnless (ok : Bool) : Upd Unit := if ok then pure () else throw .notApplied

def cleanupStaleStaging : Upd Unit := do
  if ← look .staleStaging then
    let _ ← ask .removeStaging

/-- The executable is the one of the pending update already. -/
def currentMatches (sameVersionRecovery : Bool) (sha256 : Text) : Upd Bool :=
  if sameVersionRecovery then digestMatches .exe sha256 else pure false

def replaceCurrent (sameVersionRecovery : Bool) : Upd Unit :=
  if sameVersionRecovery then pure () else do require (← ask .selfReplace)

/-- What is done with a package that is not refused, under the state lock. -/
def applyTrusted (sameVersionRecovery : Bool) : Upd Unit := do
  skipUnless !(← look .cancelled)
  require (← look .workerLayout)
  syncDistributionFiles
  replaceCurrent sameVersionRecovery
  replaceHelper
  syncPortableMarker

def applyPendingLocked (current : V) : Upd Bool := do
  let pending ← orRefuse (← ask .readPending)
  require (← look .currentExe)
  refuseUnless (← look (.pathsValid pending.stagingDir pending.targetExe))
  refuseUnless (pending.sha256 ≠ [])
  refuseUnless (← look (.there .stagedExe))
  refuseUnless (← digestMatches .stagedExe pending.sha256)
  let version ← orRefuse (parseVersion pending.version)
  let sameVersionRecovery : Bool := version = current
  let matching ← currentMatches sameVersionRecovery pending.sha256
  refuseUnless !(version < current || (sameVersionRecovery && !matching))
  applyTrusted sameVersionRecovery
  cleanupAfterApply
  pure true

def applyPendingOnStartup (current : V) : Upd Bool := do
  skipUnless (← look .begun)
  if ← look .recordThere then
    require !(← look .loginRunning)
    applyPendingLocked parseVersion current
  else
    cleanupStaleStaging
    pure false

end CampusAuth.Update.Pending
