import CampusAuth.Lib.Paths
import CampusAuth.Lib.Prog
import CampusAuth.Lib.Text

/- The files of an update on disk, what the procedures that apply it ask of them, and the files
   they distribute (`updater/distribution.rs`, `utils/io.rs`).

   `Disk` has the files by what they are for, whatever directories they are in. `Answers` says
   what each question can be answered and what becomes of the disk. An existence that cannot be
   looked up reads as missing. A copy that is not atomic can fail before the destination is
   opened or after any number of bytes; a removal of a directory can leave any part of it. To be
   interrupted within an operation leaves what its failure leaves. -/
namespace CampusAuth.Update.Pending
open Lib

abbrev Bytes := List UInt8

/-- The directories of a package that are distributed. -/
inductive Part where
  | resources
  | docs
  | pythonWorker
  deriving DecidableEq, Repr

/-- What is in a directory, one entry after the other. -/
inductive Dir where
  | nil
  | file (name : String) (content : Bytes) (rest : Dir)
  | sub (name : String) (entries rest : Dir)

inductive Slot where
  | exe
  /-- The executable that was replaced, `<name>.bak`. -/
  | backup
  /-- The executable that replaces it, `<name>.new`. -/
  | fresh
  | helper
  /-- The helper that is replaced, under another name. -/
  | aside
  | stagedExe
  | stagedHelper
  | installed (part : Part) (place : Place)
  deriving DecidableEq

structure PendingUpdate where
  version : Text
  stagingDir : Text
  targetExe : Text
  workerTargetDir : Text
  originalArgs : List Text
  sha256 : Text
  deriving DecidableEq

structure Disk where
  files : Slot → Option Bytes
  /-- The directories of the package that is staged. -/
  staged : Part → Option Dir
  /-- `update/pending.json` -/
  pending : Option PendingUpdate
  /-- The dependencies are marked to be synchronized again. -/
  resync : Bool
  /-- The program directory has the marker of a portable distribution. -/
  marker : Bool

def Disk.put (s : Disk) (slot : Slot) (content : Bytes) : Disk :=
  { s with files := Function.update s.files slot (some content) }

def Disk.drop (s : Disk) (slot : Slot) : Disk :=
  { s with files := Function.update s.files slot none }

/-! ## Questions -/

inductive Manifest where
  | pyproject
  | uvLock
  deriving DecidableEq, Repr

/-- A question with the answer yes or no. -/
inductive Look where
  /-- The helper has its lock. -/
  | helperLock
  | mainExited
  | withinBase (path : Text)
  /-- `same_existing_path` -/
  | sameFile (a b : Text)
  | isFile (path : Text)
  | isDir (path : Text)
  | there (slot : Slot)
  /-- The staged executable and the one in place are read and have one digest. -/
  | identical
  /-- The permissions are set; there are none to set on Windows. -/
  | permitted
  | spawned
  /-- The operation can begin: no other one is running, and none was cancelled. -/
  | begun
  | recordThere
  /-- The staging directory has not changed for three days. -/
  | staleStaging
  | loginRunning
  | currentExe
  /-- `is_pending_path_valid` -/
  | pathsValid (stagingDir targetExe : Text)
  | cancelled
  /-- The Worker that runs is the one in the base directory. -/
  | workerLayout
  | manifestStaged (manifest : Manifest)
  | manifestDiffers (manifest : Manifest)
  | workerDirCreated
  /-- A symbolic link stands at the source or at the destination. -/
  | linked (part : Part) (place : Place)
  | dirCreated (part : Part) (place : Place)
  | dirRead (part : Part) (place : Place)
  /-- The entry of the directory is read. -/
  | entryRead (part : Part) (place : Place)
  | typeRead (part : Part) (place : Place)
  /-- The staged files are a portable distribution. -/
  | portable
  /-- The program directory is a checkout or a build tree. -/
  | checkout
  | markerRead
  deriving DecidableEq

/-- How a copy ends that is not atomic. -/
inductive Copied where
  | whole
  | untouched
  | cut (length : Nat)
  deriving DecidableEq

/-- What is at the destination then; `none` when it was not opened. -/
def Copied.written (src : Bytes) : Copied → Option Bytes
  | .whole => some src
  | .untouched => none
  | .cut n => some (src.take n)

/-- What is learnt of a process that was started. -/
inductive Probe where
  | alive
  | exited (code : Int)
  | failed
  deriving DecidableEq

inductive Question where
  | look (l : Look)
  /-- A directory of the package, when it is there. -/
  | stagedPart (part : Part)
  /-- `read_pending` -/
  | readPending
  /-- The helper reads the record by itself. -/
  | readRecord
  | derivedTarget
  | digest (slot : Slot)
  | copy (src dst : Slot)
  /-- `atomic_copy_file` -/
  | copyAtomically (src dst : Slot)
  /-- `atomic_copy_file` of a file of the package. -/
  | install (part : Part) (place : Place) (content : Bytes)
  | rename (src dst : Slot)
  | remove (slot : Slot)
  | removeRecord
  | removeStaging
  | writeResync
  | writeMarker
  | selfReplace
  | probe
  /-- The helper waits five seconds. -/
  | sleep

def Question.Answer : Question → Type
  | .stagedPart _ => Option Dir
  | .readPending | .readRecord => Option PendingUpdate
  | .derivedTarget | .digest _ => Option Text
  | .copy .. => Copied
  | .probe => Probe
  | .sleep => Unit
  | _ => Bool

inductive Ended where
  /-- The process exits or returns an error. -/
  | failed
  /-- Nothing is applied (`Ok(false)`). -/
  | notApplied
  deriving DecidableEq

abbrev Upd (R : Type) := Prog.Fallible Question Question.Answer Ended R

def ask (q : Question) : Upd q.Answer := Prog.fetch q

def look (l : Look) : Upd Bool := Prog.fetch (Question.look l)

def require (ok : Bool) : Upd Unit := if ok then pure () else throw .failed

/-- Whether a step succeeds; what it failed with is only logged. -/
def succeeds (x : Upd Unit) : Upd Bool :=
  ExceptT.mk (x.run >>= fun r => pure (.ok (match r with | .ok _ => true | .error _ => false)))

/-! ## Distribution -/

def manifestChanged (manifest : Manifest) : Upd Bool := do
  if ← look (.manifestStaged manifest) then look (.manifestDiffers manifest) else pure false

def dependencyManifestsChanged : Upd Bool := do
  if ← manifestChanged .pyproject then pure true else manifestChanged .uvLock

def skipNames : List String := [".venv", "__pycache__"]

/-- What is done before the entries of a directory are copied. -/
def openDir (part : Part) (place : Place) : Upd Unit := do
  require !(← look (.linked part place))
  require (← look (.dirCreated part place))
  require (← look (.dirRead part place))

/-- What is done with an entry: `none` when it cannot be read, which is an error later. -/
def openEntry (part : Part) (place : Place) : Upd Unit := do
  require (← look (.typeRead part place))
  require !(← look (.linked part place))

/-- The loop of `copy_dir_overlay` over the entries of a directory; `ok` is false after the first
    error. A directory among them is copied in the same way before the loop goes on. -/
def copyEntries (part : Part) : Dir → Place → Bool → Upd Unit
  | .nil, _, ok => require ok
  | .file name content rest, place, ok => do
    if ← look (.entryRead part place) then
      if name ∈ skipNames then copyEntries part rest place ok
      else do
        openEntry part (place ++ [name])
        let copied ← ask (.install part (place ++ [name]) content)
        copyEntries part rest place (ok && copied)
    else copyEntries part rest place false
  | .sub name entries rest, place, ok => do
    if ← look (.entryRead part place) then
      if name ∈ skipNames then copyEntries part rest place ok
      else do
        openEntry part (place ++ [name])
        let copied ← succeeds (do
          openDir part (place ++ [name])
          copyEntries part entries (place ++ [name]) true)
        copyEntries part rest place (ok && copied)
    else copyEntries part rest place false

def copyDirOverlay (part : Part) (dir : Dir) : Upd Unit := do
  openDir part []
  copyEntries part dir [] true

def syncPart (part : Part) : Upd Unit := do
  match ← ask (.stagedPart part) with
  | some dir => copyDirOverlay part dir
  | none => pure ()

def markResync (changed : Bool) : Upd Unit :=
  if changed then do
    require (← look .workerDirCreated)
    require (← ask .writeResync)
  else pure ()

def syncDistributionFiles : Upd Unit := do
  let changed ← dependencyManifestsChanged
  markResync changed
  syncPart .resources
  syncPart .docs
  syncPart .pythonWorker

/-- The helper in place is renamed before the new one is put there. -/
def moveAside (hadTarget : Bool) : Upd Unit :=
  if hadTarget then do require (← ask (.rename .helper .aside)) else pure ()

/-- The new helper could not be put in place. -/
def moveBack (hadTarget : Bool) : Upd Unit :=
  if hadTarget then do
    require (← ask (.rename .aside .helper))
    throw .failed
  else throw .failed

/-- What is left to do behind the new helper. -/
def settleHelper (hadTarget : Bool) : Upd Unit := do
  require (← look .permitted)
  if hadTarget then
    let _ ← ask (.remove .aside)

def replaceHelper : Upd Unit := do
  if ← look (.there .stagedHelper) then
    let hadTarget ← look (.there .helper)
    moveAside hadTarget
    let copied : Bool ← ask (.copyAtomically .stagedHelper .helper)
    if copied then settleHelper hadTarget else moveBack hadTarget

def syncPortableMarker : Upd Unit := do
  if ← look .portable then
    if ← look .checkout then pure ()
    else do
      require (← look .markerRead)
      require (← ask .writeMarker)

end CampusAuth.Update.Pending
