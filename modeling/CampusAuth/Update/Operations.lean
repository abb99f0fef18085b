import CampusAuth.Lib.Machine
import CampusAuth.Lib.Pool

/- The operations of the updater (`updater/mod.rs`, `updater/operation.rs`): applying an update,
   applying a package the user picked, applying a pending update at the start, cancelling a
   pending update, and waking the helper at the shutdown.

   Every operation is a task of its own once its future has been polled: it takes one turn
   after the other, in any order with the turns of the others, whether its caller still waits or
   not. What a task does while it holds the state lock takes two turns, so that everything else
   may fall in between. Of the files of an update the record of the pending one
   (`update/pending.json`) and the staging directory are kept, each there or not. -/
namespace CampusAuth.Update
open Lib

inductive Kind where
  | applyUpdate
  | uploadedPackage
  | startup
  | cancel
  | shutdown
  deriving DecidableEq, Repr

inductive Stage where
  /-- The future has not been polled. -/
  | calling
  /-- The operation lock is taken, the gate has not been looked at. -/
  | gate
  | started
  /-- Downloading, copying or extracting to the staging directory. -/
  | staging
  /-- The package is staged (`finalize_staged_package`). -/
  | finalizing
  | hashing
  /-- Asking for the state lock to commit the record. -/
  | offering
  | committing
  /-- Asking for the state lock to spawn the helper. -/
  | waking
  | spawning
  /-- The pending update is checked before it is applied. -/
  | checking
  | entering
  /-- The files are distributed, with the state lock. -/
  | applying
  /-- The record goes, then the staging directory (`cleanup_after_apply`). -/
  | clearing
  | sweeping
  /-- The guard of the operation is dropped, then its lock. -/
  | finishing
  | releasing
  /-- A cancellation has shut the gate and asks for the operation lock. -/
  | waiting
  | cancelClearing
  | cancelSweeping (hadPending removed : Bool)
  | cancelLeaving (hadPending removed : Bool)
  /-- The shutdown asks for the state lock to spawn the helper. -/
  | ensuring
  | ensuringSpawn
  | ended
  deriving DecidableEq, Repr

namespace Stage

/-- The task is in the critical part of its operation: it holds the operation lock. -/
def critical : Stage → Bool
  | calling | waiting | ensuring | ensuringSpawn | ended => false
  | _ => true

/-- The task holds the state lock. -/
def guarded : Stage → Bool
  | committing | spawning | applying | ensuringSpawn => true
  | _ => false

end Stage

/-- What the tasks share. A lock has the number of the task that holds it. -/
structure Gate where
  operationLock : Option Nat := none
  stateLock : Option Nat := none
  updateInProgress : Bool := false
  updateCancelled : Bool := false
  pending : Bool
  staging : Bool

/-- What the rest of the world says to a turn. -/
structure Answer where
  /-- Something fails: a request, a check, a read, a write or a removal. -/
  failed : Bool := false
  /-- A login is running. -/
  busy : Bool := false
  /-- The record does not read, or what it names is not there or not as it should be; without a
      record, the staging directory is old. -/
  stale : Bool := false
  /-- The staging directory is created. -/
  created : Bool := false
  /-- There is more to do at this stage. -/
  more : Bool := false

inductive Effect where
  | begun (i : Nat) (kind : Kind)
  | committed (i : Nat)
  | helperSpawned (i : Nat)
  /-- The gate is shut. -/
  | cancelled (i : Nat)
  /-- A cancellation is over: whether both removals succeeded, and what it returns. -/
  | cancelDone (i : Nat) (removed result : Bool)
  | restored
  deriving DecidableEq, Repr

abbrev Turn := Option (Gate × Stage × List Effect)

namespace Gate

/-- A section under the state lock starts, unless the update is cancelled. -/
def enter (g : Gate) (i : Nat) (inside refused : Stage) : Turn :=
  if g.stateLock.isSome then none
  else if g.updateCancelled then some (g, refused, [])
  else some ({ g with stateLock := some i }, inside, [])

/-- The future is polled for the first time. -/
def call (g : Gate) (i : Nat) (ans : Answer) : Kind → Turn
  | .cancel =>
    if g.stateLock.isSome then none
    else some ({ g with updateCancelled := true }, .waiting, [.cancelled i])
  | .shutdown =>
    if g.updateCancelled || !g.pending || ans.stale then some (g, .ended, [])
    else some (g, .ensuring, [])
  | _ =>
    if g.operationLock.isSome then some (g, .ended, [])
    else some ({ g with operationLock := some i }, .gate, [])

/-- The body of an operation. -/
def start (g : Gate) (ans : Answer) : Kind → Stage
  | .applyUpdate =>
    if g.updateCancelled then .finishing
    else if g.pending then if ans.stale then .clearing else .waking
    else if ans.busy || ans.failed then .finishing else .staging
  | .uploadedPackage => if g.pending || ans.busy || ans.failed then .finishing else .staging
  | _ =>
    if g.pending then if ans.busy then .finishing else .checking
    else if ans.stale then .sweeping else .finishing

/-- The next turn of task `i`; nothing while it waits for a lock. -/
def turn (g : Gate) (i : Nat) (kind : Kind) (ans : Answer) : Stage → Turn
  | .calling => g.call i ans kind
  | .gate =>
    if g.stateLock.isSome then none
    else if g.updateCancelled || g.updateInProgress then
      some ({ g with operationLock := none }, .ended, [])
    else some ({ g with updateInProgress := true }, .started, [.begun i kind])
  | .started => some (g, g.start ans kind, [])
  | .staging => some ({ g with staging := g.staging || ans.created },
      if ans.failed then .finishing else if ans.more then .staging else .finalizing, [])
  | .finalizing => some (g, if g.updateCancelled then .clearing else .hashing, [])
  | .hashing => some (g, if ans.failed then .finishing else .offering, [])
  | .offering => g.enter i .committing .finishing
  | .committing =>
    if ans.failed then some ({ g with stateLock := none }, .finishing, [])
    else some ({ g with stateLock := none, pending := true }, .waking, [.committed i])
  | .waking => g.enter i .spawning .finishing
  | .spawning => some ({ g with stateLock := none }, .finishing,
      if ans.failed then [] else [.helperSpawned i])
  | .checking => some (g, if ans.stale then .clearing else if ans.failed then .finishing
      else .entering, [])
  | .entering => g.enter i .applying .finishing
  | .applying => some ({ g with stateLock := none },
      if ans.failed then .finishing else .clearing, [])
  | .clearing => some ({ g with pending := g.pending && ans.failed }, .sweeping, [])
  | .sweeping => some ({ g with staging := g.staging && ans.failed }, .finishing, [])
  | .finishing =>
    if g.stateLock.isSome then none
    else some ({ g with updateInProgress := false }, .releasing, [])
  | .releasing => some ({ g with operationLock := none }, .ended, [])
  | .waiting =>
    if g.operationLock.isSome then none
    else some ({ g with operationLock := some i }, .cancelClearing, [])
  | .cancelClearing =>
    let left := g.pending && ans.failed
    some ({ g with pending := left }, .cancelSweeping g.pending !left, [])
  | .cancelSweeping hadPending removed =>
    let left := g.staging && ans.failed
    some ({ g with staging := left }, .cancelLeaving hadPending (removed && !left), [])
  | .cancelLeaving hadPending removed => some ({ g with operationLock := none }, .ended,
      [.cancelDone i removed (hadPending && !g.pending && !g.staging)])
  | .ensuring => g.enter i .ensuringSpawn .ended
  | .ensuringSpawn => some ({ g with stateLock := none }, .ended,
      if ans.failed then [] else [.helperSpawned i])
  | .ended => none

end Gate

structure Task where
  kind : Kind
  stage : Stage

structure Updater where
  gate : Gate
  tasks : Pool Task

inductive Event where
  /-- A future is made. -/
  | call (kind : Kind)
  /-- A caller drops its future: before it is polled nothing comes of it, and then nothing ends. -/
  | drop (i : Nat)
  | turn (i : Nat) (ans : Answer)
  /-- The gate is restored (`restore_after_failed_uninstall`). -/
  | restore

def Updater.step (s : Updater) : Event → Option (Updater × List Effect)
  | .call kind => some ({ s with tasks := s.tasks ++ [⟨kind, .calling⟩] }, [])
  | .drop i =>
    match s.tasks[i]? with
    | some ⟨kind, .calling⟩ => some ({ s with tasks := s.tasks.set i ⟨kind, .ended⟩ }, [])
    | some _ => some (s, [])
    | none => none
  | .turn i ans =>
    match s.tasks[i]? with
    | none => none
    | some task =>
      match s.gate.turn i task.kind ans task.stage with
      | none => none
      | some (gate, stage, os) => some (⟨gate, s.tasks.set i ⟨task.kind, stage⟩⟩, os)
  | .restore =>
    if s.gate.stateLock.isSome then none
    else some ({ s with gate := { s.gate with updateCancelled := false } }, [.restored])

def updateMachine : Machine Updater Event Effect := ⟨Updater.step⟩

/-- The updater of a process that starts: the files are what earlier ones left. -/
def newUpdater (pending staging : Bool) : Updater := ⟨{ pending, staging }, []⟩

end CampusAuth.Update
