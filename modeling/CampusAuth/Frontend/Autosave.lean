import Mathlib.Data.Fintype.Defs
import CampusAuth.Lib.Machine
import CampusAuth.Lib.Pool

/- The autosave controller of the task panels (`frontend/src/utils/autosave.ts`): a debounce
   timer, a sequence number, the fingerprint of what is on disk and the request in flight.

   A panel is its specification: the fingerprint of a draft's payload, what keeps a draft from
   being sent, and what a success changes about the draft. A draft is its contents, with the
   fields that are not of the payload among them; the one in the editor has a number, a new one
   each time a draft is opened. The deep watcher is queued by a change and runs later; what a
   callback does without waiting is one step. A request takes effect at a step of its own, with
   the payload it was called with, and is answered at another.

   Beside the controller the state keeps what the requests have written, and of the draft in the
   editor whether its payload was edited since it was opened and whether it was flushed to be
   left, free to be sent, since it was last edited. -/
namespace CampusAuth.Frontend
open Lib

inductive AutosaveState where
  | idle
  | saving
  | saved
  | error
  deriving DecidableEq, Repr

structure AutosaveSpec (Draft Print : Type) where
  /-- `none`: no payload can be made of the draft. -/
  fingerprintOf : Draft → Option Print
  /-- What keeps the draft from being sent. -/
  blockReasonOf : Draft → Option String
  onSaved : Draft → Draft
  detachedSubject : String
  /-- A draft that can be sent has a payload. -/
  payload : ∀ d, blockReasonOf d = none → (fingerprintOf d).isSome = true
  /-- What a success changes is not of the payload. -/
  onSaved_payload : ∀ d, fingerprintOf (onSaved d) = fingerprintOf d

/-- A call of `persist`, from the call to the answer. -/
structure Request (Print : Type) where
  draft : Nat
  seq : Nat
  mark : Print
  detached : Bool
  /-- It has taken effect. -/
  written : Bool := false
  /-- Whether it succeeded, once it is answered. -/
  answer : Option Bool := none

inductive FlushReason where
  | switch
  | close
  deriving DecidableEq, Repr

structure Editor (Draft Print : Type) where
  draft : Option Draft := none
  /-- The number of the draft in the editor, or of the last one. -/
  number : Nat := 0
  /-- The watcher is queued. -/
  watching : Bool := false
  autosaveState : AutosaveState := .idle
  timer : Bool := false
  seq : Nat := 0
  pendingChanges : Bool := false
  lastSavedFingerprint : Option Print := none
  inFlight : Option (Nat × Print) := none
  requests : Pool (Request Print) := []
  /-- What was last written for each draft; at first, what it was opened with as saved. -/
  disk : Nat → Option Print := fun _ => none
  openedSaved : Bool := false
  edited : Bool := false
  flushed : Bool := false

inductive Action (Draft : Type) where
  /-- The contents of the draft in the editor change. -/
  | edit (d : Draft)
  | watch
  /-- The debounce runs out. -/
  | expire
  | saveNow
  | flush (reason : FlushReason)
  /-- Another draft is assigned; `markBaseline` (it is saved) or `markUnsaved`. -/
  | opened (d : Draft) (saved : Bool)
  | clear
  /-- Request `i` takes effect. -/
  | write (i : Nat)
  | respond (i : Nat) (ok : Bool) (message : String)

inductive Notice (Print : Type) where
  /-- A request is sent for a draft. -/
  | persist (draft : Nat) (mark : Print)
  | toast (message : String)
  deriving DecidableEq, Repr

variable {Draft Print : Type} [DecidableEq Draft] [DecidableEq Print]

namespace Editor

def markBaseline (spec : AutosaveSpec Draft Print) (s : Editor Draft Print) (d : Draft) :
    Editor Draft Print :=
  { s with timer := false, pendingChanges := false
           lastSavedFingerprint := spec.fingerprintOf d, autosaveState := .idle }

def resetMachine (s : Editor Draft Print) : Editor Draft Print :=
  { s with timer := false, pendingChanges := false
           lastSavedFingerprint := none, autosaveState := .idle, seq := s.seq + 1 }

/-- Nothing is sent; only the draft that stays in the editor says so. -/
def settle (s : Editor Draft Print) (detached : Bool) : Editor Draft Print :=
  if detached then s else { s with autosaveState := .idle }

def send (s : Editor Draft Print) (mark : Print) (detached : Bool) : Editor Draft Print :=
  { s with seq := s.seq + 1
           inFlight := some (s.seq + 1, mark)
           autosaveState := if detached then s.autosaveState else .saving
           requests := s.requests ++ [{ draft := s.number, seq := s.seq + 1, mark, detached }] }

/-- `run` up to the answer. -/
def run (spec : AutosaveSpec Draft Print) (s : Editor Draft Print) (d : Draft) (detached : Bool) :
    Editor Draft Print × List (Notice Print) :=
  if (spec.blockReasonOf d).isSome then (s.settle detached, [])
  else
    match spec.fingerprintOf d with
    | none => (s.settle detached, [])
    | some mark =>
      if some mark = s.lastSavedFingerprint then (s.settle detached, [])
      else if s.inFlight.any (·.2 = mark) then (s, [])
      else (s.send mark detached, [.persist s.number mark])

/-- The watcher runs. -/
def watch (spec : AutosaveSpec Draft Print) (s : Editor Draft Print) : Editor Draft Print :=
  match s.draft with
  | none => { s with watching := false, timer := false, pendingChanges := false }
  | some d =>
    if spec.fingerprintOf d = s.lastSavedFingerprint then
      { s with watching := false, timer := false, pendingChanges := false }
    else { s with watching := false, timer := true, pendingChanges := true }

def flush (spec : AutosaveSpec Draft Print) (s : Editor Draft Print) (d : Draft)
    (reason : FlushReason) : Editor Draft Print × List (Notice Print) :=
  if !s.pendingChanges && spec.fingerprintOf d = s.lastSavedFingerprint then
    ({ s with timer := false }, [])
  else
    match spec.blockReasonOf d with
    | some blocked => ({ s with timer := false, pendingChanges := false },
        if reason = .close then [.toast blocked] else [])
    | none => run spec { s with timer := false, pendingChanges := false } d (reason == .switch)

/-- Whether the draft is flushed to be left once `flush` has been called. -/
def leaving (spec : AutosaveSpec Draft Print) (s : Editor Draft Print) (d : Draft)
    (reason : FlushReason) : Bool :=
  reason == .switch && (spec.blockReasonOf d).isNone || s.flushed

/-- The request is answered, whatever the answer. -/
def answered (s : Editor Draft Print) (i : Nat) (r : Request Print) (ok : Bool) :
    Editor Draft Print :=
  { s with requests := s.requests.set i { r with answer := some ok }
           inFlight := s.inFlight.filter (·.1 ≠ r.seq) }

/-- The draft of the request is in the editor: the success changes it, and with it the watcher
    is queued. -/
def onSaved (spec : AutosaveSpec Draft Print) (s : Editor Draft Print) (r : Request Print) :
    Editor Draft Print :=
  match s.draft with
  | none => s
  | some d =>
    if r.detached || s.number ≠ r.draft then s
    else { s with draft := some (spec.onSaved d)
                  watching := s.watching || spec.onSaved d ≠ d }

/-- The rest of `run` when `persist` succeeds. -/
def succeeded (spec : AutosaveSpec Draft Print) (s : Editor Draft Print) (r : Request Print) :
    Editor Draft Print :=
  if r.seq ≠ s.seq || r.detached then onSaved spec s r
  else { onSaved spec s r with lastSavedFingerprint := some r.mark, autosaveState := .saved }

/-- The rest of `run` when `persist` fails. -/
def failed (spec : AutosaveSpec Draft Print) (s : Editor Draft Print) (r : Request Print)
    (message : String) : Editor Draft Print × List (Notice Print) :=
  if r.detached then (s, [.toast (spec.detachedSubject ++ "的改动未保存：" ++ message)])
  else if r.seq ≠ s.seq then (s, [])
  else ({ s with autosaveState := .error }, [.toast message])

/-- Request `i`, while it waits for its answer. -/
def pending (s : Editor Draft Print) (i : Nat) : Option (Request Print) :=
  (s.requests[i]?).filter (·.answer.isNone)

/-- The draft in the editor is edited. -/
def edit (spec : AutosaveSpec Draft Print) (s : Editor Draft Print) (old d : Draft) :
    Editor Draft Print :=
  { s with draft := some d, watching := true, flushed := false
           edited := s.edited || spec.fingerprintOf d ≠ spec.fingerprintOf old }

/-- A draft comes into the editor. -/
def assign (spec : AutosaveSpec Draft Print) (s : Editor Draft Print) (d : Draft) (saved : Bool) :
    Editor Draft Print :=
  { s with draft := some d, number := s.number + 1, watching := true
           openedSaved := saved, edited := false, flushed := false
           disk := fun n => if n = s.number + 1 then (if saved then spec.fingerprintOf d else none)
             else s.disk n }

def opened (spec : AutosaveSpec Draft Print) (s : Editor Draft Print) (d : Draft) (saved : Bool) :
    Editor Draft Print :=
  if saved then (s.assign spec d saved).markBaseline spec d
  else (s.assign spec d saved).resetMachine

def wrote (s : Editor Draft Print) (i : Nat) (r : Request Print) : Editor Draft Print :=
  { s with requests := s.requests.set i { r with written := true }
           disk := fun n => if n = r.draft then some r.mark else s.disk n }

def step (spec : AutosaveSpec Draft Print) (s : Editor Draft Print) :
    Action Draft → Option (Editor Draft Print × List (Notice Print))
  | .edit d => s.draft.map fun old => (s.edit spec old d, [])
  | .watch => if s.watching then some (s.watch spec, []) else none
  | .expire =>
    if s.timer then
      some (match s.draft with
        | none => ({ s with timer := false, pendingChanges := false }, [])
        | some d => run spec { s with timer := false, pendingChanges := false } d false)
    else none
  | .saveNow => s.draft.map fun d =>
    run spec { s with timer := false, pendingChanges := false } d false
  | .flush reason =>
    some (match s.draft with
      | none => ({ s with timer := false }, [])
      | some d => flush spec { s with flushed := s.leaving spec d reason } d reason)
  | .opened d saved => some (s.opened spec d saved, [])
  | .clear => some ({ s.resetMachine with draft := none, watching := true }, [])
  | .write i =>
    match s.pending i with
    | some r => if r.written then none else some (s.wrote i r, [])
    | none => none
  | .respond i ok message =>
    match s.pending i with
    | some r =>
      if ok then
        if r.written then some ((s.answered i r true).succeeded spec r, []) else none
      else some ((s.answered i r false).failed spec r message)
    | none => none

end Editor

def autosaveMachine (spec : AutosaveSpec Draft Print) :
    Machine (Editor Draft Print) (Action Draft) (Notice Print) := ⟨Editor.step spec⟩

end CampusAuth.Frontend
