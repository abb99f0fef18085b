import CampusAuth.Bridge.Sections

/- The flag of a debug session against the session slot and the worker that opened it
   (`bridge/mod.rs`).

   The flag is set when a `debug_start` settles, and cleared by the guard that lets go of the slot,
   by the end of a kill and by the exit with code 0. Dealing with a crash empties the slot and leaves
   the flag. `DebugKept` says of a step that it neither does that nor sets the flag for a session
   that has lost its slot or its worker, and that no worker of an idle session goes unnoticed;
   `DebugInv` is what such steps keep. In the run at the end the worker of a debug session crashes,
   and the next `debug_start` is refused for good. -/
namespace CampusAuth.Bridge
open Lib

/-! ## What is claimed -/

/-- The task is on its way to stop the worker, or doing it. -/
def TaskStage.recycles : TaskStage → Bool
  | .recycling | .killingStale _ | .killingUnready .. | .killing .. => true
  | _ => false

def Helper.recycles : Helper → Bool
  | .recycling _ | .killing .. => true
  | _ => false

/-- The main loop is stopping a worker, or dealing with an exit with code 0. -/
def LoopStage.stops : LoopStage → Bool
  | .killing .. | .drainingExited _ | .clearingExited _ => true
  | _ => false

def LoopStage.isReady : LoopStage → Bool
  | .ready => true
  | _ => false

theorem LoopStage.isReady_iff {loop : LoopStage} : loop.isReady = true ↔ loop = .ready := by
  cases loop <;> simp [isReady]

/-- The request of the task is over. -/
def TaskStage.over : TaskStage → Bool
  | .ended _ | .refused _ => true
  | _ => false

/-- The request whose guard the task holds. -/
def TaskStage.guarded : TaskStage → Option Nat
  | .waiting sent | .acking sent | .owning sent | .killing sent _ | .settling sent _
  | .releasing sent => some sent.id
  | _ => none

namespace BridgeSupervisor
variable (s : BridgeSupervisor)

/-- A task or a helper is on its way to stop the worker. -/
def recycles : Bool := s.tasks.any (·.stage.recycles) || s.helpers.any (·.recycles)

/-- Someone is, who clears the flag in the end. -/
def stops : Bool := s.loop.stops || s.recycles

/-- The worker has not ended, or its exit is still to be dealt with. -/
def lasts (worker : Option Nat) : Bool :=
  worker.any fun w => s.workers[w]?.any fun life => life ≠ .gone

/-- The worker is running. -/
def runs (worker : Option Nat) : Bool :=
  worker.any fun w => s.workers[w]? = some .running

/-- The main loop is free, nobody is stopping a worker and no exit is left to deal with. Requests
    may be under way. -/
structure Settled : Prop where
  loop : s.loop = .ready
  recycles : s.recycles = false
  exits : ∀ life ∈ s.workers, life = .running ∨ life = .gone

/-- The request of the slot is a task's that is not over. -/
def InUse : Prop :=
  ∃ (pid : Nat) (task : Task) (id : Nat),
    s.tasks[pid]? = some task ∧ task.stage.guarded = some id ∧
    s.inner.currentRequestId = some id

/-- The flag says that the slot holds the session of a running worker, and a `debug_start` is only
    refused as busy for a request under way or for such a session. -/
structure DebugSessionReal : Prop where
  flag : s.inner.debugSessionOpen = true →
    s.inner.currentSession = some .debug ∧ s.runs s.inner.debugWorker = true
  start : ∀ now task cancelId fault,
    (s.inner.accept now task "debug_start" cancelId fault).2.1 = .error .workerBusy →
      s.InUse ∨ (s.inner.currentSession = some .debug ∧ s.runs s.inner.sessionWorker = true)

end BridgeSupervisor

/-! ## When it holds -/

/-- The slot is kept by a debug session without a request. -/
def BridgeInner.idleDebug (i : BridgeInner) : Bool :=
  i.currentSession = some .debug && i.currentRequestId.isNone

/-- The guard of the request leaves the slot to the debug session. -/
def BridgeInner.keepsOpen (i : BridgeInner) (method : String) (id : Nat) : Bool :=
  !isLightweightMethod method && sessionOf method = .debug && i.holds .debug id &&
    method ≠ "debug_stop" && i.debugSessionOpen

/-- A running worker with an idle debug session does not end without a notification. -/
def KillStage.DebugKept (s : BridgeSupervisor) (fault : Option String) : KillStage → Prop
  | .waiting worker =>
    s.inner.idleDebug = true → s.inner.sessionWorker = some worker →
      s.workers[worker]? = some .running → fault = none
  | _ => True

def TaskStage.DebugKept (s : BridgeSupervisor) (fault : Option String) (method : String) :
    TaskStage → Prop
  | .killingStale kill | .killingUnready _ kill | .killing _ kill => kill.DebugKept s fault
  -- The session that has been opened still has its slot and its worker.
  | .settling sent result =>
    method = "debug_start" → Answer.isSuccess result = true →
      s.stops = true ∨ (s.inner.currentSession = some .debug ∧ s.lasts (some sent.worker) = true)
  | .releasing sent =>
    s.inner.keepsOpen method sent.id = true → s.lasts s.inner.sessionWorker = true
  | _ => True

def Helper.DebugKept (s : BridgeSupervisor) (fault : Option String) : Helper → Prop
  | .killing _ kill => kill.DebugKept s fault
  | _ => True

def LoopStage.DebugKept (s : BridgeSupervisor) (fault : Option String) : LoopStage → Prop
  | .killing _ kill => kill.DebugKept s fault
  -- The session of a crashed worker is not open, or someone is about to clear the flag.
  | .crashed .. => s.inner.debugSessionOpen = true → s.recycles = true
  | _ => True

/-- The step leaves no flag and no slot without the worker they are about. -/
def DebugKept (s : BridgeSupervisor) : Event → Prop
  | .turn pid fault => ∀ task ∈ s.tasks[pid]?, task.stage.DebugKept s fault task.method
  | .helperTurn pid fault => ∀ helper ∈ s.helpers[pid]?, helper.DebugKept s fault
  | .loopTurn fault => s.loop.DebugKept s fault
  | _ => True

instance (s : BridgeSupervisor) (fault : Option String) :
    ∀ kill : KillStage, Decidable (kill.DebugKept s fault)
  | .waiting _ => inferInstanceAs (Decidable (_ → _ → _ → _))
  | .taking | .draining | .marking => .isTrue trivial

instance (s : BridgeSupervisor) (fault : Option String) (method : String) :
    ∀ stage : TaskStage, Decidable (stage.DebugKept s fault method)
  | .killingStale kill | .killingUnready _ kill | .killing _ kill =>
    inferInstanceAs (Decidable (kill.DebugKept s fault))
  | .settling .. => inferInstanceAs (Decidable (_ → _ → _))
  | .releasing _ => inferInstanceAs (Decidable (_ → _))
  | .checkingStale | .recycling | .ensuring | .locking | .rechecking | .gating | .checkingFailures
  | .findingPython | .spawning _ | .storing .. | .numbering .. | .inserting .. | .sending ..
  | .hearing .. | .readying | .repairing | .recording _ | .routing | .admitting | .waiting _
  | .acking _ | .owning _ | .unregistering _ | .ended _ | .refused _ => .isTrue trivial

instance (s : BridgeSupervisor) (fault : Option String) :
    ∀ helper : Helper, Decidable (helper.DebugKept s fault)
  | .killing _ kill => inferInstanceAs (Decidable (kill.DebugKept s fault))
  | .checking _ | .recycling _ | .graceWait _ | .done => .isTrue trivial

instance (s : BridgeSupervisor) (fault : Option String) :
    ∀ loop : LoopStage, Decidable (loop.DebugKept s fault)
  | .killing _ kill => inferInstanceAs (Decidable (kill.DebugKept s fault))
  | .crashed .. => inferInstanceAs (Decidable (_ → _))
  | .ready | .drainingExited _ | .clearingExited _ => .isTrue trivial

instance (s : BridgeSupervisor) : ∀ e, Decidable (DebugKept s e)
  | .turn .. => inferInstanceAs (Decidable (∀ task ∈ _, _))
  | .helperTurn .. => inferInstanceAs (Decidable (∀ helper ∈ _, _))
  | .loopTurn fault => inferInstanceAs (Decidable (LoopStage.DebugKept _ fault _))
  | .execute .. | .forceRecycle | .recycleIfUnowned _ | .callerTimeout _ | .cancel _ | .idleTimeout
  | .shutdown | .response .. | .responseError .. | .workerExited _ | .exit .. | .resetSpawnFailures
  | .tick _ => .isTrue trivial

/-! ## The invariant -/

/-- What the invariant reads behind the lock. -/
structure SameSession (i j : BridgeInner) : Prop where
  session : j.currentSession = i.currentSession
  request : j.currentRequestId = i.currentRequestId
  worker : j.sessionWorker = i.sessionWorker
  flag : j.debugSessionOpen = i.debugSessionOpen
  opened : j.debugWorker = i.debugWorker

/-- The flag is about to be cleared, or it is about the session in the slot. -/
def FlagOk (s : BridgeSupervisor) : Prop :=
  s.inner.debugSessionOpen = true → s.stops = true ∨
    (s.inner.currentSession = some .debug ∧ s.lasts s.inner.debugWorker = true)

/-- An idle session in the slot has its worker. -/
def IdleOk (s : BridgeSupervisor) : Prop :=
  s.inner.currentSession = some .debug → s.inner.currentRequestId = none →
    s.lasts s.inner.sessionWorker = true

/-- A task with the request in the slot. -/
def Guards (i : BridgeInner) (id : Nat) (task : Task) : Prop :=
  task.stage.guarded = some id ∧ i.currentSession = some (sessionOf task.method) ∧
    isLightweightMethod task.method = false

/-- The request in the slot is a task's; without one the slot can only hold a debug session. -/
structure SlotHeld (i : BridgeInner) (tasks : Pool Task) : Prop where
  free : i.currentRequestId = none → ∀ session, i.currentSession = some session → session = .debug
  held : ∀ id, i.currentRequestId = some id →
    ∃ (pid : Nat) (task : Task), tasks[pid]? = some task ∧ Guards i id task

structure DebugInv (s : BridgeSupervisor) : Prop where
  flag : FlagOk s
  idle : IdleOk s
  slot : SlotHeld s.inner s.tasks

section
variable {s t : BridgeSupervisor} {i j : BridgeInner} {pid : Nat} {task : Task} {stage : TaskStage}
  {fault : Option String}

theorem SameSession.refl (i : BridgeInner) : SameSession i i := ⟨rfl, rfl, rfl, rfl, rfl⟩

theorem SlotHeld.same {tasks : Pool Task} (h : SlotHeld i tasks)
    (hsession : j.currentSession = i.currentSession)
    (hrequest : j.currentRequestId = i.currentRequestId) : SlotHeld j tasks := by
  refine ⟨fun hnone session hs => h.free (hrequest ▸ hnone) session (hsession ▸ hs), fun id hid => ?_⟩
  obtain ⟨pid, task, hat, hguarded, hs, hlight⟩ := h.held id (hrequest ▸ hid)
  exact ⟨pid, task, hat, hguarded, hsession ▸ hs, hlight⟩

/-- A slot without a request is empty, or kept by a debug session. -/
theorem SlotHeld.vacant {tasks : Pool Task} (hrequest : i.currentRequestId = none)
    (hsession : i.currentSession = none ∨ i.currentSession = some .debug) : SlotHeld i tasks := by
  refine ⟨fun _ session hs => ?_, fun id hid => ?_⟩
  · rcases hsession with hnone | hdebug
    · rw [hnone] at hs
      cases hs
    · rw [hdebug] at hs
      exact (Option.some.inj hs).symm
  · rw [hrequest] at hid
    cases hid

/-- A task that goes on with its request, or had none of the slot, leaves the slot held. -/
theorem SlotHeld.moveTo {tasks : Pool Task} (h : SlotHeld i tasks) (hat : tasks[pid]? = some task)
    (hstage : stage.guarded = task.stage.guarded ∨ task.stage.guarded = none) :
    SlotHeld i (tasks.set pid { task with stage }) := by
  refine ⟨h.free, fun id hid => ?_⟩
  obtain ⟨p, holder, hholder, hguarded, hrest⟩ := h.held id hid
  by_cases heq : p = pid
  · subst heq
    obtain rfl : holder = task := Option.some.inj (hholder.symm.trans hat)
    have hlt : p < tasks.length := (List.getElem?_eq_some_iff.mp hat).1
    rcases hstage with hsame | hnone
    · exact ⟨p, _, List.getElem?_set_self hlt, hsame.trans hguarded, hrest⟩
    · rw [hnone] at hguarded
      cases hguarded
  · exact ⟨p, holder, (List.getElem?_set_ne (Ne.symm heq)).trans hholder, hguarded, hrest⟩

theorem SlotHeld.spawn {tasks : Pool Task} (h : SlotHeld i tasks) (new : Task) :
    SlotHeld i (tasks ++ [new]) := by
  refine ⟨h.free, fun id hid => ?_⟩
  obtain ⟨p, holder, hholder, hrest⟩ := h.held id hid
  exact ⟨p, holder, (List.getElem?_append_left (List.getElem?_eq_some_iff.mp hholder).1).trans
    hholder, hrest⟩

/-! ### Who is stopping the worker -/

theorem stops_of_recycles (h : s.recycles = true) : s.stops = true := by
  unfold BridgeSupervisor.stops
  rw [h, Bool.or_true]

/-- A task that is not stopping the worker moves on. -/
theorem recycles_moveTo (hat : s.tasks[pid]? = some task) (hquiet : task.stage.recycles = false)
    (h : s.recycles = true) : (s.moveTo pid task stage).recycles = true := by
  rcases Bool.or_eq_true_iff.mp h with htask | hhelper
  · exact Bool.or_eq_true_iff.mpr (.inl (Pool.any_set hat hquiet htask))
  · exact Bool.or_eq_true_iff.mpr (.inr hhelper)

theorem recycles_helperTo {helper next : Helper} (hat : s.helpers[pid]? = some helper)
    (hquiet : helper.recycles = false) (h : s.recycles = true) :
    (s.helperTo pid next).recycles = true := by
  rcases Bool.or_eq_true_iff.mp h with htask | hhelper
  · exact Bool.or_eq_true_iff.mpr (.inl htask)
  · exact Bool.or_eq_true_iff.mpr (.inr (Pool.any_set hat hquiet hhelper))

/-- The task is stopping the worker now. -/
theorem recycles_of_task (hat : s.tasks[pid]? = some task) (hstage : stage.recycles = true) :
    (s.moveTo pid task stage).recycles = true :=
  Bool.or_eq_true_iff.mpr (.inl (Pool.any_set_self hat hstage))

theorem recycles_of_helper {helper next : Helper} (hat : s.helpers[pid]? = some helper)
    (hnext : next.recycles = true) : (s.helperTo pid next).recycles = true :=
  Bool.or_eq_true_iff.mpr (.inr (Pool.any_set_self hat hnext))

theorem stops_mono (hloop : t.loop = s.loop) (hrecycles : s.recycles = true → t.recycles = true)
    (h : s.stops = true) : t.stops = true := by
  rcases Bool.or_eq_true_iff.mp h with hstops | hon
  · exact Bool.or_eq_true_iff.mpr (.inl (hloop ▸ hstops))
  · exact stops_of_recycles (hrecycles hon)

theorem recycles_congr (htasks : t.tasks = s.tasks) (hhelpers : t.helpers = s.helpers) :
    t.recycles = s.recycles := by
  unfold BridgeSupervisor.recycles
  rw [htasks, hhelpers]

/-- The same, when the task has changed something else before. -/
theorem stops_after (hat : s.tasks[pid]? = some task) (hquiet : task.stage.recycles = false)
    (hloop : t.loop = s.loop) (htasks : t.tasks = s.tasks) (hhelpers : t.helpers = s.helpers)
    (h : s.stops = true) : (t.moveTo pid task stage).stops = true :=
  stops_mono (s := s) hloop (fun hon =>
    recycles_moveTo (htasks ▸ hat) hquiet ((recycles_congr htasks hhelpers).trans hon)) h

/-! ### What does not touch the session -/

/-- The session, the workers and whoever stops them are as before. -/
structure Calm (s t : BridgeSupervisor) : Prop where
  inner : SameSession s.inner t.inner
  workers : t.workers = s.workers
  loop : t.loop = s.loop
  tasks : t.tasks = s.tasks
  helpers : t.helpers = s.helpers

theorem lasts_same (hworkers : t.workers = s.workers) (worker : Option Nat) :
    t.lasts worker = s.lasts worker := by
  unfold BridgeSupervisor.lasts
  rw [hworkers]

theorem FlagOk.mono (h : FlagOk s) (hs : SameSession s.inner t.inner)
    (hlasts : s.lasts s.inner.debugWorker = true → t.lasts s.inner.debugWorker = true)
    (hstops : s.stops = true → t.stops = true) : FlagOk t := by
  intro hopen
  rcases h (hs.flag ▸ hopen) with hon | ⟨hsession, hlast⟩
  · exact .inl (hstops hon)
  · refine .inr ⟨hs.session ▸ hsession, ?_⟩
    rw [hs.opened]
    exact hlasts hlast

theorem IdleOk.mono (h : IdleOk s) (hs : SameSession s.inner t.inner)
    (hlasts : s.lasts s.inner.sessionWorker = true → t.lasts s.inner.sessionWorker = true) :
    IdleOk t := by
  intro hsession hrequest
  rw [hs.worker]
  exact hlasts (h (hs.session ▸ hsession) (hs.request ▸ hrequest))

theorem DebugInv.calm (hI : DebugInv s) (h : Calm s t) : DebugInv t := by
  have hlasts := lasts_same h.workers
  refine ⟨hI.flag.mono h.inner (fun hl => hlasts _ ▸ hl) ?_,
    hI.idle.mono h.inner (fun hl => hlasts _ ▸ hl), ?_⟩
  · exact stops_mono h.loop fun hon => (recycles_congr h.tasks h.helpers).trans hon
  · exact h.tasks ▸ hI.slot.same h.inner.session h.inner.request

/-- A task that is not stopping the worker moves on. -/
theorem FlagOk.moveTo (h : FlagOk s) (hat : s.tasks[pid]? = some task)
    (hquiet : task.stage.recycles = false) : FlagOk (s.moveTo pid task stage) :=
  h.mono (.refl _) (fun hl => hl) (stops_mono rfl (recycles_moveTo hat hquiet))

theorem DebugInv.moveTo (hI : DebugInv s) (hat : s.tasks[pid]? = some task)
    (hquiet : task.stage.recycles = false)
    (hstage : stage.guarded = task.stage.guarded ∨ task.stage.guarded = none) :
    DebugInv (s.moveTo pid task stage) :=
  ⟨hI.flag.moveTo hat hquiet, hI.idle, hI.slot.moveTo hat hstage⟩

/-- The task does something that leaves the session alone, and moves on. -/
theorem DebugInv.goesOn (hI : DebugInv s) (h : Calm s t) (hat : s.tasks[pid]? = some task)
    (hquiet : task.stage.recycles = false)
    (hstage : stage.guarded = task.stage.guarded ∨ task.stage.guarded = none) :
    DebugInv (t.moveTo pid task stage) :=
  (hI.calm h).moveTo (h.tasks ▸ hat) hquiet hstage

/-! ### Stopping a worker -/

/-- A step of a kill: the session stays in the slot, and the flag is cleared at the end. -/
structure KillsDebug (s t : BridgeSupervisor) (next : Option KillStage) : Prop where
  loop : t.loop = s.loop
  tasks : t.tasks = s.tasks
  helpers : t.helpers = s.helpers
  session : t.inner.currentSession = s.inner.currentSession
  request : t.inner.currentRequestId = s.inner.currentRequestId
  idle : IdleOk t
  closed : next = none → t.inner.debugSessionOpen = false

/-- Killing one worker: another lasts as before, and so does this one when it notifies. -/
theorem lasts_kill {worker : Nat} {fault : Option String} {other : Option Nat}
    (hother : other = some worker → s.workers[worker]? = some .running → fault = none)
    (h : s.lasts other = true) : (s.kill worker fault).lasts other = true := by
  obtain ⟨w, rfl, hlife⟩ := (Option.any_eq_true ..).mp h
  obtain ⟨life, hat, hnot⟩ := (Option.any_eq_true ..).mp hlife
  refine (Option.any_eq_true ..).mpr ⟨w, rfl, (Option.any_eq_true ..).mpr ?_⟩
  unfold BridgeSupervisor.kill
  simp only
  split
  next hrunning =>
    by_cases heq : worker = w
    · subst heq
      have hlt : worker < s.workers.length := (List.getElem?_eq_some_iff.mp hat).1
      refine ⟨_, List.getElem?_set_self hlt, ?_⟩
      rw [hother rfl hrunning]
      rfl
    · exact ⟨life, (List.getElem?_set_ne heq).trans hat, hnot⟩
  next => exact ⟨life, hat, hnot⟩

theorem killStep_debug (hidle : IdleOk s) (why : Why) {fault : Option String} {kill : KillStage}
    (hkept : kill.DebugKept s fault) :
    KillsDebug s (s.killStep why fault kill).1 (s.killStep why fault kill).2.1 := by
  cases kill with
  | taking =>
    simp only [BridgeSupervisor.killStep]
    split
    · exact ⟨rfl, rfl, rfl, rfl, rfl, hidle, fun h => (by cases h)⟩
    · exact ⟨rfl, rfl, rfl, rfl, rfl, hidle, fun h => (by cases h)⟩
  | waiting worker =>
    refine ⟨rfl, rfl, rfl, rfl, rfl, fun hsession hrequest => ?_, fun h => (by cases h)⟩
    have hslot : s.inner.idleDebug = true := by
      have hsession : s.inner.currentSession = some .debug := hsession
      have hrequest : s.inner.currentRequestId = none := hrequest
      simp [BridgeInner.idleDebug, hsession, hrequest]
    exact lasts_kill (hkept hslot) (hidle hsession hrequest)
  | draining => exact ⟨rfl, rfl, rfl, rfl, rfl, hidle, fun h => (by cases h)⟩
  | marking => exact ⟨rfl, rfl, rfl, rfl, rfl, hidle, fun _ => rfl⟩

/-- A task takes a step of a kill: it goes on with the kill, or the flag is cleared. -/
theorem DebugInv.taskKills (hI : DebugInv s) {why : Why} {fault : Option String} {kill : KillStage}
    {next : Option KillStage} {os : List Effect} (hat : s.tasks[pid]? = some task)
    (hkept : kill.DebugKept s fault) (hkill : s.killStep why fault kill = (t, next, os))
    (hstage : stage.guarded = task.stage.guarded ∨ task.stage.guarded = none)
    (hon : next ≠ none → stage.recycles = true) : DebugInv (t.moveTo pid task stage) := by
  have hk := killStep_debug hI.idle why hkept
  rw [hkill] at hk
  have hat : t.tasks[pid]? = some task := hk.tasks ▸ hat
  refine ⟨fun hopen => ?_, hk.idle,
    (hk.tasks ▸ hI.slot.same hk.session hk.request).moveTo hat hstage⟩
  cases next with
  | none =>
    have hopen : t.inner.debugSessionOpen = true := hopen
    rw [hk.closed rfl] at hopen
    cases hopen
  | some next => exact .inl (stops_of_recycles (recycles_of_task hat (hon (by simp))))

/-! ### The guard and the settlement of a request -/

/-- What a guard makes of the session. -/
inductive Guarded (i j : BridgeInner) (method : String) (id : Nat) : Prop
  | other (same : SameSession i j)
      (others : ∀ task : Task, task.method = method → ¬(i.currentRequestId = some id ∧ Guards i id task))
  | released (session : j.currentSession = none) (request : j.currentRequestId = none)
      (flag : j.debugSessionOpen = true →
        i.debugSessionOpen = true ∧ i.currentSession ≠ some .debug)
  | kept (keeps : i.keepsOpen method id = true) (was : i.currentSession = some .debug)
      (session : j.currentSession = i.currentSession) (request : j.currentRequestId = none)
      (worker : j.sessionWorker = i.sessionWorker) (flag : j.debugSessionOpen = i.debugSessionOpen)
      (opened : j.debugWorker = i.debugWorker)

/-- The slot of a request is held with the session of its method. -/
theorem holds_of_guards {method : String} {id : Nat} {task : Task} (hmethod : task.method = method)
    (h : i.currentRequestId = some id ∧ Guards i id task) :
    i.holds (sessionOf method) id = true ∧ isLightweightMethod method = false := by
  obtain ⟨hrequest, -, hsession, hlight⟩ := h
  exact ⟨BridgeInner.holds_eq_true.mpr ⟨hmethod ▸ hsession, hrequest⟩, hmethod ▸ hlight⟩

theorem guarded_dropGuard (i : BridgeInner) (method cancelId : String) (id : Nat) :
    Guarded i (i.dropGuard method cancelId id) method id := by
  unfold BridgeInner.dropGuard
  split
  next hlight =>
    refine .other ⟨rfl, rfl, rfl, rfl, rfl⟩ fun task hmethod hmine => ?_
    rw [(holds_of_guards hmethod hmine).2] at hlight
    cases hlight
  next hlight =>
    split
    next hdebug =>
      unfold BridgeInner.debugGuardCleanup
      split
      next hholds =>
        refine .other ⟨rfl, rfl, rfl, rfl, rfl⟩ fun task hmethod hmine => ?_
        have hheld := (holds_of_guards hmethod hmine).1
        rw [hdebug] at hheld
        rw [hheld] at hholds
        cases hholds
      next hholds =>
        have hholds : i.holds .debug id = true := by simpa using hholds
        split
        · exact .released rfl rfl fun h => (by cases h)
        next hstop =>
          have hstop : method ≠ "debug_stop" ∧ i.debugSessionOpen = true := by simpa using hstop
          have hkeeps : i.keepsOpen method id = true := by
            simp [BridgeInner.keepsOpen, hlight, hdebug, hholds, hstop]
          exact .kept hkeeps (BridgeInner.holds_eq_true.mp hholds).1 rfl rfl rfl rfl rfl
    next hdebug =>
      unfold BridgeInner.resetSession
      split
      next hholds =>
        refine .other (.refl i) fun task hmethod hmine => ?_
        rw [(holds_of_guards hmethod hmine).1] at hholds
        cases hholds
      next hholds =>
        have hholds : i.holds (sessionOf method) id = true := by simpa using hholds
        refine .released rfl rfl fun hopen => ⟨hopen, ?_⟩
        -- The session of the request is no debug session.
        rw [(BridgeInner.holds_eq_true.mp hholds).1]
        exact fun heq => hdebug (Option.some.inj heq)

/-- The guard of a request is dropped and the task is through with the slot. -/
theorem DebugInv.drops (hI : DebugInv s) {sent : Sent} (hat : s.tasks[pid]? = some task)
    (hreleasing : task.stage = .releasing sent)
    (hkept : s.inner.keepsOpen task.method sent.id = true → s.lasts s.inner.sessionWorker = true) :
    DebugInv ((s.withInner (s.inner.dropGuard task.method task.cancelId sent.id)).moveTo pid task
      stage) := by
  have hquiet : task.stage.recycles = false := by rw [hreleasing]; rfl
  have hmine : task.stage.guarded = some sent.id := by rw [hreleasing]; rfl
  have hon : ∀ inner, s.stops = true → ((s.withInner inner).moveTo pid task stage).stops = true :=
    fun _ => stops_after hat hquiet rfl rfl rfl
  have hdropped := guarded_dropGuard s.inner task.method task.cancelId sent.id
  generalize s.inner.dropGuard task.method task.cancelId sent.id = j at hdropped ⊢
  cases hdropped with
  | other hsame hothers =>
    refine ⟨hI.flag.mono hsame (fun hl => hl) (hon j), hI.idle.mono hsame (fun hl => hl), ?_⟩
    -- The request in the slot is another task's.
    refine ⟨fun hnone session hs => hI.slot.free (hsame.request ▸ hnone) session
      (hsame.session ▸ hs), fun id hid => ?_⟩
    have hcurrent : s.inner.currentRequestId = some id := hsame.request.symm.trans hid
    obtain ⟨p, holder, hholder, hguards⟩ := hI.slot.held id hcurrent
    have hne : pid ≠ p := by
      rintro rfl
      obtain rfl : holder = task := Option.some.inj (hholder.symm.trans hat)
      obtain rfl : id = sent.id := Option.some.inj (hguards.1.symm.trans hmine)
      exact hothers holder rfl ⟨hcurrent, hguards⟩
    exact ⟨p, holder, (List.getElem?_set_ne hne).trans hholder, hguards.1,
      hsame.session.trans hguards.2.1, hguards.2.2⟩
  | released hsession hrequest hflag =>
    refine ⟨fun hopen => ?_, fun hdebug => ?_, .vacant hrequest (.inl hsession)⟩
    · obtain ⟨hwas, hnot⟩ := hflag hopen
      rcases hI.flag hwas with hstops | ⟨hdebug, -⟩
      · exact .inl (hon j hstops)
      · exact absurd hdebug hnot
    · exact absurd (hsession.symm.trans hdebug) (by simp)
  | kept hkeeps hwas hsession hrequest hworker hflag hopened =>
    refine ⟨fun hopen => ?_, fun _ _ => ?_, .vacant hrequest (.inr (hsession.trans hwas))⟩
    · rcases hI.flag (hflag ▸ hopen) with hstops | ⟨hdebug, hlast⟩
      · exact .inl (hon j hstops)
      · refine .inr ⟨hsession.trans hdebug, ?_⟩
        show s.lasts j.debugWorker = true
        rw [hopened]
        exact hlast
    · show s.lasts j.sessionWorker = true
      rw [hworker]
      exact hkept hkeeps

/-- The answer of a request is settled: a successful `debug_start` opens the session. -/
theorem DebugInv.settles (hI : DebugInv s) {sent : Sent} {result : Answer}
    (hat : s.tasks[pid]? = some task) (hsettling : task.stage = .settling sent result)
    (hkept : task.stage.DebugKept s fault task.method) :
    DebugInv ((s.withInner (s.inner.settleDebug s.now task.method sent.worker
      (Answer.isSuccess result))).moveTo pid task (.releasing sent)) := by
  have hquiet : task.stage.recycles = false := by rw [hsettling]; rfl
  have hmine : (TaskStage.releasing sent).guarded = task.stage.guarded := by rw [hsettling]; rfl
  rw [hsettling] at hkept
  unfold BridgeInner.settleDebug
  split
  next hopens =>
    have hopens : task.method = "debug_start" ∧ Answer.isSuccess result = true := by
      simpa using hopens
    have hslot := (hI.slot.same (j := { s.inner with
      debugSessionOpen := true
      debugLastActivity := some s.now
      debugWorker := some sent.worker }) rfl rfl).moveTo hat (.inl hmine)
    refine ⟨fun _ => ?_, hI.idle, hslot⟩
    rcases hkept hopens.1 hopens.2 with hstops | hreal
    · exact .inl (stops_after hat hquiet rfl rfl rfl hstops)
    · exact .inr hreal
  next =>
    split
    · refine hI.goesOn ?_ hat hquiet (.inl hmine)
      exact ⟨⟨rfl, rfl, rfl, rfl, rfl⟩, rfl, rfl, rfl, rfl⟩
    · refine hI.goesOn ?_ hat hquiet (.inl hmine)
      exact ⟨⟨rfl, rfl, rfl, rfl, rfl⟩, rfl, rfl, rfl, rfl⟩

/-! ## What a step keeps -/

/-- A request is sent: it takes the slot, or has nothing to do with it. -/
theorem DebugInv.admits (hI : DebugInv s) {worker : Nat} {cancelled : List Token}
    (hat : s.tasks[pid]? = some task) (hadmitting : task.stage = .admitting)
    (hcompat : checkSessionCompat s.inner.currentSession task.method = true) :
    DebugInv (((s.withInner (s.inner.sendTo worker s.now pid task.method task.cancelId).1).cancelTokens
      cancelled).moveTo pid task (.waiting ⟨s.inner.nextRequestId, worker⟩)) := by
  have hquiet : task.stage.recycles = false := by rw [hadmitting]; rfl
  have hfree : task.stage.guarded = none := by rw [hadmitting]; rfl
  unfold BridgeInner.sendTo
  split
  next hlight =>
    refine hI.goesOn ?_ hat hquiet (.inr hfree)
    exact ⟨⟨rfl, rfl, rfl, rfl, rfl⟩, rfl, rfl, rfl, rfl⟩
  next hlight =>
    have hlight : isLightweightMethod task.method = false := by simpa using hlight
    have hlt : pid < s.tasks.length := (List.getElem?_eq_some_iff.mp hat).1
    refine ⟨fun hopen => ?_, fun _ hrequest => (by cases hrequest), ?_⟩
    · rcases hI.flag hopen with hstops | ⟨hdebug, hlast⟩
      · exact .inl (stops_after hat hquiet rfl rfl rfl hstops)
      · -- Beside a debug session only its own requests are let in.
        refine .inr ⟨?_, hlast⟩
        rw [hdebug] at hcompat
        have hmethod : isDebugMethod task.method = true := by
          unfold isLightweightMethod at hlight
          unfold checkSessionCompat at hcompat
          rw [if_neg (by rw [hlight]; simp)] at hcompat
          exact (Bool.and_eq_true_iff.mp hcompat).1
        have hnot : task.method ≠ "test_redirect" := by
          intro heq
          rw [heq] at hmethod
          exact absurd hmethod (by decide)
        show some (sessionOf task.method) = some .debug
        unfold sessionOf
        rw [if_neg hnot, if_pos hmethod]
    · refine ⟨fun hnone => (by cases hnone), fun id hid => ?_⟩
      cases hid
      exact ⟨pid, _, List.getElem?_set_self hlt, rfl, rfl, hlight⟩

/-- Another worker starts. -/
theorem DebugInv.spawns (hI : DebugInv s) :
    DebugInv { s with workers := s.workers ++ [.running] } := by
  have hlasts : ∀ worker, s.lasts worker = true →
      BridgeSupervisor.lasts { s with workers := s.workers ++ [.running] } worker = true := by
    intro worker h
    obtain ⟨w, rfl, hlife⟩ := (Option.any_eq_true ..).mp h
    obtain ⟨life, hat, hnot⟩ := (Option.any_eq_true ..).mp hlife
    refine (Option.any_eq_true ..).mpr ⟨w, rfl, (Option.any_eq_true ..).mpr ⟨life, ?_, hnot⟩⟩
    exact (List.getElem?_append_left (List.getElem?_eq_some_iff.mp hat).1).trans hat
  exact ⟨hI.flag.mono (.refl _) (hlasts _) (fun h => h), hI.idle.mono (.refl _) (hlasts _), hI.slot⟩

theorem debugInv_turn {os : List Effect} (hI : DebugInv s) (hat : s.tasks[pid]? = some task)
    (hkept : task.stage.DebugKept s fault task.method)
    (h : s.turn pid task fault task.stage = some (t, os)) : DebugInv t := by
  have hcalm : ∀ {u : BridgeSupervisor} {b : TaskStage}, Calm s u → task.stage.recycles = false →
      b.guarded = task.stage.guarded ∨ task.stage.guarded = none → DebugInv (u.moveTo pid task b) :=
    fun hu hquiet hb => hI.goesOn hu hat hquiet hb
  have hlooks : task.stage.looks = true → DebugInv t := by
    intro hlooks
    obtain ⟨u, b, rfl, -, hsame, -⟩ := turn_looks hlooks h
    have hu : Calm s u := ⟨hsame.inner ▸ .refl _, hsame.workers, hsame.loop, hsame.tasks,
      hsame.helpers⟩
    have hstage : task.stage.recycles = false ∧ task.stage.guarded = none := by
      cases hstage : task.stage <;> rw [hstage] at hlooks <;> first | exact ⟨rfl, rfl⟩ | cases hlooks
    exact hcalm hu hstage.1 (.inr hstage.2)
  have hself : Calm s s := ⟨.refl _, rfl, rfl, rfl, rfl⟩
  cases hstage : task.stage with
  | checkingStale | ensuring | locking | rechecking | gating | checkingFailures | findingPython
  | hearing | repairing | routing => exact hlooks (by rw [hstage]; rfl)
  | recycling =>
    rw [hstage] at h
    cases h
    -- The slot is emptied, and the kill that clears the flag is next.
    exact ⟨fun _ => .inl (stops_of_recycles (recycles_of_task hat rfl)), fun hs => (by cases hs),
      .vacant rfl (.inl rfl)⟩
  | killingStale kill =>
    rw [hstage] at h hkept
    simp only [BridgeSupervisor.turn] at h
    split at h
    next u next os' hkill =>
      cases h
      exact hI.taskKills hat hkept hkill (.inr (by rw [hstage]; rfl)) fun _ => rfl
    next u os' hkill =>
      cases h
      exact hI.taskKills hat hkept hkill (.inr (by rw [hstage]; rfl)) fun hne => absurd rfl hne
  | spawning attempt =>
    rw [hstage] at h
    have hquiet : task.stage.recycles = false := by rw [hstage]; rfl
    have hfree : task.stage.guarded = none := by rw [hstage]; rfl
    simp only [BridgeSupervisor.turn] at h
    split at h
    · cases h
      exact hI.spawns.moveTo hat hquiet (.inr hfree)
    · split at h
      · cases h
        exact hcalm hself hquiet (.inr hfree)
      · cases h
        exact hcalm hself hquiet (.inr hfree)
  | storing attempt worker =>
    rw [hstage] at h
    cases h
    refine hcalm ?_ (by rw [hstage]; rfl) (.inr (by rw [hstage]; rfl))
    exact ⟨⟨rfl, rfl, rfl, rfl, rfl⟩, rfl, rfl, rfl, rfl⟩
  | numbering attempt worker =>
    rw [hstage] at h
    cases h
    refine hcalm ?_ (by rw [hstage]; rfl) (.inr (by rw [hstage]; rfl))
    exact ⟨⟨rfl, rfl, rfl, rfl, rfl⟩, rfl, rfl, rfl, rfl⟩
  | inserting attempt check =>
    rw [hstage] at h
    cases h
    refine hcalm ?_ (by rw [hstage]; rfl) (.inr (by rw [hstage]; rfl))
    exact ⟨⟨rfl, rfl, rfl, rfl, rfl⟩, rfl, rfl, rfl, rfl⟩
  | sending attempt check =>
    rw [hstage] at h
    have hquiet : task.stage.recycles = false := by rw [hstage]; rfl
    have hfree : task.stage.guarded = none := by rw [hstage]; rfl
    simp only [BridgeSupervisor.turn] at h
    split at h
    · cases h
      refine hcalm ?_ hquiet (.inr hfree)
      exact ⟨⟨rfl, rfl, rfl, rfl, rfl⟩, rfl, rfl, rfl, rfl⟩
    · cases h
      exact hcalm hself hquiet (.inr hfree)
  | readying =>
    rw [hstage] at h
    cases h
    refine hcalm ?_ (by rw [hstage]; rfl) (.inr (by rw [hstage]; rfl))
    exact ⟨⟨rfl, rfl, rfl, rfl, rfl⟩, rfl, rfl, rfl, rfl⟩
  | killingUnready attempt kill =>
    rw [hstage] at h hkept
    simp only [BridgeSupervisor.turn] at h
    split at h
    next u next os' hkill =>
      cases h
      exact hI.taskKills hat hkept hkill (.inr (by rw [hstage]; rfl)) fun _ => rfl
    next u os' hkill =>
      split at h
      · cases h
        exact hI.taskKills hat hkept hkill (.inr (by rw [hstage]; rfl)) fun hne => absurd rfl hne
      · cases h
        exact hI.taskKills hat hkept hkill (.inr (by rw [hstage]; rfl)) fun hne => absurd rfl hne
  | recording error =>
    rw [hstage] at h
    cases h
    refine hcalm ?_ (by rw [hstage]; rfl) (.inr (by rw [hstage]; rfl))
    exact ⟨⟨rfl, rfl, rfl, rfl, rfl⟩, rfl, rfl, rfl, rfl⟩
  | admitting =>
    rw [hstage] at h
    have hquiet : task.stage.recycles = false := by rw [hstage]; rfl
    have hfree : task.stage.guarded = none := by rw [hstage]; rfl
    simp only [BridgeSupervisor.turn] at h
    generalize hr : s.inner.accept s.now pid task.method task.cancelId fault = r at h
    obtain ⟨j, r, cancelled⟩ := r
    rcases BridgeInner.accept_cases hr with ⟨e, rfl, hj⟩ | ⟨worker, -, hcompat, rfl, rfl⟩
    · cases h
      have hinner : SameSession s.inner j := by
        rcases hj with rfl | rfl
        · exact .refl _
        · exact ⟨rfl, rfl, rfl, rfl, rfl⟩
      exact hcalm ⟨hinner, rfl, rfl, rfl, rfl⟩ hquiet (.inr hfree)
    · cases h
      exact hI.admits hat hstage hcompat
  | waiting sent =>
    rw [hstage] at h
    have hquiet : task.stage.recycles = false := by rw [hstage]; rfl
    simp only [BridgeSupervisor.turn] at h
    split at h
    · cases h
      exact hcalm hself hquiet (.inl (by rw [hstage]; rfl))
    · split at h
      · cases h
        exact hcalm hself hquiet (.inl (by rw [hstage]; rfl))
      · cases h
  | acking sent =>
    rw [hstage] at h
    have hquiet : task.stage.recycles = false := by rw [hstage]; rfl
    simp only [BridgeSupervisor.turn] at h
    split at h
    · cases h
      exact hcalm hself hquiet (.inl (by rw [hstage]; rfl))
    · split at h
      · cases h
        exact hcalm hself hquiet (.inl (by rw [hstage]; rfl))
      · cases h
  | owning sent =>
    rw [hstage] at h
    have hquiet : task.stage.recycles = false := by rw [hstage]; rfl
    simp only [BridgeSupervisor.turn] at h
    split at h
    · cases h
      exact hcalm hself hquiet (.inl (by rw [hstage]; rfl))
    · cases h
      exact hcalm hself hquiet (.inl (by rw [hstage]; rfl))
  | killing sent kill =>
    rw [hstage] at h hkept
    simp only [BridgeSupervisor.turn] at h
    split at h
    next u next os' hkill =>
      cases h
      exact hI.taskKills hat hkept hkill (.inl (by rw [hstage]; rfl)) fun _ => rfl
    next u os' hkill =>
      cases h
      exact hI.taskKills hat hkept hkill (.inl (by rw [hstage]; rfl)) fun hne => absurd rfl hne
  | settling sent result =>
    rw [hstage] at h
    cases h
    exact hI.settles hat hstage hkept
  | releasing sent =>
    rw [hstage] at h hkept
    cases h
    exact hI.drops hat hstage hkept
  | unregistering sent =>
    rw [hstage] at h
    cases h
    refine hcalm ?_ (by rw [hstage]; rfl) (.inr (by rw [hstage]; rfl))
    exact ⟨⟨rfl, rfl, rfl, rfl, rfl⟩, rfl, rfl, rfl, rfl⟩
  | ended | refused =>
    rw [hstage] at h
    cases h

theorem DebugInv.helperTo (hI : DebugInv s) {helper next : Helper}
    (hat : s.helpers[pid]? = some helper) (hquiet : helper.recycles = false) :
    DebugInv (s.helperTo pid next) :=
  ⟨hI.flag.mono (.refl _) (fun h => h) (stops_mono rfl (recycles_helperTo hat hquiet)), hI.idle,
    hI.slot⟩

theorem debugInv_helperTurn {helper : Helper} {os : List Effect} (hI : DebugInv s)
    (hat : s.helpers[pid]? = some helper) (hkept : helper.DebugKept s fault)
    (h : s.helperTurn pid fault helper = some (t, os)) : DebugInv t := by
  cases helper with
  | checking owner =>
    cases h
    exact hI.helperTo hat rfl
  | recycling why =>
    cases h
    exact ⟨fun _ => .inl (stops_of_recycles (recycles_of_helper hat rfl)), fun hs => (by cases hs),
      .vacant rfl (.inl rfl)⟩
  | killing why kill =>
    have hk := killStep_debug hI.idle why hkept
    simp only [BridgeSupervisor.helperTurn] at h
    generalize s.killStep why fault kill = r at h hk
    obtain ⟨u, next, os'⟩ := r
    have hslot : SlotHeld u.inner u.tasks := hk.tasks ▸ hI.slot.same hk.session hk.request
    have hat : u.helpers[pid]? = some (.killing why kill) := hk.helpers ▸ hat
    cases next with
    | none =>
      cases h
      refine ⟨fun hopen => ?_, hk.idle, hslot⟩
      have hopen : u.inner.debugSessionOpen = true := hopen
      rw [hk.closed rfl] at hopen
      cases hopen
    | some next =>
      cases h
      exact ⟨fun _ => .inl (stops_of_recycles (recycles_of_helper hat rfl)), hk.idle, hslot⟩
  | graceWait id =>
    cases h
    exact hI.helperTo hat rfl
  | done => cases h

/-- The main loop, which was not stopping the worker, turns to something else. -/
theorem DebugInv.loopTo (hI : DebugInv s) (hloop : s.loop.stops = false) (loop : LoopStage) :
    DebugInv { s with loop } := by
  refine ⟨fun hopen => ?_, hI.idle, hI.slot⟩
  rcases hI.flag hopen with hstops | hreal
  · refine .inl (stops_of_recycles ?_)
    unfold BridgeSupervisor.stops at hstops
    rw [hloop, Bool.false_or] at hstops
    exact hstops
  · exact .inr hreal

theorem debugInv_loopTurn {os : List Effect} (hI : DebugInv s) (hkept : s.loop.DebugKept s fault)
    (h : s.loopTurn fault s.loop = some (t, os)) : DebugInv t := by
  cases hloop : s.loop with
  | ready =>
    rw [hloop] at h
    cases h
  | killing why kill =>
    rw [hloop] at h hkept
    have hk := killStep_debug hI.idle why hkept
    simp only [BridgeSupervisor.loopTurn] at h
    generalize s.killStep why fault kill = r at h hk
    obtain ⟨u, next, os'⟩ := r
    have hslot : SlotHeld u.inner u.tasks := hk.tasks ▸ hI.slot.same hk.session hk.request
    cases next with
    | none =>
      cases h
      refine ⟨fun hopen => ?_, hk.idle, hslot⟩
      have hopen : u.inner.debugSessionOpen = true := hopen
      rw [hk.closed rfl] at hopen
      cases hopen
    | some next =>
      cases h
      exact ⟨fun _ => .inl rfl, hk.idle, hslot⟩
  | drainingExited worker =>
    rw [hloop] at h
    cases h
    exact ⟨fun _ => .inl rfl, hI.idle, hI.slot.same rfl rfl⟩
  | clearingExited worker =>
    rw [hloop] at h
    cases h
    exact ⟨fun hopen => (by cases hopen), fun hs => (by cases hs), .vacant rfl (.inl rfl)⟩
  | crashed worker code =>
    rw [hloop] at h hkept
    cases h
    refine ⟨fun hopen => .inl (stops_of_recycles ?_), fun hs => (by cases hs), .vacant rfl (.inl rfl)⟩
    -- A flag that stays set will be cleared by whoever is stopping the worker.
    obtain ⟨-, -, hhelpers, htasks⟩ := finishExited_rest (s.drain _) worker fault
    exact (recycles_congr htasks hhelpers).trans (hkept hopen)

/-- A worker ends, and its exit is still to be dealt with. -/
theorem DebugInv.exits (hI : DebugInv s) {worker : Nat} {code : Int} :
    DebugInv { s with workers := s.workers.set worker (.exited code) } := by
  have hlasts : ∀ other, s.lasts other = true → BridgeSupervisor.lasts
      { s with workers := s.workers.set worker (.exited code) } other = true := by
    intro other h
    obtain ⟨w, rfl, hlife⟩ := (Option.any_eq_true ..).mp h
    obtain ⟨life, hat, hnot⟩ := (Option.any_eq_true ..).mp hlife
    refine (Option.any_eq_true ..).mpr ⟨w, rfl, (Option.any_eq_true ..).mpr ?_⟩
    by_cases heq : worker = w
    · subst heq
      exact ⟨_, List.getElem?_set_self (List.getElem?_eq_some_iff.mp hat).1, rfl⟩
    · exact ⟨life, (List.getElem?_set_ne heq).trans hat, hnot⟩
  exact ⟨hI.flag.mono (.refl _) (hlasts _) (fun h => h), hI.idle.mono (.refl _) (hlasts _), hI.slot⟩

/-- A new caller recycles, or waits for the slot. -/
theorem DebugInv.helps (hI : DebugInv s) (helper : Helper) :
    DebugInv { s with helpers := s.helpers ++ [helper] } := by
  refine ⟨hI.flag.mono (.refl _) (fun h => h) (stops_mono (s := s) rfl fun hon => ?_), hI.idle, hI.slot⟩
  rcases Bool.or_eq_true_iff.mp hon with htask | hhelper
  · exact Bool.or_eq_true_iff.mpr (.inl htask)
  · refine Bool.or_eq_true_iff.mpr (.inr ?_)
    rw [List.any_append, hhelper, Bool.true_or]

theorem debugInv_step {e : Event} {os : List Effect} (hI : DebugInv s) (hkept : DebugKept s e)
    (h : bridgeMachine.step s e = some (t, os)) : DebugInv t := by
  have h : s.step e = some (t, os) := h
  cases e with
  | execute method cancelId =>
    simp only [BridgeSupervisor.step] at h
    split at h
    · cases h
      refine ⟨hI.flag.mono (.refl _) (fun h => h) (stops_mono (s := s) rfl fun hon => ?_), hI.idle,
        hI.slot.spawn _⟩
      rcases Bool.or_eq_true_iff.mp hon with htask | hhelper
      · refine Bool.or_eq_true_iff.mpr (.inl ?_)
        rw [List.any_append, htask, Bool.true_or]
      · exact Bool.or_eq_true_iff.mpr (.inr hhelper)
    · cases h
  | turn pid fault =>
    simp only [BridgeSupervisor.step] at h
    split at h
    next task hat => exact debugInv_turn hI hat (hkept task hat) h
    next => cases h
  | forceRecycle | recycleIfUnowned owner =>
    cases h
    exact hI.helps _
  | callerTimeout cancelId =>
    simp only [BridgeSupervisor.step] at h
    split at h
    · split at h
      · cases h
        exact hI.helps _
      · cases h
        exact hI
    · cases h
      exact hI
  | helperTurn pid fault =>
    simp only [BridgeSupervisor.step] at h
    split at h
    next helper hat => exact debugInv_helperTurn hI hat (hkept helper hat) h
    next => cases h
  | cancel cancelId =>
    simp only [BridgeSupervisor.step] at h
    split at h
    · cases h
      exact hI.calm ⟨⟨rfl, rfl, rfl, rfl, rfl⟩, rfl, rfl, rfl, rfl⟩
    · cases h
  | idleTimeout =>
    simp only [BridgeSupervisor.step] at h
    split at h
    next hloop =>
      split at h
      · cases h
        exact hI.loopTo (by rw [hloop]; rfl) _
      · cases h
        exact hI
    next => cases h
  | shutdown =>
    simp only [BridgeSupervisor.step] at h
    split at h
    next hloop =>
      cases h
      exact hI.loopTo (by rw [hloop]; rfl) _
    next => cases h
  | response id success | responseError id error =>
    simp only [BridgeSupervisor.step] at h
    split at h
    · cases h
      exact hI.calm ⟨⟨rfl, rfl, rfl, rfl, rfl⟩, rfl, rfl, rfl, rfl⟩
    · cases h
  | workerExited worker =>
    simp only [BridgeSupervisor.step] at h
    split at h
    next hloop _ =>
      cases h
      exact hI.loopTo (by rw [hloop]; rfl) _
    next => cases h
  | loopTurn fault => exact debugInv_loopTurn hI hkept h
  | exit worker code =>
    simp only [BridgeSupervisor.step] at h
    split at h
    · cases h
      exact hI.exits
    · cases h
  | resetSpawnFailures =>
    cases h
    exact hI.calm ⟨⟨rfl, rfl, rfl, rfl, rfl⟩, rfl, rfl, rfl, rfl⟩
  | tick elapsed =>
    cases h
    exact hI.calm ⟨⟨rfl, rfl, rfl, rfl, rfl⟩, rfl, rfl, rfl, rfl⟩

end

theorem debugInv_init (environment : Bool) : DebugInv (.init environment) :=
  ⟨fun hopen => (by cases hopen), fun hs => (by cases hs), .vacant rfl (.inl rfl)⟩

/-! ## Whole runs -/

section
variable {s : BridgeSupervisor}

/-- When no exit is left to deal with, a worker that lasts is running. -/
theorem runs_of_lasts (hexits : ∀ life ∈ s.workers, life = .running ∨ life = .gone)
    {worker : Option Nat} (h : s.lasts worker = true) : s.runs worker = true := by
  obtain ⟨w, rfl, hlife⟩ := (Option.any_eq_true ..).mp h
  obtain ⟨life, hat, hnot⟩ := (Option.any_eq_true ..).mp hlife
  refine (Option.any_eq_true ..).mpr ⟨w, rfl, decide_eq_true ?_⟩
  rcases hexits life (List.mem_of_getElem? hat) with rfl | rfl
  · exact hat
  · exact absurd hnot (by decide)

/-- What keeps a `debug_start` out as busy. -/
theorem debug_start_busy {i : BridgeInner} {now task : Nat} {cancelId : String}
    {fault : Option String}
    (h : (i.accept now task "debug_start" cancelId fault).2.1 = .error .workerBusy) :
    i.currentSession = some .redirectTest ∨ i.currentSession = some .debug ∨
      i.debugSessionOpen = true := by
  unfold BridgeInner.accept at h
  split at h
  next hcompat =>
    cases hsession : i.currentSession with
    | none =>
      rw [hsession] at hcompat
      exact absurd hcompat (by decide)
    | some session =>
      rw [hsession] at hcompat
      cases session with
      | login => exact absurd hcompat (by decide)
      | redirectTest => exact .inl rfl
      | debug => exact .inr (.inl rfl)
  next =>
    split at h
    next hopen => exact .inr (.inr (by simpa using hopen))
    next => split at h <;> cases h

theorem DebugInv.real (hI : DebugInv s) (hsettled : s.Settled) : s.DebugSessionReal := by
  have hquiet : s.stops = false := by
    unfold BridgeSupervisor.stops
    rw [hsettled.loop, hsettled.recycles]
    rfl
  have hflag : s.inner.debugSessionOpen = true →
      s.inner.currentSession = some .debug ∧ s.runs s.inner.debugWorker = true := by
    intro hopen
    rcases hI.flag hopen with hstops | ⟨hdebug, hlast⟩
    · rw [hquiet] at hstops
      cases hstops
    · exact ⟨hdebug, runs_of_lasts hsettled.exits hlast⟩
  refine ⟨hflag, fun now task cancelId fault hbusy => ?_⟩
  cases hrequest : s.inner.currentRequestId with
  | some id =>
    obtain ⟨pid, holder, hat, hguards⟩ := hI.slot.held id hrequest
    exact .inl ⟨pid, holder, id, hat, hguards.1, hrequest⟩
  | none =>
    -- Without a request only a debug session can be in the slot, and an open one is.
    have hdebug : s.inner.currentSession = some .debug := by
      rcases debug_start_busy hbusy with hredirect | hdebug | hopen
      · cases hI.slot.free hrequest _ hredirect
      · exact hdebug
      · exact (hflag hopen).1
    exact .inr ⟨hdebug, runs_of_lasts hsettled.exits (hI.idle hdebug hrequest)⟩

end

/-- In a run whose steps leave no flag and no slot without the worker they are about, an open debug
    session is in the slot and its worker is running whenever nobody is stopping a worker. -/
theorem debug_session_real {environment : Bool} {es : List Event} {os : List Effect}
    {t : BridgeSupervisor} (hrun : bridgeMachine.Steps (.init environment) es os t)
    (hkept : bridgeMachine.Along DebugKept (.init environment) es) (hsettled : t.Settled) :
    t.DebugSessionReal := by
  have hI : DebugInv t := hrun.invariant debugInv_step hkept (debugInv_init environment)
  exact hI.real hsettled

instance (s : BridgeSupervisor) : Decidable s.Settled :=
  decidable_of_iff (s.loop.isReady = true ∧ s.recycles = false ∧
      ∀ life ∈ s.workers, life = .running ∨ life = .gone)
    ⟨fun h => ⟨LoopStage.isReady_iff.mp h.1, h.2.1, h.2.2⟩,
      fun h => ⟨LoopStage.isReady_iff.mpr h.loop, h.recycles, h.exits⟩⟩

/-- A debug session is opened: the worker starts, answers its health check and the request. -/
def openRun : List Event :=
  .execute "debug_start" "start" :: turns 0 11 ++ .response 1 true :: turns 0 4 ++
    .response 2 true :: turns 0 3

/-- A step of an open debug session. -/
def steppedRun : List Event :=
  openRun ++ .execute "debug_step" "step" :: turns 1 5 ++ .response 3 true :: turns 1 3

theorem debug_session_real_sample : ∃ os t, bridgeMachine.Steps (.init true) steppedRun os t ∧
    t.inner.debugSessionOpen = true ∧ t.inner.currentRequestId = none ∧ t.DebugSessionReal := by
  have hrun : (bridgeMachine.exec (.init true) steppedRun).any (fun r => decide
      (r.1.inner.debugSessionOpen = true ∧ r.1.inner.currentRequestId = none ∧ r.1.Settled)) =
      true := by
    decide
  obtain ⟨t, os, hs, ht⟩ := Machine.steps_of_any hrun
  obtain ⟨hopen, hrequest, hsettled⟩ := of_decide_eq_true ht
  exact ⟨os, t, hs, hopen, hrequest, debug_session_real hs (by decide) hsettled⟩

/-- The worker of an open debug session crashes, and a second session is asked for. -/
def crashedRun : List Event :=
  openRun ++ [.exit 0 1, .workerExited 0, .loopTurn] ++
    .execute "debug_start" "again" :: turns 1 11 ++ .response 3 true :: turns 1 4

/-- The flag outlives the crash: the slot is empty, and the second session is refused as busy. -/
theorem flag_outlives_crash :
    ¬∀ (environment : Bool) (es : List Event) (os : List Effect) (t : BridgeSupervisor),
      bridgeMachine.Steps (.init environment) es os t → t.Settled → t.DebugSessionReal := by
  intro hall
  have hrun : (bridgeMachine.exec (.init true) crashedRun).any (fun r => decide
      (r.1.inner.debugSessionOpen = true ∧ r.1.inner.currentSession = none ∧
        (r.1.tasks.all fun task => task.stage.over) = true ∧ r.1.Settled)) = true := by
    decide
  obtain ⟨t, os, hs, ht⟩ := Machine.steps_of_any hrun
  obtain ⟨hopen, hnone, -, hsettled⟩ := of_decide_eq_true ht
  have hdebug := ((hall true crashedRun os t hs hsettled).flag hopen).1
  rw [hnone] at hdebug
  cases hdebug

end CampusAuth.Bridge
