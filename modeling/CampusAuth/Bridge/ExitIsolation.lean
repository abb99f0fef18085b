import CampusAuth.Bridge.Sections

/- The exit of one worker and its successors: dealing with an exit notification takes no process,
   drains no request and clears no slot and no registration of a later worker.

   The notification names no worker, and dealing with it takes whatever is there. So it must not be
   outstanding when the next worker starts: `SpawnedAlone` says that a worker is started only when
   the exits of all earlier ones have been dealt with, and `ExitInv` that the worker whose exit is
   dealt with is then the latest. In the run at the end a recycled worker's notification is dealt
   with after its successor has got a request. -/
namespace CampusAuth.Bridge
open Lib

/-! ## What is claimed, and when -/

def ExitsIsolated (os : List Effect) : Prop :=
  ∀ worker owners, .exitHandled worker owners ∈ os → ∀ owner ∈ owners, owner ≤ worker

def TaskStage.SpawnsAlone (s : BridgeSupervisor) : TaskStage → Prop
  | .spawning _ => ∀ life ∈ s.workers, life = .gone
  | _ => True

/-- A worker is started only when the exits of all workers before it have been dealt with. -/
def SpawnedAlone (s : BridgeSupervisor) : Event → Prop
  | .turn pid none => ∀ task ∈ s.tasks[pid]?, task.stage.SpawnsAlone s
  | _ => True

instance (s : BridgeSupervisor) : ∀ stage : TaskStage, Decidable (stage.SpawnsAlone s)
  | .spawning _ => inferInstanceAs (Decidable (∀ life ∈ s.workers, life = .gone))
  | .checkingStale | .recycling | .killingStale _ | .ensuring | .locking | .rechecking | .gating
  | .checkingFailures | .findingPython | .storing .. | .numbering .. | .inserting .. | .sending ..
  | .hearing .. | .readying | .killingUnready .. | .repairing | .recording _ | .routing | .admitting
  | .waiting _ | .acking _ | .owning _ | .killing .. | .settling .. | .releasing _
  | .unregistering _ | .ended _ | .refused _ => .isTrue trivial

instance (s : BridgeSupervisor) : ∀ e, Decidable (SpawnedAlone s e)
  | .turn _ none => inferInstanceAs (Decidable (∀ task ∈ _, _))
  | .turn _ (some _) | .execute .. | .forceRecycle | .recycleIfUnowned _ | .callerTimeout _
  | .helperTurn .. | .cancel _ | .idleTimeout | .shutdown | .response .. | .responseError ..
  | .workerExited _ | .loopTurn _ | .exit .. | .resetSpawnFailures | .tick _ => .isTrue trivial

/-! ## The workers something belongs to -/

/-- What is behind the lock belongs to workers below `n`. -/
structure OwnersBelow (n : Nat) (i : BridgeInner) : Prop where
  process : ∀ worker, i.process = some worker → worker < n
  pending : ∀ p ∈ i.pendingRequests, p.worker < n
  session : ∀ worker, i.sessionWorker = some worker → worker < n
  tokens : ∀ token ∈ i.cancelRegistry.tokens, token.worker < n

section
variable {n : Nat} {i j : BridgeInner}

theorem OwnersBelow.mono {m : Nat} (h : OwnersBelow n i) (hle : n ≤ m) : OwnersBelow m i :=
  ⟨fun w hw => Nat.lt_of_lt_of_le (h.process w hw) hle,
    fun p hp => Nat.lt_of_lt_of_le (h.pending p hp) hle,
    fun w hw => Nat.lt_of_lt_of_le (h.session w hw) hle,
    fun t ht => Nat.lt_of_lt_of_le (h.tokens t ht) hle⟩

/-- A section after which less is there. -/
theorem OwnersBelow.fewer (h : OwnersBelow n i) (hprocess : j.process = none ∨ j.process = i.process)
    (hpending : ∀ p ∈ j.pendingRequests, p ∈ i.pendingRequests)
    (hsession : j.sessionWorker = none ∨ j.sessionWorker = i.sessionWorker)
    (htokens : ∀ t ∈ j.cancelRegistry.tokens, t ∈ i.cancelRegistry.tokens) : OwnersBelow n j := by
  refine ⟨fun w hw => ?_, fun p hp => h.pending p (hpending p hp), fun w hw => ?_,
    fun t ht => h.tokens t (htokens t ht)⟩
  · rcases hprocess with hnone | hsame
    · rw [hnone] at hw
      cases hw
    · exact h.process w (hsame ▸ hw)
  · rcases hsession with hnone | hsame
    · rw [hnone] at hw
      cases hw
    · exact h.session w (hsame ▸ hw)

theorem OwnersBelow.removePending (h : OwnersBelow n i) (id : Nat) :
    OwnersBelow n (i.removePending id) :=
  h.fewer (.inr rfl) (fun _ hp => (List.mem_filter.mp hp).1) (.inr rfl) (fun _ ht => ht)

theorem OwnersBelow.dropGuard (h : OwnersBelow n i) (method cancelId : String) (id : Nat) :
    OwnersBelow n (i.dropGuard method cancelId id) := by
  have hremove : ∀ {cancelId : String}, ∀ t ∈ (i.cancelRegistry.remove cancelId).tokens,
      t ∈ i.cancelRegistry.tokens := fun t ht => CancelRegistry.mem_tokens_remove ht
  unfold BridgeInner.dropGuard
  split
  · exact h.fewer (.inr rfl) (fun _ hp => (List.mem_filter.mp hp).1) (.inr rfl) hremove
  · split
    · unfold BridgeInner.debugGuardCleanup
      split
      · exact h.fewer (.inr rfl) (fun _ hp => hp) (.inr rfl) hremove
      · split
        · exact h.fewer (.inr rfl) (fun _ hp => hp) (.inl rfl) hremove
        · exact h.fewer (.inr rfl) (fun _ hp => hp) (.inr rfl) hremove
    · unfold BridgeInner.resetSession
      split
      · exact h
      · refine h.fewer (.inr rfl) (fun _ hp => (List.mem_filter.mp hp).1) (.inl rfl) fun t ht => ?_
        simp only at ht
        split at ht
        · exact hremove t ht
        · exact ht

theorem OwnersBelow.settleDebug (h : OwnersBelow n i) (now : Nat) (method : String) (worker : Nat)
    (ok : Bool) : OwnersBelow n (i.settleDebug now method worker ok) := by
  unfold BridgeInner.settleDebug
  split
  · exact ⟨h.process, h.pending, h.session, h.tokens⟩
  · split <;> exact ⟨h.process, h.pending, h.session, h.tokens⟩

/-- A request belongs to the worker it is sent to. -/
theorem OwnersBelow.sendTo (h : OwnersBelow n i) {worker : Nat} (hworker : worker < n)
    (now task : Nat) (method cancelId : String) :
    OwnersBelow n (i.sendTo worker now task method cancelId).1 := by
  have hpending : ∀ p ∈ i.pendingRequests ++ [⟨i.nextRequestId, some method, worker⟩],
      p.worker < n := by
    intro p hp
    rcases List.mem_append.mp hp with hp | hp
    · exact h.pending p hp
    · rw [List.mem_singleton.mp hp]
      exact hworker
  have htokens : ∀ t ∈ (i.cancelRegistry.register now cancelId ⟨task, worker⟩
      (isLightweightMethod method)).1.tokens, t.worker < n := by
    intro t ht
    rcases CancelRegistry.mem_tokens_register ht with rfl | ht
    · exact hworker
    · exact h.tokens t ht
  unfold BridgeInner.sendTo
  split
  · exact ⟨h.process, hpending, h.session, htokens⟩
  · exact ⟨h.process, hpending, fun w hw => Option.some.inj hw ▸ hworker, htokens⟩

theorem OwnersBelow.owners (h : OwnersBelow n i) : ∀ owner ∈ i.owners, owner < n := by
  intro owner howner
  rcases List.mem_append.mp howner with howner | howner
  · rcases List.mem_append.mp howner with howner | howner
    · exact h.process owner (Option.mem_toList.mp howner)
    · exact h.session owner (Option.mem_toList.mp howner)
  · obtain ⟨t, ht, rfl⟩ := List.mem_map.mp howner
    exact h.tokens t ht

end

/-! ## The invariant -/

/-- The worker whose exit the main loop deals with. -/
def LoopStage.exiting : LoopStage → Option Nat
  | .drainingExited worker | .clearingExited worker | .crashed worker _ => some worker
  | _ => none

/-- A worker whose exit has not been dealt with is the latest, and so is the one whose exit is. -/
structure WorkersOk (workers : List Life) (loop : LoopStage) : Prop where
  latest : ∀ worker life, workers[worker]? = some life → life ≠ .gone → worker + 1 = workers.length
  exiting : ∀ worker, loop.exiting = some worker → ∃ code, workers[worker]? = some (.exited code)

structure ExitInv (s : BridgeSupervisor) : Prop where
  owners : OwnersBelow s.workers.length s.inner
  tasks : s.tasks.All fun _ task =>
    ∀ worker, task.stage.started = some worker → worker < s.workers.length
  workers : WorkersOk s.workers s.loop

section
variable {s t : BridgeSupervisor} {pid : Nat} {task : Task} {stage : TaskStage}

/-- The workers stay as they are. -/
theorem ExitInv.same (hI : ExitInv s) (hworkers : t.workers = s.workers) (htasks : t.tasks = s.tasks)
    (hloop : t.loop = s.loop) (howners : OwnersBelow s.workers.length t.inner) : ExitInv t := by
  refine ⟨hworkers ▸ howners, ?_, ?_⟩
  · rw [hworkers, htasks]
    exact hI.tasks
  · rw [hworkers, hloop]
    exact hI.workers

theorem ExitInv.moveTo (hI : ExitInv s)
    (hstarted : ∀ worker, stage.started = some worker → worker < s.workers.length) :
    ExitInv (s.moveTo pid task stage) :=
  ⟨hI.owners, hI.tasks.set (fun _ _ _ h => h) hstarted, hI.workers⟩

theorem WorkersOk.set {workers : List Life} {loop : LoopStage} (h : WorkersOk workers loop)
    {worker : Nat} {life : Life} (hrunning : workers[worker]? = some .running) :
    WorkersOk (workers.set worker life) loop := by
  have hmine : worker + 1 = workers.length := h.latest worker _ hrunning (by decide)
  refine ⟨fun w l hw hl => ?_, fun w hw => ?_⟩
  · rw [List.length_set]
    rw [List.getElem?_set] at hw
    split at hw
    next heq => exact heq ▸ hmine
    next => exact h.latest w l hw hl
  · obtain ⟨code, hcode⟩ := h.exiting w hw
    refine ⟨code, ?_⟩
    rw [List.getElem?_set, if_neg, hcode]
    rintro rfl
    rw [hrunning] at hcode
    cases hcode

theorem kill_workers_length (s : BridgeSupervisor) (worker : Nat) (fault : Option String) :
    (s.kill worker fault).workers.length = s.workers.length := by
  unfold BridgeSupervisor.kill
  simp only
  split
  · exact List.length_set
  · rfl

theorem ExitInv.kill (hI : ExitInv s) (worker : Nat) (fault : Option String) :
    ExitInv (s.kill worker fault) := by
  have hlength := kill_workers_length s worker fault
  refine ⟨hlength ▸ hI.owners, ?_, ?_⟩
  · rw [hlength]
    exact hI.tasks
  · unfold BridgeSupervisor.kill
    simp only
    split
    next hrunning => exact hI.workers.set hrunning
    next => exact hI.workers

theorem ExitInv.drain (hI : ExitInv s) (error : BridgeError) : ExitInv (s.drain error) :=
  hI.same rfl rfl rfl
    (hI.owners.fewer (.inr rfl) (fun _ hp => by cases hp) (.inr rfl) (fun _ ht => ht))

theorem ExitInv.forgetSession (hI : ExitInv s) : ExitInv s.forgetSession :=
  hI.same rfl rfl rfl (hI.owners.fewer (.inr rfl) (fun _ hp => hp) (.inl rfl)
    fun _ ht => CancelRegistry.mem_tokens_triggerAll ht)

theorem exitsIsolated_nil : ExitsIsolated [] := fun _ _ h => (by cases h)

theorem ExitsIsolated.append {os os' : List Effect} (h : ExitsIsolated os) (h' : ExitsIsolated os') :
    ExitsIsolated (os ++ os') := by
  intro worker owners hmem
  rcases List.mem_append.mp hmem with hmem | hmem
  · exact h worker owners hmem
  · exact h' worker owners hmem

/-- A kill deals with no exit. -/
theorem ExitInv.killStep (hI : ExitInv s) (why : Why) (fault : Option String) (kill : KillStage) :
    ExitInv (s.killStep why fault kill).1 ∧ ExitsIsolated (s.killStep why fault kill).2.2 := by
  cases kill with
  | taking =>
    cases hprocess : s.inner.process with
    | none =>
      simp only [BridgeSupervisor.killStep, hprocess]
      exact ⟨hI, exitsIsolated_nil⟩
    | some worker =>
      simp only [BridgeSupervisor.killStep, hprocess]
      refine ⟨hI.same rfl rfl rfl (hI.owners.fewer (.inl rfl) (fun _ hp => hp) (.inr rfl)
        (fun _ ht => ht)), fun w owners hmem => ?_⟩
      cases List.mem_singleton.mp hmem
  | waiting worker => exact ⟨hI.kill worker fault, exitsIsolated_nil⟩
  | draining => exact ⟨hI.drain _, exitsIsolated_nil⟩
  | marking =>
    exact ⟨hI.same rfl rfl rfl ⟨hI.owners.process, hI.owners.pending, hI.owners.session,
      hI.owners.tokens⟩, exitsIsolated_nil⟩

/-! ## What a step keeps -/

theorem ExitInv.bare (hI : ExitInv s) (hstarted : stage.started = none) :
    ExitInv (s.moveTo pid task stage) := by
  refine hI.moveTo fun worker hw => ?_
  rw [hstarted] at hw
  cases hw

/-- A task kills the worker and goes on from there. -/
theorem ExitInv.taskKills (hI : ExitInv s) {why : Why} {fault : Option String} {kill : KillStage}
    {next : Option KillStage} {os : List Effect}
    (hkill : s.killStep why fault kill = (t, next, os)) (hstarted : stage.started = none) :
    ExitInv (t.moveTo pid task stage) ∧ ExitsIsolated os := by
  have hk := hI.killStep why fault kill
  rw [hkill] at hk
  exact ⟨hk.1.bare hstarted, hk.2⟩

/-- The next worker starts: all workers before it are gone. -/
theorem ExitInv.spawn (hI : ExitInv s) (halone : ∀ life ∈ s.workers, life = .gone) :
    ExitInv { s with workers := s.workers ++ [.running] } := by
  have hlength : (s.workers ++ [Life.running]).length = s.workers.length + 1 := List.length_append
  refine ⟨hI.owners.mono (by rw [hlength]; exact Nat.le_succ _), ?_, ?_, ?_⟩
  · refine hI.tasks.imp fun _ _ h worker hw => ?_
    show worker < (s.workers ++ [Life.running]).length
    rw [hlength]
    exact Nat.lt_succ_of_lt (h worker hw)
  · -- An earlier worker would have to be gone, so the one not gone is the new one.
    intro worker life hw hlife
    rw [hlength]
    by_cases hlt : worker < s.workers.length
    · rw [List.getElem?_append_left hlt] at hw
      exact absurd (halone life (List.mem_of_getElem? hw)) hlife
    · have hle : worker < (s.workers ++ [Life.running]).length :=
        (List.getElem?_eq_some_iff.mp hw).1
      omega
  · intro worker hw
    obtain ⟨code, hcode⟩ := hI.workers.exiting worker hw
    exact absurd (halone _ (List.mem_of_getElem? hcode)) (by simp)

theorem exitInv_turn {fault : Option String} {os : List Effect} (hI : ExitInv s)
    (hat : ∀ worker, task.stage.started = some worker → worker < s.workers.length)
    (halone : fault = none → task.stage.SpawnsAlone s)
    (h : s.turn pid task fault task.stage = some (t, os)) : ExitInv t ∧ ExitsIsolated os := by
  have hlooks : task.stage.looks = true → ExitInv t ∧ ExitsIsolated os := by
    intro hlooks
    obtain ⟨u, b, rfl, rfl, hsame, hbare⟩ := turn_looks hlooks h
    have hu : ExitInv u :=
      hI.same hsame.workers hsame.tasks hsame.loop (hsame.inner ▸ hI.owners)
    exact ⟨hu.bare hbare.started, exitsIsolated_nil⟩
  cases hstage : task.stage with
  | checkingStale | ensuring | locking | rechecking | gating | checkingFailures | findingPython
  | hearing | repairing | routing => exact hlooks (by rw [hstage]; rfl)
  | recycling =>
    rw [hstage] at h
    cases h
    exact ⟨hI.forgetSession.bare rfl, exitsIsolated_nil⟩
  | killingStale kill =>
    rw [hstage] at h
    simp only [BridgeSupervisor.turn] at h
    split at h
    next u next os' hkill =>
      cases h
      exact hI.taskKills hkill rfl
    next u os' hkill =>
      cases h
      exact hI.taskKills hkill rfl
  | spawning attempt =>
    rw [hstage] at h halone
    simp only [BridgeSupervisor.turn] at h
    split at h
    · cases h
      refine ⟨(hI.spawn (halone rfl)).moveTo fun worker hw => ?_, exitsIsolated_nil⟩
      rw [← Option.some.inj hw]
      show s.workers.length < (s.workers ++ [Life.running]).length
      rw [List.length_append]
      exact Nat.lt_succ_self _
    · split at h
      · cases h
        exact ⟨hI.bare rfl, exitsIsolated_nil⟩
      · cases h
        exact ⟨hI.bare rfl, exitsIsolated_nil⟩
  | storing attempt worker =>
    rw [hstage] at h hat
    cases h
    have hu : ExitInv (s.withInner (s.inner.storeProcess worker)) :=
      hI.same rfl rfl rfl ⟨fun w hw => Option.some.inj hw ▸ hat worker rfl, hI.owners.pending,
        hI.owners.session, hI.owners.tokens⟩
    exact ⟨hu.moveTo hat, exitsIsolated_nil⟩
  | numbering attempt worker =>
    rw [hstage] at h hat
    cases h
    have hu : ExitInv (s.withInner s.inner.takeRequestId) :=
      hI.same rfl rfl rfl ⟨hI.owners.process, hI.owners.pending, hI.owners.session, hI.owners.tokens⟩
    exact ⟨hu.moveTo hat, exitsIsolated_nil⟩
  | inserting attempt check =>
    rw [hstage] at h hat
    cases h
    have hu : ExitInv (s.withInner (s.inner.insertHealthCheck check)) := by
      refine hI.same rfl rfl rfl
        ⟨hI.owners.process, fun p hp => ?_, hI.owners.session, hI.owners.tokens⟩
      rcases List.mem_append.mp hp with hp | hp
      · exact hI.owners.pending p hp
      · rw [List.mem_singleton.mp hp]
        exact hat check.worker rfl
    exact ⟨hu.bare rfl, exitsIsolated_nil⟩
  | sending attempt check =>
    rw [hstage] at h
    simp only [BridgeSupervisor.turn] at h
    split at h
    · cases h
      have hu : ExitInv (s.withInner (s.inner.removePending check.id)) :=
        hI.same rfl rfl rfl (hI.owners.removePending _)
      exact ⟨hu.bare rfl, exitsIsolated_nil⟩
    · cases h
      exact ⟨hI.bare rfl, exitsIsolated_nil⟩
  | readying =>
    rw [hstage] at h
    cases h
    have hu : ExitInv (s.unlock.withInner s.inner.markReady) :=
      hI.same rfl rfl rfl ⟨hI.owners.process, hI.owners.pending, hI.owners.session, hI.owners.tokens⟩
    exact ⟨hu.bare rfl, exitsIsolated_nil⟩
  | killingUnready attempt kill =>
    rw [hstage] at h
    simp only [BridgeSupervisor.turn] at h
    split at h
    next u next os' hkill =>
      cases h
      exact hI.taskKills hkill rfl
    next u os' hkill =>
      split at h
      · cases h
        exact hI.taskKills hkill rfl
      · cases h
        exact hI.taskKills hkill rfl
  | recording error =>
    rw [hstage] at h
    cases h
    have hu : ExitInv (s.unlock.withInner s.inner.recordSpawnFailure) :=
      hI.same rfl rfl rfl ⟨hI.owners.process, hI.owners.pending, hI.owners.session, hI.owners.tokens⟩
    exact ⟨hu.bare rfl, exitsIsolated_nil⟩
  | admitting =>
    rw [hstage] at h
    simp only [BridgeSupervisor.turn] at h
    generalize hr : s.inner.accept s.now pid task.method task.cancelId fault = r at h
    obtain ⟨j, r, cancelled⟩ := r
    rcases BridgeInner.accept_cases hr with ⟨e, rfl, hj⟩ | ⟨worker, hprocess, -, rfl, rfl⟩
    · cases h
      have hu : ExitInv (s.withInner j) := by
        refine hI.same rfl rfl rfl ?_
        rcases hj with rfl | rfl
        · exact hI.owners
        · exact ⟨hI.owners.process, hI.owners.pending, hI.owners.session, hI.owners.tokens⟩
      exact ⟨hu.bare rfl, exitsIsolated_nil⟩
    · cases h
      -- The request goes to the process in the slot, which is a worker started before.
      have hu : ExitInv ((s.withInner
          (s.inner.sendTo worker s.now pid task.method task.cancelId).1).cancelTokens cancelled) :=
        hI.same rfl rfl rfl (hI.owners.sendTo (hI.owners.process worker hprocess) ..)
      exact ⟨hu.bare rfl, exitsIsolated_nil⟩
  | waiting sent =>
    rw [hstage] at h
    simp only [BridgeSupervisor.turn] at h
    split at h
    · cases h
      exact ⟨hI.bare rfl, exitsIsolated_nil⟩
    · split at h
      · cases h
        exact ⟨hI.bare rfl, exitsIsolated_nil⟩
      · cases h
  | acking sent =>
    rw [hstage] at h
    simp only [BridgeSupervisor.turn] at h
    split at h
    · cases h
      exact ⟨hI.bare rfl, exitsIsolated_nil⟩
    · split at h
      · cases h
        exact ⟨hI.bare rfl, exitsIsolated_nil⟩
      · cases h
  | owning sent =>
    rw [hstage] at h
    simp only [BridgeSupervisor.turn] at h
    split at h
    · cases h
      exact ⟨hI.bare rfl, exitsIsolated_nil⟩
    · cases h
      exact ⟨hI.bare rfl, exitsIsolated_nil⟩
  | killing sent kill =>
    rw [hstage] at h
    simp only [BridgeSupervisor.turn] at h
    split at h
    next u next os' hkill =>
      cases h
      exact hI.taskKills hkill rfl
    next u os' hkill =>
      cases h
      exact hI.taskKills hkill rfl
  | settling sent result =>
    rw [hstage] at h
    cases h
    have hu : ExitInv (s.withInner (s.inner.settleDebug s.now task.method sent.worker
        (Answer.isSuccess result))) := hI.same rfl rfl rfl (hI.owners.settleDebug ..)
    exact ⟨hu.bare rfl, exitsIsolated_nil⟩
  | releasing sent =>
    rw [hstage] at h
    cases h
    have hu : ExitInv (s.withInner (s.inner.dropGuard task.method task.cancelId sent.id)) :=
      hI.same rfl rfl rfl (hI.owners.dropGuard ..)
    refine ⟨hu.bare ?_, exitsIsolated_nil⟩
    split <;> rfl
  | unregistering sent =>
    rw [hstage] at h
    cases h
    have hu : ExitInv (s.withInner (s.inner.removeCancel task.cancelId)) :=
      hI.same rfl rfl rfl (hI.owners.fewer (.inr rfl) (fun _ hp => hp) (.inr rfl)
        fun _ ht => CancelRegistry.mem_tokens_remove ht)
    exact ⟨hu.bare rfl, exitsIsolated_nil⟩
  | ended | refused =>
    rw [hstage] at h
    cases h

theorem ExitInv.helperTo (hI : ExitInv s) (helper : Helper) : ExitInv (s.helperTo pid helper) :=
  ⟨hI.owners, hI.tasks, hI.workers⟩

theorem exitInv_helperTurn {fault : Option String} {helper : Helper} {os : List Effect}
    (hI : ExitInv s) (h : s.helperTurn pid fault helper = some (t, os)) :
    ExitInv t ∧ ExitsIsolated os := by
  cases helper with
  | checking owner =>
    cases h
    exact ⟨hI.helperTo _, exitsIsolated_nil⟩
  | recycling why =>
    cases h
    exact ⟨hI.forgetSession.helperTo _, exitsIsolated_nil⟩
  | killing why kill =>
    have hk := hI.killStep why fault kill
    simp only [BridgeSupervisor.helperTurn] at h
    generalize s.killStep why fault kill = r at h hk
    obtain ⟨u, next, os'⟩ := r
    cases next with
    | none =>
      cases h
      exact ⟨hk.1.helperTo _, hk.2⟩
    | some next =>
      cases h
      exact ⟨hk.1.helperTo _, hk.2⟩
  | graceWait id =>
    cases h
    exact ⟨hI.helperTo _, exitsIsolated_nil⟩
  | done => cases h

/-- The main loop moves on; it deals with no exit, or goes on dealing with the same. -/
theorem ExitInv.loopTo (hI : ExitInv s) {loop : LoopStage}
    (hexiting : ∀ worker, loop.exiting = some worker →
      ∃ code, s.workers[worker]? = some (.exited code)) : ExitInv { s with loop } :=
  ⟨hI.owners, hI.tasks, hI.workers.latest, hexiting⟩

/-- The worker whose exit is dealt with has no successor. -/
theorem ExitInv.exiting_latest (hI : ExitInv s) {worker : Nat}
    (hloop : s.loop.exiting = some worker) : worker + 1 = s.workers.length := by
  obtain ⟨code, hcode⟩ := hI.workers.exiting worker hloop
  exact hI.workers.latest worker _ hcode (by simp)

/-- What dealing with an exit takes, drains or clears belongs to the worker or to earlier ones. -/
theorem ExitInv.isolated (hI : ExitInv s) {worker : Nat} (hloop : s.loop.exiting = some worker)
    {owners : List Nat} (howners : ∀ owner ∈ owners, owner < s.workers.length) :
    ExitsIsolated [.exitHandled worker owners] := by
  intro w os hmem owner howner
  cases List.mem_singleton.mp hmem
  have hlt : owner < s.workers.length := howners owner howner
  rw [← hI.exiting_latest hloop] at hlt
  exact Nat.le_of_lt_succ hlt

theorem ExitInv.pendingWorkers (hI : ExitInv s) :
    ∀ owner ∈ s.inner.pendingRequests.map (·.worker), owner < s.workers.length := by
  intro owner howner
  obtain ⟨p, hp, rfl⟩ := List.mem_map.mp howner
  exact hI.owners.pending p hp

/-- The exit has been dealt with. -/
theorem ExitInv.finishExited (hI : ExitInv s) (worker : Nat) (fault : Option String)
    {inner : BridgeInner} (howners : OwnersBelow s.workers.length inner) :
    ExitInv { (s.finishExited worker fault).withInner inner with loop := .ready } := by
  have hgone : ∀ {u : BridgeSupervisor}, ExitInv u → u.workers.length = s.workers.length →
      u.tasks = s.tasks →
      ExitInv { u with workers := u.workers.set worker .gone, inner, loop := .ready } := by
    intro u hu hlength htasks
    have hset : (u.workers.set worker Life.gone).length = s.workers.length := by
      rw [List.length_set, hlength]
    refine ⟨hset ▸ howners, ?_, ?_, fun w hw => by cases hw⟩
    · show Pool.All _ u.tasks
      rw [hset, htasks]
      exact hI.tasks
    · intro w life hw hlife
      rw [List.length_set]
      rw [List.getElem?_set] at hw
      split at hw
      · split at hw
        · exact absurd (Option.some.inj hw).symm hlife
        · cases hw
      · exact hu.workers.latest w life hw hlife
  unfold BridgeSupervisor.finishExited
  split
  -- A process in the slot is not asked whose it is: it is killed with the exit of `worker`.
  next taken _ => exact hgone (hI.kill taken fault) (kill_workers_length s taken fault) rfl
  next => exact hgone hI rfl rfl

theorem exitInv_loopTurn {fault : Option String} {os : List Effect} (hI : ExitInv s)
    (h : s.loopTurn fault s.loop = some (t, os)) : ExitInv t ∧ ExitsIsolated os := by
  cases hloop : s.loop with
  | ready =>
    rw [hloop] at h
    cases h
  | killing why kill =>
    have hk := hI.killStep why fault kill
    rw [hloop] at h
    simp only [BridgeSupervisor.loopTurn] at h
    generalize s.killStep why fault kill = r at h hk
    obtain ⟨u, next, os'⟩ := r
    cases next with
    | none =>
      cases h
      exact ⟨hk.1.loopTo fun w hw => (by cases hw), hk.2⟩
    | some next =>
      cases h
      exact ⟨hk.1.loopTo fun w hw => (by cases hw), hk.2⟩
  | drainingExited worker =>
    have hexiting : s.loop.exiting = some worker := by rw [hloop]; rfl
    rw [hloop] at h
    cases h
    -- The notification is still being dealt with: its worker stays the latest.
    refine ⟨(hI.drain _).loopTo fun w hw => ?_, hI.isolated hexiting hI.pendingWorkers⟩
    cases hw
    exact hI.workers.exiting worker hexiting
  | clearingExited worker =>
    have hexiting : s.loop.exiting = some worker := by rw [hloop]; rfl
    rw [hloop] at h
    cases h
    exact ⟨hI.finishExited worker fault (hI.owners.fewer (.inl rfl) (fun _ hp => hp) (.inl rfl)
      fun _ ht => (by cases ht)), hI.isolated hexiting hI.owners.owners⟩
  | crashed worker code =>
    have hexiting : s.loop.exiting = some worker := by rw [hloop]; rfl
    rw [hloop] at h
    cases h
    refine ⟨(hI.drain _).finishExited worker fault (hI.owners.fewer (.inl rfl)
      (fun _ hp => by cases hp) (.inl rfl) fun _ ht => (by cases ht)),
      hI.isolated hexiting fun owner howner => ?_⟩
    rcases List.mem_append.mp howner with howner | howner
    · exact hI.pendingWorkers owner howner
    · exact hI.owners.owners owner howner

theorem exitInv_step {e : Event} {os : List Effect} (hI : ExitInv s) (halone : SpawnedAlone s e)
    (h : bridgeMachine.step s e = some (t, os)) : ExitInv t ∧ ExitsIsolated os := by
  have h : s.step e = some (t, os) := h
  cases e with
  | execute method cancelId =>
    simp only [BridgeSupervisor.step] at h
    split at h
    · cases h
      refine ⟨⟨hI.owners, hI.tasks.spawn (fun _ _ h => h) fun worker hw => ?_, hI.workers⟩,
        exitsIsolated_nil⟩
      have hfirst : (TaskStage.first method).started = none := by
        unfold TaskStage.first
        split <;> rfl
      exact absurd (hfirst.symm.trans hw) (by simp)
    · cases h
  | turn pid fault =>
    simp only [BridgeSupervisor.step] at h
    split at h
    next task hat =>
      refine exitInv_turn hI (hI.tasks pid task hat) (fun hnone => ?_) h
      subst hnone
      exact halone task hat
    next => cases h
  | forceRecycle =>
    cases h
    exact ⟨⟨hI.owners, hI.tasks, hI.workers⟩, exitsIsolated_nil⟩
  | recycleIfUnowned owner =>
    cases h
    exact ⟨⟨hI.owners, hI.tasks, hI.workers⟩, exitsIsolated_nil⟩
  | callerTimeout cancelId =>
    simp only [BridgeSupervisor.step] at h
    split at h
    · split at h
      · cases h
        exact ⟨⟨hI.owners, hI.tasks, hI.workers⟩, exitsIsolated_nil⟩
      · cases h
        exact ⟨hI, exitsIsolated_nil⟩
    · cases h
      exact ⟨hI, exitsIsolated_nil⟩
  | helperTurn pid fault =>
    simp only [BridgeSupervisor.step] at h
    split at h
    · exact exitInv_helperTurn hI h
    · cases h
  | cancel cancelId =>
    simp only [BridgeSupervisor.step] at h
    split at h
    · cases h
      exact ⟨hI.same rfl rfl rfl (hI.owners.fewer (.inr rfl) (fun _ hp => hp) (.inr rfl)
        fun _ ht => CancelRegistry.mem_tokens_trigger ht), exitsIsolated_nil⟩
    · cases h
  | idleTimeout =>
    simp only [BridgeSupervisor.step] at h
    split at h
    · split at h
      · cases h
        exact ⟨hI.loopTo fun w hw => (by cases hw), exitsIsolated_nil⟩
      · cases h
        exact ⟨hI, exitsIsolated_nil⟩
    · cases h
  | shutdown =>
    simp only [BridgeSupervisor.step] at h
    split at h
    · cases h
      exact ⟨hI.loopTo fun w hw => (by cases hw), exitsIsolated_nil⟩
    · cases h
  | response id success =>
    simp only [BridgeSupervisor.step] at h
    split at h
    · cases h
      exact ⟨hI.same rfl rfl rfl (hI.owners.removePending id), exitsIsolated_nil⟩
    · cases h
  | responseError id error =>
    simp only [BridgeSupervisor.step] at h
    split at h
    · cases h
      exact ⟨hI.same rfl rfl rfl (hI.owners.removePending id), exitsIsolated_nil⟩
    · cases h
  | workerExited worker =>
    simp only [BridgeSupervisor.step] at h
    split at h
    next code _ hexited =>
      cases h
      refine ⟨hI.loopTo fun w hw => ⟨code, ?_⟩, exitsIsolated_nil⟩
      -- Both ways of dealing with an exit are about the worker of the notification.
      have hmine : worker = w := by
        split at hw <;> exact Option.some.inj hw
      exact hmine ▸ hexited
    next => cases h
  | loopTurn fault => exact exitInv_loopTurn hI h
  | exit worker code =>
    simp only [BridgeSupervisor.step] at h
    split at h
    next hrunning =>
      cases h
      have hlength : (s.workers.set worker (Life.exited code)).length = s.workers.length :=
        List.length_set
      refine ⟨⟨hlength ▸ hI.owners, ?_, hI.workers.set hrunning⟩, exitsIsolated_nil⟩
      show Pool.All _ s.tasks
      rw [hlength]
      exact hI.tasks
    next => cases h
  | resetSpawnFailures =>
    cases h
    exact ⟨hI.same rfl rfl rfl ⟨hI.owners.process, hI.owners.pending, hI.owners.session,
      hI.owners.tokens⟩, exitsIsolated_nil⟩
  | tick elapsed =>
    cases h
    exact ⟨⟨hI.owners, hI.tasks, hI.workers⟩, exitsIsolated_nil⟩

end

theorem exitInv_init (environment : Bool) : ExitInv (.init environment) := by
  refine ⟨⟨fun w hw => (by cases hw), fun p hp => (by cases hp), fun w hw => (by cases hw),
    fun t ht => (by cases ht)⟩, .nil, fun w life hw => (by cases hw), fun w hw => (by cases hw)⟩

/-! ## Whole runs -/

/-- In a run in which no worker starts before the exits of the earlier ones have been dealt with,
    dealing with an exit touches nothing of a later worker. -/
theorem exits_are_isolated {environment : Bool} {es : List Event} {os : List Effect}
    {t : BridgeSupervisor} (hrun : bridgeMachine.Steps (.init environment) es os t)
    (halone : bridgeMachine.Along SpawnedAlone (.init environment) es) : ExitsIsolated os := by
  have h := hrun.emits exitsIsolated_nil ExitsIsolated.append exitInv_step halone
    (exitInv_init environment)
  exact h.2

/-- The first worker ends by itself with a login in flight, the second crashes at its health check. -/
def successorRun : List Event :=
  firstRequest "execute_login_attempt" "login" ++
    [.exit 0 0, .workerExited 0, .loopTurn, .loopTurn] ++
    .execute "execute_login_attempt" "again" :: turns 1 12 ++ [.exit 1 1, .workerExited 1, .loopTurn]

theorem exits_are_isolated_sample : ∃ os t,
    bridgeMachine.Steps (.init true) successorRun os t ∧
      os = [.exitHandled 0 [0], .exitHandled 0 [0, 0, 0], .exitHandled 1 [1, 1]] ∧
      ExitsIsolated os := by
  have hrun : (bridgeMachine.exec (.init true) successorRun).any (fun r => decide
      (r.2 = [.exitHandled 0 [0], .exitHandled 0 [0, 0, 0], .exitHandled 1 [1, 1]])) = true := by
    decide
  obtain ⟨t, os, hs, hos⟩ := Machine.steps_of_any hrun
  exact ⟨os, t, hs, of_decide_eq_true hos, exits_are_isolated hs (by decide)⟩

/-- The first worker is recycled and a login retried. While the main loop cleans up after the exit
    of the first worker, the second one is started and gets its health check. -/
def retriedRun : List Event :=
  firstRequest "execute_login_attempt" "login" ++ .response 2 true :: turns 0 4 ++
    .recycleIfUnowned none :: List.replicate 6 (.helperTurn 0) ++
    .execute "execute_login_attempt" "retry" :: .workerExited 0 :: turns 1 12 ++ [.loopTurn]

/-- Not every run isolates the exits: the health check of the second worker is drained and its
    process taken. -/
theorem successor_taken :
    ¬∀ (environment : Bool) (es : List Event) (os : List Effect) (t : BridgeSupervisor),
      bridgeMachine.Steps (.init environment) es os t → ExitsIsolated os := by
  intro hall
  have hrun : (bridgeMachine.exec (.init true) retriedRun).any (fun r => decide
      (r.2 = [.killed .unowned 0 [], .exitHandled 0 [1, 1]])) = true := by decide
  obtain ⟨t, os, hs, hos⟩ := Machine.steps_of_any hrun
  have hos : os = [.killed .unowned 0 [], .exitHandled 0 [1, 1]] := of_decide_eq_true hos
  have hle : 1 ≤ 0 := by
    refine hall true retriedRun os t hs 0 [1, 1] ?_ 1 (by decide)
    rw [hos]
    decide
  exact absurd hle (by decide)

end CampusAuth.Bridge
