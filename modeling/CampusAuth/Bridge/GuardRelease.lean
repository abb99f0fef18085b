import CampusAuth.Bridge.Sections

/- What the guard of a request leaves behind (`bridge/mod.rs`, `reset_session`,
   `debug_guard_cleanup`, `lightweight_cleanup`; `bridge/session.rs`, `CancelRegistry`).

   No token stays registered for a request whose guard is gone, in any run. Its pending entry may
   stay: only the guard of a lightweight request always takes it out, that of a login or a redirect
   test while the slot is its own, that of a debug command never (`pending_dropGuard_iff`). In the
   runs whose guards find the entry gone or take it out (`EntryGoes`), none is left. -/
namespace CampusAuth.Bridge
open Lib

/-- The registered tokens by their cancel ids. -/
def CancelRegistry.entries {τ : Type*} (registry : CancelRegistry τ) : List (String × τ) :=
  registry.map ++ registry.lightweight

namespace CancelRegistry
variable {τ : Type*} {registry : CancelRegistry τ} {now : Nat} {cancelId : String} {token : τ}
  {e : String × τ}

theorem mem_entries : e ∈ registry.entries ↔ e ∈ registry.map ∨ e ∈ registry.lightweight :=
  List.mem_append

theorem mem_entries_register {lightweight : Bool}
    (h : e ∈ (registry.register now cancelId token lightweight).1.entries) :
    e = (cancelId, token) ∨ e ∈ registry.entries := by
  cases lightweight with
  | true =>
    rcases mem_entries.mp h with hmap | hlight
    · exact .inr (mem_entries.mpr (.inl hmap))
    · rcases List.mem_cons.mp hlight with hnew | hold
      · exact .inl hnew
      · exact .inr (mem_entries.mpr (.inr (List.mem_filter.mp hold).1))
  | false =>
    rcases mem_entries.mp h with hmap | hlight
    · rcases List.mem_cons.mp hmap with hnew | hold
      · exact .inl hnew
      · exact .inr (mem_entries.mpr (.inl (List.mem_filter.mp hold).1))
    · exact .inr (mem_entries.mpr (.inr hlight))

theorem mem_entries_trigger (h : e ∈ (registry.trigger now cancelId).1.entries) :
    e ∈ registry.entries := by
  unfold trigger at h
  split at h
  · rcases mem_entries.mp h with hmap | hlight
    · exact mem_entries.mpr (.inl (List.mem_filter.mp hmap).1)
    · exact mem_entries.mpr (.inr hlight)
  · split at h
    · rcases mem_entries.mp h with hmap | hlight
      · exact mem_entries.mpr (.inl hmap)
      · exact mem_entries.mpr (.inr (List.mem_filter.mp hlight).1)
    · exact h

theorem mem_entries_remove :
    e ∈ (registry.remove cancelId).entries ↔ e ∈ registry.entries ∧ e.1 ≠ cancelId := by
  simp [entries, remove, or_and_right]

theorem mem_entries_triggerAll (h : e ∈ registry.triggerAll.1.entries) : e ∈ registry.entries := by
  rcases mem_entries.mp h with hmap | hlight
  · cases hmap
  · exact mem_entries.mpr (.inr hlight)

end CancelRegistry

/-! ## The sections -/

namespace BridgeInner
variable {i j k : BridgeInner}

/-- Neither a pending request nor a token joins. -/
structure Fewer (i j : BridgeInner) : Prop where
  next : i.nextRequestId ≤ j.nextRequestId
  pending : ∀ p ∈ j.pendingRequests, p ∈ i.pendingRequests
  entries : ∀ e ∈ j.cancelRegistry.entries, e ∈ i.cancelRegistry.entries

theorem Fewer.refl (i : BridgeInner) : Fewer i i :=
  ⟨Nat.le_refl _, fun _ hp => hp, fun _ he => he⟩

theorem Fewer.trans (h : Fewer i j) (h' : Fewer j k) : Fewer i k :=
  ⟨Nat.le_trans h.next h'.next, fun p hp => h.pending p (h'.pending p hp),
    fun e he => h.entries e (h'.entries e he)⟩

/-- A section that has nothing to do with either. -/
theorem Fewer.of_same (hpending : j.pendingRequests = i.pendingRequests)
    (hnext : i.nextRequestId ≤ j.nextRequestId) (hregistry : j.cancelRegistry = i.cancelRegistry) :
    Fewer i j :=
  ⟨hnext, fun _ hp => hpending ▸ hp, fun _ he => hregistry ▸ he⟩

theorem fewer_removePending (i : BridgeInner) (id : Nat) : Fewer i (i.removePending id) :=
  ⟨Nat.le_refl _, fun _ hp => (List.mem_filter.mp hp).1, fun _ he => he⟩

theorem fewer_removeCancel (i : BridgeInner) (cancelId : String) :
    Fewer i (i.removeCancel cancelId) :=
  ⟨Nat.le_refl _, fun _ hp => hp, fun _ he => (CancelRegistry.mem_entries_remove.mp he).1⟩

theorem fewer_drainPending (i : BridgeInner) : Fewer i i.drainPending :=
  ⟨Nat.le_refl _, fun _ hp => (List.not_mem_nil hp).elim, fun _ he => he⟩

theorem fewer_forgetSession (i : BridgeInner) : Fewer i i.forgetSession.1 :=
  ⟨Nat.le_refl _, fun _ hp => hp, fun _ he => CancelRegistry.mem_entries_triggerAll he⟩

theorem fewer_settleDebug (i : BridgeInner) (now : Nat) (method : String) (worker : Nat)
    (ok : Bool) : Fewer i (i.settleDebug now method worker ok) := by
  unfold settleDebug
  split
  · exact .of_same rfl (Nat.le_refl _) rfl
  · split
    · exact .of_same rfl (Nat.le_refl _) rfl
    · exact .refl i

theorem fewer_resetSession (i : BridgeInner) (session : SessionType) (id : Nat) :
    Fewer i (i.resetSession session id) := by
  unfold resetSession
  split
  · exact .refl i
  · refine ⟨Nat.le_refl _, fun _ hp => (List.mem_filter.mp hp).1, fun e he => ?_⟩
    dsimp only at he
    split at he
    · exact (CancelRegistry.mem_entries_remove.mp he).1
    · exact he

theorem fewer_debugGuardCleanup (i : BridgeInner) (id : Nat) (cancelId : String) (isStop : Bool) :
    Fewer i (i.debugGuardCleanup id cancelId isStop) := by
  have hremove := fewer_removeCancel i cancelId
  unfold debugGuardCleanup
  split
  · exact hremove
  · split
    · exact hremove.trans (.of_same rfl (Nat.le_refl _) rfl)
    · exact hremove.trans (.of_same rfl (Nat.le_refl _) rfl)

theorem fewer_dropGuard (i : BridgeInner) (method cancelId : String) (id : Nat) :
    Fewer i (i.dropGuard method cancelId id) := by
  unfold dropGuard
  split
  · exact (fewer_removePending i id).trans (fewer_removeCancel _ cancelId)
  · split
    · exact fewer_debugGuardCleanup i id cancelId _
    · exact fewer_resetSession i _ id

/-! ## The guard -/

/-- The entry of the request has gone, or the guard takes it out: that of a lightweight request
    always, that of a login or a redirect test from its own slot. -/
def EntryGoes (i : BridgeInner) (method : String) (id : Nat) : Prop :=
  (∀ p ∈ i.pendingRequests, p.id ≠ id) ∨ isLightweightMethod method = true ∨
    sessionOf method ≠ .debug ∧ i.holds (sessionOf method) id = true

instance (i : BridgeInner) (method : String) (id : Nat) : Decidable (i.EntryGoes method id) :=
  inferInstanceAs (Decidable (_ ∨ _ ∨ _ ∧ _))

theorem forall_removePending (i : BridgeInner) (id : Nat) :
    ∀ p ∈ (i.removePending id).pendingRequests, p.id ≠ id :=
  fun _ hp => of_decide_eq_true (List.mem_filter.mp hp).2

/-- What a guard does to its request's pending entry. -/
theorem pending_dropGuard_iff {method cancelId : String} {id : Nat} :
    (∀ p ∈ (i.dropGuard method cancelId id).pendingRequests, p.id ≠ id) ↔
      i.EntryGoes method id := by
  unfold dropGuard EntryGoes
  split
  next hlight => exact iff_of_true (forall_removePending i id) (.inr (.inl hlight))
  next hlight =>
    split
    next hdebug =>
      have hsame : (i.debugGuardCleanup id cancelId (method = "debug_stop")).pendingRequests =
          i.pendingRequests := by
        unfold debugGuardCleanup
        split
        · rfl
        · split <;> rfl
      rw [hsame]
      simp [hlight, hdebug]
    next hdebug =>
      unfold resetSession
      split
      next hother =>
        have hother : i.holds (sessionOf method) id = false := by simpa using hother
        simp [hlight, hother]
      next hmine =>
        have hmine : i.holds (sessionOf method) id = true := by simpa using hmine
        exact iff_of_true (forall_removePending i id) (.inr (.inr ⟨hdebug, hmine⟩))

/-- Where the guard of a lightweight request or a debug command is one section, it takes the
    tokens of its cancel id out. -/
theorem entries_dropGuard {method cancelId : String} {id : Nat} {e : String × Token}
    (hone : isLightweightMethod method = true ∨ sessionOf method = .debug)
    (he : e ∈ (i.dropGuard method cancelId id).cancelRegistry.entries) : e.1 ≠ cancelId := by
  have hremoved : ∀ k : BridgeInner, e ∈ (k.removeCancel cancelId).cancelRegistry.entries →
      e.1 ≠ cancelId := fun k hk => (CancelRegistry.mem_entries_remove.mp hk).2
  unfold dropGuard at he
  split at he
  · exact hremoved _ he
  next hlight =>
    rw [if_pos (hone.resolve_left hlight)] at he
    unfold debugGuardCleanup at he
    split at he
    · exact hremoved i he
    · split at he
      · exact hremoved i he
      · exact hremoved i he

end BridgeInner

/-! ## The steps -/

namespace TaskStage

/-- The id the task has drawn, for a health check to insert or for its request. -/
def drawn : TaskStage → Option Nat
  | .inserting _ check => some check.id
  | .waiting sent | .acking sent | .owning sent | .killing sent _ | .settling sent _
  | .releasing sent | .unregistering sent | .ended sent => some sent.id
  | _ => none

/-- The request whose guard has seen to the pending entry. -/
def past : TaskStage → Option Sent
  | .unregistering sent | .ended sent => some sent
  | _ => none

/-- The guard finds the entry gone or takes it out. -/
def EntryGoes (i : BridgeInner) (method : String) : TaskStage → Prop
  | .releasing sent => i.EntryGoes method sent.id
  | _ => True

instance (i : BridgeInner) (method : String) :
    ∀ stage : TaskStage, Decidable (stage.EntryGoes i method)
  | .releasing _ => inferInstanceAs (Decidable (BridgeInner.EntryGoes _ _ _))
  | .checkingStale | .recycling | .killingStale _ | .ensuring | .locking | .rechecking | .gating
  | .checkingFailures | .findingPython | .spawning _ | .storing .. | .numbering .. | .inserting ..
  | .sending .. | .hearing .. | .readying | .killingUnready .. | .repairing | .recording _
  | .routing | .admitting | .waiting _ | .acking _ | .owning _ | .killing .. | .settling ..
  | .unregistering _ | .ended _ | .refused _ => .isTrue trivial

end TaskStage

/-- The condition on a step: a guard that is dropped leaves no entry of its request. -/
def EntryGoes (s : BridgeSupervisor) : Event → Prop
  | .turn pid _ => ∀ task ∈ s.tasks[pid]?, task.stage.EntryGoes s.inner task.method
  | _ => True

instance (s : BridgeSupervisor) : ∀ e, Decidable (EntryGoes s e)
  | .turn .. => inferInstanceAs (Decidable (∀ task ∈ _, _))
  | .execute .. | .forceRecycle | .recycleIfUnowned _ | .callerTimeout _ | .helperTurn ..
  | .cancel _ | .idleTimeout | .shutdown | .response .. | .responseError .. | .workerExited _
  | .loopTurn _ | .exit .. | .resetSpawnFailures | .tick _ => .isTrue trivial

/-- What a step of the task to `stage` does to ids, pending requests and tokens. -/
structure Move (i j : BridgeInner) (pid : Nat) (task : Task) (stage : TaskStage) : Prop where
  next : i.nextRequestId ≤ j.nextRequestId
  drawn : ∀ id, stage.drawn = some id →
    task.stage.drawn = some id ∨ i.nextRequestId ≤ id ∧ id < j.nextRequestId
  pending : ∀ p ∈ j.pendingRequests, p ∈ i.pendingRequests ∨ i.nextRequestId ≤ p.id ∨
    ∃ check, task.stage.check = some check ∧ p.id = check.id
  entries : ∀ e ∈ j.cancelRegistry.entries, e ∈ i.cancelRegistry.entries ∨
    e.1 = task.cancelId ∧ e.2.task = pid ∧ ∃ sent, stage.sent = some sent
  own : stage.sent = none →
    task.stage.sent = none ∨ ∀ e ∈ j.cancelRegistry.entries, e.1 ≠ task.cancelId
  past : ∀ sent, stage.past = some sent → task.stage = .unregistering sent ∨
    task.stage = .releasing sent ∧ j = i.dropGuard task.method task.cancelId sent.id

section
variable {i j : BridgeInner} {pid : Nat} {task : Task} {stage : TaskStage}

theorem Move.of_fewer (h : i.Fewer j) (hdrawn : stage.drawn = none ∨ stage.drawn = task.stage.drawn)
    (hown : stage.sent = none → task.stage.sent = none) (hpast : stage.past = none) :
    Move i j pid task stage := by
  refine ⟨h.next, fun id hid => .inl ?_, fun p hp => .inl (h.pending p hp),
    fun e he => .inl (h.entries e he), fun hnone => .inl (hown hnone), fun sent hsent => ?_⟩
  · rcases hdrawn with hnone | hsame
    · rw [hnone] at hid
      cases hid
    · exact hsame ▸ hid
  · rw [hpast] at hsent
    cases hsent

theorem killStep_fewer {s t : BridgeSupervisor} {why : Why} {fault : Option String}
    {kill : KillStage} {next : Option KillStage} {os : List Effect}
    (h : s.killStep why fault kill = (t, next, os)) :
    s.inner.Fewer t.inner ∧ t.tasks = s.tasks := by
  cases kill with
  | taking =>
    simp only [BridgeSupervisor.killStep] at h
    split at h
    · cases h
      exact ⟨.refl _, rfl⟩
    · cases h
      exact ⟨.of_same rfl (Nat.le_refl _) rfl, rfl⟩
  | waiting worker =>
    cases h
    exact ⟨.refl _, rfl⟩
  | draining =>
    cases h
    exact ⟨BridgeInner.fewer_drainPending s.inner, rfl⟩
  | marking =>
    cases h
    exact ⟨.of_same rfl (Nat.le_refl _) rfl, rfl⟩

/-- A request is sent: its id is new, and so is its token. -/
theorem move_sendTo {worker now : Nat} :
    Move i (i.sendTo worker now pid task.method task.cancelId).1 pid task
      (.waiting ⟨i.nextRequestId, worker⟩) := by
  have hpending : (i.sendTo worker now pid task.method task.cancelId).1.pendingRequests =
      i.pendingRequests ++ [⟨i.nextRequestId, some task.method, worker⟩] := by
    unfold BridgeInner.sendTo
    split <;> rfl
  have hregistry : (i.sendTo worker now pid task.method task.cancelId).1.cancelRegistry =
      (i.cancelRegistry.register now task.cancelId ⟨pid, worker⟩
        (isLightweightMethod task.method)).1 := by
    unfold BridgeInner.sendTo
    split <;> rfl
  refine ⟨BridgeInner.sendTo_next ▸ Nat.le_succ _, fun id hid => .inr ?_, fun p hp => ?_,
    fun e he => ?_, fun hnone => ?_, fun _ hsent => ?_⟩
  · cases hid
    rw [BridgeInner.sendTo_next]
    exact ⟨Nat.le_refl _, Nat.lt_succ_self _⟩
  · rw [hpending] at hp
    rcases List.mem_append.mp hp with hold | hnew
    · exact .inl hold
    · rw [List.mem_singleton.mp hnew]
      exact .inr (.inl (Nat.le_refl _))
  · rw [hregistry] at he
    rcases CancelRegistry.mem_entries_register he with rfl | hold
    · exact .inr ⟨rfl, rfl, _, rfl⟩
    · exact .inl hold
  · cases hnone
  · cases hsent

/-- A guard is dropped. -/
theorem move_dropGuard {sent : Sent} (hstage : task.stage = .releasing sent) :
    Move i (i.dropGuard task.method task.cancelId sent.id) pid task
      (if isLightweightMethod task.method || sessionOf task.method = .debug then .ended sent
        else .unregistering sent) := by
  have hfewer := BridgeInner.fewer_dropGuard i task.method task.cancelId sent.id
  have hrest {stage : TaskStage} (hdrawn : stage.drawn = some sent.id)
      (hpast : stage.past = some sent)
      (hown : stage.sent = none → ∀ e ∈ (i.dropGuard task.method task.cancelId
        sent.id).cancelRegistry.entries, e.1 ≠ task.cancelId) :
      Move i (i.dropGuard task.method task.cancelId sent.id) pid task stage := by
    refine ⟨hfewer.next, fun id hid => .inl ?_, fun p hp => .inl (hfewer.pending p hp),
      fun e he => .inl (hfewer.entries e he), fun hnone => .inr (hown hnone),
      fun other hother => .inr ?_⟩
    · rw [hstage]
      exact hdrawn.symm.trans hid
    · cases hpast.symm.trans hother
      exact ⟨hstage, rfl⟩
  split
  next hone =>
    have hone : isLightweightMethod task.method = true ∨ sessionOf task.method = .debug := by
      simpa using hone
    exact hrest rfl rfl fun _ e he => BridgeInner.entries_dropGuard hone he
  next => exact hrest rfl rfl fun hnone => by cases hnone

/-- Every step of a task. -/
theorem turn_move {s t : BridgeSupervisor} {fault : Option String} {os : List Effect}
    (h : s.turn pid task fault task.stage = some (t, os)) :
    ∃ stage, t.tasks = s.tasks.set pid { task with stage } ∧ Move s.inner t.inner pid task stage := by
  have hkills {why : Why} {kill : KillStage} {u : BridgeSupervisor} {next : Option KillStage}
      {os' : List Effect} (hk : s.killStep why fault kill = (u, next, os')) (stage : TaskStage)
      (hdrawn : stage.drawn = none ∨ stage.drawn = task.stage.drawn)
      (hown : stage.sent = none → task.stage.sent = none) (hpast : stage.past = none) :
      (u.moveTo pid task stage).tasks = s.tasks.set pid { task with stage } ∧
        Move s.inner u.inner pid task stage := by
    obtain ⟨hfewer, htasks⟩ := killStep_fewer hk
    refine ⟨?_, .of_fewer hfewer hdrawn hown hpast⟩
    show u.tasks.set pid { task with stage } = _
    rw [htasks]
  cases hstage : task.stage with
  | checkingStale | ensuring =>
    rw [hstage] at h
    cases h
    refine ⟨_, rfl, .of_fewer (.refl _) (.inl ?_) (fun _ => by rw [hstage]; rfl) ?_⟩
    · split <;> rfl
    · split <;> rfl
  | recycling =>
    rw [hstage] at h
    cases h
    exact ⟨_, rfl, .of_fewer (BridgeInner.fewer_forgetSession _) (.inl rfl)
      (fun _ => by rw [hstage]; rfl) rfl⟩
  | killingStale kill =>
    rw [hstage] at h
    simp only [BridgeSupervisor.turn] at h
    split at h
    next u kill' os' hk =>
      cases h
      exact ⟨_, hkills hk _ (.inl rfl) (fun _ => by rw [hstage]; rfl) rfl⟩
    next u os' hk =>
      cases h
      exact ⟨_, hkills hk _ (.inl rfl) (fun _ => by rw [hstage]; rfl) rfl⟩
  | locking =>
    rw [hstage] at h
    simp only [BridgeSupervisor.turn] at h
    split at h
    · cases h
    · cases h
      exact ⟨_, rfl, .of_fewer (.refl _) (.inl rfl) (fun _ => by rw [hstage]; rfl) rfl⟩
  | rechecking =>
    rw [hstage] at h
    simp only [BridgeSupervisor.turn] at h
    split at h
    · cases h
      exact ⟨_, rfl, .of_fewer (.refl _) (.inl rfl) (fun _ => by rw [hstage]; rfl) rfl⟩
    · cases h
      refine ⟨_, rfl, .of_fewer (.refl _) (.inl ?_) (fun _ => by rw [hstage]; rfl) ?_⟩
      · split <;> rfl
      · split <;> rfl
  | gating | checkingFailures | findingPython | repairing | routing =>
    rw [hstage] at h
    simp only [BridgeSupervisor.turn] at h
    split at h
    all_goals
      cases h
      exact ⟨_, rfl, .of_fewer (.refl _) (.inl rfl) (fun _ => by rw [hstage]; rfl) rfl⟩
  | spawning attempt =>
    rw [hstage] at h
    simp only [BridgeSupervisor.turn] at h
    split at h
    · cases h
      exact ⟨_, rfl, .of_fewer (.refl _) (.inl rfl) (fun _ => by rw [hstage]; rfl) rfl⟩
    · split at h
      all_goals
        cases h
        exact ⟨_, rfl, .of_fewer (.refl _) (.inl rfl) (fun _ => by rw [hstage]; rfl) rfl⟩
  | storing attempt worker =>
    rw [hstage] at h
    cases h
    exact ⟨_, rfl, .of_fewer (.of_same rfl (Nat.le_refl _) rfl) (.inl rfl)
      (fun _ => by rw [hstage]; rfl) rfl⟩
  | numbering attempt worker =>
    rw [hstage] at h
    cases h
    refine ⟨_, rfl, ⟨Nat.le_succ _, fun id hid => .inr ?_, fun _ hp => .inl hp,
      fun _ he => .inl he, fun _ => .inl (by rw [hstage]; rfl), fun _ hsent => by cases hsent⟩⟩
    cases hid
    exact ⟨Nat.le_refl _, Nat.lt_succ_self _⟩
  | inserting attempt check =>
    rw [hstage] at h
    cases h
    refine ⟨_, rfl, ⟨Nat.le_refl _, fun _ hid => (by cases hid), fun p hp => ?_,
      fun _ he => .inl he, fun _ => .inl (by rw [hstage]; rfl), fun _ hsent => by cases hsent⟩⟩
    rcases List.mem_append.mp hp with hold | hnew
    · exact .inl hold
    · rw [List.mem_singleton.mp hnew, hstage]
      exact .inr (.inr ⟨check, rfl, rfl⟩)
  | sending attempt check =>
    rw [hstage] at h
    simp only [BridgeSupervisor.turn] at h
    split at h
    · cases h
      exact ⟨_, rfl, .of_fewer (BridgeInner.fewer_removePending _ _) (.inl rfl)
        (fun _ => by rw [hstage]; rfl) rfl⟩
    · cases h
      exact ⟨_, rfl, .of_fewer (.refl _) (.inl rfl) (fun _ => by rw [hstage]; rfl) rfl⟩
  | hearing attempt check =>
    rw [hstage] at h
    simp only [BridgeSupervisor.turn] at h
    split at h
    · cases h
      exact ⟨_, rfl, .of_fewer (.refl _) (.inl rfl) (fun _ => by rw [hstage]; rfl) rfl⟩
    · cases h
      exact ⟨_, rfl, .of_fewer (.refl _) (.inl rfl) (fun _ => by rw [hstage]; rfl) rfl⟩
    · split at h
      · cases h
        exact ⟨_, rfl, .of_fewer (.refl _) (.inl rfl) (fun _ => by rw [hstage]; rfl) rfl⟩
      · cases h
  | readying | recording error =>
    rw [hstage] at h
    cases h
    exact ⟨_, rfl, .of_fewer (.of_same rfl (Nat.le_refl _) rfl) (.inl rfl)
      (fun _ => by rw [hstage]; rfl) rfl⟩
  | killingUnready attempt kill =>
    rw [hstage] at h
    simp only [BridgeSupervisor.turn] at h
    split at h
    next u kill' os' hk =>
      cases h
      exact ⟨_, hkills hk _ (.inl rfl) (fun _ => by rw [hstage]; rfl) rfl⟩
    next u os' hk =>
      split at h
      all_goals
        cases h
        exact ⟨_, hkills hk _ (.inl rfl) (fun _ => by rw [hstage]; rfl) rfl⟩
  | admitting =>
    rw [hstage] at h
    simp only [BridgeSupervisor.turn] at h
    split at h
    next j e _ hr =>
      cases h
      refine ⟨_, rfl, .of_fewer ?_ (.inl rfl) (fun _ => by rw [hstage]; rfl) rfl⟩
      rcases BridgeInner.accept_cases hr with ⟨_, _, rfl | rfl⟩ | ⟨_, _, _, hok, _⟩
      · exact .refl _
      · exact .of_same rfl (Nat.le_succ _) rfl
      · cases hok
    next j sent cancelled hr =>
      cases h
      rcases BridgeInner.accept_cases hr with ⟨_, herror, _⟩ | ⟨worker, _, _, hok, rfl⟩
      · cases herror
      cases hok
      exact ⟨_, rfl, move_sendTo⟩
  | waiting sent =>
    rw [hstage] at h
    simp only [BridgeSupervisor.turn] at h
    split at h
    · cases h
      exact ⟨_, rfl, .of_fewer (.refl _) (.inr (by rw [hstage]; rfl)) (fun h => by cases h) rfl⟩
    · split at h
      · cases h
        exact ⟨_, rfl, .of_fewer (.refl _) (.inr (by rw [hstage]; rfl)) (fun h => by cases h) rfl⟩
      · cases h
  | acking sent =>
    rw [hstage] at h
    simp only [BridgeSupervisor.turn] at h
    split at h
    · cases h
      exact ⟨_, rfl, .of_fewer (.refl _) (.inr (by rw [hstage]; rfl)) (fun h => by cases h) rfl⟩
    · split at h
      · cases h
        exact ⟨_, rfl, .of_fewer (.refl _) (.inr (by rw [hstage]; rfl)) (fun h => by cases h) rfl⟩
      · cases h
  | owning sent =>
    rw [hstage] at h
    simp only [BridgeSupervisor.turn] at h
    split at h
    all_goals
      cases h
      exact ⟨_, rfl, .of_fewer (.refl _) (.inr (by rw [hstage]; rfl)) (fun h => by cases h) rfl⟩
  | killing sent kill =>
    rw [hstage] at h
    simp only [BridgeSupervisor.turn] at h
    split at h
    next u kill' os' hk =>
      cases h
      exact ⟨_, hkills hk _ (.inr (by rw [hstage]; rfl)) (fun h => by cases h) rfl⟩
    next u os' hk =>
      cases h
      exact ⟨_, hkills hk _ (.inr (by rw [hstage]; rfl)) (fun h => by cases h) rfl⟩
  | settling sent result =>
    rw [hstage] at h
    cases h
    exact ⟨_, rfl, .of_fewer (BridgeInner.fewer_settleDebug _ _ _ _ _)
      (.inr (by rw [hstage]; rfl)) (fun h => by cases h) rfl⟩
  | releasing sent =>
    rw [hstage] at h
    cases h
    exact ⟨_, rfl, move_dropGuard hstage⟩
  | unregistering sent =>
    rw [hstage] at h
    cases h
    have hfewer := BridgeInner.fewer_removeCancel s.inner task.cancelId
    refine ⟨_, rfl, ⟨hfewer.next, fun id hid => .inl (by rw [hstage]; exact hid),
      fun p hp => .inl (hfewer.pending p hp), fun e he => .inl (hfewer.entries e he),
      fun _ => .inr fun e he => ?_, fun other hother => .inl ?_⟩⟩
    · exact (CancelRegistry.mem_entries_remove.mp he).2
    · cases hother
      exact hstage
  | ended sent | refused error =>
    rw [hstage] at h
    cases h

end

/-! ## The invariant -/

/-- Drawn ids are used up, no two tasks have one, and a token is registered for a request whose
    guard is not gone yet, under its cancel id. -/
structure GuardInv (s : BridgeSupervisor) : Prop where
  drawn : s.tasks.All fun _ task => ∀ id, task.stage.drawn = some id → id < s.inner.nextRequestId
  apart : ∀ (i j : Nat) (a b : Task) (id : Nat), s.tasks[i]? = some a → s.tasks[j]? = some b →
    a.stage.drawn = some id → b.stage.drawn = some id → i = j
  registered : ∀ e ∈ s.inner.cancelRegistry.entries, ∃ task sent,
    s.tasks[e.2.task]? = some task ∧ task.cancelId = e.1 ∧ task.stage.sent = some sent

/-- No entry is pending of a request whose guard has seen to it. -/
def Gone (s : BridgeSupervisor) : Prop :=
  s.tasks.All fun _ task => ∀ sent, task.stage.past = some sent →
    ∀ p ∈ s.inner.pendingRequests, p.id ≠ sent.id

section
variable {s t : BridgeSupervisor} {pid : Nat} {task : Task} {stage : TaskStage}

theorem drawn_of_past {sent : Sent} (h : stage.past = some sent) : stage.drawn = some sent.id := by
  cases stage with
  | unregistering other | ended other =>
    cases h
    rfl
  | _ => cases h

/-- A step that moves no task. -/
theorem GuardInv.fewer (hI : GuardInv s) (hf : s.inner.Fewer t.inner) (htasks : t.tasks = s.tasks) :
    GuardInv t := by
  refine ⟨?_, ?_, fun e he => ?_⟩
  · rw [htasks]
    exact hI.drawn.imp fun _ a ha id hid => Nat.lt_of_lt_of_le (ha id hid) hf.next
  · rw [htasks]
    exact hI.apart
  · rw [htasks]
    exact hI.registered e (hf.entries e he)

theorem Gone.fewer (hG : Gone s) (hf : s.inner.Fewer t.inner) (htasks : t.tasks = s.tasks) :
    Gone t := by
  unfold Gone
  rw [htasks]
  exact hG.imp fun _ a ha sent hsent p hp => ha sent hsent p (hf.pending p hp)

/-- A task comes, or goes from one stage to the next. -/
theorem GuardInv.move (hI : GuardInv s) (hat : s.tasks[pid]? = some task)
    (htasks : t.tasks = s.tasks.set pid { task with stage })
    (hm : Move s.inner t.inner pid task stage) : GuardInv t := by
  have hnew : ∀ id, stage.drawn = some id → id < t.inner.nextRequestId := by
    intro id hid
    rcases hm.drawn id hid with hold | ⟨-, hlt⟩
    · exact Nat.lt_of_lt_of_le (hI.drawn pid task hat id hold) hm.next
    · exact hlt
  -- Another task has drawn its id before.
  have hother : ∀ j b id, j ≠ pid → s.tasks[j]? = some b → b.stage.drawn = some id →
      stage.drawn ≠ some id := by
    intro j b id hne hb hid hsame
    rcases hm.drawn id hsame with hold | ⟨hle, -⟩
    · exact hne (hI.apart j pid b task id hb hat hid hold)
    · exact Nat.not_le.mpr (hI.drawn j b hb id hid) hle
  have hself : t.tasks[pid]? = some { task with stage } := by
    rw [htasks, List.getElem?_set_self (List.getElem?_eq_some_iff.mp hat).1]
  refine ⟨?_, fun i j a b id hi hj ha hb => ?_, fun e he => ?_⟩
  · rw [htasks]
    exact hI.drawn.set (fun _ a _ ha id hid => Nat.lt_of_lt_of_le (ha id hid) hm.next) hnew
  · rw [htasks] at hi hj
    rcases Pool.of_set hi with ⟨rfl, rfl⟩ | ⟨hi', hold⟩
    · rcases Pool.of_set hj with ⟨rfl, rfl⟩ | ⟨hj', hj⟩
      · rfl
      · exact absurd ha (hother j b id hj' hj hb)
    · rcases Pool.of_set hj with ⟨rfl, rfl⟩ | ⟨-, hj⟩
      · exact absurd hb (hother i a id hi' hold ha)
      · exact hI.apart i j a b id hold hj ha hb
  · rcases hm.entries e he with hold | ⟨hid, hpid, sent, hsent⟩
    · obtain ⟨a, sent, ha, hcancel, hsent⟩ := hI.registered e hold
      by_cases heq : e.2.task = pid
      · rw [heq] at ha ⊢
        cases hat.symm.trans ha
        cases hstage : stage.sent with
        | some sent' => exact ⟨_, sent', hself, hcancel, hstage⟩
        | none =>
          rcases hm.own hstage with hnone | hgone
          · rw [hnone] at hsent
            cases hsent
          · exact absurd hcancel.symm (hgone e he)
      · refine ⟨a, sent, ?_, hcancel, hsent⟩
        rw [htasks, List.getElem?_set_ne (Ne.symm heq)]
        exact ha
    · rw [hpid]
      exact ⟨_, sent, hself, hid.symm, hsent⟩

theorem Gone.move (hG : Gone s) (hI : GuardInv s) (hat : s.tasks[pid]? = some task)
    (htasks : t.tasks = s.tasks.set pid { task with stage })
    (hm : Move s.inner t.inner pid task stage) (hgoes : task.stage.EntryGoes s.inner task.method) :
    Gone t := by
  unfold Gone
  rw [htasks]
  intro j b hj sent hsent p hp
  rcases Pool.of_set hj with ⟨rfl, rfl⟩ | ⟨hne, hb⟩
  · rcases hm.past sent hsent with hstage | ⟨hstage, hdrop⟩
    · have hold := hG j task hat sent (by rw [hstage]; rfl)
      rcases hm.pending p hp with hmem | hnew | ⟨check, hcheck, -⟩
      · exact hold p hmem
      · have hlt := hI.drawn j task hat sent.id (by rw [hstage]; rfl)
        omega
      · rw [hstage] at hcheck
        cases hcheck
    · rw [hstage] at hgoes
      rw [hdrop] at hp
      exact BridgeInner.pending_dropGuard_iff.mpr hgoes p hp
  · have hdrawn := drawn_of_past hsent
    rcases hm.pending p hp with hmem | hnew | ⟨check, hcheck, hid⟩
    · exact hG j b hb sent hsent p hmem
    · have hlt := hI.drawn j b hb sent.id hdrawn
      omega
    · intro hsame
      have hmine : task.stage.drawn = some sent.id := by
        cases hstage : task.stage with
        | inserting attempt other =>
          rw [hstage] at hcheck
          cases hcheck
          rw [← hsame, hid]
          rfl
        | _ =>
          rw [hstage] at hcheck
          cases hcheck
      exact hne (hI.apart j pid b task sent.id hb hat hdrawn hmine)

/-- A new task has neither a request nor an id. -/
theorem first_free (method : String) :
    (TaskStage.first method).drawn = none ∧ (TaskStage.first method).past = none := by
  unfold TaskStage.first
  split
  · exact ⟨rfl, rfl⟩
  · exact ⟨rfl, rfl⟩

theorem GuardInv.spawn (hI : GuardInv s) (hinner : t.inner = s.inner) {method cancelId : String}
    (htasks : t.tasks = s.tasks ++ [⟨method, cancelId, .first method⟩]) : GuardInv t := by
  have hnone := (first_free method).1
  refine ⟨?_, fun i j a b id hi hj ha hb => ?_, fun e he => ?_⟩
  · rw [htasks, hinner]
    refine hI.drawn.spawn (fun _ _ h => h) fun id hid => ?_
    exact absurd (hnone.symm.trans hid) (by simp)
  · rw [htasks] at hi hj
    rcases Pool.of_spawn hi with hi | ⟨-, rfl⟩
    · rcases Pool.of_spawn hj with hj | ⟨-, rfl⟩
      · exact hI.apart i j a b id hi hj ha hb
      · exact absurd (hnone.symm.trans hb) (by simp)
    · exact absurd (hnone.symm.trans ha) (by simp)
  · rw [hinner] at he
    obtain ⟨a, sent, ha, hrest⟩ := hI.registered e he
    refine ⟨a, sent, ?_, hrest⟩
    rw [htasks, List.getElem?_append_left (List.getElem?_eq_some_iff.mp ha).1]
    exact ha

theorem Gone.spawn (hG : Gone s) (hinner : t.inner = s.inner) {method cancelId : String}
    (htasks : t.tasks = s.tasks ++ [⟨method, cancelId, .first method⟩]) : Gone t := by
  unfold Gone
  rw [htasks, hinner]
  refine Pool.All.spawn hG (fun _ _ h => h) fun sent hsent => ?_
  exact absurd ((first_free method).2.symm.trans hsent) (by simp)

theorem helperTurn_fewer {helper : Helper} {fault : Option String} {os : List Effect}
    (h : s.helperTurn pid fault helper = some (t, os)) :
    s.inner.Fewer t.inner ∧ t.tasks = s.tasks := by
  cases helper with
  | checking owner | graceWait id =>
    cases h
    exact ⟨.refl _, rfl⟩
  | recycling why =>
    cases h
    exact ⟨BridgeInner.fewer_forgetSession s.inner, rfl⟩
  | killing why kill =>
    simp only [BridgeSupervisor.helperTurn] at h
    split at h
    next hk =>
      obtain ⟨hf, htasks⟩ := killStep_fewer hk
      cases h
      exact ⟨hf, htasks⟩
    next hk =>
      obtain ⟨hf, htasks⟩ := killStep_fewer hk
      cases h
      exact ⟨hf, htasks⟩
  | done => cases h

theorem loopTurn_fewer {stage : LoopStage} {fault : Option String} {os : List Effect}
    (h : s.loopTurn fault stage = some (t, os)) : s.inner.Fewer t.inner ∧ t.tasks = s.tasks := by
  have hgone : ∀ i : BridgeInner, i.Fewer { i with
      pendingRequests := [], cancelRegistry := CancelRegistry.clear } := fun i =>
    ⟨Nat.le_refl _, fun _ hp => (List.not_mem_nil hp).elim, fun _ he => (List.not_mem_nil he).elim⟩
  cases stage with
  | ready => cases h
  | killing why kill =>
    simp only [BridgeSupervisor.loopTurn] at h
    split at h
    next hk =>
      obtain ⟨hf, htasks⟩ := killStep_fewer hk
      cases h
      exact ⟨hf, htasks⟩
    next hk =>
      obtain ⟨hf, htasks⟩ := killStep_fewer hk
      cases h
      exact ⟨hf, htasks⟩
  | drainingExited worker =>
    cases h
    exact ⟨BridgeInner.fewer_drainPending s.inner, rfl⟩
  | clearingExited worker =>
    obtain ⟨-, -, -, htasks⟩ := finishExited_rest s worker fault
    cases h
    exact ⟨⟨Nat.le_refl _, fun _ hp => hp, fun _ he => (List.not_mem_nil he).elim⟩, htasks⟩
  | crashed worker code =>
    cases h
    refine ⟨?_, (finishExited_rest _ worker fault).2.2.2⟩
    exact (hgone s.inner).trans (.of_same rfl (Nat.le_refl _) rfl)

/-- Every step: no task moves, one comes, or one goes on. -/
theorem step_cases {e : Event} {os : List Effect} (h : s.step e = some (t, os)) :
    (s.inner.Fewer t.inner ∧ t.tasks = s.tasks) ∨
      (∃ method cancelId, t.inner = s.inner ∧
        t.tasks = s.tasks ++ [⟨method, cancelId, .first method⟩]) ∨
      ∃ pid fault task stage, e = .turn pid fault ∧ s.tasks[pid]? = some task ∧
        t.tasks = s.tasks.set pid { task with stage } ∧ Move s.inner t.inner pid task stage := by
  cases e with
  | execute method cancelId =>
    simp only [BridgeSupervisor.step] at h
    split at h
    · cases h
      exact .inr (.inl ⟨method, cancelId, rfl, rfl⟩)
    · cases h
  | turn pid fault =>
    simp only [BridgeSupervisor.step] at h
    split at h
    next task hat =>
      obtain ⟨stage, htasks, hm⟩ := turn_move h
      exact .inr (.inr ⟨pid, fault, task, stage, rfl, hat, htasks, hm⟩)
    next => cases h
  | forceRecycle | recycleIfUnowned owner | resetSpawnFailures | tick elapsed =>
    cases h
    exact .inl ⟨.of_same rfl (Nat.le_refl _) rfl, rfl⟩
  | callerTimeout cancelId =>
    simp only [BridgeSupervisor.step] at h
    split at h
    · split at h
      · cases h
        exact .inl ⟨.refl _, rfl⟩
      · cases h
        exact .inl ⟨.refl _, rfl⟩
    · cases h
      exact .inl ⟨.refl _, rfl⟩
  | helperTurn pid fault =>
    simp only [BridgeSupervisor.step] at h
    split at h
    · exact .inl (helperTurn_fewer h)
    · cases h
  | cancel cancelId =>
    simp only [BridgeSupervisor.step] at h
    split at h
    · cases h
      exact .inl ⟨⟨Nat.le_refl _, fun _ hp => hp,
        fun _ he => CancelRegistry.mem_entries_trigger he⟩, rfl⟩
    · cases h
  | idleTimeout =>
    simp only [BridgeSupervisor.step] at h
    split at h
    · split at h
      · cases h
        exact .inl ⟨.refl _, rfl⟩
      · cases h
        exact .inl ⟨.refl _, rfl⟩
    · cases h
  | shutdown =>
    simp only [BridgeSupervisor.step] at h
    split at h
    · cases h
      exact .inl ⟨.refl _, rfl⟩
    · cases h
  | response id success | responseError id error =>
    simp only [BridgeSupervisor.step] at h
    split at h
    · cases h
      exact .inl ⟨BridgeInner.fewer_removePending s.inner id, rfl⟩
    · cases h
  | workerExited worker =>
    simp only [BridgeSupervisor.step] at h
    split at h
    · cases h
      exact .inl ⟨.refl _, rfl⟩
    · cases h
  | loopTurn fault => exact .inl (loopTurn_fewer h)
  | exit worker code =>
    simp only [BridgeSupervisor.step] at h
    split at h
    · cases h
      exact .inl ⟨.refl _, rfl⟩
    · cases h

theorem guardInv_step {e : Event} {os : List Effect} (hI : GuardInv s)
    (h : s.step e = some (t, os)) : GuardInv t := by
  rcases step_cases h with ⟨hf, htasks⟩ | ⟨method, cancelId, hinner, htasks⟩ |
    ⟨pid, fault, task, stage, rfl, hat, htasks, hm⟩
  · exact hI.fewer hf htasks
  · exact hI.spawn hinner htasks
  · exact hI.move hat htasks hm

theorem gone_step {e : Event} {os : List Effect} (hI : GuardInv s) (hG : Gone s)
    (hgoes : EntryGoes s e) (h : s.step e = some (t, os)) : Gone t := by
  rcases step_cases h with ⟨hf, htasks⟩ | ⟨method, cancelId, hinner, htasks⟩ |
    ⟨pid, fault, task, stage, rfl, hat, htasks, hm⟩
  · exact hG.fewer hf htasks
  · exact hG.spawn hinner htasks
  · exact hG.move hI hat htasks hm (hgoes task hat)

end

theorem guardInv_init (environment : Bool) : GuardInv (.init environment) :=
  ⟨.nil, fun _ _ _ _ _ hi => (by cases hi), fun _ he => (List.not_mem_nil he).elim⟩

/-! ## Whole runs -/

/-- No token is registered for a request whose guard is gone. -/
def TokensGone (s : BridgeSupervisor) : Prop :=
  ∀ (pid : Nat) (task : Task) (sent : Sent), s.tasks[pid]? = some task →
    task.stage = .ended sent → ∀ e ∈ s.inner.cancelRegistry.entries, e.2.task ≠ pid

/-- Nor is an entry of it pending. -/
def EntriesGone (s : BridgeSupervisor) : Prop :=
  ∀ (pid : Nat) (task : Task) (sent : Sent), s.tasks[pid]? = some task →
    task.stage = .ended sent → ∀ p ∈ s.inner.pendingRequests, p.id ≠ sent.id

theorem GuardInv.tokensGone {s : BridgeSupervisor} (hI : GuardInv s) : TokensGone s := by
  rintro _ task sent hat hended e he rfl
  obtain ⟨other, sent', hother, -, hsent⟩ := hI.registered e he
  cases hat.symm.trans hother
  rw [hended] at hsent
  cases hsent

/-- In every run no token is left behind, and where every guard finds the entry gone or takes it
    out, no entry. -/
theorem guards_release {environment : Bool} {es : List Event} {os : List Effect}
    {t : BridgeSupervisor} (hrun : bridgeMachine.Steps (.init environment) es os t) :
    TokensGone t ∧ (bridgeMachine.Along EntryGoes (.init environment) es → EntriesGone t) := by
  have hinv : GuardInv t := hrun.invariant (I := GuardInv) (C := fun _ _ => True)
    (fun hI _ hs => guardInv_step hI hs) (Machine.along_of_forall fun _ _ => trivial)
    (guardInv_init environment)
  refine ⟨hinv.tokensGone, fun hgoes pid task sent hat hended => ?_⟩
  have hboth : GuardInv t ∧ Gone t := hrun.invariant
    (I := fun s => GuardInv s ∧ Gone s) (C := EntryGoes)
    (fun hI hC hs => ⟨guardInv_step hI.1 hs, gone_step hI.1 hI.2 hC hs⟩) hgoes
    ⟨guardInv_init environment, .nil⟩
  exact hboth.2 pid task hat sent (by rw [hended]; rfl)

/-- A task whose guard is gone. -/
def endedWith (s : BridgeSupervisor) (pid : Nat) (id : Nat) : Bool :=
  match s.tasks[pid]? with
  | some ⟨_, _, .ended sent⟩ => sent.id = id
  | _ => false

theorem ended_of_endedWith {s : BridgeSupervisor} {pid id : Nat} (h : endedWith s pid id = true) :
    ∃ task sent, s.tasks[pid]? = some task ∧ task.stage = .ended sent ∧ sent.id = id := by
  unfold endedWith at h
  split at h
  next method cancelId sent hat => exact ⟨_, sent, hat, rfl, of_decide_eq_true h⟩
  next => cases h

/-- A login and its answer. -/
def answeredRun : List Event :=
  firstRequest "execute_login_attempt" "login" ++ .response 2 true :: turns 0 4

theorem guards_release_sample : ∃ os t, bridgeMachine.Steps (.init true) answeredRun os t ∧
    endedWith t 0 2 = true ∧ TokensGone t ∧ EntriesGone t := by
  have hrun : (bridgeMachine.exec (.init true) answeredRun).any
      (fun r => endedWith r.1 0 2) = true := by decide
  obtain ⟨t, os, hs, hended⟩ := Machine.steps_of_any hrun
  have hrelease := guards_release hs
  exact ⟨os, t, hs, hended, hrelease.1, hrelease.2 (by decide)⟩

/-- A second login takes the slot over from the first, which is cancelled then. The worker confirms
    nothing; the slot is not the first one's, so the worker is left alone. -/
def supersededRun : List Event :=
  firstRequest "execute_login_attempt" "first" ++
    .execute "execute_login_attempt" "second" :: turns 1 6 ++
    .cancel "first" :: .turn 0 :: .turn 0 (some "timeout") :: turns 0 4

/-- The entry of the first login stays. -/
theorem superseded_entry_left :
    ¬∀ (environment : Bool) (es : List Event) (os : List Effect) (t : BridgeSupervisor),
      bridgeMachine.Steps (.init environment) es os t → TokensGone t ∧ EntriesGone t := by
  intro hall
  have hrun : (bridgeMachine.exec (.init true) supersededRun).any (fun r =>
      endedWith r.1 0 2 && decide (⟨2, some "execute_login_attempt", 0⟩ ∈
        r.1.inner.pendingRequests)) = true := by decide
  obtain ⟨t, os, hs, hend⟩ := Machine.steps_of_any hrun
  simp only [Bool.and_eq_true, decide_eq_true_eq] at hend
  obtain ⟨task, sent, hat, hended, hid⟩ := ended_of_endedWith hend.1
  exact (hall true supersededRun os t hs).2 0 task sent hat hended _ hend.2 hid.symm

end CampusAuth.Bridge
