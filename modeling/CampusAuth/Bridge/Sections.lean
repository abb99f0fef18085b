import CampusAuth.Bridge.Supervisor

/- What a locked section does to the pending requests and to the session slot.

   All sections but the one that sends a request only take pending requests away and either leave
   the slot's request as it is or empty it (`Shrinks`); `sendTo` adds one request with a new id.
   `Later` is what both have in common, and what the other tasks see of a section. At the end, the
   steps of a task that only look at the state. -/
namespace CampusAuth.Bridge
open Lib

namespace BridgeInner
variable {i j k : BridgeInner}

theorem mem_inFlight {p : Pending} :
    p ∈ i.inFlight ↔ p ∈ i.pendingRequests ∧ p.slotted = true := List.mem_filter

theorem inFlight_eq_nil (h : i.pendingRequests = []) : i.inFlight = [] := by
  unfold inFlight
  rw [h]
  rfl

/-- The ids of the pending requests are used up. -/
def IdsBelow (i : BridgeInner) : Prop := ∀ p ∈ i.pendingRequests, p.id < i.nextRequestId

/-- No request joins, and the request of the slot stays or leaves it. -/
structure Shrinks (i j : BridgeInner) : Prop where
  next : i.nextRequestId ≤ j.nextRequestId
  ids : i.IdsBelow → j.IdsBelow
  fewer : ∀ p ∈ j.inFlight, p ∈ i.inFlight
  slot : j.currentRequestId = none ∨
    (j.currentRequestId = i.currentRequestId ∧ j.currentCancelId = i.currentCancelId)

/-- Requests that join have new ids, and so has a request that newly takes the slot. -/
structure Later (i j : BridgeInner) : Prop where
  next : i.nextRequestId ≤ j.nextRequestId
  fewer : ∀ p ∈ j.inFlight, p ∈ i.inFlight ∨ i.nextRequestId ≤ p.id
  slot : ∀ id < i.nextRequestId, j.currentRequestId = some id →
    i.currentRequestId = some id ∧ j.currentCancelId = i.currentCancelId

theorem Shrinks.later (h : Shrinks i j) : Later i j := by
  refine ⟨h.next, fun p hp => .inl (h.fewer p hp), fun id _ hid => ?_⟩
  rcases h.slot with hnone | ⟨hsame, hcancel⟩
  · rw [hnone] at hid
    cases hid
  · exact ⟨hsame ▸ hid, hcancel⟩

theorem Shrinks.nil (h : Shrinks i j) (hi : i.inFlight = []) : j.inFlight = [] := by
  rw [List.eq_nil_iff_forall_not_mem]
  intro p hp
  have := h.fewer p hp
  rw [hi] at this
  cases this

theorem Shrinks.refl (i : BridgeInner) : Shrinks i i :=
  ⟨Nat.le_refl _, fun h => h, fun _ h => h, .inr ⟨rfl, rfl⟩⟩

theorem Shrinks.trans (h : Shrinks i j) (h' : Shrinks j k) : Shrinks i k := by
  refine ⟨Nat.le_trans h.next h'.next, fun hi => h'.ids (h.ids hi),
    fun p hp => h.fewer p (h'.fewer p hp), ?_⟩
  rcases h'.slot with hnone | ⟨hsame, hcancel⟩
  · exact .inl hnone
  · rw [hsame, hcancel]
    exact h.slot

/-- A section that takes pending requests away. -/
theorem Shrinks.of_pending (hnext : i.nextRequestId ≤ j.nextRequestId)
    (hpending : ∀ p ∈ j.pendingRequests, p ∈ i.pendingRequests)
    (hslot : j.currentRequestId = none ∨
      (j.currentRequestId = i.currentRequestId ∧ j.currentCancelId = i.currentCancelId)) :
    Shrinks i j := by
  refine ⟨hnext, fun hids p hp => Nat.lt_of_lt_of_le (hids p (hpending p hp)) hnext,
    fun p hp => ?_, hslot⟩
  obtain ⟨hmem, hslotted⟩ := mem_inFlight.mp hp
  exact mem_inFlight.mpr ⟨hpending p hmem, hslotted⟩

/-- A section that has nothing to do with the pending requests and the slot. -/
theorem Shrinks.of_same (hpending : j.pendingRequests = i.pendingRequests)
    (hnext : i.nextRequestId ≤ j.nextRequestId)
    (hslot : j.currentRequestId = i.currentRequestId ∧ j.currentCancelId = i.currentCancelId) :
    Shrinks i j :=
  .of_pending hnext (fun _ hp => hpending ▸ hp) (.inr hslot)

/-! ## The sections -/

theorem shrinks_removePending (i : BridgeInner) (id : Nat) : Shrinks i (i.removePending id) :=
  .of_pending (Nat.le_refl _) (fun _ hp => (List.mem_filter.mp hp).1) (.inr ⟨rfl, rfl⟩)

theorem shrinks_takeRequestId (i : BridgeInner) : Shrinks i i.takeRequestId :=
  .of_same rfl (Nat.le_succ _) ⟨rfl, rfl⟩

/-- A health check is pending, but it is no request of a caller. -/
theorem shrinks_insertHealthCheck (i : BridgeInner) {sent : Sent} (h : sent.id < i.nextRequestId) :
    Shrinks i (i.insertHealthCheck sent) := by
  refine ⟨Nat.le_refl _, fun hids p hp => ?_, fun p hp => ?_, .inr ⟨rfl, rfl⟩⟩
  · rcases List.mem_append.mp hp with hp | hp
    · exact hids p hp
    · rw [List.mem_singleton.mp hp]
      exact h
  · obtain ⟨hmem, hslotted⟩ := mem_inFlight.mp hp
    rcases List.mem_append.mp hmem with hmem | hmem
    · exact mem_inFlight.mpr ⟨hmem, hslotted⟩
    · rw [List.mem_singleton.mp hmem] at hslotted
      cases hslotted

theorem settleDebug_same (i : BridgeInner) (now : Nat) (method : String) (worker : Nat) (ok : Bool) :
    (i.settleDebug now method worker ok).pendingRequests = i.pendingRequests ∧
      (i.settleDebug now method worker ok).nextRequestId = i.nextRequestId ∧
      (i.settleDebug now method worker ok).currentSession = i.currentSession ∧
      (i.settleDebug now method worker ok).currentCancelId = i.currentCancelId ∧
      (i.settleDebug now method worker ok).currentRequestId = i.currentRequestId := by
  unfold settleDebug
  split
  · exact ⟨rfl, rfl, rfl, rfl, rfl⟩
  · split <;> exact ⟨rfl, rfl, rfl, rfl, rfl⟩

theorem shrinks_settleDebug (i : BridgeInner) (now : Nat) (method : String) (worker : Nat)
    (ok : Bool) : Shrinks i (i.settleDebug now method worker ok) := by
  obtain ⟨hpending, hnext, -, hcancel, hrequest⟩ := settleDebug_same i now method worker ok
  exact .of_same hpending (Nat.le_of_eq hnext.symm) ⟨hrequest, hcancel⟩

theorem shrinks_drainPending (i : BridgeInner) : Shrinks i i.drainPending :=
  .of_pending (Nat.le_refl _) (fun _ hp => by cases hp) (.inr ⟨rfl, rfl⟩)

/-- A section that empties the slot and adds no request. -/
theorem shrinks_emptySlot (hpending : ∀ p ∈ j.pendingRequests, p ∈ i.pendingRequests)
    (hnext : j.nextRequestId = i.nextRequestId) (hrequest : j.currentRequestId = none) :
    Shrinks i j :=
  .of_pending (Nat.le_of_eq hnext.symm) hpending (.inl hrequest)

/-! ## The guard of a request -/

/-- The guard of the request lets go of the slot: the slot is its own, and no debug session is kept
    open in it. -/
def letsGo (i : BridgeInner) (method : String) (id : Nat) : Bool :=
  !isLightweightMethod method && i.holds (sessionOf method) id &&
    !(sessionOf method = .debug && method ≠ "debug_stop" && i.debugSessionOpen)

/-- What a guard may do: nothing to the slot; let go of it; or leave it to the debug session. -/
inductive Dropped (i j : BridgeInner) (method : String) (id : Nat) : Prop
  | other (hlets : i.letsGo method id = false) (hsession : j.currentSession = i.currentSession)
      (hrequest : j.currentRequestId = i.currentRequestId)
  | released (hlets : i.letsGo method id = true) (hsession : j.currentSession = none)
      (hrequest : j.currentRequestId = none) (hmine : i.currentRequestId = some id)
  | kept (hlets : i.letsGo method id = false) (hsession : j.currentSession = some .debug)
      (hwas : i.currentSession = some .debug) (hrequest : j.currentRequestId = none)

theorem holds_eq_true {session : SessionType} {id : Nat} :
    i.holds session id = true ↔ i.currentSession = some session ∧ i.currentRequestId = some id := by
  simp [holds]

theorem shrinks_dropGuard (i : BridgeInner) (method cancelId : String) (id : Nat) :
    Shrinks i (i.dropGuard method cancelId id) := by
  unfold dropGuard
  split
  · exact .of_pending (Nat.le_refl _) (fun _ hp => (List.mem_filter.mp hp).1) (.inr ⟨rfl, rfl⟩)
  · split
    · unfold debugGuardCleanup
      split
      · exact .of_same rfl (Nat.le_refl _) ⟨rfl, rfl⟩
      · split
        · exact shrinks_emptySlot (fun _ hp => hp) rfl rfl
        · exact shrinks_emptySlot (fun _ hp => hp) rfl rfl
    · unfold resetSession
      split
      · exact .refl i
      · exact shrinks_emptySlot (fun _ hp => (List.mem_filter.mp hp).1) rfl rfl

theorem dropped (i : BridgeInner) (method cancelId : String) (id : Nat) :
    Dropped i (i.dropGuard method cancelId id) method id := by
  unfold dropGuard
  split
  next hlight => exact .other (by simp [letsGo, hlight]) rfl rfl
  next hlight =>
    have hlight : isLightweightMethod method = false := by simpa using hlight
    split
    next hdebug =>
      unfold debugGuardCleanup
      split
      next hholds =>
        have hholds : i.holds .debug id = false := by simpa using hholds
        exact .other (by simp [letsGo, hlight, hdebug, hholds]) rfl rfl
      next hholds =>
        have hholds : i.holds .debug id = true := by simpa using hholds
        obtain ⟨hsession, hrequest⟩ := holds_eq_true.mp hholds
        split
        next hstop =>
          refine .released ?_ rfl rfl hrequest
          have hstop : method = "debug_stop" ∨ i.debugSessionOpen = false := by simpa using hstop
          unfold letsGo
          rw [hlight, hdebug, hholds]
          rcases hstop with hstop | hclosed
          · simp [hstop]
          · simp [hclosed]
        next hstop =>
          have hstop : method ≠ "debug_stop" ∧ i.debugSessionOpen = true := by simpa using hstop
          exact .kept (by simp [letsGo, hlight, hdebug, hholds, hstop]) hsession hsession rfl
    next hdebug =>
      unfold resetSession
      split
      next hholds =>
        have hholds : i.holds (sessionOf method) id = false := by simpa using hholds
        exact .other (by simp [letsGo, hlight, hholds]) rfl rfl
      next hholds =>
        have hholds : i.holds (sessionOf method) id = true := by simpa using hholds
        exact .released (by simp [letsGo, hlight, hdebug, hholds]) rfl rfl
          (holds_eq_true.mp hholds).2

/-- A guard takes no request away but its own. -/
theorem mem_inFlight_dropGuard {method cancelId : String} {id : Nat} {p : Pending}
    (hp : p ∈ i.inFlight) (hother : p.id ≠ id) : p ∈ (i.dropGuard method cancelId id).inFlight := by
  obtain ⟨hmem, hslotted⟩ := mem_inFlight.mp hp
  refine mem_inFlight.mpr ⟨?_, hslotted⟩
  have hstays : p ∈ i.pendingRequests.filter (·.id ≠ id) :=
    List.mem_filter.mpr ⟨hmem, decide_eq_true hother⟩
  unfold dropGuard
  split
  · exact hstays
  · split
    · unfold debugGuardCleanup
      split
      · exact hmem
      · split <;> exact hmem
    · unfold resetSession
      split
      · exact hmem
      · exact hstays

/-! ## Sending a request -/

/-- A request that needs no slot joins the lightweight ones; another takes the slot. -/
theorem mem_inFlight_sendTo {worker now task : Nat} {method cancelId : String} {p : Pending}
    (hp : p ∈ (i.sendTo worker now task method cancelId).1.inFlight) :
    p ∈ i.inFlight ∨
      (isLightweightMethod method = false ∧ p = ⟨i.nextRequestId, some method, worker⟩) := by
  have hpending : (i.sendTo worker now task method cancelId).1.pendingRequests =
      i.pendingRequests ++ [⟨i.nextRequestId, some method, worker⟩] := by
    unfold sendTo
    split <;> rfl
  obtain ⟨hmem, hslotted⟩ := mem_inFlight.mp hp
  rw [hpending] at hmem
  rcases List.mem_append.mp hmem with hmem | hmem
  · exact .inl (mem_inFlight.mpr ⟨hmem, hslotted⟩)
  · rw [List.mem_singleton.mp hmem] at hslotted
    exact .inr ⟨by simpa [Pending.slotted] using hslotted, List.mem_singleton.mp hmem⟩

theorem sendTo_lightweight (i : BridgeInner) (worker now task : Nat) {method : String}
    (cancelId : String) (hlight : isLightweightMethod method = true) :
    (i.sendTo worker now task method cancelId).1.currentSession = i.currentSession ∧
      (i.sendTo worker now task method cancelId).1.currentCancelId = i.currentCancelId ∧
      (i.sendTo worker now task method cancelId).1.currentRequestId = i.currentRequestId := by
  unfold sendTo
  split
  · exact ⟨rfl, rfl, rfl⟩
  next hslotted => exact absurd hlight hslotted

theorem sendTo_slotted (i : BridgeInner) (worker now task : Nat) {method : String}
    (cancelId : String) (hlight : isLightweightMethod method = false) :
    (i.sendTo worker now task method cancelId).1.currentSession = some (sessionOf method) ∧
      (i.sendTo worker now task method cancelId).1.currentCancelId = some cancelId ∧
      (i.sendTo worker now task method cancelId).1.currentRequestId = some i.nextRequestId := by
  unfold sendTo
  split
  next hlight' =>
    rw [hlight] at hlight'
    cases hlight'
  · exact ⟨rfl, rfl, rfl⟩

theorem sendTo_next {worker now task : Nat} {method cancelId : String} :
    (i.sendTo worker now task method cancelId).1.nextRequestId = i.nextRequestId + 1 := by
  unfold sendTo
  split <;> rfl

theorem later_sendTo (i : BridgeInner) (worker now task : Nat) (method cancelId : String) :
    Later i (i.sendTo worker now task method cancelId).1 := by
  refine ⟨sendTo_next ▸ Nat.le_succ _, fun p hp => ?_, fun id hid hrequest => ?_⟩
  · rcases mem_inFlight_sendTo hp with hold | ⟨-, rfl⟩
    · exact .inl hold
    · exact .inr (Nat.le_refl _)
  · cases hlight : isLightweightMethod method with
    | true =>
      obtain ⟨-, hcancel, hsame⟩ := sendTo_lightweight i worker now task cancelId hlight
      exact ⟨hsame ▸ hrequest, hcancel⟩
    | false =>
      obtain ⟨-, -, hmine⟩ := sendTo_slotted i worker now task cancelId hlight
      rw [hmine] at hrequest
      exact absurd (Option.some.inj hrequest) (Nat.ne_of_gt hid)

/-- Either nothing but an id is spent, or the request goes to the process of the slot. -/
theorem accept_cases {now task : Nat} {method cancelId : String} {fault : Option String}
    {r : Except BridgeError Sent} {cancelled : List Token}
    (h : i.accept now task method cancelId fault = (j, r, cancelled)) :
    (∃ e, r = .error e ∧ (j = i ∨ j = i.takeRequestId)) ∨
      ∃ worker, i.process = some worker ∧ checkSessionCompat i.currentSession method = true ∧
        r = .ok ⟨i.nextRequestId, worker⟩ ∧ j = (i.sendTo worker now task method cancelId).1 := by
  unfold accept at h
  split at h
  · cases h
    exact .inl ⟨_, rfl, .inl rfl⟩
  next hcompat =>
    split at h
    · cases h
      exact .inl ⟨_, rfl, .inl rfl⟩
    · split at h
      · cases h
        exact .inl ⟨_, rfl, .inr rfl⟩
      · cases h
        exact .inl ⟨_, rfl, .inr rfl⟩
      next worker hprocess =>
        refine .inr ⟨worker, hprocess, by simpa using hcompat, ?_⟩
        cases h
        exact ⟨rfl, rfl⟩

end BridgeInner

/-- Beside a session no second redirect test starts, and nothing beside a redirect test. -/
theorem compat_slotted {session : SessionType} {method : String}
    (hcompat : checkSessionCompat (some session) method = true)
    (hlight : isLightweightMethod method = false) :
    session ≠ .redirectTest ∧ method ≠ "test_redirect" := by
  have hnot : ¬(method = "ocr_recognize" || method = "feedback_capture") = true := by
    unfold isLightweightMethod at hlight
    rw [hlight]
    exact Bool.false_ne_true
  unfold checkSessionCompat at hcompat
  rw [if_neg hnot] at hcompat
  cases session with
  | login => exact ⟨by decide, fun heq => by simp [heq] at hcompat⟩
  | redirectTest => cases hcompat
  | debug => exact ⟨by decide, fun heq => by simp [heq] at hcompat⟩

/-! ## The steps that only look -/

namespace TaskStage

/-- The request the task is with. -/
def sent : TaskStage → Option Sent
  | .waiting sent | .acking sent | .owning sent | .killing sent _ | .settling sent _
  | .releasing sent | .unregistering sent => some sent
  | _ => none

/-- The request, when it has been answered or is no longer of the slot. -/
def settled : TaskStage → Option Sent
  | .killing sent .marking | .settling sent _ | .releasing sent => some sent
  | _ => none

/-- The health check the task is about to insert. -/
def check : TaskStage → Option Sent
  | .inserting _ check => some check
  | _ => none

/-- The worker the task has started and not yet sent a health check. -/
def started : TaskStage → Option Nat
  | .storing _ worker | .numbering _ worker => some worker
  | .inserting _ check => some check.worker
  | _ => none

/-- Stages whose step looks at the state and changes none of it but the startup lock. -/
def looks : TaskStage → Bool
  | .checkingStale | .ensuring | .locking | .rechecking | .gating | .checkingFailures
  | .findingPython | .hearing .. | .repairing | .routing => true
  | _ => false

/-- Stages with neither a request nor a worker. -/
structure Bare (stage : TaskStage) : Prop where
  sent : stage.sent = none
  settled : stage.settled = none
  check : stage.check = none
  started : stage.started = none

end TaskStage

/-- The two states differ in the startup lock, the tokens and the clock at most. -/
structure Same (s t : BridgeSupervisor) : Prop where
  inner : t.inner = s.inner
  answers : t.answers = s.answers
  loop : t.loop = s.loop
  helpers : t.helpers = s.helpers
  tasks : t.tasks = s.tasks
  workers : t.workers = s.workers

/-- Dealing with an exit changes the workers alone. -/
theorem finishExited_rest (s : BridgeSupervisor) (worker : Nat) (fault : Option String) :
    (s.finishExited worker fault).inner = s.inner ∧
      (s.finishExited worker fault).answers = s.answers ∧
      (s.finishExited worker fault).helpers = s.helpers ∧
      (s.finishExited worker fault).tasks = s.tasks := by
  unfold BridgeSupervisor.finishExited
  split <;> exact ⟨rfl, rfl, rfl, rfl⟩

theorem turn_looks {s t : BridgeSupervisor} {pid : Nat} {task : Task} {fault : Option String}
    {stage : TaskStage} {os : List Effect} (hlooks : stage.looks = true)
    (h : s.turn pid task fault stage = some (t, os)) :
    ∃ u b, t = u.moveTo pid task b ∧ os = [] ∧ Same s u ∧ b.Bare := by
  cases stage with
  | checkingStale =>
    cases h
    refine ⟨s, _, rfl, rfl, ⟨rfl, rfl, rfl, rfl, rfl, rfl⟩, ?_⟩
    split <;> exact ⟨rfl, rfl, rfl, rfl⟩
  | ensuring =>
    cases h
    refine ⟨s, _, rfl, rfl, ⟨rfl, rfl, rfl, rfl, rfl, rfl⟩, ?_⟩
    split <;> exact ⟨rfl, rfl, rfl, rfl⟩
  | locking =>
    simp only [BridgeSupervisor.turn] at h
    split at h
    · cases h
    · cases h
      exact ⟨_, _, rfl, rfl, ⟨rfl, rfl, rfl, rfl, rfl, rfl⟩, ⟨rfl, rfl, rfl, rfl⟩⟩
  | rechecking =>
    simp only [BridgeSupervisor.turn] at h
    split at h
    · cases h
      exact ⟨s.unlock, _, rfl, rfl, ⟨rfl, rfl, rfl, rfl, rfl, rfl⟩, ⟨rfl, rfl, rfl, rfl⟩⟩
    · cases h
      refine ⟨s, _, rfl, rfl, ⟨rfl, rfl, rfl, rfl, rfl, rfl⟩, ?_⟩
      split <;> exact ⟨rfl, rfl, rfl, rfl⟩
  | gating | findingPython | checkingFailures | repairing =>
    simp only [BridgeSupervisor.turn] at h
    split at h
    all_goals
      cases h
      exact ⟨_, _, rfl, rfl, ⟨rfl, rfl, rfl, rfl, rfl, rfl⟩, ⟨rfl, rfl, rfl, rfl⟩⟩
  | routing =>
    simp only [BridgeSupervisor.turn] at h
    split at h
    all_goals
      cases h
      exact ⟨s, _, rfl, rfl, ⟨rfl, rfl, rfl, rfl, rfl, rfl⟩, ⟨rfl, rfl, rfl, rfl⟩⟩
  | hearing attempt check =>
    simp only [BridgeSupervisor.turn] at h
    split at h
    · cases h
      exact ⟨s, _, rfl, rfl, ⟨rfl, rfl, rfl, rfl, rfl, rfl⟩, ⟨rfl, rfl, rfl, rfl⟩⟩
    · cases h
      exact ⟨s, _, rfl, rfl, ⟨rfl, rfl, rfl, rfl, rfl, rfl⟩, ⟨rfl, rfl, rfl, rfl⟩⟩
    · split at h
      · cases h
        exact ⟨s, _, rfl, rfl, ⟨rfl, rfl, rfl, rfl, rfl, rfl⟩, ⟨rfl, rfl, rfl, rfl⟩⟩
      · cases h
  | recycling | killingStale | spawning | storing | numbering | inserting | sending | readying
  | killingUnready | recording | admitting | waiting | acking | owning | killing | settling
  | releasing | unregistering | ended | refused => cases hlooks

end CampusAuth.Bridge
