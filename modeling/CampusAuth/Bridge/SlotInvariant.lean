import CampusAuth.Bridge.Sections

/- Who owns the worker, step by step: what is claimed of the slot (`SlotOwned`, `KillsSpare`), the
   condition under which every step keeps it (`SlotKept`), and the invariant.

   `TaskOk` says what a task may rely on between its sections: its request's id is used up, the slot
   names its request only with its cancel id, and once the request is over the slot does not name a
   request in flight by its id. -/
namespace CampusAuth.Bridge
open Lib

/-! ## What is claimed -/

/-- The kills that must find no request in flight. -/
def Why.spares : Why → Bool
  | .idle | .unowned => true
  | _ => false

def KillsSpare (os : List Effect) : Prop :=
  ∀ why worker inFlight, .killed why worker inFlight ∈ os → why.spares = true → inFlight = []

structure SlotOwned (inner : BridgeInner) : Prop where
  empty : inner.currentSession = none → inner.inFlight = []
  alone : ∀ p ∈ inner.inFlight, p.method = some "test_redirect" → ∀ q ∈ inner.inFlight, q = p

/-! ## The condition on a step -/

/-- A kill that has looked at the requests in flight and not yet taken the process. -/
def opensWindow (why : Why) : KillStage → Bool
  | .taking => why.spares
  | _ => false

def LoopStage.isOpen : LoopStage → Bool
  | .killing why kill => opensWindow why kill
  | .clearingExited _ => true
  | _ => false

def Helper.isOpen : Helper → Bool
  | .killing why kill => opensWindow why kill
  | _ => false

def BridgeSupervisor.windowOpen (s : BridgeSupervisor) : Bool :=
  s.loop.isOpen || s.helpers.any Helper.isOpen

def TaskStage.SlotKept (s : BridgeSupervisor) (method : String) : TaskStage → Prop
  | .recycling => s.inner.inFlight = []
  | .admitting => isLightweightMethod method = true ∨ s.windowOpen = false
  | .releasing sent => s.inner.letsGo method sent.id = true → ∀ p ∈ s.inner.inFlight, p.id = sent.id
  | _ => True

def Helper.SlotKept (s : BridgeSupervisor) : Helper → Prop
  | .recycling _ => s.inner.inFlight = []
  | _ => True

/-- The slot is emptied by a recycle only when no request is in flight, by a guard only when no other
    request is, and no request is sent in the window of a kill. -/
def SlotKept (s : BridgeSupervisor) : Event → Prop
  | .turn pid _ => ∀ task ∈ s.tasks[pid]?, task.stage.SlotKept s task.method
  | .helperTurn pid _ => ∀ helper ∈ s.helpers[pid]?, helper.SlotKept s
  | _ => True

instance (s : BridgeSupervisor) (method : String) :
    ∀ stage : TaskStage, Decidable (stage.SlotKept s method)
  | .recycling => inferInstanceAs (Decidable (_ = _))
  | .admitting => inferInstanceAs (Decidable (_ ∨ _))
  | .releasing _ => inferInstanceAs (Decidable (_ → _))
  | .checkingStale | .killingStale _ | .ensuring | .locking | .rechecking | .gating
  | .checkingFailures | .findingPython | .spawning _ | .storing .. | .numbering .. | .inserting ..
  | .sending .. | .hearing .. | .readying | .killingUnready .. | .repairing | .recording _ | .routing
  | .waiting _ | .acking _ | .owning _ | .killing .. | .settling .. | .unregistering _ | .ended _
  | .refused _ => .isTrue trivial

instance (s : BridgeSupervisor) : ∀ helper : Helper, Decidable (helper.SlotKept s)
  | .recycling _ => inferInstanceAs (Decidable (_ = _))
  | .checking _ | .killing .. | .graceWait _ | .done => .isTrue trivial

instance (s : BridgeSupervisor) : ∀ e, Decidable (SlotKept s e)
  | .turn .. => inferInstanceAs (Decidable (∀ task ∈ _, _))
  | .helperTurn .. => inferInstanceAs (Decidable (∀ helper ∈ _, _))
  | .execute .. | .forceRecycle | .recycleIfUnowned _ | .callerTimeout _ | .cancel _ | .idleTimeout
  | .shutdown | .response .. | .responseError .. | .workerExited _ | .loopTurn _ | .exit ..
  | .resetSpawnFailures | .tick _ => .isTrue trivial

/-! ## The invariant -/

structure InnerOk (i : BridgeInner) : Prop where
  ids : i.IdsBelow
  current : ∀ id, i.currentRequestId = some id → id < i.nextRequestId
  empty : i.currentSession = none → i.inFlight = []
  redirect : ∀ p ∈ i.inFlight, p.method = some "test_redirect" →
    i.currentSession = some .redirectTest ∧ i.currentRequestId = some p.id ∧
      ∀ q ∈ i.inFlight, q = p

theorem InnerOk.owned {i : BridgeInner} (h : InnerOk i) : SlotOwned i :=
  ⟨h.empty, fun p hp hmethod => (h.redirect p hp hmethod).2.2⟩

structure TaskOk (i : BridgeInner) (task : Task) : Prop where
  check : ∀ check, task.stage.check = some check → check.id < i.nextRequestId
  sent : ∀ sent, task.stage.sent = some sent → sent.id < i.nextRequestId ∧
    (i.currentRequestId = some sent.id → i.currentCancelId = some task.cancelId)
  settled : ∀ sent, task.stage.settled = some sent → i.currentRequestId = some sent.id →
    ∀ p ∈ i.inFlight, p.id ≠ sent.id

/-- Answered requests are not in flight. -/
def AnswersOk (s : BridgeSupervisor) : Prop :=
  ∀ a ∈ s.answers, a.1 < s.inner.nextRequestId ∧ ∀ p ∈ s.inner.inFlight, p.id ≠ a.1

structure SlotInv (s : BridgeSupervisor) : Prop where
  inner : InnerOk s.inner
  answers : AnswersOk s
  loop : s.loop.isOpen = true → s.inner.inFlight = []
  helpers : s.helpers.All fun _ helper => helper.isOpen = true → s.inner.inFlight = []
  tasks : s.tasks.All fun _ task => TaskOk s.inner task

/-! ## What the sections keep -/

section
variable {i j : BridgeInner}

theorem InnerOk.current_shrinks (h : InnerOk i) (hs : i.Shrinks j) :
    ∀ id, j.currentRequestId = some id → id < j.nextRequestId := by
  intro id hid
  rcases hs.slot with hnone | ⟨hsame, -⟩
  · rw [hnone] at hid
    cases hid
  · exact Nat.lt_of_lt_of_le (h.current id (hsame ▸ hid)) hs.next

theorem InnerOk.shrinks (h : InnerOk i) (hs : i.Shrinks j)
    (hsession : j.currentSession = i.currentSession)
    (hrequest : j.currentRequestId = i.currentRequestId) : InnerOk j := by
  refine ⟨hs.ids h.ids, h.current_shrinks hs, fun hnone => hs.nil (h.empty (hsession ▸ hnone)),
    fun p hp hmethod => ?_⟩
  obtain ⟨hin, hmine, halone⟩ := h.redirect p (hs.fewer p hp) hmethod
  exact ⟨hsession ▸ hin, hrequest ▸ hmine, fun q hq => halone q (hs.fewer q hq)⟩

theorem InnerOk.of_nil (h : InnerOk i) (hs : i.Shrinks j) (hnil : j.inFlight = []) : InnerOk j := by
  refine ⟨hs.ids h.ids, h.current_shrinks hs, fun _ => hnil, fun p hp => ?_⟩
  rw [hnil] at hp
  cases hp

theorem InnerOk.dropGuard (h : InnerOk i) {method cancelId : String} {id : Nat}
    (hsettled : i.currentRequestId = some id → ∀ p ∈ i.inFlight, p.id ≠ id)
    (hkept : i.letsGo method id = true → ∀ p ∈ i.inFlight, p.id = id) :
    InnerOk (i.dropGuard method cancelId id) := by
  have hs : i.Shrinks (i.dropGuard method cancelId id) :=
    BridgeInner.shrinks_dropGuard i method cancelId id
  cases BridgeInner.dropped i method cancelId id with
  | other _ hsession hrequest => exact h.shrinks hs hsession hrequest
  | released hlets _ _ hmine =>
    refine h.of_nil hs (List.eq_nil_iff_forall_not_mem.mpr fun p hp => ?_)
    have hp : p ∈ i.inFlight := hs.fewer p hp
    exact hsettled hmine p hp (hkept hlets p hp)
  | kept _ hsession hwas _ =>
    refine ⟨hs.ids h.ids, h.current_shrinks hs, fun hnone => ?_, fun p hp hmethod => ?_⟩
    · rw [hsession] at hnone
      cases hnone
    · obtain ⟨hin, -, -⟩ := h.redirect p (hs.fewer p hp) hmethod
      rw [hwas] at hin
      cases hin

theorem InnerOk.sendTo (h : InnerOk i) {worker now task : Nat} {method cancelId : String}
    (hcompat : checkSessionCompat i.currentSession method = true) :
    InnerOk (i.sendTo worker now task method cancelId).1 := by
  have hids : (i.sendTo worker now task method cancelId).1.IdsBelow := by
    intro p hp
    have hpending : p ∈ i.pendingRequests ++ [⟨i.nextRequestId, some method, worker⟩] := by
      unfold BridgeInner.sendTo at hp
      split at hp <;> exact hp
    rw [BridgeInner.sendTo_next]
    rcases List.mem_append.mp hpending with hp | hp
    · exact Nat.lt_succ_of_lt (h.ids p hp)
    · rw [List.mem_singleton.mp hp]
      exact Nat.lt_succ_self _
  cases hlight : isLightweightMethod method with
  | true =>
    obtain ⟨hsession, -, hrequest⟩ :=
      BridgeInner.sendTo_lightweight i worker now task cancelId hlight
    have hsame : ∀ p ∈ (i.sendTo worker now task method cancelId).1.inFlight, p ∈ i.inFlight := by
      intro p hp
      rcases BridgeInner.mem_inFlight_sendTo hp with hold | ⟨hslotted, -⟩
      · exact hold
      · rw [hlight] at hslotted
        cases hslotted
    refine ⟨hids, fun id hid => ?_,
      fun hnone => List.eq_nil_iff_forall_not_mem.mpr fun p hp => ?_, fun p hp hmethod => ?_⟩
    · rw [BridgeInner.sendTo_next]
      exact Nat.lt_succ_of_lt (h.current id (hrequest ▸ hid))
    · have := hsame p hp
      rw [h.empty (hsession ▸ hnone)] at this
      cases this
    · obtain ⟨hin, hmine, halone⟩ := h.redirect p (hsame p hp) hmethod
      exact ⟨hsession ▸ hin, hrequest ▸ hmine, fun q hq => halone q (hsame q hq)⟩
  | false =>
    obtain ⟨hsession, -, hrequest⟩ := BridgeInner.sendTo_slotted i worker now task cancelId hlight
    refine ⟨hids, fun id hid => ?_, fun hnone => ?_, fun p hp hmethod => ?_⟩
    · rw [hrequest] at hid
      rw [BridgeInner.sendTo_next, ← Option.some.inj hid]
      exact Nat.lt_succ_self _
    · rw [hsession] at hnone
      cases hnone
    cases hcurrent : i.currentSession with
    | none =>
      -- No request was in flight: the new one is alone.
      have hnew : ∀ q ∈ (i.sendTo worker now task method cancelId).1.inFlight,
          q = ⟨i.nextRequestId, some method, worker⟩ := by
        intro q hq
        rcases BridgeInner.mem_inFlight_sendTo hq with hold | ⟨-, rfl⟩
        · rw [h.empty hcurrent] at hold
          cases hold
        · rfl
      have hp' := hnew p hp
      subst hp'
      have hmethod : method = "test_redirect" := Option.some.inj hmethod
      refine ⟨?_, hrequest, hnew⟩
      rw [hsession, sessionOf, if_pos hmethod]
    | some session =>
      rw [hcurrent] at hcompat
      obtain ⟨hnot, hother⟩ := compat_slotted hcompat hlight
      rcases BridgeInner.mem_inFlight_sendTo hp with hold | ⟨-, rfl⟩
      · obtain ⟨hin, -, -⟩ := h.redirect p hold hmethod
        rw [hcurrent] at hin
        exact absurd (Option.some.inj hin) hnot
      · exact absurd (Option.some.inj hmethod) hother

theorem TaskOk.later {task : Task} (h : TaskOk i task) (hl : i.Later j) : TaskOk j task := by
  have hsettled : ∀ sent, task.stage.settled = some sent → task.stage.sent = some sent := by
    intro sent hsent
    cases hstage : task.stage with
    | killing other kill =>
      rw [hstage] at hsent
      cases kill with
      | marking => exact hsent
      | taking | waiting | draining => cases hsent
    | settling | releasing =>
      rw [hstage] at hsent
      exact hsent
    | _ =>
      rw [hstage] at hsent
      cases hsent
  refine ⟨fun check hcheck => Nat.lt_of_lt_of_le (h.check check hcheck) hl.next,
    fun sent hsent => ?_, fun sent hsent hmine p hp => ?_⟩
  · obtain ⟨hlt, hcancel⟩ := h.sent sent hsent
    refine ⟨Nat.lt_of_lt_of_le hlt hl.next, fun hmine => ?_⟩
    obtain ⟨hwas, hsame⟩ := hl.slot sent.id hlt hmine
    exact hsame ▸ hcancel hwas
  · have hlt := (h.sent sent (hsettled sent hsent)).1
    rcases hl.fewer p hp with hold | hnew
    · exact h.settled sent hsent (hl.slot sent.id hlt hmine).1 p hold
    · exact Nat.ne_of_gt (Nat.lt_of_lt_of_le hlt hnew)

/-- At a stage without a request. -/
theorem TaskOk.free (task : Task) {stage : TaskStage} (hsent : stage.sent = none)
    (hsettled : stage.settled = none) (hcheck : stage.check = none) : TaskOk i { task with stage } := by
  refine ⟨fun check hc => ?_, fun sent hs => ?_, fun sent ho => ?_⟩
  · exact absurd (hcheck.symm.trans hc) (by simp)
  · exact absurd (hsent.symm.trans hs) (by simp)
  · exact absurd (hsettled.symm.trans ho) (by simp)

/-- The task goes on with its request. -/
theorem TaskOk.goOn {task : Task} {sent : Sent} {stage : TaskStage} (h : TaskOk i task)
    (hsent : task.stage.sent = some sent) (hcheck : stage.check = none)
    (hsent' : stage.sent = some sent)
    (hsettled : stage.settled = none ∨
      (i.currentRequestId = some sent.id → ∀ p ∈ i.inFlight, p.id ≠ sent.id)) :
    TaskOk i { task with stage } := by
  refine ⟨fun check hc => ?_, fun other ho => ?_, fun other ho => ?_⟩
  · exact absurd (hcheck.symm.trans hc) (by simp)
  · cases hsent'.symm.trans ho
    exact h.sent sent hsent
  · rcases hsettled with hnone | hsettled
    · exact absurd (hnone.symm.trans ho) (by simp)
    · have : other = sent := by
        cases stage with
        | killing r kill =>
          cases kill with
          | marking => exact (Option.some.inj ho).symm.trans (Option.some.inj hsent')
          | taking | waiting | draining => cases ho
        | settling | releasing => exact (Option.some.inj ho).symm.trans (Option.some.inj hsent')
        | _ => cases ho
      subst this
      exact hsettled

end

/-! ## What a step keeps -/

/-- A step that sends no request: what it leaves of the shared state. -/
structure After (s t : BridgeSupervisor) : Prop where
  inner : InnerOk t.inner
  shrinks : s.inner.Shrinks t.inner
  answers : AnswersOk t

section
variable {s t : BridgeSupervisor} {pid : Nat} {task : Task} {stage : TaskStage}

theorem AnswersOk.shrinks (h : AnswersOk s) (hs : s.inner.Shrinks t.inner)
    (hanswers : t.answers = s.answers) : AnswersOk t := by
  intro a ha
  obtain ⟨hlt, hnot⟩ := h a (hanswers ▸ ha)
  exact ⟨Nat.lt_of_lt_of_le hlt hs.next, fun p hp => hnot p (hs.fewer p hp)⟩

theorem AnswersOk.lookup (h : AnswersOk s) {id : Nat} {result : Answer}
    (hresult : s.answers.lookup id = some result) : ∀ p ∈ s.inner.inFlight, p.id ≠ id := by
  obtain ⟨before, after, hanswers, -⟩ := List.lookup_eq_some_iff.mp hresult
  refine (h (id, result) ?_).2
  rw [hanswers]
  exact List.mem_append_right _ List.mem_cons_self

theorem SlotInv.refl (hI : SlotInv s) : After s s := ⟨hI.inner, .refl _, hI.answers⟩

/-- A section that is about neither the slot nor the answers. -/
theorem SlotInv.quiet (hI : SlotInv s) (hs : s.inner.Shrinks t.inner)
    (hsession : t.inner.currentSession = s.inner.currentSession)
    (hrequest : t.inner.currentRequestId = s.inner.currentRequestId)
    (hanswers : t.answers = s.answers) : After s t :=
  ⟨hI.inner.shrinks hs hsession hrequest, hs, hI.answers.shrinks hs hanswers⟩

/-- A section after which no request is in flight. -/
theorem SlotInv.none (hI : SlotInv s) (hs : s.inner.Shrinks t.inner)
    (hnil : t.inner.inFlight = []) (hanswers : t.answers = s.answers) : After s t :=
  ⟨hI.inner.of_nil hs hnil, hs, hI.answers.shrinks hs hanswers⟩

theorem After.moves (h : After s t) (hI : SlotInv s)
    (hloop : t.loop.isOpen = true → s.loop.isOpen = true ∨ t.inner.inFlight = [])
    (hhelpers : t.helpers.All fun _ helper => helper.isOpen = true → t.inner.inFlight = [])
    (htasks : t.tasks.All fun _ task => TaskOk t.inner task) : SlotInv t := by
  refine ⟨h.inner, h.answers, fun hopen => ?_, hhelpers, htasks⟩
  rcases hloop hopen with hopen | hnil
  · exact h.shrinks.nil (hI.loop hopen)
  · exact hnil

theorem After.helpers (h : After s t) (hI : SlotInv s) :
    s.helpers.All fun _ helper => helper.isOpen = true → t.inner.inFlight = [] :=
  hI.helpers.imp fun _ _ hnil hopen => h.shrinks.nil (hnil hopen)

theorem After.tasks (h : After s t) (hI : SlotInv s) :
    s.tasks.All fun _ task => TaskOk t.inner task :=
  hI.tasks.imp fun _ _ hok => hok.later h.shrinks.later

/-- Only the shared state changes, with a new helper or a new task perhaps. -/
theorem After.apart (h : After s t) (hI : SlotInv s) (hloop : t.loop = s.loop)
    (hhelpers : t.helpers = s.helpers) (htasks : t.tasks = s.tasks) : SlotInv t :=
  h.moves hI (fun hopen => .inl (hloop ▸ hopen)) (hhelpers ▸ h.helpers hI) (htasks ▸ h.tasks hI)

/-- Task `pid` moves on. -/
theorem After.taskMoves (h : After s t) (hI : SlotInv s) (hloop : t.loop = s.loop)
    (hhelpers : t.helpers = s.helpers) (htasks : t.tasks = s.tasks)
    (hok : TaskOk t.inner { task with stage }) : SlotInv (t.moveTo pid task stage) := by
  refine After.moves (t := t.moveTo pid task stage) ⟨h.inner, h.shrinks, h.answers⟩ hI
    (fun hopen => .inl ?_) ?_ ?_
  · rw [← hloop]
    exact hopen
  · show t.helpers.All _
    rw [hhelpers]
    exact h.helpers hI
  · show Pool.All _ (t.tasks.set pid _)
    rw [htasks]
    exact (h.tasks hI).set (fun _ _ _ h => h) hok

/-- What one step of a kill comes to. -/
structure Kills (s t : BridgeSupervisor) (why : Why) (kill : KillStage) (next : Option KillStage)
    (os : List Effect) : Prop where
  after : After s t
  loop : t.loop = s.loop
  helpers : t.helpers = s.helpers
  tasks : t.tasks = s.tasks
  drained : next = some .marking → t.inner.inFlight = []
  goesOn : next ≠ some .taking
  tells : os = [] ∨ (kill = .taking ∧ ∃ worker, os = [.killed why worker s.inner.inFlight])

theorem SlotInv.drain (hI : SlotInv s) (error : BridgeError) : After s (s.drain error) := by
  have hnil : (s.drain error).inner.inFlight = [] := BridgeInner.inFlight_eq_nil rfl
  refine ⟨hI.inner.of_nil (BridgeInner.shrinks_drainPending _) hnil,
    BridgeInner.shrinks_drainPending _, fun a ha => ⟨?_, fun p hp => ?_⟩⟩
  · rcases List.mem_append.mp ha with ha | ha
    · obtain ⟨p, hp, rfl⟩ := List.mem_map.mp ha
      exact hI.inner.ids p hp
    · exact (hI.answers a ha).1
  · rw [hnil] at hp
    cases hp

theorem SlotInv.killStep (hI : SlotInv s) (why : Why) (fault : Option String) (kill : KillStage) :
    Kills s (s.killStep why fault kill).1 why kill (s.killStep why fault kill).2.1
      (s.killStep why fault kill).2.2 := by
  cases kill with
  | taking =>
    cases hprocess : s.inner.process with
    | none =>
      simp only [BridgeSupervisor.killStep, hprocess]
      exact ⟨hI.refl, rfl, rfl, rfl, fun h => (by cases h), fun h => (by cases h), .inl rfl⟩
    | some worker =>
      simp only [BridgeSupervisor.killStep, hprocess]
      refine ⟨hI.quiet (.of_same rfl (Nat.le_refl _) ⟨rfl, rfl⟩) rfl rfl rfl, rfl, rfl, rfl,
        fun h => (by cases h), fun h => (by cases h), .inr ⟨rfl, worker, rfl⟩⟩
  | waiting worker =>
    exact ⟨hI.quiet (.refl _) rfl rfl rfl, rfl, rfl, rfl, fun h => (by cases h),
      fun h => (by cases h), .inl rfl⟩
  | draining =>
    exact ⟨hI.drain _, rfl, rfl, rfl, fun _ => BridgeInner.inFlight_eq_nil rfl,
      fun h => (by cases h), .inl rfl⟩
  | marking =>
    exact ⟨hI.quiet (.of_same rfl (Nat.le_refl _) ⟨rfl, rfl⟩) rfl rfl rfl, rfl, rfl, rfl,
      fun h => (by cases h), fun h => (by cases h), .inl rfl⟩

theorem killsSpare_nil : KillsSpare [] := fun _ _ _ h => (by cases h)

theorem KillsSpare.append {os os' : List Effect} (h : KillsSpare os) (h' : KillsSpare os') :
    KillsSpare (os ++ os') := by
  intro why worker inFlight hmem
  rcases List.mem_append.mp hmem with hmem | hmem
  · exact h why worker inFlight hmem
  · exact h' why worker inFlight hmem

theorem Kills.spare {why : Why} {kill : KillStage} {next : Option KillStage} {os : List Effect}
    (h : Kills s t why kill next os)
    (hnil : why.spares = true → kill = .taking → s.inner.inFlight = []) : KillsSpare os := by
  intro why' worker inFlight hmem hspares
  rcases h.tells with rfl | ⟨htaking, w, rfl⟩
  · cases hmem
  · cases List.mem_singleton.mp hmem
    exact hnil hspares htaking

/-- A task kills the worker and goes on to `stage` from there. -/
theorem SlotInv.taskKills (hI : SlotInv s) {why : Why} {kill : KillStage}
    {next : Option KillStage} {os : List Effect} (hk : Kills s t why kill next os)
    (hwhy : why.spares = false) (hok : TaskOk t.inner { task with stage }) :
    SlotInv (t.moveTo pid task stage) ∧ KillsSpare os := by
  refine ⟨hk.after.taskMoves hI hk.loop hk.helpers hk.tasks hok, hk.spare fun hspares => ?_⟩
  rw [hwhy] at hspares
  cases hspares

theorem SlotInv.admits (hI : SlotInv s) {worker : Nat} {cancelled : List Token}
    (hkept : isLightweightMethod task.method = true ∨ s.windowOpen = false)
    (hcompat : checkSessionCompat s.inner.currentSession task.method = true) :
    SlotInv (((s.withInner (s.inner.sendTo worker s.now pid task.method task.cancelId).1).cancelTokens
      cancelled).moveTo pid task (.waiting ⟨s.inner.nextRequestId, worker⟩)) := by
  have hlater := BridgeInner.later_sendTo s.inner worker s.now pid task.method task.cancelId
  have hwindow : s.windowOpen = true → s.inner.inFlight = [] →
      (s.inner.sendTo worker s.now pid task.method task.cancelId).1.inFlight = [] := by
    intro hopen hnil
    rw [List.eq_nil_iff_forall_not_mem]
    intro p hp
    rcases BridgeInner.mem_inFlight_sendTo hp with hold | ⟨hslotted, -⟩
    · rw [hnil] at hold
      cases hold
    · rcases hkept with hlight | hclosed
      · rw [hslotted] at hlight
        cases hlight
      · rw [hclosed] at hopen
        cases hopen
  -- The new request has an id no answer has, and no window is open beside it.
  refine ⟨hI.inner.sendTo hcompat, fun a ha => ?_, fun hopen => ?_, fun j helper hj hopen => ?_,
    (hI.tasks.imp fun _ _ hok => hok.later hlater).set (fun _ _ _ h => h) ?_⟩
  · obtain ⟨hlt, hnot⟩ := hI.answers a ha
    refine ⟨Nat.lt_of_lt_of_le hlt hlater.next, fun p hp => ?_⟩
    rcases hlater.fewer p hp with hold | hnew
    · exact hnot p hold
    · exact Nat.ne_of_gt (Nat.lt_of_lt_of_le hlt hnew)
  · have hopen : s.loop.isOpen = true := hopen
    refine hwindow ?_ (hI.loop hopen)
    rw [BridgeSupervisor.windowOpen, hopen, Bool.true_or]
  · refine hwindow ?_ (hI.helpers j helper hj hopen)
    have hany : s.helpers.any Helper.isOpen = true :=
      List.any_eq_true.mpr ⟨helper, List.mem_of_getElem? hj, hopen⟩
    rw [BridgeSupervisor.windowOpen, hany, Bool.or_true]
  · refine ⟨fun check h => (by cases h), fun sent hsent => ?_, fun sent h => (by cases h)⟩
    cases hsent
    refine ⟨BridgeInner.sendTo_next ▸ Nat.lt_succ_self _, fun hmine => ?_⟩
    cases hlight : isLightweightMethod task.method with
    | true =>
      -- A lightweight request leaves the slot alone, so the slot cannot hold its id.
      obtain ⟨-, -, hsame⟩ :=
        BridgeInner.sendTo_lightweight s.inner worker s.now pid task.cancelId hlight
      exact absurd (hI.inner.current _ (hsame ▸ hmine)) (Nat.lt_irrefl _)
    | false =>
      exact (BridgeInner.sendTo_slotted s.inner worker s.now pid task.cancelId hlight).2.1

/-- The task moves and nothing else changes. -/
theorem SlotInv.goesTo (hI : SlotInv s) (hsame : Same s t)
    (hok : TaskOk s.inner { task with stage }) : SlotInv (t.moveTo pid task stage) ∧ KillsSpare [] := by
  have ha : After s t := by
    refine hI.quiet ?_ (by rw [hsame.inner]) (by rw [hsame.inner]) hsame.answers
    rw [hsame.inner]
    exact .refl _
  exact ⟨ha.taskMoves hI hsame.loop hsame.helpers hsame.tasks (hsame.inner ▸ hok), killsSpare_nil⟩

theorem Same.refl (s : BridgeSupervisor) : Same s s := ⟨rfl, rfl, rfl, rfl, rfl, rfl⟩

theorem slotInv_turn {fault : Option String} {os : List Effect} (hI : SlotInv s)
    (hok : TaskOk s.inner task) (hkept : task.stage.SlotKept s task.method)
    (h : s.turn pid task fault task.stage = some (t, os)) : SlotInv t ∧ KillsSpare os := by
  have hlooks : task.stage.looks = true → SlotInv t ∧ KillsSpare os := by
    intro hlooks
    obtain ⟨u, b, rfl, rfl, hsame, hbare⟩ := turn_looks hlooks h
    exact hI.goesTo hsame (.free task hbare.sent hbare.settled hbare.check)
  have hfree : ∀ {i : BridgeInner} {stage : TaskStage}, stage.sent = none → stage.settled = none →
      stage.check = none → TaskOk i { task with stage } := fun hs ho hc => .free task hs ho hc
  cases hstage : task.stage with
  | checkingStale | ensuring | locking | rechecking | gating | checkingFailures | findingPython
  | hearing | repairing | routing => exact hlooks (by rw [hstage]; rfl)
  | recycling =>
    rw [hstage] at h hkept
    cases h
    have ha : After s s.forgetSession :=
      hI.none (BridgeInner.shrinks_emptySlot (fun _ hp => hp) rfl rfl) hkept rfl
    exact ⟨ha.taskMoves hI rfl rfl rfl (hfree rfl rfl rfl), killsSpare_nil⟩
  | killingStale kill =>
    have hk := hI.killStep .staleDebug fault kill
    rw [hstage] at h
    simp only [BridgeSupervisor.turn] at h
    generalize s.killStep .staleDebug fault kill = r at h hk
    obtain ⟨u, next, os'⟩ := r
    cases next with
    | none =>
      cases h
      exact hI.taskKills hk rfl (hfree rfl rfl rfl)
    | some next =>
      cases h
      exact hI.taskKills hk rfl (hfree rfl rfl rfl)
  | spawning attempt =>
    rw [hstage] at h
    simp only [BridgeSupervisor.turn] at h
    split at h
    · cases h
      have ha : After s { s with workers := s.workers ++ [.running] } :=
        hI.quiet (.refl _) rfl rfl rfl
      exact ⟨ha.taskMoves hI rfl rfl rfl (hfree rfl rfl rfl), killsSpare_nil⟩
    · split at h
      · cases h
        exact hI.goesTo (.refl s) (hfree rfl rfl rfl)
      · cases h
        exact hI.goesTo (.refl s) (hfree rfl rfl rfl)
  | storing attempt worker =>
    rw [hstage] at h
    cases h
    have ha : After s (s.withInner (s.inner.storeProcess worker)) :=
      hI.quiet (.of_same rfl (Nat.le_refl _) ⟨rfl, rfl⟩) rfl rfl rfl
    exact ⟨ha.taskMoves hI rfl rfl rfl (hfree rfl rfl rfl), killsSpare_nil⟩
  | numbering attempt worker =>
    rw [hstage] at h
    cases h
    have ha : After s (s.withInner s.inner.takeRequestId) :=
      hI.quiet (BridgeInner.shrinks_takeRequestId _) rfl rfl rfl
    refine ⟨ha.taskMoves hI rfl rfl rfl ⟨fun check hc => ?_, fun _ h => (by cases h),
      fun _ h => (by cases h)⟩, killsSpare_nil⟩
    cases hc
    exact Nat.lt_succ_self _
  | inserting attempt check =>
    have hnew : check.id < s.inner.nextRequestId := hok.check check (by rw [hstage]; rfl)
    rw [hstage] at h
    cases h
    have ha : After s (s.withInner (s.inner.insertHealthCheck check)) :=
      hI.quiet (BridgeInner.shrinks_insertHealthCheck _ hnew) rfl rfl rfl
    exact ⟨ha.taskMoves hI rfl rfl rfl (hfree rfl rfl rfl), killsSpare_nil⟩
  | sending attempt check =>
    rw [hstage] at h
    simp only [BridgeSupervisor.turn] at h
    split at h
    · cases h
      have ha : After s (s.withInner (s.inner.removePending check.id)) :=
        hI.quiet (BridgeInner.shrinks_removePending _ _) rfl rfl rfl
      exact ⟨ha.taskMoves hI rfl rfl rfl (hfree rfl rfl rfl), killsSpare_nil⟩
    · cases h
      exact hI.goesTo (.refl s) (hfree rfl rfl rfl)
  | readying =>
    rw [hstage] at h
    cases h
    have ha : After s (s.unlock.withInner s.inner.markReady) :=
      hI.quiet (.of_same rfl (Nat.le_refl _) ⟨rfl, rfl⟩) rfl rfl rfl
    exact ⟨ha.taskMoves hI rfl rfl rfl (hfree rfl rfl rfl), killsSpare_nil⟩
  | killingUnready attempt kill =>
    have hk := hI.killStep .startup fault kill
    rw [hstage] at h
    simp only [BridgeSupervisor.turn] at h
    generalize s.killStep .startup fault kill = r at h hk
    obtain ⟨u, next, os'⟩ := r
    cases next with
    | none =>
      simp only at h
      split at h
      · cases h
        exact hI.taskKills hk rfl (hfree rfl rfl rfl)
      · cases h
        exact hI.taskKills hk rfl (hfree rfl rfl rfl)
    | some next =>
      cases h
      exact hI.taskKills hk rfl (hfree rfl rfl rfl)
  | recording error =>
    rw [hstage] at h
    cases h
    have ha : After s (s.unlock.withInner s.inner.recordSpawnFailure) :=
      hI.quiet (.of_same rfl (Nat.le_refl _) ⟨rfl, rfl⟩) rfl rfl rfl
    exact ⟨ha.taskMoves hI rfl rfl rfl (hfree rfl rfl rfl), killsSpare_nil⟩
  | admitting =>
    rw [hstage] at h hkept
    simp only [BridgeSupervisor.turn] at h
    generalize hr : s.inner.accept s.now pid task.method task.cancelId fault = r at h
    obtain ⟨j, r, cancelled⟩ := r
    rcases BridgeInner.accept_cases hr with ⟨e, rfl, hj⟩ | ⟨worker, -, hcompat, rfl, rfl⟩
    · cases h
      have ha : After s (s.withInner j) := by
        rcases hj with rfl | rfl
        · exact hI.quiet (.refl _) rfl rfl rfl
        · exact hI.quiet (BridgeInner.shrinks_takeRequestId _) rfl rfl rfl
      exact ⟨ha.taskMoves hI rfl rfl rfl (hfree rfl rfl rfl), killsSpare_nil⟩
    · cases h
      exact ⟨hI.admits hkept hcompat, killsSpare_nil⟩
  | waiting sent =>
    have hsent : task.stage.sent = some sent := by rw [hstage]; rfl
    rw [hstage] at h
    simp only [BridgeSupervisor.turn] at h
    split at h
    · cases h
      exact hI.goesTo (.refl s) (hok.goOn hsent rfl rfl (.inl rfl))
    · split at h
      next result hresult =>
        cases h
        exact hI.goesTo (.refl s)
          (hok.goOn hsent rfl rfl (.inr fun _ => hI.answers.lookup hresult))
      next => cases h
  | acking sent =>
    have hsent : task.stage.sent = some sent := by rw [hstage]; rfl
    rw [hstage] at h
    simp only [BridgeSupervisor.turn] at h
    split at h
    next result hresult =>
      cases h
      exact hI.goesTo (.refl s)
        (hok.goOn hsent rfl rfl (.inr fun _ => hI.answers.lookup hresult))
    next =>
      split at h
      · cases h
        exact hI.goesTo (.refl s) (hok.goOn hsent rfl rfl (.inl rfl))
      · cases h
  | owning sent =>
    have hsent : task.stage.sent = some sent := by rw [hstage]; rfl
    rw [hstage] at h
    simp only [BridgeSupervisor.turn] at h
    split at h
    · cases h
      exact hI.goesTo (.refl s) (hok.goOn hsent rfl rfl (.inl rfl))
    next hother =>
      cases h
      -- The slot is not the request's any more.
      exact hI.goesTo (.refl s) (hok.goOn hsent rfl rfl
        (.inr fun hmine => absurd ((hok.sent sent hsent).2 hmine) hother))
  | killing sent kill =>
    have hsent : task.stage.sent = some sent := by rw [hstage]; rfl
    have hk := hI.killStep .unacknowledged fault kill
    have hmarking : kill = .marking → s.inner.currentRequestId = some sent.id →
        ∀ p ∈ s.inner.inFlight, p.id ≠ sent.id := by
      intro hkill
      exact hok.settled sent (by rw [hstage, hkill]; rfl)
    rw [hstage] at h
    simp only [BridgeSupervisor.turn] at h
    generalize hr : s.killStep .unacknowledged fault kill = r at h hk
    obtain ⟨u, next, os'⟩ := r
    have hlater : TaskOk u.inner task := hok.later hk.after.shrinks.later
    cases next with
    | none =>
      cases h
      refine hI.taskKills hk rfl (hlater.goOn hsent rfl rfl (.inr fun hmine p hp => ?_))
      -- Only the last section of a kill ends it, and by then the requests have been drained.
      have hkill : kill = .marking := by
        cases kill with
        | marking => rfl
        | taking =>
          simp only [BridgeSupervisor.killStep] at hr
          split at hr <;> cases hr
        | waiting | draining => cases hr
      have hlt := (hok.sent sent hsent).1
      exact hmarking hkill (hk.after.shrinks.later.slot _ hlt hmine).1 p (hk.after.shrinks.fewer p hp)
    | some next =>
      cases h
      refine hI.taskKills hk rfl (hlater.goOn hsent rfl rfl ?_)
      cases next with
      | marking =>
        -- The requests have just been drained.
        refine .inr fun _ p hp => ?_
        rw [hk.drained rfl] at hp
        cases hp
      | taking | waiting | draining => exact .inl rfl
  | settling sent result =>
    have hsent : task.stage.sent = some sent := by rw [hstage]; rfl
    have hsettled := hok.settled sent (by rw [hstage]; rfl)
    rw [hstage] at h
    cases h
    obtain ⟨-, -, hsession, -, hrequest⟩ := BridgeInner.settleDebug_same s.inner s.now task.method
      sent.worker (Answer.isSuccess result)
    have hs := BridgeInner.shrinks_settleDebug s.inner s.now task.method sent.worker
      (Answer.isSuccess result)
    have ha : After s (s.withInner (s.inner.settleDebug s.now task.method sent.worker
        (Answer.isSuccess result))) := hI.quiet hs hsession hrequest rfl
    have hlater := hok.later hs.later
    refine ⟨ha.taskMoves hI rfl rfl rfl (hlater.goOn hsent rfl rfl (.inr fun hmine p hp => ?_)),
      killsSpare_nil⟩
    exact hsettled (hrequest ▸ hmine) p (hs.fewer p hp)
  | releasing sent =>
    have hsent : task.stage.sent = some sent := by rw [hstage]; rfl
    have hsettled := hok.settled sent (by rw [hstage]; rfl)
    rw [hstage] at h hkept
    cases h
    have hs := BridgeInner.shrinks_dropGuard s.inner task.method task.cancelId sent.id
    have ha : After s (s.withInner (s.inner.dropGuard task.method task.cancelId sent.id)) :=
      ⟨hI.inner.dropGuard hsettled hkept, hs, hI.answers.shrinks hs rfl⟩
    refine ⟨ha.taskMoves hI rfl rfl rfl ?_, killsSpare_nil⟩
    split
    · exact hfree rfl rfl rfl
    · exact (hok.later hs.later).goOn hsent rfl rfl (.inl rfl)
  | unregistering sent =>
    rw [hstage] at h
    cases h
    have ha : After s (s.withInner (s.inner.removeCancel task.cancelId)) :=
      hI.quiet (.of_same rfl (Nat.le_refl _) ⟨rfl, rfl⟩) rfl rfl rfl
    exact ⟨ha.taskMoves hI rfl rfl rfl (hfree rfl rfl rfl), killsSpare_nil⟩
  | ended | refused =>
    rw [hstage] at h
    cases h

/-- Helper `pid` moves on. -/
theorem After.helperMoves {helper : Helper} (h : After s t) (hI : SlotInv s) (hloop : t.loop = s.loop)
    (hhelpers : t.helpers = s.helpers) (htasks : t.tasks = s.tasks)
    (hclosed : helper.isOpen = true → t.inner.inFlight = []) : SlotInv (t.helperTo pid helper) := by
  refine After.moves (t := t.helperTo pid helper) ⟨h.inner, h.shrinks, h.answers⟩ hI
    (fun hopen => .inl ?_) ?_ ?_
  · rw [← hloop]
    exact hopen
  · show Pool.All _ (t.helpers.set pid _)
    rw [hhelpers]
    exact (h.helpers hI).set (fun _ _ _ h => h) hclosed
  · show Pool.All _ t.tasks
    rw [htasks]
    exact h.tasks hI

/-- Once it has taken the process, a kill is open no more. -/
theorem opensWindow_next {why : Why} {kill next : KillStage} {os : List Effect}
    (hk : Kills s t why kill (some next) os) : opensWindow why next = false := by
  cases next with
  | taking => exact absurd rfl hk.goesOn
  | waiting | draining | marking => rfl

theorem slotInv_helperTurn {fault : Option String} {helper : Helper} {os : List Effect}
    (hI : SlotInv s) (hat : s.helpers[pid]? = some helper) (hkept : helper.SlotKept s)
    (h : s.helperTurn pid fault helper = some (t, os)) : SlotInv t ∧ KillsSpare os := by
  cases helper with
  | checking owner =>
    cases h
    refine ⟨hI.refl.helperMoves hI rfl rfl rfl fun hopen => ?_, killsSpare_nil⟩
    split at hopen
    · cases hopen
    · split at hopen <;> cases hopen
  | recycling why =>
    cases h
    have ha : After s s.forgetSession :=
      hI.none (BridgeInner.shrinks_emptySlot (fun _ hp => hp) rfl rfl) hkept rfl
    -- The helper opens its window here: what it needs is that no request is in flight.
    exact ⟨ha.helperMoves hI rfl rfl rfl fun _ => hkept, killsSpare_nil⟩
  | killing why kill =>
    have hk := hI.killStep why fault kill
    simp only [BridgeSupervisor.helperTurn] at h
    generalize s.killStep why fault kill = r at h hk
    obtain ⟨u, next, os'⟩ := r
    have hspare : KillsSpare os' := hk.spare fun hspares htaking =>
      hI.helpers pid _ hat (by rw [htaking]; exact hspares)
    cases next with
    | none =>
      cases h
      exact ⟨hk.after.helperMoves hI hk.loop hk.helpers hk.tasks fun hopen => (by cases hopen), hspare⟩
    | some next =>
      cases h
      refine ⟨hk.after.helperMoves hI hk.loop hk.helpers hk.tasks fun hopen => ?_, hspare⟩
      exact absurd ((opensWindow_next hk).symm.trans hopen) Bool.false_ne_true
  | graceWait id =>
    cases h
    refine ⟨hI.refl.helperMoves hI rfl rfl rfl fun hopen => ?_, killsSpare_nil⟩
    split at hopen <;> cases hopen
  | done => cases h

/-- The main loop moves on. -/
theorem After.loopMoves {loop : LoopStage} (h : After s t) (hI : SlotInv s)
    (hhelpers : t.helpers = s.helpers) (htasks : t.tasks = s.tasks)
    (hclosed : loop.isOpen = true → t.inner.inFlight = []) : SlotInv { t with loop } := by
  refine After.moves (t := { t with loop }) ⟨h.inner, h.shrinks, h.answers⟩ hI
    (fun hopen => .inr (hclosed hopen)) ?_ ?_
  · show Pool.All _ t.helpers
    rw [hhelpers]
    exact h.helpers hI
  · show Pool.All _ t.tasks
    rw [htasks]
    exact h.tasks hI

theorem killsSpare_exit {worker : Nat} {owners : List Nat} :
    KillsSpare [.exitHandled worker owners] := by
  intro why worker' inFlight hmem
  cases List.mem_singleton.mp hmem

theorem slotInv_loopTurn {fault : Option String} {os : List Effect} (hI : SlotInv s)
    (h : s.loopTurn fault s.loop = some (t, os)) : SlotInv t ∧ KillsSpare os := by
  cases hloop : s.loop with
  | ready =>
    rw [hloop] at h
    cases h
  | killing why kill =>
    have hk := hI.killStep why fault kill
    rw [hloop] at h
    simp only [BridgeSupervisor.loopTurn] at h
    generalize s.killStep why fault kill = r at h hk
    obtain ⟨u, next, os'⟩ := r
    have hspare : KillsSpare os' := hk.spare fun hspares htaking =>
      hI.loop (by rw [hloop, htaking]; exact hspares)
    cases next with
    | none =>
      cases h
      exact ⟨hk.after.loopMoves hI hk.helpers hk.tasks fun hopen => (by cases hopen), hspare⟩
    | some next =>
      cases h
      refine ⟨hk.after.loopMoves hI hk.helpers hk.tasks fun hopen => ?_, hspare⟩
      exact absurd ((opensWindow_next hk).symm.trans hopen) Bool.false_ne_true
  | drainingExited worker =>
    rw [hloop] at h
    cases h
    exact ⟨(hI.drain _).loopMoves hI rfl rfl fun _ => BridgeInner.inFlight_eq_nil rfl, killsSpare_exit⟩
  | clearingExited worker =>
    -- The loop is between its two sections, so nothing was sent since the draining.
    have hnil : s.inner.inFlight = [] := hI.loop (by rw [hloop]; rfl)
    obtain ⟨-, hanswers, hhelpers, htasks⟩ := finishExited_rest s worker fault
    rw [hloop] at h
    cases h
    have ha : After s ((s.finishExited worker fault).withInner s.inner.clearExited) :=
      hI.none (BridgeInner.shrinks_emptySlot (fun _ hp => hp) rfl rfl) hnil hanswers
    exact ⟨ha.loopMoves hI hhelpers htasks fun hopen => (by cases hopen), killsSpare_exit⟩
  | crashed worker code =>
    rw [hloop] at h
    cases h
    refine ⟨?_, killsSpare_exit⟩
    generalize (if s.inner.currentSession = some .debug then BridgeError.debugSessionClosed
      else .workerCrashed ("exit_code=" ++ toString code)) = error
    obtain ⟨-, hanswers, hhelpers, htasks⟩ := finishExited_rest (s.drain error) worker fault
    have hnil : s.inner.clearCrashed.inFlight = [] := BridgeInner.inFlight_eq_nil rfl
    have hs : s.inner.Shrinks s.inner.clearCrashed :=
      BridgeInner.shrinks_emptySlot (fun _ hp => by cases hp) rfl rfl
    have ha : After s (((s.drain error).finishExited worker fault).withInner s.inner.clearCrashed) :=
      ⟨hI.inner.of_nil hs hnil, hs, (hI.drain error).answers.shrinks
        (BridgeInner.shrinks_emptySlot (fun _ hp => by cases hp) rfl rfl) hanswers⟩
    exact ha.loopMoves hI hhelpers htasks fun hopen => (by cases hopen)

theorem SlotInv.answer (hI : SlotInv s) (id : Nat) (result : Answer) : After s (s.answer id result) := by
  have hs := BridgeInner.shrinks_removePending s.inner id
  refine ⟨hI.inner.shrinks hs rfl rfl, hs, fun a ha => ?_⟩
  have hold : a ∈ s.answers → a.1 < s.inner.nextRequestId ∧
      ∀ p ∈ (s.inner.removePending id).inFlight, p.id ≠ a.1 := fun ha =>
    ⟨(hI.answers a ha).1, fun p hp => (hI.answers a ha).2 p (hs.fewer p hp)⟩
  have ha : a ∈ if s.inner.pendingRequests.any (·.id = id) then (id, result) :: s.answers
      else s.answers := ha
  split at ha
  next hany =>
    rcases List.mem_cons.mp ha with rfl | ha
    · -- The answered request was pending, and it is the only one of its id to go.
      obtain ⟨p, hp, hid⟩ := List.any_eq_true.mp hany
      refine ⟨of_decide_eq_true hid ▸ hI.inner.ids p hp, fun q hq => ?_⟩
      exact of_decide_eq_true (List.mem_filter.mp (BridgeInner.mem_inFlight.mp hq).1).2
    · exact hold ha
  next => exact hold ha

theorem slotInv_step {e : Event} {os : List Effect} (hI : SlotInv s) (hkept : SlotKept s e)
    (h : bridgeMachine.step s e = some (t, os)) : SlotInv t ∧ KillsSpare os := by
  have h : s.step e = some (t, os) := h
  have hhelper : ∀ {helper : Helper}, helper.isOpen = false →
      SlotInv { s with helpers := s.helpers ++ [helper] } := by
    intro helper hclosed
    refine ⟨hI.inner, hI.answers, hI.loop, hI.helpers.spawn (fun _ _ h => h) fun hopen => ?_, hI.tasks⟩
    rw [hclosed] at hopen
    cases hopen
  cases e with
  | execute method cancelId =>
    simp only [BridgeSupervisor.step] at h
    split at h
    · cases h
      refine ⟨⟨hI.inner, hI.answers, hI.loop, hI.helpers, hI.tasks.spawn (fun _ _ h => h) ?_⟩,
        killsSpare_nil⟩
      unfold TaskStage.first
      split
      all_goals exact .free ⟨method, cancelId, .ensuring⟩ rfl rfl rfl
    · cases h
  | turn pid fault =>
    simp only [BridgeSupervisor.step] at h
    split at h
    next task hat => exact slotInv_turn hI (hI.tasks pid task hat) (hkept task hat) h
    next => cases h
  | forceRecycle =>
    cases h
    exact ⟨hhelper rfl, killsSpare_nil⟩
  | recycleIfUnowned owner =>
    cases h
    exact ⟨hhelper rfl, killsSpare_nil⟩
  | callerTimeout cancelId =>
    simp only [BridgeSupervisor.step] at h
    split at h
    · split at h
      · cases h
        exact ⟨hhelper rfl, killsSpare_nil⟩
      · cases h
        exact ⟨hI, killsSpare_nil⟩
    · cases h
      exact ⟨hI, killsSpare_nil⟩
  | helperTurn pid fault =>
    simp only [BridgeSupervisor.step] at h
    split at h
    next helper hat => exact slotInv_helperTurn hI hat (hkept helper hat) h
    next => cases h
  | cancel cancelId =>
    simp only [BridgeSupervisor.step] at h
    split at h
    · cases h
      refine ⟨After.apart (s := s) ?_ hI rfl rfl rfl, killsSpare_nil⟩
      exact hI.quiet (.of_same rfl (Nat.le_refl _) ⟨rfl, rfl⟩) rfl rfl rfl
    · cases h
  | idleTimeout =>
    simp only [BridgeSupervisor.step] at h
    split at h
    · split at h
      next hidle =>
        cases h
        -- The idle check looks at all pending requests, not at the slot.
        have hnil : s.inner.inFlight = [] :=
          BridgeInner.inFlight_eq_nil (List.isEmpty_iff.mp hidle.2.1)
        exact ⟨hI.refl.loopMoves hI rfl rfl fun _ => hnil, killsSpare_nil⟩
      next =>
        cases h
        exact ⟨hI, killsSpare_nil⟩
    · cases h
  | shutdown =>
    simp only [BridgeSupervisor.step] at h
    split at h
    · cases h
      exact ⟨hI.refl.loopMoves hI rfl rfl fun hopen => (by cases hopen), killsSpare_nil⟩
    · cases h
  | response id success =>
    simp only [BridgeSupervisor.step] at h
    split at h
    · cases h
      exact ⟨(hI.answer id _).apart hI rfl rfl rfl, killsSpare_nil⟩
    · cases h
  | responseError id error =>
    simp only [BridgeSupervisor.step] at h
    split at h
    · cases h
      exact ⟨(hI.answer id _).apart hI rfl rfl rfl, killsSpare_nil⟩
    · cases h
  | workerExited worker =>
    simp only [BridgeSupervisor.step] at h
    split at h
    · cases h
      refine ⟨hI.refl.loopMoves hI rfl rfl fun hopen => ?_, killsSpare_nil⟩
      split at hopen <;> cases hopen
    · cases h
  | loopTurn fault => exact slotInv_loopTurn hI h
  | exit worker code =>
    simp only [BridgeSupervisor.step] at h
    split at h
    · cases h
      exact ⟨⟨hI.inner, hI.answers, hI.loop, hI.helpers, hI.tasks⟩, killsSpare_nil⟩
    · cases h
  | resetSpawnFailures =>
    cases h
    refine ⟨After.apart (s := s) ?_ hI rfl rfl rfl, killsSpare_nil⟩
    exact hI.quiet (.of_same rfl (Nat.le_refl _) ⟨rfl, rfl⟩) rfl rfl rfl
  | tick elapsed =>
    cases h
    exact ⟨⟨hI.inner, hI.answers, hI.loop, hI.helpers, hI.tasks⟩, killsSpare_nil⟩

end

theorem slotInv_init (environment : Bool) : SlotInv (.init environment) := by
  refine ⟨⟨fun p hp => (by cases hp), fun id hid => (by cases hid), fun _ => rfl,
    fun p hp => (by cases hp)⟩, fun a ha => (by cases ha), fun hopen => (by cases hopen), .nil, .nil⟩

end CampusAuth.Bridge
