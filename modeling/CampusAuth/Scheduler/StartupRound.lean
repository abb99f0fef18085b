import CampusAuth.Scheduler.Service
import Mathlib.Data.List.Range

/- The round of a startup task in one piece (`scheduler/cron_loop.rs`: `execute_attempt`,
   `notify_task_result`, `execute_startup_round`).

   What the round meets is given beforehand (`RoundWorld`): how each attempt goes, and at which
   pause the cancellation is noticed. What it does is a list of events. A round whose future is
   dropped does a beginning of them.

   A round that is stopped or given up says nothing, and its success is recorded by the attempt
   itself. The number of attempts is a sum of 32 bits of a value that is read from the disk as it
   is; a round is described here where that sum does not overflow. -/
namespace CampusAuth.Scheduler

/-- How an attempt goes. -/
structure AttemptResult where
  success : Bool
  message : String := ""

structure RoundWorld where
  /-- The cancellation is noticed in the delay, or in the pause before an attempt. -/
  stoppedInDelay : Bool := false
  stoppedBefore : Nat → Bool := fun _ => false
  /-- The task in memory when the delay is over. -/
  latest : Option ScheduledTask
  today : String := ""
  attempt : Nat → AttemptResult
  /-- `app.task_notification` -/
  taskNotification : Bool := true

inductive RoundEvent where
  /-- The target of the task is executed. -/
  | attempt (number : Nat)
  /-- `update_last_run` and `add_history_record` -/
  | result (success : Bool) (message : String)
  /-- `record_startup_success` -/
  | recorded
  | notified (success : Bool) (message : String)
  deriving DecidableEq

inductive RoundEnd where
  | stopped
  | deleted
  | disabled
  | capped
  /-- The sum overflows where that is checked. -/
  | panicked
  | succeeded
  | exhausted
  deriving DecidableEq

namespace RoundWorld
variable (w : RoundWorld)

/-- The message of an attempt as it is kept. -/
def messageOf (number total : Nat) : String :=
  SchedulerService.attemptMessage number total (w.attempt number).message

def executeAttempt (task : ScheduledTask) (number total : Nat) : List RoundEvent :=
  .attempt number :: .result (w.attempt number).success (w.messageOf number total) ::
    if (w.attempt number).success && task.trigger = .startup then [.recorded] else []

def notifyTaskResult (success : Bool) (message : String) : List RoundEvent :=
  if w.taskNotification then [.notified success message] else []

/-- The loop with `left` attempts to go. -/
def attemptsFrom (task : ScheduledTask) (total : Nat) :
    Nat → Nat → String → List RoundEvent × RoundEnd
  | 0, _, lastMessage => (w.notifyTaskResult false lastMessage, .exhausted)
  | left + 1, number, _ =>
    if 1 < number && w.stoppedBefore number then ([], .stopped)
    else if (w.attempt number).success then
      (w.executeAttempt task number total ++ w.notifyTaskResult true (w.messageOf number total),
        .succeeded)
    else
      let r := attemptsFrom task total left (number + 1) (w.messageOf number total)
      (w.executeAttempt task number total ++ r.1, r.2)

/-- `checks` says whether the build checks sums for overflow. -/
def executeStartupRound (checks : Bool) (task : ScheduledTask) : List RoundEvent × RoundEnd :=
  if 0 < task.effectiveStartupDelaySecs && w.stoppedInDelay then ([], .stopped)
  else
    match w.latest with
    | none => ([], .deleted)
    | some latest =>
      if !latest.enabled then ([], .disabled)
      else if latest.startupCapReached w.today then ([], .capped)
      else if checks && 2 ^ 32 ≤ latest.effectiveMaxRetries + 1 then ([], .panicked)
      else w.attemptsFrom latest latest.totalAttempts latest.totalAttempts 1 "未执行"

/-! ## What is asked of a round -/

/-- The delay ends, and the task is still there to be run. -/
def Starts (task latest : ScheduledTask) : Prop :=
  (task.effectiveStartupDelaySecs = 0 ∨ w.stoppedInDelay = false) ∧ w.latest = some latest ∧
    latest.enabled = true ∧ latest.startupCapReached w.today = false

end RoundWorld

def RoundEvent.number : RoundEvent → Option Nat
  | .attempt number => some number
  | _ => none

/-- The numbers of the attempts. -/
def attemptsOf (events : List RoundEvent) : List Nat := events.filterMap RoundEvent.number

def RoundEvent.isNotified : RoundEvent → Bool
  | .notified .. => true
  | _ => false

/-- What a round of the task does that has started and ended. -/
structure RoundKeeps (w : RoundWorld) (latest : ScheduledTask) (events : List RoundEvent)
    (ended : RoundEnd) : Prop where
  ends : ended = .stopped ∨ ended = .succeeded ∨ ended = .exhausted
  attempts : ∃ count, 1 ≤ count ∧ count ≤ latest.effectiveMaxRetries + 1 ∧
    attemptsOf events = List.range' 1 count
  /-- Nothing is executed after a success. -/
  stops : ∀ before after message, events = before ++ .result true message :: after →
    attemptsOf after = []
  recorded : events.count .recorded ≤ 1
  /-- A round that is not stopped notifies once, at its end and of how it ended. -/
  notified : events.countP (·.isNotified) =
    if ended ≠ .stopped ∧ w.taskNotification = true then 1 else 0
  told : ended ≠ .stopped → w.taskNotification = true →
    ∃ message, events.getLast? = some (.notified (decide (ended = .succeeded)) message)
  /-- A stop is not followed by an attempt. -/
  cancelled : ∀ number, 1 < number → w.stoppedBefore number = true → number ∉ attemptsOf events

/-! ## The attempts -/

section
variable {w : RoundWorld} {task : ScheduledTask} {total number left : Nat}

@[simp] theorem attemptsOf_append (a b : List RoundEvent) :
    attemptsOf (a ++ b) = attemptsOf a ++ attemptsOf b := List.filterMap_append

@[simp] theorem attemptsOf_notify (success : Bool) (message : String) :
    attemptsOf (w.notifyTaskResult success message) = [] := by
  unfold RoundWorld.notifyTaskResult
  split <;> rfl

@[simp] theorem attemptsOf_execute : attemptsOf (w.executeAttempt task number total) = [number] := by
  unfold RoundWorld.executeAttempt
  split <;> rfl

theorem execute_failed (h : (w.attempt number).success = false) :
    w.executeAttempt task number total =
      [.attempt number, .result false (w.messageOf number total)] := by
  simp [RoundWorld.executeAttempt, h]

/-- The attempts from `number` on, at most `left` of them. -/
structure AttemptsKeep (w : RoundWorld) (number left : Nat) (events : List RoundEvent)
    (ended : RoundEnd) : Prop where
  ends : ended = .stopped ∨ ended = .succeeded ∨ ended = .exhausted
  attempts : ∃ count, count ≤ left ∧ (number = 1 → 0 < left → 1 ≤ count) ∧
    attemptsOf events = List.range' number count
  stops : ∀ before after message, events = before ++ .result true message :: after →
    attemptsOf after = []
  recorded : events.count .recorded ≤ 1
  notified : events.countP (·.isNotified) =
    if ended ≠ .stopped ∧ w.taskNotification = true then 1 else 0
  told : ended ≠ .stopped → w.taskNotification = true →
    ∃ message, events.getLast? = some (.notified (decide (ended = .succeeded)) message)
  cancelled : ∀ n, 1 < n → w.stoppedBefore n = true → n ∉ attemptsOf events

/-- No attempt is left. -/
theorem keep_exhausted (message : String) :
    AttemptsKeep w number 0 (w.notifyTaskResult false message) .exhausted where
  ends := .inr (.inr rfl)
  attempts := ⟨0, Nat.le_refl 0, fun _ h => absurd h (Nat.lt_irrefl 0), by simp⟩
  stops before after message' h := by
    unfold RoundWorld.notifyTaskResult at h
    split at h
    · cases before with
      | nil => cases h
      | cons e before => cases before <;> cases h
    · simp at h
  recorded := by
    unfold RoundWorld.notifyTaskResult
    split <;> simp
  notified := by
    unfold RoundWorld.notifyTaskResult
    split <;> simp_all [RoundEvent.isNotified]
  told _ h := ⟨message, by simp [RoundWorld.notifyTaskResult, h]⟩
  cancelled n _ _ := by simp

theorem keep_stopped (h : 1 < number) : AttemptsKeep w number left [] .stopped where
  ends := .inl rfl
  attempts := ⟨0, Nat.zero_le _, fun hone _ => by omega, rfl⟩
  stops before after message heq := by simp at heq
  recorded := Nat.zero_le 1
  notified := by simp
  told h _ := absurd rfl h
  cancelled n _ _ := by simp [attemptsOf]

theorem keep_succeeded (hgo : 1 < number → w.stoppedBefore number = false)
    (hsuccess : (w.attempt number).success = true) :
    AttemptsKeep w number (left + 1) (w.executeAttempt task number total ++
      w.notifyTaskResult true (w.messageOf number total)) .succeeded where
  ends := .inr (.inl rfl)
  attempts := ⟨1, Nat.le_add_left 1 left, fun _ _ => Nat.le_refl 1, by simp⟩
  stops before after message heq := by
    have hafter : attemptsOf (before ++ .result true message :: after) = [number] := by
      rw [← heq]
      simp
    have hfirst : ∃ rest, before = .attempt number :: rest := by
      unfold RoundWorld.executeAttempt at heq
      cases before with
      | nil => cases heq
      | cons e rest =>
        simp only [List.cons_append, List.cons.injEq] at heq
        exact ⟨rest, by rw [← heq.1]⟩
    obtain ⟨rest, rfl⟩ := hfirst
    simp only [attemptsOf, List.cons_append, List.filterMap_append, List.filterMap_cons,
      RoundEvent.number, List.cons.injEq, true_and, List.append_eq_nil_iff] at hafter
    exact hafter.2
  recorded := by
    unfold RoundWorld.executeAttempt RoundWorld.notifyTaskResult
    split <;> split <;> simp
  notified := by
    unfold RoundWorld.executeAttempt RoundWorld.notifyTaskResult
    split <;> split <;> simp_all [RoundEvent.isNotified]
  told _ h := ⟨w.messageOf number total, by simp [RoundWorld.notifyTaskResult, h]⟩
  cancelled n hn hstop := by
    simp only [attemptsOf_append, attemptsOf_execute, attemptsOf_notify, List.append_nil,
      List.mem_singleton]
    rintro rfl
    rw [hgo hn] at hstop
    cases hstop

theorem keep_failed {events : List RoundEvent} {ended : RoundEnd}
    (hgo : 1 < number → w.stoppedBefore number = false) (message : String)
    (h : AttemptsKeep w (number + 1) left events ended) :
    AttemptsKeep w number (left + 1) (.attempt number :: .result false message :: events) ended where
  ends := h.ends
  attempts := by
    obtain ⟨count, hle, _, hnumbers⟩ := h.attempts
    refine ⟨count + 1, Nat.succ_le_succ hle, fun _ _ => Nat.le_add_left 1 count, ?_⟩
    rw [List.range'_succ, ← hnumbers]
    rfl
  stops before after message' heq := by
    cases before with
    | nil => cases heq
    | cons first before =>
      cases before with
      | nil => cases heq
      | cons second before =>
        simp only [List.cons_append, List.cons.injEq] at heq
        exact h.stops before after message' heq.2.2
  recorded := by simpa using h.recorded
  notified := by
    have hnotified := h.notified
    simpa [RoundEvent.isNotified] using hnotified
  told hended hon := by
    obtain ⟨text, hlast⟩ := h.told hended hon
    refine ⟨text, ?_⟩
    rw [List.getLast?_cons, List.getLast?_cons, hlast]
    rfl
  cancelled n hn hstop := by
    have hrest := h.cancelled n hn hstop
    show n ∉ number :: attemptsOf events
    rw [List.mem_cons, not_or]
    refine ⟨?_, hrest⟩
    rintro rfl
    rw [hgo hn] at hstop
    cases hstop

theorem keep_attempts : ∀ (left number : Nat) (message : String),
    AttemptsKeep w number left (w.attemptsFrom task total left number message).1
      (w.attemptsFrom task total left number message).2
  | 0, number, message => keep_exhausted message
  | left + 1, number, message => by
    unfold RoundWorld.attemptsFrom
    by_cases hstop : (decide (1 < number) && w.stoppedBefore number) = true
    · rw [if_pos hstop]
      exact keep_stopped (of_decide_eq_true (Bool.and_eq_true_iff.mp hstop).1)
    rw [if_neg hstop]
    have hgo : 1 < number → w.stoppedBefore number = false := by
      intro hlt
      simpa [hlt] using hstop
    cases hsuccess : (w.attempt number).success with
    | true =>
      rw [if_pos rfl]
      exact keep_succeeded hgo hsuccess
    | false =>
      rw [if_neg Bool.false_ne_true, execute_failed hsuccess]
      exact keep_failed hgo _ (keep_attempts left (number + 1) _)

end

/-! ## Rounds -/

/-- A round that does not start does nothing, and one that does keeps to its attempts, records and
    notifies once, and is silent when it is stopped. -/
theorem startup_round (w : RoundWorld) (checks : Bool) (task : ScheduledTask) :
    ((∀ latest, ¬w.Starts task latest) → (w.executeStartupRound checks task).1 = []) ∧
      ∀ latest, w.Starts task latest → latest.effectiveMaxRetries + 1 < 2 ^ 32 →
        RoundKeeps w latest (w.executeStartupRound checks task).1
          (w.executeStartupRound checks task).2 := by
  constructor
  · intro hnot
    unfold RoundWorld.executeStartupRound
    split
    · rfl
    next hdelay =>
      split
      · rfl
      next latest hlatest =>
        split
        · rfl
        next henabled =>
          split
          · rfl
          next hcap =>
            refine absurd ⟨?_, hlatest, by simpa using henabled, by simpa using hcap⟩ (hnot latest)
            simp only [Bool.and_eq_true, decide_eq_true_eq, not_and, Bool.not_eq_true] at hdelay
            by_cases hzero : task.effectiveStartupDelaySecs = 0
            · exact .inl hzero
            · exact .inr (hdelay (Nat.pos_of_ne_zero hzero))
  · rintro latest ⟨hdelay, hlatest, henabled, hcap⟩ hfits
    have htotal : latest.totalAttempts = latest.effectiveMaxRetries + 1 := Nat.mod_eq_of_lt hfits
    have hround : w.executeStartupRound checks task =
        w.attemptsFrom latest latest.totalAttempts latest.totalAttempts 1 "未执行" := by
      unfold RoundWorld.executeStartupRound
      have hgo : ¬(decide (0 < task.effectiveStartupDelaySecs) && w.stoppedInDelay) = true := by
        rcases hdelay with hzero | hrun
        · simp [hzero]
        · simp [hrun]
      have hsum : ¬(checks && decide (2 ^ 32 ≤ latest.effectiveMaxRetries + 1)) = true := by
        rw [decide_eq_false (Nat.not_le.mpr hfits), Bool.and_false]
        exact Bool.false_ne_true
      rw [if_neg hgo, hlatest]
      dsimp only
      rw [henabled, hcap, if_neg hsum]
      rfl
    rw [hround]
    have hkeeps := @keep_attempts w latest latest.totalAttempts latest.totalAttempts 1 "未执行"
    obtain ⟨count, hle, hfirst, hnumbers⟩ := hkeeps.attempts
    refine ⟨hkeeps.ends, ⟨count, hfirst rfl ?_, htotal ▸ hle, hnumbers⟩, hkeeps.stops,
      hkeeps.recorded, hkeeps.notified, hkeeps.told, hkeeps.cancelled⟩
    rw [htotal]
    exact Nat.succ_pos _

/-- A task with the defaults, and an attempt that fails; then the scheduler stops. -/
def stoppedRound : RoundWorld where
  latest := some { id := "a", targetId := "t", trigger := .startup }
  attempt _ := ⟨false, ""⟩
  stoppedBefore _ := true

/-- The round that is stopped notifies nobody, and one whose task is disabled in the delay executes
    nothing. -/
theorem silent_rounds :
    attemptsOf (stoppedRound.executeStartupRound true
        { id := "a", targetId := "t", trigger := .startup }).1 = [1] ∧
      (stoppedRound.executeStartupRound true
        { id := "a", targetId := "t", trigger := .startup }).1.countP (·.isNotified) = 0 ∧
      ({ stoppedRound with
          latest := some { id := "a", targetId := "t", trigger := .startup, enabled := false } } :
        RoundWorld).executeStartupRound true { id := "a", targetId := "t", trigger := .startup } =
          ([], .disabled) := by
  decide

end CampusAuth.Scheduler
