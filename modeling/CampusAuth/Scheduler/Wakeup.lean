import CampusAuth.Scheduler.CronGap

/- When the scheduler's loop sleeps and when it fires (`scheduler/cron_loop.rs`:
   `systemtime_to_sleep_target`, `compute_nearest_fire_at`, `fire_due_tasks`).

   The loop reads the clock twice in a turn: to decide whether it sleeps, and to fire what is due.
   Below 100 ms there is no sleep, but what is fired has to be due exactly. Instants are
   nanoseconds, counted from the earliest time that the clock can show; between the two readings
   the clock may be set forward or back.

   `fireDueTasks` is the function in one piece; `pass_steps` says that the stages of the loop come
   to the same when nothing comes in between. -/
namespace CampusAuth.Scheduler
open Lib

inductive SleepAction where
  | fireNow
  | sleepUntil (target : Nat)
  deriving DecidableEq

/-- 100 ms. -/
def fireTolerance : Nat := 100000000

/-- 86400 s. -/
def idleSleep : Nat := 86400000000000

def systemtimeToSleepTarget (target nowSys : Nat) : SleepAction :=
  if nowSys ≤ target then
    if target - nowSys < fireTolerance then .fireNow else .sleepUntil target
  else .fireNow

def computeNearestFireAt (schedules : List TaskSchedule) : Option Nat :=
  (schedules.filterMap (·.nextFireAt)).min?

/-- What the loop does for the reading of the clock. -/
def sleepAction (schedules : List TaskSchedule) (now : Nat) : SleepAction :=
  match computeNearestFireAt schedules with
  | some nearest => systemtimeToSleepTarget nearest now
  | none => .sleepUntil (now + idleSleep)

/-! ## Firing in one piece -/

/-- How an entry that is due is dealt with. -/
inductive Dealt where
  | started
  | stillRunning
  | disabled
  | gone
  deriving DecidableEq

/-- `fired` counts those that are not passed over. -/
def Dealt.counts : Dealt → Bool
  | .started | .gone => true
  | .stillRunning | .disabled => false

structure FirePass where
  service : SchedulerService
  schedules : List TaskSchedule
  dealt : List (String × Dealt)

def FirePass.fired (pass : FirePass) : Nat := (pass.dealt.filter (·.2.counts)).length

namespace SchedulerService

def dealWith (s : SchedulerService) (id : String) : SchedulerService × Dealt :=
  match s.getTask id with
  | none => (s, .gone)
  | some task =>
    if !task.enabled then (s, .disabled)
    else if id ∈ s.runningIds then (s, .stillRunning)
    else (s.spawnRun task .cron, .started)

/-- The entry with its next instant computed anew. -/
def reschedule (s : SchedulerService) (entry : TaskSchedule) : TaskSchedule :=
  { entry with nextFireAt := entry.schedule.bind (·.after s.now) }

def fireDueTasks (now : Nat) : SchedulerService → List TaskSchedule → FirePass
  | s, [] => ⟨s, [], []⟩
  | s, entry :: todo =>
    if entry.due now then
      let pass := fireDueTasks now (s.dealWith entry.taskId).1 todo
      ⟨pass.service, s.reschedule entry :: pass.schedules,
        (entry.taskId, (s.dealWith entry.taskId).2) :: pass.dealt⟩
    else
      let pass := fireDueTasks now s todo
      ⟨pass.service, entry :: pass.schedules, pass.dealt⟩

end SchedulerService

open SchedulerService

/-! ## What is asked of a turn -/

/-- The readings of the clock in a turn. -/
structure Readings where
  planned : Nat
  fired : Nat

/-- When the loop decides to fire now, an entry is fired or rescheduled. -/
def Progresses (s : SchedulerService) (r : Readings) : Prop :=
  sleepAction s.taskSchedules r.planned = .fireNow →
    (fireDueTasks r.fired s s.taskSchedules).dealt ≠ []

/-- An entry is due at the second reading, or none comes within the tolerance of the first. -/
def DueOrFar (schedules : List TaskSchedule) (r : Readings) : Prop :=
  (∃ entry ∈ schedules, entry.due r.fired = true) ∨
    ∀ entry ∈ schedules, ∀ fireAt ∈ entry.nextFireAt, r.planned + fireTolerance ≤ fireAt

/-! ## The decision -/

section
variable {s : SchedulerService} {schedules : List TaskSchedule} {now : Nat}

theorem sleepTarget_fireNow {target nowSys : Nat} :
    systemtimeToSleepTarget target nowSys = .fireNow ↔ target < nowSys + fireTolerance := by
  unfold systemtimeToSleepTarget
  by_cases hle : nowSys ≤ target
  · rw [if_pos hle]
    by_cases hnear : target - nowSys < fireTolerance
    · rw [if_pos hnear]
      exact ⟨fun _ => by omega, fun _ => rfl⟩
    · rw [if_neg hnear]
      exact ⟨fun h => by simp at h, fun h => by omega⟩
  · rw [if_neg hle]
    exact ⟨fun _ => by omega, fun _ => rfl⟩

/-- It is fired at once when some entry comes within the tolerance. -/
theorem fireNow_iff : sleepAction schedules now = .fireNow ↔
    ∃ entry ∈ schedules, ∃ fireAt ∈ entry.nextFireAt, fireAt < now + fireTolerance := by
  unfold sleepAction
  cases hnearest : computeNearestFireAt schedules with
  | none =>
    have hnil := List.min?_eq_none_iff.mp hnearest
    refine ⟨fun h => by simp at h, ?_⟩
    rintro ⟨entry, hmem, fireAt, hfire, _⟩
    have hin : fireAt ∈ schedules.filterMap (·.nextFireAt) :=
      List.mem_filterMap.mpr ⟨entry, hmem, hfire⟩
    rw [hnil] at hin
    cases hin
  | some nearest =>
    obtain ⟨hin, hleast⟩ := List.min?_eq_some_iff.mp hnearest
    dsimp only
    rw [sleepTarget_fireNow]
    constructor
    · intro hnear
      obtain ⟨entry, hmem, hfire⟩ := List.mem_filterMap.mp hin
      exact ⟨entry, hmem, nearest, hfire, hnear⟩
    · rintro ⟨entry, hmem, fireAt, hfire, hnear⟩
      have hle := hleast fireAt (List.mem_filterMap.mpr ⟨entry, hmem, hfire⟩)
      omega

/-! ## The firing -/

@[simp] theorem now_dealWith (s : SchedulerService) (id : String) :
    (s.dealWith id).1.now = s.now := by
  unfold dealWith
  cases s.getTask id with
  | none => rfl
  | some task =>
    dsimp only
    split
    · rfl
    · split <;> rfl

/-- Exactly the entries that are due are dealt with. -/
theorem dealt_iff : ∀ {s : SchedulerService} {schedules : List TaskSchedule},
    (fireDueTasks now s schedules).dealt ≠ [] ↔ ∃ entry ∈ schedules, entry.due now = true
  | s, [] => by simp [fireDueTasks]
  | s, entry :: todo => by
    unfold fireDueTasks
    cases hdue : entry.due now with
    | true => simp [hdue]
    | false =>
      have hrest : (fireDueTasks now s todo).dealt ≠ [] ↔ ∃ entry ∈ todo, entry.due now = true :=
        dealt_iff
      simpa [hdue] using hrest

/-- A pass without an entry that is due changes nothing. -/
theorem pass_idle : ∀ {s : SchedulerService} {schedules : List TaskSchedule},
    (∀ entry ∈ schedules, entry.due now = false) →
    (fireDueTasks now s schedules).service = s ∧
      (fireDueTasks now s schedules).schedules = schedules
  | s, [], _ => ⟨rfl, rfl⟩
  | s, entry :: todo, h => by
    obtain ⟨hentry, htodo⟩ := List.forall_mem_cons.mp h
    obtain ⟨hservice, hschedules⟩ := pass_idle (s := s) htodo
    unfold fireDueTasks
    simp [hentry, hservice, hschedules]

/-- An entry that was due is later than before, or has no instant any more. -/
theorem reschedule_later {entry : TaskSchedule} (hnow : now ≤ s.now) (hdue : entry.due now = true) :
    ∀ next ∈ (s.reschedule entry).nextFireAt, ∀ fireAt ∈ entry.nextFireAt, fireAt < next := by
  intro next hnext fireAt hfire
  obtain ⟨S, _, hafter⟩ := Option.bind_eq_some_iff.mp hnext
  obtain ⟨other, hother, hle⟩ := due_iff.mp hdue
  have heq : other = fireAt := Option.some.inj (hother.symm.trans hfire)
  have hlater := (S.after_spec s.now next hafter).1
  omega

/-! ## The stages of the loop -/

theorem fireTurn_idle {entry : TaskSchedule} (h : entry.due now = false)
    (done todo : List TaskSchedule) (next : AfterFiring) :
    s.fireTurn now done entry todo next = (s.loopTo (.firing now (done ++ [entry]) todo next), []) := by
  unfold fireTurn
  unfold TaskSchedule.due at h
  cases hfire : entry.nextFireAt with
  | none => rfl
  | some fireAt =>
    rw [hfire] at h
    have hlater : now < fireAt := Nat.not_le.mp (of_decide_eq_false h)
    simp [hlater]

theorem fireTurn_due {entry : TaskSchedule} (h : entry.due now = true)
    (done todo : List TaskSchedule) (next : AfterFiring) :
    (s.fireTurn now done entry todo next).1 =
      (s.dealWith entry.taskId).1.loopTo (.advancing now done entry todo next) := by
  obtain ⟨fireAt, hfire, hle⟩ := due_iff.mp h
  unfold fireTurn dealWith
  rw [hfire]
  dsimp only
  rw [if_neg (Nat.not_lt.mpr hle)]
  cases s.getTask entry.taskId with
  | none => rfl
  | some task =>
    dsimp only
    split
    · rfl
    · split <;> rfl

theorem getTask_loopTo (loop : LoopStage) (id : String) :
    (s.loopTo loop).getTask id = s.getTask id := rfl

theorem dealWith_loopTo (loop : LoopStage) (id : String) :
    ((s.loopTo loop).dealWith id).1 = (s.dealWith id).1.loopTo loop := by
  unfold dealWith
  rw [getTask_loopTo]
  cases s.getTask id with
  | none => rfl
  | some task =>
    dsimp only
    split
    · rfl
    · by_cases hrunning : id ∈ s.runningIds
      · rw [if_pos hrunning, if_pos (show id ∈ (s.loopTo loop).runningIds from hrunning)]
      · rw [if_neg hrunning, if_neg (show id ∉ (s.loopTo loop).runningIds from hrunning)]
        rfl

/-- The turns of the loop without anything in between come to the function in one piece. -/
theorem pass_steps (env : Env) (next : AfterFiring) : ∀ (todo done : List TaskSchedule)
    (s : SchedulerService), ∃ es os, (∀ e ∈ es, e = .loopTurn) ∧
      (schedulerMachine env).Steps (s.loopTo (.firing now done todo next)) es os
        ((fireDueTasks now s todo).service.loopTo
          (.firing now (done ++ (fireDueTasks now s todo).schedules) [] next))
  | [], done, s => by
    refine ⟨[], [], by simp, ?_⟩
    rw [fireDueTasks, List.append_nil]
    exact .nil _
  | entry :: todo, done, s => by
    cases hdue : entry.due now with
    | false =>
      obtain ⟨es, os, hes, hsteps⟩ := pass_steps env next todo (done ++ [entry]) s
      have hpass : fireDueTasks now s (entry :: todo) =
          ⟨(fireDueTasks now s todo).service, entry :: (fireDueTasks now s todo).schedules,
            (fireDueTasks now s todo).dealt⟩ := by
        simp [fireDueTasks, hdue]
      have hfire : (schedulerMachine env).step (s.loopTo (.firing now done (entry :: todo) next))
          .loopTurn = some (s.loopTo (.firing now (done ++ [entry]) todo next), []) :=
        congrArg some (fireTurn_idle hdue done todo next)
      rw [List.append_assoc, List.singleton_append] at hsteps
      rw [hpass]
      exact ⟨_, _, List.forall_mem_cons.mpr ⟨rfl, hes⟩, .cons hfire hsteps⟩
    | true =>
      let s' := (s.dealWith entry.taskId).1
      obtain ⟨es, os, hes, hsteps⟩ :=
        pass_steps env next todo (done ++ [s.reschedule entry]) s'
      have hpass : fireDueTasks now s (entry :: todo) =
          ⟨(fireDueTasks now s' todo).service,
            s.reschedule entry :: (fireDueTasks now s' todo).schedules,
            (entry.taskId, (s.dealWith entry.taskId).2) :: (fireDueTasks now s' todo).dealt⟩ := by
        simp [fireDueTasks, hdue, s']
      have hfire : (schedulerMachine env).step (s.loopTo (.firing now done (entry :: todo) next))
          .loopTurn = some (s'.loopTo (.advancing now done entry todo next),
            ((s.loopTo (.firing now done (entry :: todo) next)).fireTurn now done entry todo next).2) := by
        show some ((s.loopTo _).fireTurn now done entry todo next) = _
        refine congrArg some (Prod.ext ?_ rfl)
        rw [fireTurn_due hdue, dealWith_loopTo]
        rfl
      have hadvance : (schedulerMachine env).step (s'.loopTo (.advancing now done entry todo next))
          .loopTurn = some (s'.loopTo (.firing now (done ++ [s.reschedule entry]) todo next), []) := by
        have hentry : ({ entry with nextFireAt := entry.schedule.bind (·.after s'.now) } : TaskSchedule)
            = s.reschedule entry := by
          rw [reschedule, now_dealWith]
        show some (s'.loopTo (.firing now (done ++ [_]) todo next), []) = _
        rw [← hentry]
        rfl
      rw [List.append_assoc, List.singleton_append] at hsteps
      rw [hpass]
      refine ⟨_, _, ?_, .cons hfire (.cons hadvance hsteps)⟩
      exact List.forall_mem_cons.mpr ⟨rfl, List.forall_mem_cons.mpr ⟨rfl, hes⟩⟩

end

/-! ## Turns -/

/-- A turn that fires at once without progress leaves everything as it is. -/
theorem spin_unchanged {s : SchedulerService} {r : Readings} (h : ¬Progresses s r) :
    (fireDueTasks r.fired s s.taskSchedules).service = s ∧
      (fireDueTasks r.fired s s.taskSchedules).schedules = s.taskSchedules := by
  refine pass_idle fun entry hmem => ?_
  by_contra hdue
  refine h fun _ => dealt_iff.mpr ⟨entry, hmem, ?_⟩
  exact Bool.not_eq_false _ ▸ hdue

/-- A turn makes progress exactly when an entry is due at the second reading of the clock, or none
    is near at the first. -/
theorem progresses_iff (s : SchedulerService) (r : Readings) :
    Progresses s r ↔ DueOrFar s.taskSchedules r := by
  unfold Progresses DueOrFar
  rw [fireNow_iff, dealt_iff]
  constructor
  · intro h
    by_cases hnear : ∃ entry ∈ s.taskSchedules, ∃ fireAt ∈ entry.nextFireAt,
        fireAt < r.planned + fireTolerance
    · exact .inl (h hnear)
    · refine .inr fun entry hmem fireAt hfire => Nat.not_lt.mp fun hlt => ?_
      exact hnear ⟨entry, hmem, fireAt, hfire, hlt⟩
  · rintro (hdue | hfar) ⟨entry, hmem, fireAt, hfire, hlt⟩
    · exact hdue
    · exact absurd hlt (Nat.not_lt.mpr (hfar entry hmem fireAt hfire))

/-- An entry 50 ms ahead. -/
def nearEntry : SchedulerService :=
  { loop := .ready, taskSchedules := [⟨"a", none, some 50000000⟩] }

/-- Both readings come before it: it is fired at once, and nothing is. -/
theorem near_entry_spins : ¬Progresses nearEntry ⟨0, 0⟩ := by
  intro h
  exact h (by decide) (by decide)

end CampusAuth.Scheduler
