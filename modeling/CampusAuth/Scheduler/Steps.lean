import CampusAuth.Scheduler.Service

/- What a step of the scheduler does to the marks and the runs (`Marks`), and what it does to the
   files (`Writes`).

   A mark is set together with the hand-over of a run, and it is cleared together with the end of
   one. A file is changed by the request, the run or the closure whose turn it is, and the first two
   have the file lock then. -/
namespace CampusAuth.Scheduler
open Lib
namespace SchedulerService
variable {s t : SchedulerService} {env : Env} {os : List Effect} {pid : Nat} {fault : Bool}

theorem getTask_id {id : String} {task : ScheduledTask} (h : s.getTask id = some task) :
    task.id = id := by
  have := List.find?_some h
  simpa using this

end SchedulerService

/-! ## Marks and runs -/

/-- The run is queued, or it is running. -/
def RunStage.active : RunStage → Bool
  | .admitted | .clearing | .ended => false
  | .queued | .permitted | .delaying | .rechecking | .executing .. | .updating .. | .recording ..
  | .concluding _ | .pausing .. | .finishing => true

inductive Marks (s t : SchedulerService) : Prop
  | same (hruns : t.runs = s.runs) (hids : t.runningIds = s.runningIds)
      (hcancelled : s.cancelled = true → t.cancelled = true)
  | handsOver (task : ScheduledTask) (source : RunSource) (hfree : task.id ∉ s.runningIds)
      (hruns : t.runs = s.runs ++ [⟨task, source, .admitted⟩])
      (hids : t.runningIds = task.id :: s.runningIds) (hcancelled : t.cancelled = s.cancelled)
  | moves (pid : Nat) (run run' : Run) (hat : s.runs[pid]? = some run)
      (hlive : run.stage.active = true ∨ (run.stage = .admitted ∧ s.cancelled = false))
      (hid : run'.task.id = run.task.id) (hactive : run'.stage.active = true)
      (hruns : t.runs = s.runs.set pid run') (hids : t.runningIds = s.runningIds)
      (hcancelled : t.cancelled = s.cancelled)
  | exits (pid : Nat) (run run' : Run) (hat : s.runs[pid]? = some run)
      (hstage : run.stage ≠ .ended) (hid : run'.task.id = run.task.id)
      (hgone : run'.stage = .ended ∨ (run'.stage = .clearing ∧ s.cancelled = true))
      (hruns : t.runs = s.runs.set pid run')
      (hids : t.runningIds = s.runningIds.filter (· ≠ run.task.id))
      (hcancelled : t.cancelled = s.cancelled)

namespace SchedulerService
variable {s t : SchedulerService} {env : Env} {os : List Effect} {pid : Nat} {fault : Bool}

theorem marks_opTurn {op : Op} (h : s.opTurn env pid fault op = some (t, os)) : Marks s t := by
  cases op with
  | toggling id enabled =>
    simp only [opTurn] at h
    split at h <;> cases h <;> exact .same rfl rfl (fun hc => hc)
  | saving id task stage =>
    cases stage <;> simp only [opTurn] at h
    case caching => cases h; exact .same rfl rfl (fun hc => hc)
    all_goals split at h <;> cases h <;> exact .same rfl rfl (fun hc => hc)
  | deleting id stage =>
    cases stage <;> simp only [opTurn] at h
    case locking =>
      split at h
      · cases h; exact .same rfl rfl (fun hc => hc)
      · split at h <;> cases h; exact .same rfl rfl (fun hc => hc)
    case removing => split at h <;> cases h <;> exact .same rfl rfl (fun hc => hc)
    case removingHistory =>
      cases h
      split <;> exact .same rfl rfl (fun hc => hc)
    case forgetting => cases h; exact .same rfl rfl (fun hc => hc)
  | triggering task =>
    simp only [opTurn] at h
    split at h
    · cases h; exact .same rfl rfl (fun hc => hc)
    next hfree => cases h; exact .handsOver task .manual hfree rfl rfl rfl
  | done => cases h
  | refused => cases h

section
variable {run : Run} (hat : s.runs[pid]? = some run)
include hat

/-- A run that is active goes on and stays active. -/
theorem marks_runTo {stage : RunStage} (hwas : run.stage.active = true)
    (hactive : stage.active = true) {s' : SchedulerService} (hruns : s'.runs = s.runs)
    (hids : s'.runningIds = s.runningIds) (hcancelled : s'.cancelled = s.cancelled) :
    Marks s (s'.runTo pid run stage) :=
  .moves pid run { run with stage } hat (.inl hwas) rfl hactive
    (by simp only [runTo, hruns]) hids hcancelled

theorem marks_exit (hstage : run.stage ≠ .ended) {stage : RunStage}
    (hgone : stage = .ended ∨ (stage = .clearing ∧ s.cancelled = true)) {s' : SchedulerService}
    (hruns : s'.runs = s.runs) (hids : s'.runningIds = s.runningIds.filter (· ≠ run.task.id))
    (hcancelled : s'.cancelled = s.cancelled) : Marks s (s'.runTo pid run stage) :=
  .exits pid run { run with stage } hat hstage rfl hgone (by simp only [runTo, hruns]) hids hcancelled

theorem marks_updateTurn {report : Report} {kind : UpdateKind} {after : RunStage}
    {stage : UpdateStage} (hwas : run.stage.active = true) (hafter : after.active = true)
    (h : s.updateTurn pid run report kind fault after stage = some (t, os)) : Marks s t := by
  cases stage <;> simp only [updateTurn] at h
  case locking => split at h <;> cases h; exact marks_runTo hat hwas rfl rfl rfl rfl
  case reading => split at h <;> cases h <;> exact marks_runTo hat hwas rfl rfl rfl rfl
  case writing read => split at h <;> cases h <;> exact marks_runTo hat hwas rfl rfl rfl rfl
  case caching => cases h; exact marks_runTo hat hwas hafter rfl rfl rfl

end

theorem marks_runTurn {task : ScheduledTask} {source : RunSource} {stage : RunStage}
    (hat : s.runs[pid]? = some ⟨task, source, stage⟩)
    (h : s.runTurn env pid ⟨task, source, stage⟩ fault stage = some (t, os)) : Marks s t := by
  cases stage <;> simp only [runTurn] at h
  case admitted =>
    split at h <;> cases h
    next => exact marks_exit hat (by simp) (.inl rfl) rfl rfl rfl
    next hcancelled =>
      exact .moves pid _ ⟨task, source, .queued⟩ hat (.inr ⟨rfl, by simpa using hcancelled⟩) rfl rfl
        rfl rfl rfl
  case queued => split at h <;> cases h; exact marks_runTo hat rfl rfl rfl rfl rfl
  case permitted => cases h; exact marks_runTo hat rfl (by split <;> rfl) rfl rfl rfl
  case delaying => cases h; exact marks_runTo hat rfl (by split <;> rfl) rfl rfl rfl
  case rechecking =>
    split at h
    · cases h; exact marks_runTo hat rfl rfl rfl rfl rfl
    next latest hlatest =>
      split at h <;> cases h
      · exact marks_runTo hat rfl rfl rfl rfl rfl
      · exact .moves pid _ ⟨latest, source, _⟩ hat (.inl rfl) (getTask_id hlatest)
          (by dsimp only; split <;> rfl) rfl rfl rfl
  case updating report kind stage =>
    exact marks_updateTurn hat rfl (by cases kind <;> rfl) h
  case recording report read =>
    cases read <;> cases h
    · exact marks_runTo hat rfl rfl rfl rfl rfl
    · refine marks_runTo hat rfl (by split <;> rfl) ?_ ?_ ?_ <;> split <;> rfl
  case concluding => cases h; exact marks_runTo hat rfl (by split <;> rfl) rfl rfl rfl
  case pausing => cases h; exact marks_runTo hat rfl (by split <;> rfl) rfl rfl rfl
  case executing | ended => cases h
  case finishing => cases h; exact marks_exit hat (by simp) (.inl rfl) rfl rfl rfl
  case clearing => cases h; exact marks_exit hat (by simp) (.inl rfl) rfl rfl rfl

theorem marks_attempted {task : ScheduledTask} {source : RunSource} {stage : RunStage}
    {success : Bool} {message : String} (hat : s.runs[pid]? = some ⟨task, source, stage⟩)
    (h : s.attempted env pid ⟨task, source, stage⟩ success message stage = some (t, os)) :
    Marks s t := by
  cases stage <;> simp only [attempted, reduceCtorEq, Option.some.injEq, Prod.mk.injEq] at h
  obtain ⟨rfl, -⟩ := h
  exact marks_runTo hat rfl rfl rfl rfl rfl

theorem marks_panic {task : ScheduledTask} {source : RunSource} {stage : RunStage}
    (hat : s.runs[pid]? = some ⟨task, source, stage⟩)
    (h : s.panic pid ⟨task, source, stage⟩ stage = some (t, os)) : Marks s t := by
  cases stage <;> cases h
  exact marks_exit hat (by simp) (.inl rfl) rfl rfl rfl

theorem marks_cancelTurn {task : ScheduledTask} {source : RunSource} {stage : RunStage}
    (hcancelled : s.cancelled = true) (hat : s.runs[pid]? = some ⟨task, source, stage⟩)
    (h : s.cancelTurn pid ⟨task, source, stage⟩ stage = some (t, os)) : Marks s t := by
  cases stage <;> cases h
  case queued => exact marks_exit hat (by simp) (.inl rfl) rfl rfl rfl
  case permitted => exact marks_exit hat (by simp) (.inl rfl) rfl rfl rfl
  all_goals exact marks_exit hat (by simp) (.inr ⟨rfl, hcancelled⟩) rfl rfl rfl

theorem marks_closureTurn {closure : Closure}
    (h : s.closureTurn env pid fault closure = some (t, os)) : Marks s t := by
  cases closure with
  | update id kind read =>
    cases read <;> simp only [closureTurn] at h <;> split at h <;> cases h <;>
      exact .same rfl rfl (fun hc => hc)
  | history id status message trigger read =>
    cases read <;> cases h
    · exact .same rfl rfl (fun hc => hc)
    · split <;> exact .same rfl rfl (fun hc => hc)
  | done => cases h

theorem marks_fireTurn (now : Nat) (done : List TaskSchedule) (entry : TaskSchedule)
    (todo : List TaskSchedule) (next : AfterFiring) :
    Marks s (s.fireTurn now done entry todo next).1 := by
  unfold fireTurn
  split
  · exact .same rfl rfl (fun hc => hc)
  · split
    · exact .same rfl rfl (fun hc => hc)
    · split
      · exact .same rfl rfl (fun hc => hc)
      next task htask =>
        split
        · exact .same rfl rfl (fun hc => hc)
        · simp only
          split
          · exact .same rfl rfl (fun hc => hc)
          next hfree =>
            exact .handsOver task .cron (getTask_id htask ▸ hfree) rfl rfl rfl

theorem marks_loopTurn {loop : LoopStage} (h : s.loopTurn env fault loop = some (t, os)) :
    Marks s t := by
  cases loop with
  | ready | stopped => cases h
  | firing now done todo next =>
    cases todo with
    | cons entry todo =>
      simp only [loopTurn, Option.some.injEq] at h
      have := marks_fireTurn (s := s) now done entry todo next
      rwa [h] at this
    | nil => cases next <;> cases h <;> exact .same rfl rfl (fun hc => hc)
  | advancing now done entry todo next => cases h; exact .same rfl rfl (fun hc => hc)
  | listing first => cases h; exact .same rfl rfl (fun hc => hc)
  | loading first todo loaded schedules invalid =>
    cases todo <;> cases h
    · exact .same rfl rfl (fun hc => hc)
    · unfold loadTurn
      split <;> exact .same rfl rfl (fun hc => hc)
  | greeting => cases h; exact .same rfl rfl (fun hc => hc)
  | dispatching today todo =>
    cases todo <;> cases h
    · exact .same rfl rfl (fun hc => hc)
    next task todo =>
      unfold greetTurn
      split
      · exact .same rfl rfl (fun hc => hc)
      next hfree =>
        refine .handsOver task .startup (fun hmem => hfree ?_) rfl rfl rfl
        simp [hmem]
  | scanning ids => cases h; exact .same rfl rfl (fun hc => hc)

theorem marks {e : Event} (h : s.step env e = some (t, os)) : Marks s t := by
  cases e <;> simp only [step] at h
  case tick | delete => cases h; exact .same rfl rfl (fun hc => hc)
  case create => split at h <;> cases h; exact .same rfl rfl (fun hc => hc)
  case update | toggle | runManually =>
    obtain ⟨job, -, h⟩ := Option.map_eq_some_iff.mp h
    cases h
    exact .same rfl rfl (fun hc => hc)
  case opTurn =>
    obtain ⟨op, -, h⟩ := Option.bind_eq_some_iff.mp h
    exact marks_opTurn h
  case runTurn =>
    obtain ⟨run, hat, h⟩ := Option.bind_eq_some_iff.mp h
    exact marks_runTurn hat h
  case attempted =>
    obtain ⟨run, hat, h⟩ := Option.bind_eq_some_iff.mp h
    exact marks_attempted hat h
  case panic =>
    obtain ⟨run, hat, h⟩ := Option.bind_eq_some_iff.mp h
    exact marks_panic hat h
  case cancelRun =>
    split at h
    next hcancelled =>
      obtain ⟨run, hat, h⟩ := Option.bind_eq_some_iff.mp h
      exact marks_cancelTurn hcancelled hat h
    next => cases h
  case closureTurn =>
    obtain ⟨closure, -, h⟩ := Option.bind_eq_some_iff.mp h
    exact marks_closureTurn h
  case wake | reload | scan => split at h <;> cases h; exact .same rfl rfl (fun hc => hc)
  case stop => split at h <;> cases h; exact .same rfl rfl (fun _ => rfl)
  case loopTurn => exact marks_loopTurn h

end SchedulerService
end CampusAuth.Scheduler
