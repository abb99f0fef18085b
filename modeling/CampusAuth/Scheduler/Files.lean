import CampusAuth.Scheduler.Steps
import CampusAuth.Lib.Assoc

/- Who changes the files of the scheduler, and when (`Acts`).

   A request changes the task files and the records only while it has the file lock, a run the task
   files. A run's records, and what a cancelled run leaves behind in a blocking thread, are written
   without it. -/
namespace CampusAuth.Scheduler
open Lib

section
variable {α : Type} (files : List (String × α)) (id key : String) (a : α)

theorem lookup_put : (put files id a).lookup key = if key = id then some a else files.lookup key := by
  rw [put, lookup_cons_ite, lookup_filter_ne]
  split <;> rfl

theorem lookup_takeOut :
    (takeOut files id).lookup key = if key = id then none else files.lookup key :=
  lookup_filter_ne files key id

end

/-- From its file operation to its end a request has the file lock. -/
def Op.locks : Op → Bool
  | .saving _ _ .writing | .saving _ _ .caching | .deleting _ .removing
  | .deleting _ .removingHistory | .deleting _ .forgetting => true
  | .toggling .. | .saving _ _ .validating | .saving _ _ .locking | .deleting _ .locking
  | .triggering _ | .done | .refused => false

/-- The request has only just been made. -/
def Op.starts : Op → Bool
  | .toggling .. | .saving _ _ .validating | .deleting _ .locking | .triggering _ => true
  | _ => false

theorem Op.not_locks_of_starts {op : Op} (h : op.starts = true) : op.locks = false := by
  rcases op with _ | ⟨_, _, _ | _ | _ | _⟩ | ⟨_, _ | _ | _ | _⟩ | _ | _ | _ <;> first | rfl | cases h

/-- The file operation that the request has the lock for is still to come. -/
def Op.aboutToChange : Op → Bool
  | .saving _ _ .writing | .deleting _ .removing => true
  | _ => false

/-- The run is about to write the file of its task. -/
def RunStage.writesTask : RunStage → Bool
  | .updating _ _ (.writing _) => true
  | _ => false

theorem RunStage.not_writes_of_not_locks {stage : RunStage} (h : stage.locks = false) :
    stage.writesTask = false := by
  unfold RunStage.writesTask
  split
  · cases h
  · rfl

/-- What the run has read of the file and is about to write. -/
def Run.copy (run : Run) : Option ScheduledTask :=
  match run.stage with
  | .updating _ _ (.writing read) => some read
  | _ => none

theorem Run.copy_of_not_writes {run : Run} (h : run.stage.writesTask = false) : run.copy = none := by
  unfold Run.copy
  split
  next hstage => rw [hstage] at h; cases h
  next => rfl

/-- All copies that are about to be written, each for its task. -/
def Copies (P : String → ScheduledTask → Prop) (runs : Pool Run) : Prop :=
  Pool.All (fun _ run => ∀ read ∈ run.copy, P run.task.id read) runs

theorem Copies.imp {P Q : String → ScheduledTask → Prop} {runs : Pool Run} (h : Copies P runs)
    (hPQ : ∀ id read, P id read → Q id read) : Copies Q runs :=
  Pool.All.imp h fun _ _ hrun read hcopy => hPQ _ read (hrun read hcopy)

/-- The files, their lock and the closures are as they were. -/
structure SameFiles (s t : SchedulerService) : Prop where
  files : t.files = s.files
  histories : t.histories = s.histories
  closures : t.closures = s.closures

/-- The turn of a request. -/
inductive OpActs (s t : SchedulerService) (pid : Nat) (fault : Bool) (op op' : Op) :
    List Effect → Prop
  | waits (hop : op.locks = false) (hop' : op'.locks = false) (hsame : SameFiles s t)
      (hlock : t.fileMutex = s.fileMutex) : OpActs s t pid fault op op' []
  | locks (hop : op.locks = false) (hop' : op'.aboutToChange = true) (hsame : SameFiles s t)
      (hfree : s.fileMutex = none) (hlock : t.fileMutex = some (.op pid)) :
      OpActs s t pid fault op op' []
  | saves (id : String) (task : ScheduledTask) (hop : op = .saving id task .writing)
      (hop' : op' = .saving id task .caching) (hfault : fault = false)
      (hfiles : t.files = put s.files id task) (hhistories : t.histories = s.histories)
      (hclosures : t.closures = s.closures) (hlock : t.fileMutex = s.fileMutex) :
      OpActs s t pid fault op op' [.saved id]
  | removes (id : String) (hop : op = .deleting id .removing)
      (hop' : op' = .deleting id .removingHistory) (hfault : fault = false)
      (hfile : (s.files.lookup id).isSome = true)
      (hfiles : t.files = takeOut s.files id) (hhistories : t.histories = s.histories)
      (hclosures : t.closures = s.closures) (hlock : t.fileMutex = s.fileMutex) :
      OpActs s t pid fault op op' []
  | removesHistory (id : String) (hop : op = .deleting id .removingHistory)
      (hop' : op' = .deleting id .forgetting) (hfiles : t.files = s.files)
      (hhistories : t.histories = if fault then s.histories else takeOut s.histories id)
      (hclosures : t.closures = s.closures) (hlock : t.fileMutex = s.fileMutex) :
      OpActs s t pid fault op op' []
  | unlocks (hop : op.locks = true) (hop' : op'.locks = false) (hsame : SameFiles s t)
      (hlock : t.fileMutex = none) : OpActs s t pid fault op op' []
  | forgets (id : String) (hop : op = .deleting id .forgetting) (hop' : op'.locks = false)
      (hsame : SameFiles s t) (hlock : t.fileMutex = none) :
      OpActs s t pid fault op op' [.deleted id]

/-- The turn of a run. -/
inductive RunActs (s t : SchedulerService) (e : Event) (pid : Nat) (run run' : Run) :
    List Effect → Prop
  | waits (hrun : run.stage.locks = false) (hrun' : run'.stage.locks = false)
      (hsame : SameFiles s t) (hlock : t.fileMutex = s.fileMutex) : RunActs s t e pid run run' []
  | locks (report : Report) (kind : UpdateKind) (hrun' : run'.stage = .updating report kind .reading)
      (hsame : SameFiles s t) (hfree : s.fileMutex = none) (hlock : t.fileMutex = some (.run pid)) :
      RunActs s t e pid run run' []
  | reads (report : Report) (kind : UpdateKind) (read : ScheduledTask)
      (hrun : run.stage = .updating report kind .reading)
      (hrun' : run'.stage = .updating report kind (.writing read))
      (hread : s.loadFrom run.task.id = some read) (hsame : SameFiles s t)
      (hlock : t.fileMutex = s.fileMutex) : RunActs s t e pid run run' []
  | fails (fault : Bool) (report : Report) (kind : UpdateKind) (stage : UpdateStage)
      (he : e = .runTurn pid fault) (hrun : run.stage = .updating report kind stage)
      (hfails : (stage = .reading ∧ (fault = true ∨ s.loadFrom run.task.id = none)) ∨
        ((∃ read, stage = .writing read) ∧ fault = true))
      (hrun' : run'.stage = .updating report kind .caching) (hsame : SameFiles s t)
      (hlock : t.fileMutex = s.fileMutex) : RunActs s t e pid run run' (kind.recorded run.task.id)
  | writes (report : Report) (kind : UpdateKind) (read : ScheduledTask)
      (he : e = .runTurn pid false) (hrun : run.stage = .updating report kind (.writing read))
      (hrun' : run'.stage = .updating report kind .caching)
      (hfiles : t.files = put s.files run.task.id (kind.apply read))
      (hhistories : t.histories = s.histories) (hclosures : t.closures = s.closures)
      (hlock : t.fileMutex = s.fileMutex) : RunActs s t e pid run run' (kind.recorded run.task.id)
  | unlocks (hrun : run.stage.locks = true) (hrun' : run'.stage.locks = false)
      (hsame : SameFiles s t) (hlock : t.fileMutex = none) : RunActs s t e pid run run' []
  | records (report : Report) (read runs : List HistoryRecord) (he : e = .runTurn pid false)
      (hrun : run.stage = .recording report (some read)) (hrun' : run'.stage.locks = false)
      (hfiles : t.files = s.files) (hhistories : t.histories = put s.histories run.task.id runs)
      (hclosures : t.closures = s.closures) (hlock : t.fileMutex = s.fileMutex) :
      RunActs s t e pid run run' []
  | leaves (hrun' : run'.stage = .clearing) (hfiles : t.files = s.files)
      (hhistories : t.histories = s.histories)
      (hclosures : t.closures = s.closures ++ SchedulerService.leftBehind run run.stage)
      (hlock : t.fileMutex = if run.stage.locks then none else s.fileMutex) :
      RunActs s t e pid run run' []

/-- The turn of a closure. -/
inductive ClosureActs (s t : SchedulerService) (pid : Nat) (fault : Bool) (closure closure' : Closure) :
    List Effect → Prop
  | reads (id : String) (kind : UpdateKind) (read : ScheduledTask)
      (hclosure : closure = .update id kind none) (hclosure' : closure' = .update id kind (some read))
      (hread : s.loadFrom id = some read) (hfiles : t.files = s.files)
      (hhistories : t.histories = s.histories) : ClosureActs s t pid fault closure closure' []
  | fails (id : String) (kind : UpdateKind) (read : Option ScheduledTask)
      (hclosure : closure = .update id kind read) (hclosure' : closure' = .done)
      (hfails : fault = true ∨ (read = none ∧ s.loadFrom id = none)) (hfiles : t.files = s.files)
      (hhistories : t.histories = s.histories) :
      ClosureActs s t pid fault closure closure' (kind.recorded id)
  | writes (id : String) (kind : UpdateKind) (read : ScheduledTask)
      (hclosure : closure = .update id kind (some read)) (hclosure' : closure' = .done)
      (hfault : fault = false) (hfiles : t.files = put s.files id (kind.apply read))
      (hhistories : t.histories = s.histories) :
      ClosureActs s t pid fault closure closure' (kind.recorded id)
  | readsHistory (id status message trigger : String) (read : Option (List HistoryRecord))
      (hclosure : closure = .history id status message trigger read)
      (hclosure' : closure' = .done ∨ ∃ read, closure' = .history id status message trigger read)
      (hfiles : t.files = s.files) (hhistories : t.histories = s.histories) :
      ClosureActs s t pid fault closure closure' []
  | records (id status message trigger : String) (read runs : List HistoryRecord)
      (hclosure : closure = .history id status message trigger (some read))
      (hclosure' : closure' = .done) (hfault : fault = false) (hfiles : t.files = s.files)
      (hhistories : t.histories = put s.histories id runs) :
      ClosureActs s t pid fault closure closure' []

/-- The effect is on a file. -/
def Effect.onFiles : Effect → Bool
  | .saved _ | .deleted _ | .recorded .. => true
  | .fired .. | .passed .. => false

/-- At most a new run is handed over. -/
def HandsOver (s t : SchedulerService) : Prop :=
  t.runs = s.runs ∨ ∃ task source, t.runs = s.runs ++ [⟨task, source, .admitted⟩]

inductive Acts (s t : SchedulerService) (e : Event) (os : List Effect) : Prop
  | idle (hnow : s.now ≤ t.now) (hsame : SameFiles s t) (hlock : t.fileMutex = s.fileMutex)
      (hops : t.ops = s.ops)
      (hruns : HandsOver s t) (hos : ∀ o ∈ os, o.onFiles = false)
  | asks (hnow : s.now ≤ t.now) (op : Op) (hop : op.starts = true) (hsame : SameFiles s t)
      (hlock : t.fileMutex = s.fileMutex) (hops : t.ops = s.ops ++ [op])
      (hruns : t.runs = s.runs) (hos : os = [])
  | op (hnow : s.now ≤ t.now) (pid : Nat) (fault : Bool) (op op' : Op)
      (he : e = .opTurn pid fault) (hat : s.ops[pid]? = some op) (hops : t.ops = s.ops.set pid op')
      (hruns : HandsOver s t)
      (hacts : OpActs s t pid fault op op' os)
  | run (hnow : s.now ≤ t.now) (pid : Nat) (run run' : Run) (hat : s.runs[pid]? = some run)
      (hops : t.ops = s.ops)
      (hruns : t.runs = s.runs.set pid run') (hid : run'.task.id = run.task.id)
      (hacts : RunActs s t e pid run run' os)
  | closure (hnow : s.now ≤ t.now) (pid : Nat) (fault : Bool) (closure closure' : Closure)
      (he : e = .closureTurn pid fault)
      (hat : s.closures[pid]? = some closure) (hops : t.ops = s.ops) (hruns : t.runs = s.runs)
      (hclosures : t.closures = s.closures.set pid closure') (hlock : t.fileMutex = s.fileMutex)
      (hacts : ClosureActs s t pid fault closure closure' os)

namespace SchedulerService
variable {s t : SchedulerService} {env : Env} {os : List Effect} {pid : Nat} {fault : Bool}

theorem acts_opTurn {op : Op} (hat : s.ops[pid]? = some op)
    (h : s.opTurn env pid fault op = some (t, os)) : Acts s t (.opTurn pid fault) os := by
  cases op with
  | toggling id enabled =>
    simp only [opTurn] at h
    split at h <;> cases h <;>
      exact .op (Nat.le_refl _) pid fault _ _ rfl hat rfl (.inl rfl) (.waits rfl rfl ⟨rfl, rfl, rfl⟩ rfl)
  | saving id task stage =>
    cases stage <;> simp only [opTurn] at h
    case validating =>
      split at h <;> cases h <;>
        exact .op (Nat.le_refl _) pid fault _ _ rfl hat rfl (.inl rfl) (.waits rfl rfl ⟨rfl, rfl, rfl⟩ rfl)
    case locking =>
      split at h <;> cases h
      next hfree =>
        exact .op (Nat.le_refl _) pid fault _ _ rfl hat rfl (.inl rfl)
          (.locks rfl rfl ⟨rfl, rfl, rfl⟩ (by simpa using hfree) rfl)
    case writing =>
      split at h <;> cases h
      · exact .op (Nat.le_refl _) pid fault _ _ rfl hat rfl (.inl rfl)
          (.unlocks rfl rfl ⟨rfl, rfl, rfl⟩ rfl)
      next hfault =>
        exact .op (Nat.le_refl _) pid fault _ _ rfl hat rfl (.inl rfl)
          (.saves id task rfl rfl (by simpa using hfault) rfl rfl rfl rfl)
    case caching =>
      cases h
      exact .op (Nat.le_refl _) pid fault _ _ rfl hat rfl (.inl rfl)
        (.unlocks rfl rfl ⟨rfl, rfl, rfl⟩ rfl)
  | deleting id stage =>
    cases stage <;> simp only [opTurn] at h
    case locking =>
      split at h
      · cases h
        exact .op (Nat.le_refl _) pid fault _ _ rfl hat rfl (.inl rfl) (.waits rfl rfl ⟨rfl, rfl, rfl⟩ rfl)
      · split at h <;> cases h
        next hfree =>
          exact .op (Nat.le_refl _) pid fault _ _ rfl hat rfl (.inl rfl)
            (.locks rfl rfl ⟨rfl, rfl, rfl⟩ (by simpa using hfree) rfl)
    case removing =>
      split at h <;> cases h
      · exact .op (Nat.le_refl _) pid fault _ _ rfl hat rfl (.inl rfl)
          (.unlocks rfl rfl ⟨rfl, rfl, rfl⟩ rfl)
      next hthere =>
        obtain ⟨hfile, hfault⟩ : (s.files.lookup id).isSome = true ∧ fault = false := by
          simpa [Option.isSome_iff_ne_none] using hthere
        exact .op (Nat.le_refl _) pid fault _ _ rfl hat rfl (.inl rfl)
          (.removes id rfl rfl hfault hfile rfl rfl rfl rfl)
    case removingHistory =>
      cases h
      cases fault <;>
        exact .op (Nat.le_refl _) pid _ _ _ rfl hat rfl (.inl rfl) (.removesHistory id rfl rfl rfl rfl rfl rfl)
    case forgetting =>
      cases h
      exact .op (Nat.le_refl _) pid fault _ _ rfl hat rfl (.inl rfl)
        (.forgets id rfl rfl ⟨rfl, rfl, rfl⟩ rfl)
  | triggering task =>
    simp only [opTurn] at h
    split at h <;> cases h
    · exact .op (Nat.le_refl _) pid fault _ _ rfl hat rfl (.inl rfl) (.waits rfl rfl ⟨rfl, rfl, rfl⟩ rfl)
    · exact .op (Nat.le_refl _) pid fault _ .done rfl hat rfl (.inr ⟨task, .manual, rfl⟩)
        (.waits rfl rfl ⟨rfl, rfl, rfl⟩ rfl)
  | done => cases h
  | refused => cases h

section
variable {e : Event} {run : Run}

/-- A run goes on without the lock and leaves the files alone. -/
theorem acts_runTo (hat : s.runs[pid]? = some run) {stage : RunStage}
    (hwas : run.stage.locks = false) (hstage : stage.locks = false) {s' : SchedulerService}
    (hnow : s.now ≤ s'.now) (hsame : SameFiles s s') (hlock : s'.fileMutex = s.fileMutex)
    (hops : s'.ops = s.ops)
    (hruns : s'.runs = s.runs) : Acts s (s'.runTo pid run stage) e [] :=
  .run hnow pid run { run with stage } hat hops (by simp only [runTo, hruns]) rfl
    (.waits hwas hstage ⟨hsame.files, hsame.histories, hsame.closures⟩ hlock)

theorem acts_updateTurn {report : Report} {kind : UpdateKind} {after : RunStage}
    {stage : UpdateStage} {task : ScheduledTask} {source : RunSource}
    (hat : s.runs[pid]? = some ⟨task, source, .updating report kind stage⟩)
    (hafter : after.locks = false)
    (h : s.updateTurn pid ⟨task, source, .updating report kind stage⟩ report kind fault after stage =
      some (t, os)) : Acts s t (.runTurn pid fault) os := by
  cases stage <;> simp only [updateTurn] at h
  case locking =>
    split at h <;> cases h
    next hfree =>
      exact .run (Nat.le_refl _) pid _ ⟨task, source, _⟩ hat rfl rfl rfl
        (.locks report kind rfl ⟨rfl, rfl, rfl⟩ (by simpa using hfree) rfl)
  case reading =>
    split at h <;> cases h
    next read hread =>
      have hread : s.loadFrom task.id = some read := by
        split at hread
        · cases hread
        · exact hread
      exact .run (Nat.le_refl _) pid _ ⟨task, source, _⟩ hat rfl rfl rfl
        (.reads report kind read rfl rfl hread ⟨rfl, rfl, rfl⟩ rfl)
    next hread =>
      have hfails : fault = true ∨ s.loadFrom task.id = none := by
        split at hread
        next hfault => exact .inl hfault
        next => exact .inr hread
      exact .run (Nat.le_refl _) pid _ ⟨task, source, _⟩ hat rfl rfl rfl
        (.fails fault report kind .reading rfl rfl (.inl ⟨rfl, hfails⟩) rfl ⟨rfl, rfl, rfl⟩ rfl)
  case writing read =>
    split at h <;> cases h
    next hfault =>
      exact .run (Nat.le_refl _) pid _ ⟨task, source, _⟩ hat rfl rfl rfl
        (.fails fault report kind _ rfl rfl (.inr ⟨⟨read, rfl⟩, hfault⟩) rfl ⟨rfl, rfl, rfl⟩ rfl)
    next hfault =>
      have hfault : fault = false := by simpa using hfault
      subst hfault
      exact .run (Nat.le_refl _) pid _ ⟨task, source, _⟩ hat rfl rfl rfl
        (.writes report kind read rfl rfl rfl rfl rfl rfl rfl)
  case caching =>
    cases h
    exact .run (Nat.le_refl _) pid _ ⟨task, source, after⟩ hat rfl rfl rfl
      (.unlocks rfl hafter ⟨rfl, rfl, rfl⟩ rfl)

theorem acts_runTurn {task : ScheduledTask} {source : RunSource} {stage : RunStage}
    (hat : s.runs[pid]? = some ⟨task, source, stage⟩)
    (h : s.runTurn env pid ⟨task, source, stage⟩ fault stage = some (t, os)) :
    Acts s t (.runTurn pid fault) os := by
  cases stage <;> simp only [runTurn] at h
  case admitted | queued =>
    split at h <;> cases h <;> exact acts_runTo hat rfl rfl (Nat.le_refl _) ⟨rfl, rfl, rfl⟩ rfl rfl rfl
  case permitted | delaying | concluding | pausing =>
    cases h
    exact acts_runTo hat rfl (by split <;> rfl) (Nat.le_refl _) ⟨rfl, rfl, rfl⟩ rfl rfl rfl
  case rechecking =>
    split at h
    · cases h; exact acts_runTo hat rfl rfl (Nat.le_refl _) ⟨rfl, rfl, rfl⟩ rfl rfl rfl
    next latest hlatest =>
      split at h <;> cases h
      · exact acts_runTo hat rfl rfl (Nat.le_refl _) ⟨rfl, rfl, rfl⟩ rfl rfl rfl
      · exact .run (Nat.le_refl _) pid _ ⟨latest, source, _⟩ hat rfl rfl (getTask_id hlatest)
          (.waits rfl (by split <;> rfl) ⟨rfl, rfl, rfl⟩ rfl)
  case executing | ended => cases h
  case updating report kind stage => exact acts_updateTurn hat (by cases kind <;> rfl) h
  case recording report read =>
    cases read with
    | none => cases h; exact acts_runTo hat rfl rfl (Nat.le_refl _) ⟨rfl, rfl, rfl⟩ rfl rfl rfl
    | some read =>
      cases h
      cases fault
      · exact .run (Nat.le_refl _) pid _ ⟨task, source, _⟩ hat rfl rfl rfl
          (.records report read _ rfl rfl (by simp only; split <;> rfl) rfl rfl rfl rfl)
      · exact acts_runTo hat rfl (by split <;> rfl) (Nat.le_refl _) ⟨rfl, rfl, rfl⟩ rfl rfl rfl
  case finishing | clearing =>
    cases h
    exact acts_runTo hat rfl rfl (Nat.le_refl _) ⟨rfl, rfl, rfl⟩ rfl rfl rfl

theorem acts_attempted {task : ScheduledTask} {source : RunSource} {stage : RunStage}
    {success : Bool} {message : String} (hat : s.runs[pid]? = some ⟨task, source, stage⟩)
    (h : s.attempted env pid ⟨task, source, stage⟩ success message stage = some (t, os)) :
    Acts s t e os := by
  cases stage <;> simp only [attempted, reduceCtorEq, Option.some.injEq, Prod.mk.injEq] at h
  obtain ⟨rfl, rfl⟩ := h
  exact acts_runTo hat rfl rfl (Nat.le_refl _) ⟨rfl, rfl, rfl⟩ rfl rfl rfl

theorem acts_panic {task : ScheduledTask} {source : RunSource} {stage : RunStage}
    (hat : s.runs[pid]? = some ⟨task, source, stage⟩)
    (h : s.panic pid ⟨task, source, stage⟩ stage = some (t, os)) : Acts s t e os := by
  cases stage <;> cases h
  exact acts_runTo hat rfl rfl (Nat.le_refl _) ⟨rfl, rfl, rfl⟩ rfl rfl rfl

theorem acts_cancelTurn {task : ScheduledTask} {source : RunSource} {stage : RunStage}
    (hat : s.runs[pid]? = some ⟨task, source, stage⟩)
    (h : s.cancelTurn pid ⟨task, source, stage⟩ stage = some (t, os)) : Acts s t e os := by
  cases stage <;> cases h
  case queued | permitted => exact acts_runTo hat rfl rfl (Nat.le_refl _) ⟨rfl, rfl, rfl⟩ rfl rfl rfl
  all_goals
    exact .run (Nat.le_refl _) pid _ ⟨task, source, .clearing⟩ hat rfl rfl rfl (.leaves rfl rfl rfl rfl rfl)

end

theorem acts_closureTurn {closure : Closure} (hat : s.closures[pid]? = some closure)
    (h : s.closureTurn env pid fault closure = some (t, os)) :
    Acts s t (.closureTurn pid fault) os := by
  cases closure with
  | update id kind read =>
    cases read with
    | none =>
      simp only [closureTurn] at h
      split at h <;> cases h
      next read hread =>
        have hread : s.loadFrom id = some read := by
          split at hread
          · cases hread
          · exact hread
        exact .closure (Nat.le_refl _) pid fault _ _ rfl hat rfl rfl rfl rfl
          (.reads id kind read rfl rfl hread rfl rfl)
      next hread =>
        refine .closure (Nat.le_refl _) pid fault _ _ rfl hat rfl rfl rfl rfl
          (.fails id kind none rfl rfl ?_ rfl rfl)
        split at hread
        next hfault => exact .inl hfault
        next => exact .inr ⟨rfl, hread⟩
    | some read =>
      simp only [closureTurn] at h
      split at h <;> cases h
      next hfault =>
        exact .closure (Nat.le_refl _) pid fault _ _ rfl hat rfl rfl rfl rfl
          (.fails id kind _ rfl rfl (.inl hfault) rfl rfl)
      next hfault =>
        exact .closure (Nat.le_refl _) pid fault _ _ rfl hat rfl rfl rfl rfl
          (.writes id kind read rfl rfl (by simpa using hfault) rfl rfl)
  | history id status message trigger read =>
    cases read with
    | none =>
      cases h
      exact .closure (Nat.le_refl _) pid fault _ _ rfl hat rfl rfl rfl rfl
        (.readsHistory id status message trigger none rfl (.inr ⟨_, rfl⟩) rfl rfl)
    | some read =>
      cases h
      cases fault
      · exact .closure (Nat.le_refl _) pid _ _ _ rfl hat rfl rfl rfl rfl
          (.records id status message trigger read _ rfl rfl rfl rfl rfl)
      · exact .closure (Nat.le_refl _) pid _ _ _ rfl hat rfl rfl rfl rfl
          (.readsHistory id status message trigger _ rfl (.inl rfl) rfl rfl)
  | done => cases h

theorem acts_fireTurn {e : Event} (now : Nat) (done : List TaskSchedule) (entry : TaskSchedule)
    (todo : List TaskSchedule) (next : AfterFiring) :
    Acts s (s.fireTurn now done entry todo next).1 e (s.fireTurn now done entry todo next).2 := by
  unfold fireTurn
  split
  · exact .idle (Nat.le_refl _) ⟨rfl, rfl, rfl⟩ rfl rfl (.inl rfl) (by simp)
  · split
    · exact .idle (Nat.le_refl _) ⟨rfl, rfl, rfl⟩ rfl rfl (.inl rfl) (by simp)
    · split
      · exact .idle (Nat.le_refl _) ⟨rfl, rfl, rfl⟩ rfl rfl (.inl rfl) (by simp)
      next task _ =>
        split
        · exact .idle (Nat.le_refl _) ⟨rfl, rfl, rfl⟩ rfl rfl (.inl rfl) (by simp)
        · simp only
          split
          · exact .idle (Nat.le_refl _) ⟨rfl, rfl, rfl⟩ rfl rfl (.inl rfl) (by simp [Effect.onFiles])
          · exact .idle (Nat.le_refl _) ⟨rfl, rfl, rfl⟩ rfl rfl (.inr ⟨task, .cron, rfl⟩)
              (by simp [Effect.onFiles])

theorem acts_loopTurn {e : Event} {loop : LoopStage}
    (h : s.loopTurn env fault loop = some (t, os)) : Acts s t e os := by
  cases loop with
  | ready | stopped => cases h
  | firing now done todo next =>
    cases todo with
    | cons entry todo =>
      have hacts := acts_fireTurn (s := s) (e := e) now done entry todo next
      simp only [loopTurn, Option.some.injEq] at h
      rwa [h] at hacts
    | nil =>
      cases next <;> cases h <;>
        exact .idle (Nat.le_refl _) ⟨rfl, rfl, rfl⟩ rfl rfl (.inl rfl) (by simp)
  | advancing now done entry todo next =>
    cases h; exact .idle (Nat.le_refl _) ⟨rfl, rfl, rfl⟩ rfl rfl (.inl rfl) (by simp)
  | listing first => cases h; exact .idle (Nat.le_refl _) ⟨rfl, rfl, rfl⟩ rfl rfl (.inl rfl) (by simp)
  | loading first todo loaded schedules invalid =>
    cases todo <;> cases h
    · exact .idle (Nat.le_refl _) ⟨rfl, rfl, rfl⟩ rfl rfl (.inl rfl) (by simp)
    · unfold loadTurn
      split <;> exact .idle (Nat.le_refl _) ⟨rfl, rfl, rfl⟩ rfl rfl (.inl rfl) (by simp)
  | greeting => cases h; exact .idle (Nat.le_refl _) ⟨rfl, rfl, rfl⟩ rfl rfl (.inl rfl) (by simp)
  | dispatching today todo =>
    cases todo <;> cases h
    · exact .idle (Nat.le_refl _) ⟨rfl, rfl, rfl⟩ rfl rfl (.inl rfl) (by simp)
    next task todo =>
      unfold greetTurn
      split
      · exact .idle (Nat.le_refl _) ⟨rfl, rfl, rfl⟩ rfl rfl (.inl rfl) (by simp)
      · exact .idle (Nat.le_refl _) ⟨rfl, rfl, rfl⟩ rfl rfl (.inr ⟨task, .startup, rfl⟩) (by simp)
  | scanning ids => cases h; exact .idle (Nat.le_refl _) ⟨rfl, rfl, rfl⟩ rfl rfl (.inl rfl) (by simp)

theorem acts {e : Event} (h : s.step env e = some (t, os)) : Acts s t e os := by
  cases e <;> simp only [step] at h
  case tick =>
    cases h
    exact .idle (Nat.le_add_right ..) ⟨rfl, rfl, rfl⟩ rfl rfl (.inl rfl) (by simp [Effect.onFiles])
  case delete id =>
    cases h
    exact .asks (Nat.le_refl _) (.deleting id .locking) rfl ⟨rfl, rfl, rfl⟩ rfl rfl rfl rfl
  case create body =>
    split at h <;> cases h
    exact .asks (Nat.le_refl _) (.saving body.id (newJob body) .validating) rfl ⟨rfl, rfl, rfl⟩
      rfl rfl rfl rfl
  case update | toggle | runManually =>
    obtain ⟨job, -, h⟩ := Option.map_eq_some_iff.mp h
    cases h
    exact .asks (Nat.le_refl _) _ rfl ⟨rfl, rfl, rfl⟩ rfl rfl rfl rfl
  case opTurn =>
    obtain ⟨op, hat, h⟩ := Option.bind_eq_some_iff.mp h
    exact acts_opTurn hat h
  case runTurn =>
    obtain ⟨run, hat, h⟩ := Option.bind_eq_some_iff.mp h
    exact acts_runTurn hat h
  case attempted =>
    obtain ⟨run, hat, h⟩ := Option.bind_eq_some_iff.mp h
    exact acts_attempted hat h
  case panic =>
    obtain ⟨run, hat, h⟩ := Option.bind_eq_some_iff.mp h
    exact acts_panic hat h
  case cancelRun =>
    split at h
    · obtain ⟨run, hat, h⟩ := Option.bind_eq_some_iff.mp h
      exact acts_cancelTurn hat h
    · cases h
  case closureTurn =>
    obtain ⟨closure, hat, h⟩ := Option.bind_eq_some_iff.mp h
    exact acts_closureTurn hat h
  case wake | reload | scan =>
    split at h <;> cases h; exact .idle (Nat.le_refl _) ⟨rfl, rfl, rfl⟩ rfl rfl (.inl rfl) (by simp)
  case stop =>
    split at h <;> cases h; exact .idle (Nat.le_refl _) ⟨rfl, rfl, rfl⟩ rfl rfl (.inl rfl) (by simp)
  case loopTurn => exact acts_loopTurn h

/-! ## The file lock -/

/-- Whoever changes files under the lock has it. -/
structure LockInv (s : SchedulerService) : Prop where
  ops : Pool.All (fun pid op => op.locks = true → s.fileMutex = some (.op pid)) s.ops
  runs : Pool.All (fun pid run => run.stage.locks = true → s.fileMutex = some (.run pid)) s.runs

theorem LockInv.new {now : Nat} {files : List (String × ScheduledTask)}
    {histories : List (String × List HistoryRecord)} {loginOnce : Bool} :
    LockInv (new now files histories loginOnce) := ⟨.nil, .nil⟩

section
variable {op op' : Op} {run run' : Run}

/-- The turn of a request: whoever else had the lock has it still. -/
theorem LockInv.op_turn (h : LockInv s) (hops : t.ops = s.ops.set pid op')
      (hruns : HandsOver s t)
    (hmine : op'.locks = true → t.fileMutex = some (.op pid))
    (hothers : ∀ other, other ≠ .op pid → s.fileMutex = some other → t.fileMutex = some other) :
    LockInv t := by
  have hold : Pool.All (fun i run => run.stage.locks = true → t.fileMutex = some (.run i)) s.runs :=
    h.runs.imp fun i run hold hlocks => hothers _ (fun heq => nomatch heq) (hold hlocks)
  refine ⟨?_, ?_⟩
  · rw [hops]
    exact h.ops.set (fun i other hne hold hlocks =>
      hothers _ (fun heq => hne (Holder.op.inj heq)) (hold hlocks)) hmine
  · rcases hruns with hruns | ⟨task, source, hruns⟩ <;> rw [hruns]
    · exact hold
    · exact hold.spawn (fun _ _ hrun => hrun) (fun hlocks => nomatch hlocks)

/-- The turn of a run. -/
theorem LockInv.run_turn (h : LockInv s) (hops : t.ops = s.ops) (hruns : t.runs = s.runs.set pid run')
    (hmine : run'.stage.locks = true → t.fileMutex = some (.run pid))
    (hothers : ∀ other, other ≠ .run pid → s.fileMutex = some other → t.fileMutex = some other) :
    LockInv t := by
  refine ⟨?_, ?_⟩
  · rw [hops]
    exact h.ops.imp fun i op hold hlocks => hothers _ (fun heq => nomatch heq) (hold hlocks)
  · rw [hruns]
    exact h.runs.set (fun i other hne hold hlocks =>
      hothers _ (fun heq => hne (Holder.run.inj heq)) (hold hlocks)) hmine

end

/-- One party has the lock and no other. -/
theorem other_holder {holder other : Holder} {P : Prop} (hlock : s.fileMutex = some holder)
    (hne : other ≠ holder) (hother : s.fileMutex = some other) : P :=
  (hne (Option.some.inj (hother.symm.trans hlock))).elim

theorem no_holder {other : Holder} {P : Prop} (hfree : s.fileMutex = none)
    (hother : s.fileMutex = some other) : P := by
  rw [hfree] at hother
  cases hother

theorem LockInv.op_acts {op op' : Op} (h : LockInv s) (hat : s.ops[pid]? = some op)
    (hops : t.ops = s.ops.set pid op')
      (hruns : HandsOver s t)
    (hacts : OpActs s t pid fault op op' os) : LockInv t := by
  have hkeeps : t.fileMutex = s.fileMutex → op.locks = true → LockInv t := fun hlock hlocks =>
    h.op_turn hops hruns (fun _ => hlock.trans (h.ops pid op hat hlocks))
      (fun other _ hother => hlock.trans hother)
  have hunlocks : op.locks = true → op'.locks = false → LockInv t := fun hop hop' =>
    h.op_turn hops hruns (fun hlocks => by rw [hop'] at hlocks; cases hlocks)
      (fun other hne hother => other_holder (h.ops pid op hat hop) hne hother)
  cases hacts with
  | waits _ hop' _ hlock =>
    exact h.op_turn hops hruns (fun hlocks => by rw [hop'] at hlocks; cases hlocks)
      (fun other _ hother => hlock.trans hother)
  | locks _ _ _ hfree hlock =>
    exact h.op_turn hops hruns (fun _ => hlock) (fun other _ hother => no_holder hfree hother)
  | saves id task hop _ _ _ _ _ hlock => exact hkeeps hlock (by rw [hop]; rfl)
  | removes id hop _ _ _ _ _ _ hlock => exact hkeeps hlock (by rw [hop]; rfl)
  | removesHistory id hop _ _ _ _ hlock => exact hkeeps hlock (by rw [hop]; rfl)
  | unlocks hop hop' => exact hunlocks hop hop'
  | forgets id hop hop' => exact hunlocks (by rw [hop]; rfl) hop'

theorem LockInv.run_acts {run run' : Run} {e : Event} (h : LockInv s) (hat : s.runs[pid]? = some run)
    (hops : t.ops = s.ops) (hruns : t.runs = s.runs.set pid run')
    (hacts : RunActs s t e pid run run' os) : LockInv t := by
  have hkeeps : t.fileMutex = s.fileMutex → run.stage.locks = true → LockInv t := fun hlock hlocks =>
    h.run_turn hops hruns (fun _ => hlock.trans (h.runs pid run hat hlocks))
      (fun other _ hother => hlock.trans hother)
  have hwaits : t.fileMutex = s.fileMutex → run'.stage.locks = false → LockInv t :=
    fun hlock hrun' => h.run_turn hops hruns (fun hlocks => by rw [hrun'] at hlocks; cases hlocks)
      (fun other _ hother => hlock.trans hother)
  have hunlocks : run.stage.locks = true → run'.stage.locks = false → LockInv t :=
    fun hrun hrun' => h.run_turn hops hruns (fun hlocks => by rw [hrun'] at hlocks; cases hlocks)
      (fun other hne hother => other_holder (h.runs pid run hat hrun) hne hother)
  cases hacts with
  | waits _ hrun' _ hlock => exact hwaits hlock hrun'
  | locks _ _ _ _ hfree hlock =>
    exact h.run_turn hops hruns (fun _ => hlock) (fun other _ hother => no_holder hfree hother)
  | reads _ _ _ hrun _ _ _ hlock => exact hkeeps hlock (by rw [hrun]; rfl)
  | fails _ _ _ stage _ hrun hfails _ _ hlock =>
    refine hkeeps hlock ?_
    rcases hfails with ⟨rfl, -⟩ | ⟨⟨read, rfl⟩, -⟩ <;> rw [hrun] <;> rfl
  | writes _ _ _ _ hrun _ _ _ _ hlock => exact hkeeps hlock (by rw [hrun]; rfl)
  | unlocks hrun hrun' => exact hunlocks hrun hrun'
  | records _ _ _ _ _ hrun' _ _ _ hlock => exact hwaits hlock hrun'
  | leaves hrun' _ _ _ hlock =>
    have hnot : run'.stage.locks = false := by rw [hrun']; rfl
    cases hlocks : run.stage.locks with
    | true => exact hunlocks hlocks hnot
    | false =>
      rw [hlocks] at hlock
      exact hwaits hlock hnot

theorem LockInv.step {e : Event} (h : LockInv s) (hstep : s.step env e = some (t, os)) :
    LockInv t := by
  cases acts hstep with
  | idle _ _ hlock hops hruns _ =>
    refine ⟨by rw [hops, hlock]; exact h.ops, ?_⟩
    rcases hruns with hruns | ⟨task, source, hruns⟩ <;> rw [hruns, hlock]
    · exact h.runs
    · exact h.runs.spawn (fun _ _ hrun => hrun) (fun hlocks => nomatch hlocks)
  | asks _ op hop _ hlock hops hruns _ =>
    refine ⟨?_, by rw [hruns, hlock]; exact h.runs⟩
    rw [hops, hlock]
    refine h.ops.spawn (fun _ _ hold => hold) (fun hlocks => ?_)
    rw [Op.not_locks_of_starts hop] at hlocks
    cases hlocks
  | op _ pid fault op op' _ hat hops hruns hacts => exact h.op_acts hat hops hruns hacts
  | run _ pid run run' hat hops hruns _ hacts => exact h.run_acts hat hops hruns hacts
  | closure _ _ _ _ _ _ _ hops hruns _ hlock _ =>
    exact ⟨by rw [hops, hlock]; exact h.ops, by rw [hruns, hlock]; exact h.runs⟩

/-- While a request has the lock, no other one has, -/
theorem LockInv.other_ops {op : Op} (h : LockInv s) (hat : s.ops[pid]? = some op)
    (hlocks : op.locks = true) : Pool.All (fun i other => i ≠ pid → other.locks = false) s.ops := by
  intro i other hi hne
  cases hother : other.locks with
  | false => rfl
  | true =>
    exact other_holder (h.ops pid op hat hlocks) (fun heq => hne (Holder.op.inj heq))
      (h.ops i other hi hother)

/-- and neither has a run. -/
theorem LockInv.no_run {op : Op} (h : LockInv s) (hat : s.ops[pid]? = some op)
    (hlocks : op.locks = true) : Pool.All (fun _ run => run.stage.locks = false) s.runs := by
  intro i run hi
  cases hrun : run.stage.locks with
  | false => rfl
  | true =>
    exact other_holder (h.ops pid op hat hlocks) (by simp) (h.runs i run hi hrun)

theorem LockInv.other_runs {run : Run} (h : LockInv s) (hat : s.runs[pid]? = some run)
    (hlocks : run.stage.locks = true) :
    Pool.All (fun i other => i ≠ pid → other.stage.locks = false) s.runs := by
  intro i other hi hne
  cases hother : other.stage.locks with
  | false => rfl
  | true =>
    exact other_holder (h.runs pid run hat hlocks) (fun heq => hne (Holder.run.inj heq))
      (h.runs i other hi hother)

/-! ## Copies that are about to be written -/

section
variable {P Q : String → ScheduledTask → Prop} {run run' : Run}

theorem copies_handsOver (h : Copies P s.runs) (hruns : HandsOver s t) : Copies P t.runs := by
  rcases hruns with hruns | ⟨task, source, hruns⟩ <;> rw [hruns]
  · exact h
  · exact h.spawn (fun _ _ hrun => hrun) (fun _ hcopy => nomatch hcopy)

/-- A copy that a run gets is the file as it is. -/
theorem copies_run_acts {e : Event} (h : Copies P s.runs) (hruns : t.runs = s.runs.set pid run')
    (hid : run'.task.id = run.task.id)
    (hread : ∀ read, s.loadFrom run.task.id = some read → P run.task.id read)
    (hacts : RunActs s t e pid run run' os) : Copies P t.runs := by
  have hnone : run'.stage.writesTask = false → ∀ read ∈ run'.copy, P run'.task.id read := by
    intro hstage read hcopy
    rw [Run.copy_of_not_writes hstage] at hcopy
    cases hcopy
  rw [hruns]
  refine h.set (fun _ _ _ hother => hother) ?_
  cases hacts with
  | waits _ hrun' | unlocks _ hrun' => exact hnone (RunStage.not_writes_of_not_locks hrun')
  | records _ _ _ _ _ hrun' => exact hnone (RunStage.not_writes_of_not_locks hrun')
  | locks _ _ hrun' => exact hnone (by rw [hrun']; rfl)
  | fails _ _ _ _ _ _ _ hrun' => exact hnone (by rw [hrun']; rfl)
  | writes _ _ _ _ _ hrun' => exact hnone (by rw [hrun']; rfl)
  | leaves hrun' => exact hnone (by rw [hrun']; rfl)
  | reads report kind read _ hrun' hfile =>
    intro copy hcopy
    have hcopy : some read = some copy := by rw [Run.copy, hrun'] at hcopy; exact hcopy
    cases hcopy
    rw [hid]
    exact hread read hfile

/-- Without the lock nobody has a copy to write. -/
theorem copies_of_not_locks {runs : Pool Run}
    (h : Pool.All (fun _ run => run.stage.locks = false) runs) : Copies P runs := by
  intro i run hi read hcopy
  rw [Run.copy_of_not_writes (RunStage.not_writes_of_not_locks (h i run hi))] at hcopy
  cases hcopy

/-- A run that has written gives up its copy, and while it had the lock there was no other one. -/
theorem LockInv.copies_written (h : LockInv s) (hat : s.runs[pid]? = some run)
    (hlocks : run.stage.locks = true) (hruns : t.runs = s.runs.set pid run')
    (hwritten : run'.stage.writesTask = false) : Copies P t.runs := by
  rw [hruns]
  refine (h.other_runs hat hlocks).set (fun i other hne hother read hcopy => ?_) fun read hcopy => ?_
  · rw [Run.copy_of_not_writes (RunStage.not_writes_of_not_locks (hother hne))] at hcopy
    cases hcopy
  · rw [Run.copy_of_not_writes hwritten] at hcopy
    cases hcopy

end

end SchedulerService
end CampusAuth.Scheduler
