import CampusAuth.Scheduler.Files

/- The places that hold a task: its file, the memory, and the copies that a run, a closure or a load
   has read and not yet written.

   `Held` says that all of them have the task enabled with one schedule. Every step keeps this that
   saves no other version of the task and does not delete it (`Unchanged`). -/
namespace CampusAuth.Scheduler
open Lib

/-! ## The memory -/

section
variable {id other : String} {f : ScheduledTask → ScheduledTask} {tasks : List ScheduledTask}

/-- A change of the first task of an id is seen by who looks for this id, -/
theorem find_updateCached (hf : ∀ task, task.id = id → (f task).id = id) :
    (updateCached id f tasks).find? (·.id = id) = (tasks.find? (·.id = id)).map f := by
  induction tasks with
  | nil => rfl
  | cons task tasks ih =>
    by_cases hid : task.id = id
    · simp [updateCached, hid, hf task hid]
    · simp [updateCached, hid, ih]

/-- and by nobody else. -/
theorem find_updateCached_other (hf : ∀ task, task.id = other → (f task).id = other)
    (hne : id ≠ other) :
    (updateCached other f tasks).find? (·.id = id) = tasks.find? (·.id = id) := by
  induction tasks with
  | nil => rfl
  | cons task tasks ih =>
    by_cases hid : task.id = other
    · have hnot : task.id ≠ id := fun h => hne (h.symm.trans hid)
      have hnot' : (f task).id ≠ id := fun h => hne (h.symm.trans (hf task hid))
      rw [updateCached, if_pos hid, List.find?_cons_of_neg (by simpa using hnot'),
        List.find?_cons_of_neg (by simpa using hnot)]
    · rw [updateCached, if_neg hid, List.find?_cons, List.find?_cons, ih]

theorem find_filter {p : ScheduledTask → Bool} (hp : ∀ task, task.id = id → p task = true) :
    (tasks.filter p).find? (·.id = id) = tasks.find? (·.id = id) := by
  induction tasks with
  | nil => rfl
  | cons task tasks ih =>
    by_cases hid : task.id = id
    · rw [List.filter_cons_of_pos (hp task hid), List.find?_cons_of_pos (by simpa using hid),
        List.find?_cons_of_pos (by simpa using hid)]
    · rw [List.find?_cons_of_neg (by simpa using hid), ← ih]
      by_cases hkeep : p task = true
      · rw [List.filter_cons_of_pos hkeep, List.find?_cons_of_neg (by simpa using hid)]
      · rw [List.filter_cons_of_neg hkeep]

end

theorem UpdateKind.apply_id (kind : UpdateKind) (task : ScheduledTask) :
    (kind.apply task).id = task.id := by
  cases kind <;> rfl

/-- What happens to the memory outside of the main loop. -/
inductive CacheActs (s t : SchedulerService) (e : Event) : Prop
  | same (htasks : t.tasks = s.tasks)
  | caches (pid : Nat) (fault : Bool) (id : String) (task : ScheduledTask)
      (he : e = .opTurn pid fault) (hat : s.ops[pid]? = some (.saving id task .caching))
      (htasks : t.tasks = (s.cacheTask id task).tasks)
  | forgets (pid : Nat) (fault : Bool) (id : String) (he : e = .opTurn pid fault)
      (hat : s.ops[pid]? = some (.deleting id .forgetting))
      (htasks : t.tasks = s.tasks.filter (·.id ≠ id))
  | updates (id : String) (kind : UpdateKind) (htasks : t.tasks = updateCached id kind.apply s.tasks)

/-- The main loop is where it was. -/
structure OffLoop (s t : SchedulerService) (e : Event) : Prop where
  now : t.now = s.now
  loop : t.loop = s.loop
  table : t.taskSchedules = s.taskSchedules
  cache : CacheActs s t e

/-- The event is none of the main loop or the clock. -/
def Event.offLoop : Event → Bool
  | .create _ | .update .. | .toggle _ | .delete _ | .runManually _ | .opTurn .. | .runTurn ..
  | .attempted .. | .panic _ | .cancelRun _ | .closureTurn .. => true
  | .tick _ | .wake | .reload | .scan _ | .stop | .loopTurn _ => false

namespace SchedulerService
variable {s t : SchedulerService} {env : Env} {os : List Effect} {pid : Nat} {fault : Bool}

theorem offLoop_opTurn {op : Op} (hat : s.ops[pid]? = some op)
    (h : s.opTurn env pid fault op = some (t, os)) : OffLoop s t (.opTurn pid fault) := by
  cases op with
  | toggling id enabled =>
    simp only [opTurn] at h
    split at h <;> cases h <;> exact ⟨rfl, rfl, rfl, .same rfl⟩
  | saving id task stage =>
    cases stage <;> simp only [opTurn] at h
    case caching => cases h; exact ⟨rfl, rfl, rfl, .caches pid fault id task rfl hat rfl⟩
    all_goals split at h <;> cases h <;> exact ⟨rfl, rfl, rfl, .same rfl⟩
  | deleting id stage =>
    cases stage <;> simp only [opTurn] at h
    case locking =>
      split at h
      · cases h; exact ⟨rfl, rfl, rfl, .same rfl⟩
      · split at h <;> cases h; exact ⟨rfl, rfl, rfl, .same rfl⟩
    case removing => split at h <;> cases h <;> exact ⟨rfl, rfl, rfl, .same rfl⟩
    case removingHistory =>
      cases h
      cases fault <;> exact ⟨rfl, rfl, rfl, .same rfl⟩
    case forgetting => cases h; exact ⟨rfl, rfl, rfl, .forgets pid fault id rfl hat rfl⟩
  | triggering task =>
    simp only [opTurn] at h
    split at h <;> cases h <;> exact ⟨rfl, rfl, rfl, .same rfl⟩
  | done => cases h
  | refused => cases h

theorem offLoop_runTurn {e : Event} {run : Run} {stage : RunStage}
    (h : s.runTurn env pid run fault stage = some (t, os)) : OffLoop s t e := by
  cases stage <;> simp only [runTurn] at h
  case admitted | queued => split at h <;> cases h <;> exact ⟨rfl, rfl, rfl, .same rfl⟩
  case permitted | delaying | concluding | pausing | finishing | clearing =>
    cases h; exact ⟨rfl, rfl, rfl, .same rfl⟩
  case rechecking =>
    split at h
    · cases h; exact ⟨rfl, rfl, rfl, .same rfl⟩
    · split at h <;> cases h <;> exact ⟨rfl, rfl, rfl, .same rfl⟩
  case executing | ended => cases h
  case updating report kind stage =>
    cases stage <;> simp only [updateTurn] at h
    case locking => split at h <;> cases h; exact ⟨rfl, rfl, rfl, .same rfl⟩
    case reading | writing => split at h <;> cases h <;> exact ⟨rfl, rfl, rfl, .same rfl⟩
    case caching => cases h; exact ⟨rfl, rfl, rfl, .updates run.task.id kind rfl⟩
  case recording report read =>
    cases read <;> cases h
    · exact ⟨rfl, rfl, rfl, .same rfl⟩
    · cases fault <;> exact ⟨rfl, rfl, rfl, .same rfl⟩

theorem offLoop_closureTurn {e : Event} {closure : Closure}
    (h : s.closureTurn env pid fault closure = some (t, os)) : OffLoop s t e := by
  cases closure with
  | update id kind read =>
    cases read <;> simp only [closureTurn] at h <;> split at h <;> cases h <;>
      exact ⟨rfl, rfl, rfl, .same rfl⟩
  | history id status message trigger read =>
    cases read <;> cases h
    · exact ⟨rfl, rfl, rfl, .same rfl⟩
    · cases fault <;> exact ⟨rfl, rfl, rfl, .same rfl⟩
  | done => cases h

theorem offLoop {e : Event} (he : e.offLoop = true) (h : s.step env e = some (t, os)) :
    OffLoop s t e := by
  cases e <;> simp only [step] at h
  case tick | wake | reload | scan | stop | loopTurn => cases he
  case delete => cases h; exact ⟨rfl, rfl, rfl, .same rfl⟩
  case create => split at h <;> cases h; exact ⟨rfl, rfl, rfl, .same rfl⟩
  case update | toggle | runManually =>
    obtain ⟨job, -, h⟩ := Option.map_eq_some_iff.mp h
    cases h
    exact ⟨rfl, rfl, rfl, .same rfl⟩
  case opTurn =>
    obtain ⟨op, hat, h⟩ := Option.bind_eq_some_iff.mp h
    exact offLoop_opTurn hat h
  case runTurn =>
    obtain ⟨run, -, h⟩ := Option.bind_eq_some_iff.mp h
    exact offLoop_runTurn h
  case attempted =>
    obtain ⟨⟨task, source, stage⟩, -, h⟩ := Option.bind_eq_some_iff.mp h
    cases stage <;> simp only [attempted, reduceCtorEq, Option.some.injEq, Prod.mk.injEq] at h
    obtain ⟨rfl, -⟩ := h
    exact ⟨rfl, rfl, rfl, .same rfl⟩
  case panic =>
    obtain ⟨⟨task, source, stage⟩, -, h⟩ := Option.bind_eq_some_iff.mp h
    cases stage <;> cases h
    exact ⟨rfl, rfl, rfl, .same rfl⟩
  case cancelRun =>
    split at h
    · obtain ⟨⟨task, source, stage⟩, -, h⟩ := Option.bind_eq_some_iff.mp h
      cases stage <;> cases h <;> exact ⟨rfl, rfl, rfl, .same rfl⟩
    · cases h
  case closureTurn =>
    obtain ⟨closure, -, h⟩ := Option.bind_eq_some_iff.mp h
    exact offLoop_closureTurn h

end SchedulerService

/-! ## One version of a task -/

section
variable (env : Env) (S : Schedule) (id : String) (s : SchedulerService)

/-- The task is enabled and has the schedule. -/
structure Follows (task : ScheduledTask) : Prop where
  enabled : task.enabled = true
  trigger : task.trigger = .cron
  schedule : env.parseCron task.cron = some S

/-- A request neither saves another version of the task nor deletes it. -/
def OpUnchanged (fault : Bool) : Op → Prop
  | .saving other task .writing => fault = false → other = id → Follows env S task
  | .saving other task .caching => other = id → Follows env S task
  | .deleting other .removing => fault = false → other ≠ id
  | .deleting other .forgetting => other ≠ id
  | _ => True

def Unchanged : Event → Prop
  | .opTurn pid fault => ∀ op ∈ s.ops[pid]?, OpUnchanged env S id fault op
  | _ => True

/-- A copy of the task that is about to be written. -/
def CopyFollows (other : String) (read : ScheduledTask) : Prop := other = id → Follows env S read

def Closure.Follows : Closure → Prop
  | .update other _ (some read) => CopyFollows env S id other read
  | _ => True

structure FileHolds : Prop where
  file : ∃ task, s.files.lookup id = some task ∧ Follows env S task
  runs : Copies (CopyFollows env S id) s.runs
  closures : Pool.All (fun _ closure => closure.Follows env S id) s.closures

/-- What a load has collected of the task. -/
def LoopStage.Loads : LoopStage → Prop
  | .loading _ _ loaded _ _ => ∀ task ∈ loaded, task.id = id → Follows env S task
  | _ => True

structure MemoryHolds : Prop where
  cached : ∀ task, s.getTask id = some task → Follows env S task
  loads : s.loop.Loads env S id

end

/-- What a request saves has the id that it saves it under. -/
def Op.Named : Op → Prop
  | .saving _ _ .validating => True
  | .saving id task _ => task.id = id
  | _ => True

open SchedulerService

section
variable {env : Env} {S : Schedule} {id : String} {s t : SchedulerService} {e : Event}
  {os : List Effect} {pid : Nat} {fault : Bool} {op op' : Op}

theorem Follows.withId {task : ScheduledTask} (h : Follows env S task) (id : String) :
    Follows env S { task with id } := ⟨h.enabled, h.trigger, h.schedule⟩

theorem Follows.apply {task : ScheduledTask} (h : Follows env S task) (kind : UpdateKind) :
    Follows env S (kind.apply task) := by
  cases kind <;> exact ⟨h.enabled, h.trigger, h.schedule⟩

/-! ### The file -/

theorem FileHolds.loadFrom (h : FileHolds env S id s) {read : ScheduledTask}
    (hread : s.loadFrom id = some read) : Follows env S read := by
  obtain ⟨task, hfile, hfollows⟩ := h.file
  rw [SchedulerService.loadFrom, hfile] at hread
  cases hread
  exact hfollows.withId id

/-- The file is written in the same version. -/
theorem FileHolds.put (h : FileHolds env S id s) {other : String} {task : ScheduledTask}
    (htask : other = id → Follows env S task)
    (hfiles : t.files = CampusAuth.Scheduler.put s.files other task)
    (hruns : Copies (CopyFollows env S id) t.runs)
    (hclosures : Pool.All (fun _ closure => closure.Follows env S id) t.closures) :
    FileHolds env S id t := by
  refine ⟨?_, hruns, hclosures⟩
  rw [hfiles]
  by_cases hid : other = id
  · exact ⟨task, by rw [lookup_put, if_pos hid.symm], htask hid⟩
  · obtain ⟨file, hfile, hfollows⟩ := h.file
    exact ⟨file, by rw [lookup_put, if_neg (Ne.symm hid)]; exact hfile, hfollows⟩

theorem FileHolds.op_acts (h : FileHolds env S id s) (hcond : OpUnchanged env S id fault op)
    (hruns : HandsOver s t) (hacts : OpActs s t pid fault op op' os) : FileHolds env S id t := by
  have hruns := copies_handsOver h.runs hruns
  have hsame : t.files = s.files → t.closures = s.closures → FileHolds env S id t :=
    fun hfiles hclosures => ⟨hfiles ▸ h.file, hruns, hclosures ▸ h.closures⟩
  cases hacts with
  | waits _ _ hs | locks _ _ hs | unlocks _ _ hs => exact hsame hs.files hs.closures
  | forgets _ _ _ hs => exact hsame hs.files hs.closures
  | removesHistory _ _ _ hfiles _ hclosures => exact hsame hfiles hclosures
  | saves other task hop _ hfault hfiles _ hclosures =>
    subst hop
    exact h.put (hcond hfault) hfiles hruns (hclosures ▸ h.closures)
  | removes other hop _ hfault _ hfiles _ hclosures =>
    subst hop
    refine ⟨?_, hruns, hclosures ▸ h.closures⟩
    obtain ⟨file, hfile, hfollows⟩ := h.file
    refine ⟨file, ?_, hfollows⟩
    rw [hfiles, lookup_takeOut, if_neg (Ne.symm (hcond hfault))]
    exact hfile

/-- What a cancelled run leaves behind has the copy that the run had. -/
theorem leftBehind_follows {run : Run} (h : ∀ read ∈ run.copy, CopyFollows env S id run.task.id read) :
    ∀ closure ∈ leftBehind run run.stage, closure.Follows env S id := by
  intro closure hmem
  rcases hstage : run.stage with _ | _ | _ | _ | _ | _ | ⟨report, kind, _ | _ | read | _⟩ |
    ⟨report, read⟩ | _ | _ | _ | _ | _ <;> rw [hstage] at hmem <;>
    simp only [leftBehind, List.not_mem_nil, List.mem_singleton] at hmem
  case updating.reading => subst hmem; trivial
  case updating.writing =>
    subst hmem
    exact h read (by rw [Run.copy, hstage]; rfl)
  case recording => subst hmem; trivial

theorem FileHolds.run_acts (h : FileHolds env S id s) {run run' : Run}
    (hat : s.runs[pid]? = some run) (hruns : t.runs = s.runs.set pid run')
    (hid : run'.task.id = run.task.id) (hacts : RunActs s t e pid run run' os) :
    FileHolds env S id t := by
  have hruns := copies_run_acts h.runs hruns hid
    (fun read hread hmine => h.loadFrom (hmine ▸ hread)) hacts
  have hsame : t.files = s.files → t.closures = s.closures → FileHolds env S id t :=
    fun hfiles hclosures => ⟨hfiles ▸ h.file, hruns, hclosures ▸ h.closures⟩
  cases hacts with
  | waits _ _ hs | unlocks _ _ hs => exact hsame hs.files hs.closures
  | locks _ _ _ hs => exact hsame hs.files hs.closures
  | reads _ _ _ _ _ _ hs => exact hsame hs.files hs.closures
  | fails _ _ _ _ _ _ _ _ hs => exact hsame hs.files hs.closures
  | records _ _ _ _ _ _ hfiles _ hclosures => exact hsame hfiles hclosures
  | writes report kind read _ hrun _ hfiles _ hclosures =>
    have hcopy := h.runs pid run hat read (by rw [Run.copy, hrun]; rfl)
    exact h.put (fun hmine => (hcopy hmine).apply kind) hfiles hruns (hclosures ▸ h.closures)
  | leaves _ hfiles _ hclosures =>
    refine ⟨hfiles ▸ h.file, hruns, ?_⟩
    rw [hclosures]
    intro i closure hi
    rcases List.mem_append.mp (List.mem_of_getElem? hi) with hmem | hmem
    · obtain ⟨j, hj⟩ := List.mem_iff_getElem?.mp hmem
      exact h.closures j closure hj
    · exact leftBehind_follows (h.runs pid run hat) closure hmem

theorem FileHolds.closure_acts (h : FileHolds env S id s) {closure closure' : Closure}
    (hat : s.closures[pid]? = some closure) (hruns : t.runs = s.runs)
    (hclosures : t.closures = s.closures.set pid closure')
    (hacts : ClosureActs s t pid fault closure closure' os) : FileHolds env S id t := by
  have hruns : Copies (CopyFollows env S id) t.runs := hruns ▸ h.runs
  have hset : closure'.Follows env S id →
      Pool.All (fun _ closure => closure.Follows env S id) t.closures := by
    intro hclosure'
    rw [hclosures]
    exact h.closures.set (fun _ _ _ hother => hother) hclosure'
  cases hacts with
  | reads other kind read _ hclosure' hread hfiles =>
    refine ⟨hfiles ▸ h.file, hruns, hset ?_⟩
    rw [hclosure']
    exact fun hmine => h.loadFrom (hmine ▸ hread)
  | fails other kind read _ hclosure' _ hfiles =>
    exact ⟨hfiles ▸ h.file, hruns, hset (by rw [hclosure']; trivial)⟩
  | writes other kind read hclosure hclosure' _ hfiles =>
    have hcopy : closure.Follows env S id := h.closures pid closure hat
    rw [hclosure] at hcopy
    exact h.put (fun hmine => (hcopy hmine).apply kind) hfiles hruns
      (hset (by rw [hclosure']; trivial))
  | readsHistory other status message trigger read _ hclosure' hfiles =>
    refine ⟨hfiles ▸ h.file, hruns, hset ?_⟩
    rcases hclosure' with hclosure' | ⟨read, hclosure'⟩ <;> rw [hclosure'] <;> trivial
  | records other status message trigger read runs _ hclosure' _ hfiles =>
    exact ⟨hfiles ▸ h.file, hruns, hset (by rw [hclosure']; trivial)⟩

theorem FileHolds.step (h : FileHolds env S id s) (hcond : Unchanged env S id s e)
    (hstep : s.step env e = some (t, os)) : FileHolds env S id t := by
  cases acts hstep with
  | idle _ hs _ _ hruns => exact ⟨hs.files ▸ h.file, copies_handsOver h.runs hruns, hs.closures ▸ h.closures⟩
  | asks _ _ _ hs _ _ hruns => exact ⟨hs.files ▸ h.file, hruns ▸ h.runs, hs.closures ▸ h.closures⟩
  | op _ pid fault op op' he hat _ hruns hacts =>
    subst he
    exact h.op_acts (hcond op hat) hruns hacts
  | run _ pid run run' hat _ hruns hid hacts => exact h.run_acts hat hruns hid hacts
  | closure _ pid fault closure closure' _ hat _ hruns hclosures _ hacts =>
    exact h.closure_acts hat hruns hclosures hacts

/-! ### The memory -/

theorem toSave_id (env : Env) (id : String) (task : ScheduledTask) :
    (toSave env id task).id = id := by
  unfold toSave ScheduledTask.clampScheduledTimeout ScheduledTask.normalizeForSave
  simp only
  split <;> split <;> rfl

theorem named_opTurn (h : Pool.All (fun _ op => op.Named) s.ops) (hat : s.ops[pid]? = some op)
    (hstep : s.opTurn env pid fault op = some (t, os)) : Pool.All (fun _ op => op.Named) t.ops := by
  have hset : ∀ {op' : Op}, op'.Named → Pool.All (fun _ op => op.Named) (s.ops.set pid op') :=
    fun hop' => h.set (fun _ _ _ hother => hother) hop'
  have hnamed : op.Named := h pid op hat
  cases op with
  | toggling id enabled =>
    simp only [opTurn] at hstep
    split at hstep <;> cases hstep <;> exact hset trivial
  | saving id task stage =>
    cases stage <;> simp only [opTurn] at hstep
    case validating =>
      split at hstep <;> cases hstep
      · exact hset (toSave_id env id task)
      · exact hset trivial
    case locking => split at hstep <;> cases hstep; exact hset hnamed
    case writing =>
      split at hstep <;> cases hstep
      · exact hset trivial
      · exact hset hnamed
    case caching => cases hstep; exact hset trivial
  | deleting id stage =>
    cases stage <;> simp only [opTurn] at hstep
    case locking =>
      split at hstep
      · cases hstep; exact hset trivial
      · split at hstep <;> cases hstep; exact hset trivial
    case removing => split at hstep <;> cases hstep <;> exact hset trivial
    case removingHistory =>
      cases hstep
      cases fault <;> exact hset trivial
    case forgetting => cases hstep; exact hset trivial
  | triggering task =>
    simp only [opTurn] at hstep
    split at hstep <;> cases hstep <;> exact hset trivial
  | done => cases hstep
  | refused => cases hstep

/-- A request names what it saves. -/
theorem named_step (h : Pool.All (fun _ op => op.Named) s.ops) (hstep : s.step env e = some (t, os)) :
    Pool.All (fun _ op => op.Named) t.ops := by
  cases acts hstep with
  | idle _ _ _ hops => exact hops ▸ h
  | asks _ op hop _ _ hops =>
    rw [hops]
    refine h.spawn (fun _ _ hold => hold) ?_
    rcases op with _ | ⟨_, _, _ | _ | _ | _⟩ | _ | _ | _ | _ <;> first | trivial | cases hop
  | op _ pid fault op op' he hat =>
    subst he
    have hstep : s.opTurn env pid fault op = some (t, os) := by
      rw [step, hat] at hstep
      exact hstep
    exact named_opTurn h hat hstep
  | run _ _ _ _ _ hops => exact hops ▸ h
  | closure _ _ _ _ _ _ _ hops => exact hops ▸ h

theorem getTask_cacheTask {other : String} {task : ScheduledTask} (hid : task.id = other) :
    (s.cacheTask other task).getTask id = if id = other then some task else s.getTask id := by
  unfold getTask cacheTask
  simp only
  split
  next hany =>
    by_cases hsame : id = other
    · rw [if_pos hsame, hsame, find_updateCached (fun _ _ => hid)]
      obtain ⟨cached, hmem, hcached⟩ := List.any_eq_true.mp hany
      have hsome : (s.tasks.find? (·.id = other)).isSome = true :=
        List.find?_isSome.mpr ⟨cached, hmem, hcached⟩
      obtain ⟨first, hfirst⟩ := Option.isSome_iff_exists.mp hsome
      rw [hfirst]
      rfl
    · rw [if_neg hsame, find_updateCached_other (fun _ _ => hid) hsame]
  next hany =>
    rw [List.find?_append]
    by_cases hsame : id = other
    · have hnone : s.tasks.find? (·.id = id) = none := by
        rw [List.find?_eq_none]
        intro cached hmem hcached
        exact hany (List.any_eq_true.mpr ⟨cached, hmem, hsame ▸ hcached⟩)
      rw [if_pos hsame, hnone, hsame]
      simp [hid]
    · rw [if_neg hsame]
      have hnot : task.id ≠ id := fun h => hsame (h.symm.trans hid)
      simp [hnot]

/-- Outside of the main loop the memory keeps the task, in the same version. -/
theorem OffLoop.cached (h : OffLoop s t e) (hcond : Unchanged env S id s e)
    (hnamed : Pool.All (fun _ op => op.Named) s.ops)
    (hcached : ∀ task, s.getTask id = some task → Follows env S task) :
    (∀ task, t.getTask id = some task → Follows env S task) ∧
      ((s.getTask id).isSome = true → (t.getTask id).isSome = true) := by
  have hgo : ∀ {found : Option ScheduledTask}, t.getTask id = found →
      (∀ task, found = some task → Follows env S task) →
      ((s.getTask id).isSome = true → found.isSome = true) →
      (∀ task, t.getTask id = some task → Follows env S task) ∧
        ((s.getTask id).isSome = true → (t.getTask id).isSome = true) := by
    rintro found rfl hfollows hsome
    exact ⟨hfollows, hsome⟩
  cases h.cache with
  | same htasks => exact hgo (by rw [getTask, htasks]; rfl) hcached (fun hs => hs)
  | caches pid fault other task he hat htasks =>
    subst he
    have hid : task.id = other := hnamed pid _ hat
    have hget : t.getTask id = if id = other then some task else s.getTask id := by
      rw [← getTask_cacheTask hid, getTask, getTask, htasks]
    refine hgo hget (fun found hfound => ?_) (fun hs => ?_)
    · split at hfound
      next hsame =>
        cases hfound
        exact hcond _ hat hsame.symm
      next => exact hcached found hfound
    · split
      · rfl
      · exact hs
  | forgets pid fault other he hat htasks =>
    subst he
    have hne : other ≠ id := hcond _ hat
    have hget : t.getTask id = s.getTask id := by
      rw [getTask, getTask, htasks, find_filter]
      intro task hid
      simpa [hid] using Ne.symm hne
    exact hgo hget hcached (fun hs => hs)
  | updates other kind htasks =>
    by_cases hsame : id = other
    · subst hsame
      have hget : t.getTask id = (s.getTask id).map kind.apply := by
        rw [getTask, htasks, find_updateCached fun task hid => (kind.apply_id task).trans hid]
        rfl
      refine hgo hget (fun found hfound => ?_) (fun hs => by rw [Option.isSome_map]; exact hs)
      obtain ⟨task, htask, rfl⟩ := Option.map_eq_some_iff.mp hfound
      exact (hcached task htask).apply kind
    · have hget : t.getTask id = s.getTask id := by
        rw [getTask, htasks,
          find_updateCached_other (fun task hid => (kind.apply_id task).trans hid) hsame]
        rfl
      exact hgo hget hcached (fun hs => hs)

/-- What is there of the memory after a scan. -/
theorem getTask_forgetMissing (s : SchedulerService) (id : String) (ids : List String) :
    (s.forgetMissing ids).getTask id = s.getTask id ∨
      (id ∉ ids ∧ (s.forgetMissing ids).getTask id = none) := by
  unfold forgetMissing getTask
  simp only
  split
  · exact .inl rfl
  · by_cases hmem : id ∈ ids
    · exact .inl (find_filter fun task hid => by simpa [hid] using hmem)
    · refine .inr ⟨hmem, List.find?_eq_none.mpr fun task htask hid => hmem ?_⟩
      have hkept := (List.mem_filter.mp htask).2
      have hid : task.id = id := by simpa using hid
      simpa [hid] using hkept

theorem MemoryHolds.loopTurn (h : MemoryHolds env S id s) (hfile : FileHolds env S id s)
    (hstep : s.loopTurn env fault s.loop = some (t, os)) : MemoryHolds env S id t := by
  have hloads := h.loads
  have hkeep : t.tasks = s.tasks → t.loop.Loads env S id → MemoryHolds env S id t :=
    fun htasks hl => ⟨fun task htask => h.cached task (by rwa [getTask, htasks] at htask), hl⟩
  cases hloop : s.loop with
  | ready | stopped => rw [hloop] at hstep; cases hstep
  | firing now done todo next =>
    rw [hloop] at hstep
    cases todo with
    | nil => cases next <;> cases hstep <;> exact hkeep rfl trivial
    | cons entry todo =>
      simp only [SchedulerService.loopTurn, Option.some.injEq] at hstep
      obtain ⟨htasks, hl⟩ : (s.fireTurn now done entry todo next).1.tasks = s.tasks ∧
          (s.fireTurn now done entry todo next).1.loop.Loads env S id := by
        unfold fireTurn
        repeat' split
        all_goals exact ⟨rfl, trivial⟩
      rw [hstep] at htasks hl
      exact hkeep htasks hl
  | advancing now done entry todo next =>
    rw [hloop] at hstep
    cases hstep
    exact hkeep rfl trivial
  | listing first =>
    rw [hloop] at hstep
    cases hstep
    exact hkeep rfl (by intro task hmem; cases hmem)
  | loading first todo loaded schedules invalid =>
    rw [hloop] at hstep hloads
    cases todo with
    | nil =>
      cases hstep
      refine ⟨fun task htask => ?_, by cases first <;> trivial⟩
      have hid : task.id = id := by simpa using List.find?_some htask
      exact hloads task (List.mem_of_find?_eq_some htask) hid
    | cons other todo =>
      simp only [SchedulerService.loopTurn, Option.some.injEq, Prod.mk.injEq] at hstep
      obtain ⟨rfl, -⟩ := hstep
      unfold loadTurn at hkeep ⊢
      split at hkeep
      · exact hkeep rfl hloads
      next task hread =>
        refine hkeep rfl fun found hmem hid => ?_
        rcases List.mem_append.mp hmem with hmem | hmem
        · exact hloads found hmem hid
        · obtain rfl := List.mem_singleton.mp hmem
          have hread : s.loadFrom other = some found := by
            split at hread
            · cases hread
            · exact hread
          -- What a load reads has the id of its file.
          have hname : found.id = other := by
            obtain ⟨file, -, rfl⟩ := Option.map_eq_some_iff.mp hread
            rfl
          exact hfile.loadFrom (by rw [← hid, hname]; exact hread)
  | greeting =>
    rw [hloop] at hstep
    cases hstep
    exact hkeep rfl (by simp only [loopTo]; split <;> trivial)
  | dispatching today todo =>
    rw [hloop] at hstep
    cases todo with
    | nil => cases hstep; exact hkeep rfl trivial
    | cons task todo =>
      simp only [SchedulerService.loopTurn, Option.some.injEq, Prod.mk.injEq] at hstep
      obtain ⟨htasks, hl⟩ : (s.greetTurn today task todo).tasks = s.tasks ∧
          (s.greetTurn today task todo).loop.Loads env S id := by
        unfold greetTurn
        split <;> exact ⟨rfl, trivial⟩
      rw [hstep.1] at htasks hl
      exact hkeep htasks hl
  | scanning ids =>
    rw [hloop] at hstep
    cases hstep
    refine ⟨fun task htask => ?_, trivial⟩
    rcases getTask_forgetMissing s id ids with hsame | ⟨-, hnone⟩
    · exact h.cached task (hsame ▸ htask)
    · exact absurd (htask.symm.trans hnone) (by simp)

theorem MemoryHolds.step (h : MemoryHolds env S id s) (hfile : FileHolds env S id s)
    (hnamed : Pool.All (fun _ op => op.Named) s.ops) (hcond : Unchanged env S id s e)
    (hstep : s.step env e = some (t, os)) : MemoryHolds env S id t := by
  cases hoff : e.offLoop with
  | true =>
    have hacts := offLoop hoff hstep
    exact ⟨(hacts.cached hcond hnamed h.cached).1, hacts.loop ▸ h.loads⟩
  | false =>
    cases e
    case tick => cases hstep; exact ⟨h.cached, h.loads⟩
    case wake | reload | scan | stop =>
      simp only [SchedulerService.step] at hstep
      split at hstep <;> cases hstep
      exact ⟨h.cached, trivial⟩
    case loopTurn fault => exact h.loopTurn hfile hstep
    all_goals cases hoff

end
end CampusAuth.Scheduler
