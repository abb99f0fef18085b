import CampusAuth.Scheduler.Task
import CampusAuth.Lib.Machine
import CampusAuth.Lib.Pool

/- The scheduler: its main loop, the requests that edit tasks, and the runs
   (`scheduler/mod.rs`, `scheduler/cron_loop.rs`, `web/routes/scheduler.rs`).

   Every file read, file write and update of the memory is a step, and anything may happen in
   between, the clock included. A reload may be asked for at any time: a change of a task, a change
   of the configuration and the poll without a channel all lead to the same branch of the loop. The
   loop may wake up at any time too, and a delay or the attempt of a task may end at any time. -/
namespace CampusAuth.Scheduler
open Lib

/-- What the scheduler takes from elsewhere. -/
structure Env where
  /-- `parse_cron_expr` -/
  parseCron : String → Option Schedule
  localDate : Nat → String
  timestamp : Nat → String
  /-- The type of a target task, when it can be loaded. -/
  targetType : String → Option String

theorem ten_pos : 0 < 10 := Nat.succ_pos 9

/-- A schedule each ten instants for any expression, and days of a hundred instants. -/
def Env.small : Env where
  parseCron _ := some (Schedule.every 10 ten_pos)
  localDate now := if now < 100 then "1" else "2"
  timestamp _ := ""
  targetType _ := none

inductive RunSource where
  | cron
  | manual
  | startup
  deriving DecidableEq

def RunSource.asStr : RunSource → String
  | .cron => "cron"
  | .manual => "manual"
  | .startup => "startup"

/-! ## Runs -/

/-- What a run changes in the file of its task. -/
inductive UpdateKind where
  /-- `update_last_run` -/
  | lastRun (time result : String)
  /-- `record_startup_success` -/
  | success (today : String)

def UpdateKind.apply (task : ScheduledTask) : UpdateKind → ScheduledTask
  | .lastRun time result => { task with lastRun := some time, lastResult := some result }
  | .success today =>
    { task with startupSuccess := some (nextSuccessCount task.startupSuccess today) }

inductive UpdateStage where
  | locking
  | reading
  | writing (read : ScheduledTask)
  | caching

/-- How an attempt went. -/
structure Report where
  attempt : Nat
  total : Nat
  success : Bool
  message : String

def Report.status (report : Report) : String := if report.success then "success" else "failure"

inductive RunStage where
  /-- It is marked, and handed over. -/
  | admitted
  /-- It waits for a permit. -/
  | queued
  /-- It has a permit, but no guard for its mark yet. -/
  | permitted
  | delaying
  | rechecking
  | executing (attempt total : Nat)
  | updating (report : Report) (kind : UpdateKind) (stage : UpdateStage)
  /-- `append_history` reads the records, and writes them with one more. -/
  | recording (report : Report) (read : Option (List HistoryRecord))
  | concluding (report : Report)
  | pausing (attempt total : Nat)
  /-- The guard of the mark is about to be dropped. -/
  | finishing
  /-- It is cancelled and its guard dropped; the mark is about to be cleared once more. -/
  | clearing
  | ended

/-- From `reading` on an update has the file lock. -/
def RunStage.locks : RunStage → Bool
  | .updating _ _ .locking => false
  | .updating .. => true
  | _ => false

structure Run where
  task : ScheduledTask
  source : RunSource
  stage : RunStage

/-- What goes on in a blocking thread after its run has been cancelled. -/
inductive Closure where
  | update (id : String) (kind : UpdateKind) (read : Option ScheduledTask)
  | history (id : String) (status message trigger : String) (read : Option (List HistoryRecord))
  | done

/-! ## Requests -/

inductive SaveStage where
  | validating
  | locking
  | writing
  | caching

inductive DeleteStage where
  | locking
  | removing
  | removingHistory
  | forgetting

inductive Op where
  /-- `toggle_task`, before it looks the task up again. -/
  | toggling (id : String) (enabled : Bool)
  | saving (id : String) (task : ScheduledTask) (stage : SaveStage)
  | deleting (id : String) (stage : DeleteStage)
  /-- `spawn_manual_run` -/
  | triggering (task : ScheduledTask)
  | done
  | refused

/-- The fields of an update that are given. -/
structure JobUpdate where
  cron : Option String := none
  enabled : Option Bool := none
  name : Option String := none
  targetId : Option String := none
  profileId : Option String := none
  description : Option String := none
  timeout : Option Nat := none
  trigger : Option TaskTrigger := none
  maxRunsPerDay : Option Nat := none
  maxRetries : Option Nat := none
  startupDelaySecs : Option Nat := none

def JobUpdate.apply (body : JobUpdate) (job : ScheduledTask) : ScheduledTask :=
  { job with
    trigger := body.trigger.getD job.trigger
    cron := body.cron.getD job.cron
    enabled := body.enabled.getD job.enabled
    name := body.name.getD job.name
    targetId := body.targetId.getD job.targetId
    profileId := body.profileId <|> job.profileId
    description := body.description.getD job.description
    timeout := body.timeout <|> job.timeout
    maxRunsPerDay := body.maxRunsPerDay <|> job.maxRunsPerDay
    maxRetries := body.maxRetries <|> job.maxRetries
    startupDelaySecs := body.startupDelaySecs <|> job.startupDelaySecs }

/-- A new task has neither a result nor a count. -/
def newJob (body : ScheduledTask) : ScheduledTask :=
  { body with profileId := none, lastRun := none, lastResult := none, startupSuccess := none }

/-! ## The main loop -/

structure TaskSchedule where
  taskId : String
  schedule : Option Schedule
  nextFireAt : Option Nat

/-- What the loop does after it has fired what is due. -/
inductive AfterFiring where
  | sleep
  | reload
  deriving DecidableEq

inductive LoopStage where
  | ready
  /-- `fire_due_tasks` for the clock reading `now`. -/
  | firing (now : Nat) (done todo : List TaskSchedule) (next : AfterFiring)
  /-- The entry is due and has been dealt with; its next instant is still to be found. -/
  | advancing (now : Nat) (done : List TaskSchedule) (entry : TaskSchedule)
      (todo : List TaskSchedule) (next : AfterFiring)
  /-- `load_and_parse_all`; the first one is followed by the startup runs. -/
  | listing (first : Bool)
  | loading (first : Bool) (todo : List String) (loaded : List ScheduledTask)
      (schedules : List TaskSchedule) (invalid : List String)
  /-- `dispatch_startup_triggers` -/
  | greeting
  | dispatching (today : String) (todo : List ScheduledTask)
  /-- `reconcile_external_deletions`, with the ids that are there. -/
  | scanning (ids : List String)
  | stopped

inductive Holder where
  | op (pid : Nat)
  | run (pid : Nat)
  deriving DecidableEq

structure SchedulerService where
  now : Nat := 0
  /-- `tasks/scheduled` and its `history` -/
  files : List (String × ScheduledTask) := []
  histories : List (String × List HistoryRecord) := []
  tasks : List ScheduledTask := []
  invalidCronIds : List String := []
  fileMutex : Option Holder := none
  runningIds : List String := []
  /-- What is left of `concurrency`. -/
  permits : Nat := 4
  /-- `task_cancel` -/
  cancelled : Bool := false
  loginOnce : Bool := false
  taskSchedules : List TaskSchedule := []
  loop : LoopStage := .listing true
  ops : Pool Op := []
  runs : Pool Run := []
  closures : Pool Closure := []

inductive Event where
  | tick (elapsed : Nat)
  | create (body : ScheduledTask)
  | update (id : String) (body : JobUpdate)
  | toggle (id : String)
  | delete (id : String)
  | runManually (id : String)
  /-- A request goes on; `fault` is a failure of the file operation, or of a check. -/
  | opTurn (op : Nat) (fault : Bool := false)
  /-- A run goes on; at a pause of a startup run, `fault` means that it sees the cancellation. -/
  | runTurn (run : Nat) (fault : Bool := false)
  /-- The attempt of a run ends, also by its timeout. -/
  | attempted (run : Nat) (success : Bool) (message : String)
  | panic (run : Nat)
  /-- A run notices that it is cancelled. -/
  | cancelRun (run : Nat)
  | closureTurn (closure : Nat) (fault : Bool := false)
  | wake
  | reload
  | scan (fault : Bool := false)
  | stop
  | loopTurn (fault : Bool := false)

inductive Effect where
  /-- An instant of the task was due: a run has been started, or one is still marked. -/
  | fired (id : String) (fireAt time : Nat)
  /-- The clock goes on, with these tasks marked as running. -/
  | passed (before after : Nat) (running : List String)
  /-- A success is recorded: counted in the file of the task, if that can be read and written. -/
  | recorded (id today : String)
  | saved (id : String)
  /-- `delete_task` returns. -/
  | deleted (id : String)
  deriving DecidableEq

def UpdateKind.recorded (id : String) : UpdateKind → List Effect
  | .lastRun .. => []
  | .success today => [.recorded id today]

/-! ## The sections -/

def put {α : Type} (files : List (String × α)) (id : String) (a : α) : List (String × α) :=
  (id, a) :: files.filter (·.1 ≠ id)

def takeOut {α : Type} (files : List (String × α)) (id : String) : List (String × α) :=
  files.filter (·.1 ≠ id)

/-- Changes the first task of the id. -/
def updateCached (id : String) (f : ScheduledTask → ScheduledTask) :
    List ScheduledTask → List ScheduledTask
  | [] => []
  | t :: ts => if t.id = id then f t :: ts else t :: updateCached id f ts

namespace SchedulerService

/-- The scheduler as it is started, with what is in its directory. -/
def new (now : Nat) (files : List (String × ScheduledTask))
    (histories : List (String × List HistoryRecord)) (loginOnce : Bool) : SchedulerService :=
  { now, files, histories, loginOnce }

variable (s : SchedulerService)

def getTask (id : String) : Option ScheduledTask := s.tasks.find? (·.id = id)

/-- `ScheduledTask::load_from` -/
def loadFrom (id : String) : Option ScheduledTask :=
  (s.files.lookup id).map fun task => { task with id }

def hasFile (id : String) : Bool := (s.files.lookup id).isSome

def saveTo (id : String) (task : ScheduledTask) : SchedulerService :=
  { s with files := put s.files id task }

def removeFile (id : String) : SchedulerService := { s with files := takeOut s.files id }

def saveHistory (id : String) (runs : List HistoryRecord) : SchedulerService :=
  { s with histories := put s.histories id runs }

def removeHistory (id : String) : SchedulerService :=
  { s with histories := takeOut s.histories id }

def cacheTask (id : String) (task : ScheduledTask) : SchedulerService :=
  { s with
    tasks := if s.tasks.any (·.id = id) then updateCached id (fun _ => task) s.tasks
      else s.tasks ++ [task] }

def updateTask (id : String) (kind : UpdateKind) : SchedulerService :=
  { s with tasks := updateCached id kind.apply s.tasks }

def forgetTask (id : String) : SchedulerService :=
  { s with tasks := s.tasks.filter (·.id ≠ id) }

def lock (holder : Holder) : SchedulerService := { s with fileMutex := some holder }

def unlock : SchedulerService := { s with fileMutex := none }

/-- `try_mark_running` for a task that is not marked. -/
def markRunning (id : String) : SchedulerService := { s with runningIds := id :: s.runningIds }

def clearRunning (id : String) : SchedulerService :=
  { s with runningIds := s.runningIds.filter (· ≠ id) }

def takePermit : SchedulerService := { s with permits := s.permits - 1 }

def returnPermit : SchedulerService := { s with permits := s.permits + 1 }

/-- A marked task is handed over to a new run. -/
def spawnRun (task : ScheduledTask) (source : RunSource) : SchedulerService :=
  { s.markRunning task.id with runs := s.runs ++ [⟨task, source, .admitted⟩] }

def opTo (pid : Nat) (op : Op) : SchedulerService := { s with ops := s.ops.set pid op }

def runTo (pid : Nat) (run : Run) (stage : RunStage) : SchedulerService :=
  { s with runs := s.runs.set pid { run with stage } }

def addOp (op : Op) : SchedulerService := { s with ops := s.ops ++ [op] }

def loopTo (loop : LoopStage) : SchedulerService := { s with loop }

/-! ## Requests -/

/-- What `save_task` saves, before the checks. -/
def toSave (env : Env) (id : String) (task : ScheduledTask) : ScheduledTask :=
  let normal := { task with id }.normalizeForSave
  normal.clampScheduledTimeout (env.targetType normal.targetId)

/-- `save_task` takes the id and, for a cron task, the expression. -/
def saveAllowed (env : Env) (id : String) (task : ScheduledTask) : Bool :=
  ScheduledTask.isValidId id && (task.trigger = .startup || (env.parseCron task.cron).isSome)

def opTurn (env : Env) (pid : Nat) (fault : Bool) :
    Op → Option (SchedulerService × List Effect)
  | .toggling id enabled =>
    match s.getTask id with
    | some task => some (s.opTo pid (.saving id { task with enabled } .validating), [])
    | none => some (s.opTo pid .refused, [])
  | .saving id task .validating =>
    -- A fault is a target task that is missing.
    if saveAllowed env id task && !fault then
      some (s.opTo pid (.saving id (toSave env id task) .locking), [])
    else some (s.opTo pid .refused, [])
  | .saving id task .locking =>
    if s.fileMutex.isSome then none
    else some ((s.lock (.op pid)).opTo pid (.saving id task .writing), [])
  | .saving id task .writing =>
    if fault then some (s.unlock.opTo pid .refused, [])
    else some ((s.saveTo id task).opTo pid (.saving id task .caching), [.saved id])
  | .saving id task .caching => some ((s.cacheTask id task).unlock.opTo pid .done, [])
  | .deleting id .locking =>
    if !ScheduledTask.isValidId id then some (s.opTo pid .refused, [])
    else if s.fileMutex.isSome then none
    else some ((s.lock (.op pid)).opTo pid (.deleting id .removing), [])
  | .deleting id .removing =>
    if (s.files.lookup id).isNone || fault then some (s.unlock.opTo pid .refused, [])
    else some ((s.removeFile id).opTo pid (.deleting id .removingHistory), [])
  | .deleting id .removingHistory =>
    -- The records are removed as best as can be.
    some ((if fault then s else s.removeHistory id).opTo pid (.deleting id .forgetting), [])
  | .deleting id .forgetting => some ((s.forgetTask id).unlock.opTo pid .done, [.deleted id])
  | .triggering task =>
    if task.id ∈ s.runningIds then some (s.opTo pid .refused, [])
    else some ((s.spawnRun task .manual).opTo pid .done, [])
  | .done | .refused => none

/-! ## Runs -/

/-- The message of an attempt, with its number from the second on. -/
def attemptMessage (attempt total : Nat) (message : String) : String :=
  if attempt > 1 then
    message ++ "（第 " ++ toString attempt ++ "/" ++ toString total ++ " 次尝试）"
  else message

/-- A run at an update of its task file. -/
def updateTurn (pid : Nat) (run : Run) (report : Report) (kind : UpdateKind) (fault : Bool)
    (after : RunStage) : UpdateStage → Option (SchedulerService × List Effect)
  | .locking =>
    if s.fileMutex.isSome then none
    else some ((s.lock (.run pid)).runTo pid run (.updating report kind .reading), [])
  | .reading =>
    match if fault then none else s.loadFrom run.task.id with
    | some read => some (s.runTo pid run (.updating report kind (.writing read)), [])
    | none => some (s.runTo pid run (.updating report kind .caching), kind.recorded run.task.id)
  | .writing read =>
    if fault then
      some (s.runTo pid run (.updating report kind .caching), kind.recorded run.task.id)
    else
      some ((s.saveTo run.task.id (kind.apply read)).runTo pid run (.updating report kind .caching),
        kind.recorded run.task.id)
  | .caching => some ((s.updateTask run.task.id kind).unlock.runTo pid run after, [])

/-- Where a run goes when it has written its result. -/
def afterUpdate (report : Report) : UpdateKind → RunStage
  | .lastRun .. => .recording report none
  | .success _ => .concluding report

def runTurn (env : Env) (pid : Nat) (run : Run) (fault : Bool) :
    RunStage → Option (SchedulerService × List Effect)
  | .admitted =>
    if s.cancelled then some ((s.clearRunning run.task.id).runTo pid run .ended, [])
    else some (s.runTo pid run .queued, [])
  | .queued =>
    if s.permits = 0 then none
    else some (s.takePermit.runTo pid run .permitted, [])
  | .permitted =>
    some (s.runTo pid run (if run.source = .startup then .delaying else .executing 1 1), [])
  | .delaying =>
    some (s.runTo pid run
      (if s.cancelled && fault && 0 < run.task.effectiveStartupDelaySecs then .finishing
        else .rechecking), [])
  | .rechecking =>
    match s.getTask run.task.id with
    | none => some (s.runTo pid run .finishing, [])
    | some latest =>
      if !latest.enabled || latest.startupCapReached (env.localDate s.now) then
        some (s.runTo pid run .finishing, [])
      else
        some (s.runTo pid { run with task := latest }
          (if latest.totalAttempts = 0 then .finishing else .executing 1 latest.totalAttempts), [])
  | .executing .. => none
  | .updating report kind stage => s.updateTurn pid run report kind fault (afterUpdate report kind) stage
  | .recording report none =>
    some (s.runTo pid run (.recording report (some ((s.histories.lookup run.task.id).getD []))), [])
  | .recording report (some read) =>
    let record : HistoryRecord :=
      ⟨env.timestamp s.now, report.status, report.message, run.source.asStr⟩
    let recorded := if fault then s else s.saveHistory run.task.id (appendHistory read record)
    some (recorded.runTo pid run
      (if report.success && run.task.trigger = .startup then
        .updating report (.success (env.localDate s.now)) .locking
      else .concluding report), [])
  | .concluding report =>
    some (s.runTo pid run
      (if run.source = .startup && !report.success && report.attempt < report.total then
        .pausing report.attempt report.total
      else .finishing), [])
  | .pausing attempt total =>
    some (s.runTo pid run
      (if s.cancelled && fault then .finishing else .executing (attempt + 1) total), [])
  | .finishing => some (((s.clearRunning run.task.id).returnPermit).runTo pid run .ended, [])
  | .clearing => some (((s.clearRunning run.task.id).returnPermit).runTo pid run .ended, [])
  | .ended => none

/-- The attempt is over; `update_last_run` begins with a reading of the clock. -/
def attempted (env : Env) (pid : Nat) (run : Run) (success : Bool) (message : String) :
    RunStage → Option (SchedulerService × List Effect)
  | .executing attempt total =>
    let report : Report := ⟨attempt, total, success, attemptMessage attempt total message⟩
    let kind := UpdateKind.lastRun (env.timestamp s.now)
      ("[" ++ report.status ++ "] " ++ report.message)
    some (s.runTo pid run (.updating report kind .locking), [])
  | _ => none

/-- The attempt panics: the guard and the permit are dropped. -/
def panic (pid : Nat) (run : Run) : RunStage → Option (SchedulerService × List Effect)
  | .executing .. => some (((s.clearRunning run.task.id).returnPermit).runTo pid run .ended, [])
  | _ => none

/-- The closure that a cancelled run leaves behind in a blocking thread. -/
def leftBehind (run : Run) : RunStage → List Closure
  | .updating _ kind .reading => [.update run.task.id kind none]
  | .updating _ kind (.writing read) => [.update run.task.id kind (some read)]
  | .recording report read =>
    [.history run.task.id report.status report.message run.source.asStr read]
  | _ => []

/-- What a run has is dropped: the file lock, and the closure that it waits for. -/
def abandon (run : Run) : SchedulerService :=
  { s with
    fileMutex := if run.stage.locks then none else s.fileMutex
    closures := s.closures ++ leftBehind run run.stage }

def cancelTurn (pid : Nat) (run : Run) : RunStage → Option (SchedulerService × List Effect)
  | .queued => some ((s.clearRunning run.task.id).runTo pid run .ended, [])
  | .permitted => some (((s.clearRunning run.task.id).returnPermit).runTo pid run .ended, [])
  | .admitted | .clearing | .ended => none
  -- The guard clears the mark first; that the run itself clears it again comes later.
  | .delaying | .rechecking | .executing .. | .updating .. | .recording .. | .concluding _
  | .pausing .. | .finishing =>
    some (((s.abandon run).clearRunning run.task.id).runTo pid run .clearing, [])

def closureTo (pid : Nat) (closure : Closure) : SchedulerService :=
  { s with closures := s.closures.set pid closure }

def closureTurn (env : Env) (pid : Nat) (fault : Bool) :
    Closure → Option (SchedulerService × List Effect)
  | .update id kind none =>
    match if fault then none else s.loadFrom id with
    | some read => some (s.closureTo pid (.update id kind (some read)), [])
    | none => some (s.closureTo pid .done, kind.recorded id)
  | .update id kind (some read) =>
    if fault then some (s.closureTo pid .done, kind.recorded id)
    else some ((s.saveTo id (kind.apply read)).closureTo pid .done, kind.recorded id)
  | .history id status message trigger none =>
    some (s.closureTo pid
      (.history id status message trigger (some ((s.histories.lookup id).getD []))), [])
  | .history id status message trigger (some read) =>
    let record : HistoryRecord := ⟨env.timestamp s.now, status, message, trigger⟩
    some ((if fault then s else s.saveHistory id (appendHistory read record)).closureTo pid .done,
      [])
  | .done => none

/-! ## The main loop -/

/-- `fire_due_tasks` comes to an entry. -/
def fireTurn (now : Nat) (done : List TaskSchedule) (entry : TaskSchedule)
    (todo : List TaskSchedule) (next : AfterFiring) : SchedulerService × List Effect :=
  match entry.nextFireAt with
  | none => (s.loopTo (.firing now (done ++ [entry]) todo next), [])
  | some fireAt =>
    if now < fireAt then (s.loopTo (.firing now (done ++ [entry]) todo next), [])
    else
      match s.getTask entry.taskId with
      | none => (s.loopTo (.advancing now done entry todo next), [])
      | some task =>
        if !task.enabled then (s.loopTo (.advancing now done entry todo next), [])
        else
          (if entry.taskId ∈ s.runningIds then s.loopTo (.advancing now done entry todo next)
            else (s.spawnRun task .cron).loopTo (.advancing now done entry todo next),
            [.fired entry.taskId fireAt s.now])

/-- The entry of a task in the table: a startup task and a disabled one have none. -/
def scheduleOf (env : Env) (id : String) (task : ScheduledTask) : Option TaskSchedule :=
  if task.enabled && task.trigger ≠ .startup then
    let schedule := env.parseCron task.cron
    some ⟨id, schedule, schedule.bind (·.after s.now)⟩
  else none

/-- `load_and_parse_all` comes to a file. -/
def loadTurn (env : Env) (fault first : Bool) (id : String) (todo : List String)
    (loaded : List ScheduledTask) (schedules : List TaskSchedule) (invalid : List String) :
    SchedulerService :=
  match if fault then none else s.loadFrom id with
  | none => s.loopTo (.loading first todo loaded schedules invalid)
  | some task =>
    let entry := s.scheduleOf env id task
    -- An expression that does not parse, or that has no upcoming instant, is marked as invalid.
    let unfit := entry.toList.filterMap fun e => if e.nextFireAt.isNone then some id else none
    s.loopTo (.loading first todo (loaded ++ [task]) (schedules ++ entry.toList) (invalid ++ unfit))

/-- `dispatch_startup_triggers` comes to a task. -/
def greetTurn (today : String) (task : ScheduledTask) (todo : List ScheduledTask) :
    SchedulerService :=
  if task.trigger ≠ .startup || !task.enabled || task.startupCapReached today ||
      task.id ∈ s.runningIds then s.loopTo (.dispatching today todo)
  else (s.spawnRun task .startup).loopTo (.dispatching today todo)

/-- The ids that are not there any more are forgotten. -/
def forgetMissing (ids : List String) : SchedulerService :=
  let kept := s.taskSchedules.filter (·.taskId ∈ ids)
  { s with
    taskSchedules := kept
    tasks := if kept.length = s.taskSchedules.length then s.tasks
      else s.tasks.filter (·.id ∈ ids) }

def loopTurn (env : Env) (fault : Bool) : LoopStage → Option (SchedulerService × List Effect)
  | .ready | .stopped => none
  | .firing now done (entry :: todo) next => some (s.fireTurn now done entry todo next)
  | .firing _ done [] .sleep => some ({ s with taskSchedules := done, loop := .ready }, [])
  | .firing _ done [] .reload =>
    some ({ s with taskSchedules := done, loop := .listing false }, [])
  | .advancing now done entry todo next =>
    let advanced := { entry with nextFireAt := entry.schedule.bind (·.after s.now) }
    some (s.loopTo (.firing now (done ++ [advanced]) todo next), [])
  | .listing first =>
    some (s.loopTo (.loading first (if fault then [] else s.files.map (·.1)) [] [] []), [])
  | .loading first (id :: todo) loaded schedules invalid =>
    some (s.loadTurn env fault first id todo loaded schedules invalid, [])
  | .loading first [] loaded schedules invalid =>
    some ({ s with
      tasks := loaded, invalidCronIds := invalid, taskSchedules := schedules
      loop := if first then .greeting else .ready }, [])
  | .greeting =>
    some (s.loopTo (if s.loginOnce then .ready else .dispatching (env.localDate s.now) s.tasks), [])
  | .dispatching today (task :: todo) => some (s.greetTurn today task todo, [])
  | .dispatching _ [] => some (s.loopTo .ready, [])
  | .scanning ids => some ((s.forgetMissing ids).loopTo .ready, [])

def isReady : Bool :=
  match s.loop with
  | .ready => true
  | _ => false

/-! ## Steps -/

def step (env : Env) : Event → Option (SchedulerService × List Effect)
  | .tick elapsed =>
    some ({ s with now := s.now + elapsed }, [.passed s.now (s.now + elapsed) s.runningIds])
  | .create body =>
    if (s.getTask body.id).isSome then none
    else some (s.addOp (.saving body.id (newJob body) .validating), [])
  | .update id body =>
    (s.getTask id).map fun job => (s.addOp (.saving id (body.apply job) .validating), [])
  | .toggle id => (s.getTask id).map fun job => (s.addOp (.toggling id (!job.enabled)), [])
  | .delete id => some (s.addOp (.deleting id .locking), [])
  | .runManually id => (s.getTask id).map fun task => (s.addOp (.triggering task), [])
  | .opTurn pid fault => s.ops[pid]?.bind (s.opTurn env pid fault)
  | .runTurn pid fault => s.runs[pid]?.bind fun run => s.runTurn env pid run fault run.stage
  | .attempted pid success message =>
    s.runs[pid]?.bind fun run => s.attempted env pid run success message run.stage
  | .panic pid => s.runs[pid]?.bind fun run => s.panic pid run run.stage
  | .cancelRun pid =>
    if s.cancelled then s.runs[pid]?.bind fun run => s.cancelTurn pid run run.stage else none
  | .closureTurn pid fault => s.closures[pid]?.bind (s.closureTurn env pid fault)
  | .wake =>
    if s.isReady then some (s.loopTo (.firing s.now [] s.taskSchedules .sleep), []) else none
  | .reload =>
    if s.isReady then some (s.loopTo (.firing s.now [] s.taskSchedules .reload), []) else none
  | .scan fault =>
    if s.isReady then some (s.loopTo (.scanning (if fault then [] else s.files.map (·.1))), [])
    else none
  | .stop =>
    if s.isReady then some ({ s with loop := .stopped, cancelled := true }, []) else none
  | .loopTurn fault => s.loopTurn env fault s.loop

end SchedulerService

def schedulerMachine (env : Env) : Machine SchedulerService Event Effect where
  step s e := s.step env e

end CampusAuth.Scheduler
