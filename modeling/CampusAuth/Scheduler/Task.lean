import CampusAuth.Lib.Instants

/- Scheduled tasks and the records of their runs (`scheduler/task.rs`). -/
namespace CampusAuth.Scheduler
open Lib

def maxHistoryRecords : Nat := 50
def defaultStartupDelaySecs : Nat := 30
def maxStartupDelaySecs : Nat := 86400
def defaultStartupMaxRetries : Nat := 2
def maxStartupRetries : Nat := 10
def defaultStartupMaxRunsPerDay : Nat := 1
def maxStartupRunsPerDay : Nat := 99

inductive TaskTrigger where
  | cron
  /-- Once after the application has started. -/
  | startup
  deriving DecidableEq

/-- How many runs have succeeded on a day. -/
structure DailySuccessCount where
  date : String
  count : Nat
  deriving DecidableEq

structure ScheduledTask where
  id : String
  name : String := ""
  description : String := ""
  cron : String := ""
  targetId : String
  profileId : Option String := none
  timeout : Option Nat := none
  enabled : Bool := true
  lastRun : Option String := none
  lastResult : Option String := none
  trigger : TaskTrigger := .cron
  maxRunsPerDay : Option Nat := none
  maxRetries : Option Nat := none
  startupDelaySecs : Option Nat := none
  startupSuccess : Option DailySuccessCount := none
  deriving DecidableEq

def nextSuccessCount (existing : Option DailySuccessCount) (today : String) : DailySuccessCount :=
  match existing with
  | some c => { date := today, count := if c.date = today then c.count + 1 else 1 }
  | none => { date := today, count := 1 }

/-- The successes counted for the day. -/
def successesOn (counted : Option DailySuccessCount) (day : String) : Nat :=
  match counted with
  | some c => if c.date = day then c.count else 0
  | none => 0

namespace ScheduledTask
variable (task : ScheduledTask)

def startupSuccessToday (today : String) : Nat := successesOn task.startupSuccess today

def effectiveMaxRunsPerDay : Nat := task.maxRunsPerDay.getD defaultStartupMaxRunsPerDay

def effectiveMaxRetries : Nat := task.maxRetries.getD defaultStartupMaxRetries

/-- The attempts of a startup round: a sum of 32 bits, which wraps in a release build. -/
def totalAttempts : Nat := (task.effectiveMaxRetries + 1) % 2 ^ 32

def effectiveStartupDelaySecs : Nat := task.startupDelaySecs.getD defaultStartupDelaySecs

def startupCapReached (today : String) : Bool :=
  task.startupSuccessToday today ≥ task.effectiveMaxRunsPerDay

/-- Before a task is saved: a cron task keeps nothing of a startup task, not even its count. -/
def normalizeForSave : ScheduledTask :=
  match task.trigger with
  | .cron =>
    { task with maxRunsPerDay := none, maxRetries := none, startupDelaySecs := none,
                startupSuccess := none }
  | .startup =>
    { task with
      maxRunsPerDay := some (max 1 (min task.effectiveMaxRunsPerDay maxStartupRunsPerDay))
      maxRetries := some (min task.effectiveMaxRetries maxStartupRetries)
      startupDelaySecs := some (min task.effectiveStartupDelaySecs maxStartupDelaySecs) }

/-- `is_valid_id` -/
def isValidId (id : String) : Bool :=
  !id.isEmpty && id.toList.all (fun c => c.isAlphanum || c = '_' || c = '-')

/-- `clamp_scheduled_timeout`, for the type of the target when it can be told. -/
def clampScheduledTimeout : Option String → ScheduledTask
  | some "browser" => { task with timeout := task.timeout.map fun t => max 1 (min t 600) }
  | some "script" => { task with timeout := task.timeout.map fun t => max 1 (min t 3600) }
  | _ => task

end ScheduledTask

/-- The success counts one more on its day and leaves no count for another. -/
theorem successesOn_next (existing : Option DailySuccessCount) (today day : String) :
    successesOn (some (nextSuccessCount existing today)) day =
      if today = day then successesOn existing today + 1 else 0 := by
  cases existing with
  | none => rfl
  | some c =>
    by_cases hday : today = day
    · by_cases hsame : c.date = today
      · simp [successesOn, nextSuccessCount, hday, hsame]
      · simp [successesOn, nextSuccessCount, hday, hday ▸ hsame]
    · simp [successesOn, nextSuccessCount, hday]

structure HistoryRecord where
  timestamp : String
  status : String
  message : String
  trigger : String
  deriving DecidableEq

/-- One more record; only the latest are kept. -/
def appendHistory (runs : List HistoryRecord) (record : HistoryRecord) : List HistoryRecord :=
  (runs ++ [record]).drop ((runs.length + 1) - maxHistoryRecords)

end CampusAuth.Scheduler
