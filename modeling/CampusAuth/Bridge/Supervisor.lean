import CampusAuth.Bridge.Inner
import CampusAuth.Lib.Machine
import CampusAuth.Lib.Pool

/- The bridge: its main loop, the tasks that run the requests, the callers that recycle the worker,
   and the workers (`bridge/mod.rs`, `bridge/process.rs`).

   A task, a helper or the main loop goes from one locked section to the next, and anything may
   happen in between. What a command, an answer or the notification of an exit waits for in a
   channel is left out: the main loop takes it up at any later time, when it is not busy. The idle
   timer may fire at any time, and so may a caller's timeout. -/
namespace CampusAuth.Bridge
open Lib

/-- What has become of a worker. -/
inductive Life where
  | running
  /-- It has ended and its exit notification is not dealt with yet. -/
  | exited (code : Int)
  /-- The notification is dealt with, or there will be none. -/
  | gone
  deriving DecidableEq

/-- Why a worker is killed. -/
inductive Why where
  | idle
  | shutdown
  /-- `force_recycle_if_unowned` -/
  | unowned
  | forced
  | staleDebug
  | startup
  | unacknowledged
  | stuck
  deriving DecidableEq

/-- The state a worker's end leaves: `kill_worker_now` marks an error, `handle_shutdown` does not. -/
def Why.rest : Why → WorkerState
  | .idle | .shutdown => .idle
  | _ => .error

def Why.reason : Why → String
  | .idle | .shutdown => "worker shut down"
  | _ => "worker killed by supervisor"

/-- Where `kill_worker_now` and `handle_shutdown` stand. -/
inductive KillStage where
  | taking
  | waiting (worker : Nat)
  | draining
  | marking

/-- Where the task of a request stands. -/
inductive TaskStage where
  | checkingStale
  | recycling
  | killingStale (kill : KillStage)
  /-- `ensure_worker` -/
  | ensuring
  | locking
  | rechecking
  | gating
  | checkingFailures
  | findingPython
  | spawning (attempt : Nat)
  | storing (attempt worker : Nat)
  | numbering (attempt worker : Nat)
  | inserting (attempt : Nat) (check : Sent)
  | sending (attempt : Nat) (check : Sent)
  | hearing (attempt : Nat) (check : Sent)
  | readying
  | killingUnready (attempt : Nat) (kill : KillStage)
  | repairing
  | recording (error : BridgeError)
  /-- The network egress for the browser is prepared. -/
  | routing
  | admitting
  | waiting (sent : Sent)
  /-- `wait_cancel_ack_or_kill` -/
  | acking (sent : Sent)
  | owning (sent : Sent)
  | killing (sent : Sent) (kill : KillStage)
  | settling (sent : Sent) (result : Answer)
  | releasing (sent : Sent)
  | unregistering (sent : Sent)
  | ended (sent : Sent)
  | refused (error : BridgeError)

/-- The first step: `execute_inner` looks for an abandoned debug session for some methods. -/
def TaskStage.first (method : String) : TaskStage :=
  if method = "execute_login_attempt" || method = "execute_browser_task" ||
    method = "test_redirect" then .checkingStale
  else .ensuring

structure Task where
  method : String
  cancelId : String
  stage : TaskStage

/-- A caller from outside that may recycle the worker. -/
inductive Helper where
  /-- `force_recycle_if_unowned`, at its look at the slot. -/
  | checking (owner : Option String)
  /-- `force_recycle` -/
  | recycling (why : Why)
  | killing (why : Why) (kill : KillStage)
  /-- `grace_wait_slot_release` for the request. -/
  | graceWait (id : Nat)
  | done

/-- Where the main loop stands. -/
inductive LoopStage where
  | ready
  | killing (why : Why) (kill : KillStage)
  | drainingExited (worker : Nat)
  | clearingExited (worker : Nat)
  | crashed (worker : Nat) (code : Int)

structure BridgeSupervisor where
  inner : BridgeInner := {}
  /-- An environment manager is connected. -/
  environment : Bool := false
  now : Nat := 0
  startupLock : Option Nat := none
  loop : LoopStage := .ready
  tasks : Pool Task := []
  helpers : Pool Helper := []
  workers : List Life := []
  /-- The tasks whose token is cancelled. -/
  cancelled : List Nat := []
  answers : List (Nat × Answer) := []

inductive Event where
  /-- The main loop takes up a request. -/
  | execute (method cancelId : String)
  /-- A task goes on; `fault` is a failure of what it does, a timeout or a caller that has gone. -/
  | turn (task : Nat) (fault : Option String := none)
  | forceRecycle
  | recycleIfUnowned (owner : Option String)
  /-- The caller of the request has waited long enough and has asked for the cancellation. -/
  | callerTimeout (cancelId : String)
  | helperTurn (helper : Nat) (fault : Option String := none)
  | cancel (cancelId : String)
  | idleTimeout
  | shutdown
  | response (id : Nat) (success : Bool)
  | responseError (id : Nat) (error : String)
  | workerExited (worker : Nat)
  | loopTurn (fault : Option String := none)
  /-- A worker ends by itself. -/
  | exit (worker : Nat) (code : Int)
  | resetSpawnFailures
  | tick (elapsed : Nat)

inductive Effect where
  /-- A worker's process is taken to be killed, with the requests then in flight. -/
  | killed (why : Why) (worker : Nat) (inFlight : List Pending)
  /-- Dealing with the exit of a worker took, drained or cleared what belonged to `owners`. -/
  | exitHandled (worker : Nat) (owners : List Nat)
  deriving DecidableEq

namespace BridgeSupervisor
variable (s : BridgeSupervisor)

def cancelTokens (tokens : List Token) : BridgeSupervisor :=
  { s with cancelled := tokens.map (·.task) ++ s.cancelled }

/-- All pending requests end with the error. -/
def drain (error : BridgeError) : BridgeSupervisor :=
  { s with
    answers := s.inner.pendingRequests.map (fun p => (p.id, .error error)) ++ s.answers
    inner := s.inner.drainPending }

/-- The pending request of the id gets its answer. -/
def answer (id : Nat) (result : Answer) : BridgeSupervisor :=
  { s with
    answers :=
      if s.inner.pendingRequests.any (·.id = id) then (id, result) :: s.answers else s.answers
    inner := s.inner.removePending id }

/-- A worker is made to end: with a notification, or without one when that takes too long. -/
def kill (worker : Nat) (fault : Option String) : BridgeSupervisor :=
  { s with
    workers :=
      if s.workers[worker]? = some .running then
        s.workers.set worker (if fault.isNone then .exited (-1) else .gone)
      else s.workers }

/-- One step of `kill_worker_now` or `handle_shutdown`; `none` for the stage at its end. -/
def killStep (why : Why) (fault : Option String) :
    KillStage → BridgeSupervisor × Option KillStage × List Effect
  | .taking =>
    match s.inner.process with
    | none => (s, some .draining, [])
    | some worker =>
      ({ s with inner := s.inner.takeProcess }, some (.waiting worker),
        [.killed why worker s.inner.inFlight])
  | .waiting worker => (s.kill worker fault, some .draining, [])
  | .draining => (s.drain (.workerCrashed why.reason), some .marking, [])
  | .marking => ({ s with inner := s.inner.markStopped why.rest }, none, [])

/-! ## The task of a request -/

def moveTo (pid : Nat) (task : Task) (stage : TaskStage) : BridgeSupervisor :=
  { s with tasks := s.tasks.set pid { task with stage } }

def unlock : BridgeSupervisor := { s with startupLock := none }

def withInner (inner : BridgeInner) : BridgeSupervisor := { s with inner }

/-- `force_recycle` before it kills. -/
def forgetSession : BridgeSupervisor :=
  (s.withInner s.inner.forgetSession.1).cancelTokens s.inner.forgetSession.2

/-- The next step of a task. Between `.rechecking` and the end of `ensure_worker` it has the startup
    lock. -/
def turn (pid : Nat) (task : Task) (fault : Option String) :
    TaskStage → Option (BridgeSupervisor × List Effect)
  | .checkingStale =>
    some (s.moveTo pid task
      (if s.inner.debugSessionStale s.now then .recycling else .ensuring), [])
  | .recycling => some (s.forgetSession.moveTo pid task (.killingStale .taking), [])
  | .killingStale kill =>
    match s.killStep .staleDebug fault kill with
    | (t, some kill, os) => some (t.moveTo pid task (.killingStale kill), os)
    | (t, none, os) => some (t.moveTo pid task .ensuring, os)
  | .ensuring =>
    some (s.moveTo pid task (if s.inner.isWorkerReady then .routing else .locking), [])
  | .locking =>
    if s.startupLock.isSome then none
    else some ({ s with startupLock := some pid }.moveTo pid task .rechecking, [])
  | .rechecking =>
    -- A ready worker has a process, so the two checks made here are one.
    if s.inner.process.isSome then some (s.unlock.moveTo pid task .routing, [])
    else some (s.moveTo pid task (if s.environment then .gating else .checkingFailures), [])
  | .gating =>
    match fault with
    | some e => some (s.unlock.moveTo pid task (.refused (.workerEnvironmentInvalid e)), [])
    | none => some (s.moveTo pid task .checkingFailures, [])
  | .checkingFailures =>
    if s.inner.consecutiveSpawnFailures ≥ 3 then
      some (s.unlock.moveTo pid task (.refused .workerSpawnBlocked), [])
    else some (s.moveTo pid task .findingPython, [])
  | .findingPython =>
    if fault.isSome then some (s.unlock.moveTo pid task (.refused .workerNotInstalled), [])
    else some (s.moveTo pid task (.spawning 0), [])
  | .spawning attempt =>
    match fault with
    | none =>
      some ({ s with workers := s.workers ++ [Life.running] }.moveTo pid task
        (.storing attempt s.workers.length), [])
    | some e =>
      if attempt = 0 && s.environment then some (s.moveTo pid task .repairing, [])
      else some (s.moveTo pid task (.recording (.spawnFailed e)), [])
  | .storing attempt worker =>
    some ((s.withInner (s.inner.storeProcess worker)).moveTo pid task
      (.numbering attempt worker), [])
  | .numbering attempt worker =>
    some ((s.withInner s.inner.takeRequestId).moveTo pid task
      (.inserting attempt ⟨s.inner.nextRequestId, worker⟩), [])
  | .inserting attempt check =>
    some ((s.withInner (s.inner.insertHealthCheck check)).moveTo pid task
      (.sending attempt check), [])
  | .sending attempt check =>
    if s.inner.process.isNone || fault.isSome then
      some ((s.withInner (s.inner.removePending check.id)).moveTo pid task
        (.killingUnready attempt .taking), [])
    else some (s.moveTo pid task (.hearing attempt check), [])
  | .hearing attempt check =>
    match s.answers.lookup check.id with
    | some (.ok true) => some (s.moveTo pid task .readying, [])
    | some _ => some (s.moveTo pid task (.killingUnready attempt .taking), [])
    | none =>
      -- The health check times out; its entry stays.
      if fault.isSome then some (s.moveTo pid task (.killingUnready attempt .taking), [])
      else none
  | .readying => some ((s.unlock.withInner s.inner.markReady).moveTo pid task .routing, [])
  | .killingUnready attempt kill =>
    match s.killStep .startup fault kill with
    | (t, some kill, os) => some (t.moveTo pid task (.killingUnready attempt kill), os)
    | (t, none, os) =>
      if attempt = 0 && s.environment then some (t.moveTo pid task .repairing, os)
      else some (t.moveTo pid task (.recording .workerStartupTimeout), os)
  | .repairing =>
    match fault with
    | some e => some (s.unlock.moveTo pid task (.refused (.workerEnvironmentInvalid e)), [])
    | none => some (s.moveTo pid task (.spawning 1), [])
  | .recording error =>
    some ((s.unlock.withInner s.inner.recordSpawnFailure).moveTo pid task (.refused error), [])
  | .routing =>
    match fault with
    | some e => some (s.moveTo pid task (.refused (.networkEgress e)), [])
    | none => some (s.moveTo pid task .admitting, [])
  | .admitting =>
    match s.inner.accept s.now pid task.method task.cancelId fault with
    | (inner, .error e, _) => some ((s.withInner inner).moveTo pid task (.refused e), [])
    | (inner, .ok sent, cancelled) =>
      some (((s.withInner inner).cancelTokens cancelled).moveTo pid task (.waiting sent), [])
  | .waiting sent =>
    -- The order of `select!`: the token, the caller, the answer.
    if pid ∈ s.cancelled ∨ fault.isSome then some (s.moveTo pid task (.acking sent), [])
    else
      match s.answers.lookup sent.id with
      | some result => some (s.moveTo pid task (.settling sent result), [])
      | none => none
  | .acking sent =>
    match s.answers.lookup sent.id with
    | some _ => some (s.moveTo pid task (.settling sent (.error .cancelled)), [])
    | none => if fault.isSome then some (s.moveTo pid task (.owning sent), []) else none
  | .owning sent =>
    -- Another request may have taken the slot over; then the worker is left alone.
    if s.inner.currentCancelId = some task.cancelId then
      some (s.moveTo pid task (.killing sent .taking), [])
    else some (s.moveTo pid task (.settling sent (.error .cancelled)), [])
  | .killing sent kill =>
    match s.killStep .unacknowledged fault kill with
    | (t, some kill, os) => some (t.moveTo pid task (.killing sent kill), os)
    | (t, none, os) => some (t.moveTo pid task (.settling sent (.error .cancelled)), os)
  | .settling sent result =>
    some ((s.withInner (s.inner.settleDebug s.now task.method sent.worker
      (Answer.isSuccess result))).moveTo pid task (.releasing sent), [])
  | .releasing sent =>
    some ((s.withInner (s.inner.dropGuard task.method task.cancelId sent.id)).moveTo pid task
      (if isLightweightMethod task.method || sessionOf task.method = .debug then .ended sent
        else .unregistering sent), [])
  | .unregistering sent =>
    some ((s.withInner (s.inner.removeCancel task.cancelId)).moveTo pid task (.ended sent), [])
  | .ended _ | .refused _ => none

/-! ## The callers that recycle -/

def helperTo (pid : Nat) (helper : Helper) : BridgeSupervisor :=
  { s with helpers := s.helpers.set pid helper }

def helperTurn (pid : Nat) (fault : Option String) :
    Helper → Option (BridgeSupervisor × List Effect)
  | .checking owner =>
    some (s.helperTo pid
      -- The look at the slot and the recycling are two sections.
      (match s.inner.currentCancelId with
        | none => .recycling .unowned
        | some current => if some current = owner then .recycling .unowned else .done), [])
  | .recycling why => some (s.forgetSession.helperTo pid (.killing why .taking), [])
  | .killing why kill =>
    match s.killStep why fault kill with
    | (t, some kill, os) => some (t.helperTo pid (.killing why kill), os)
    | (t, none, os) => some (t.helperTo pid .done, os)
  | .graceWait id =>
    some (s.helperTo pid
      (if s.inner.currentRequestId = some id then .killing .stuck .taking else .done), [])
  | .done => none

/-! ## The main loop -/

/-- The notification of the worker is dealt with; the process in the slot ends with it. -/
def finishExited (worker : Nat) (fault : Option String) : BridgeSupervisor :=
  match s.inner.process with
  | some taken =>
    { s.kill taken fault with workers := (s.kill taken fault).workers.set worker .gone }
  | none => { s with workers := s.workers.set worker .gone }

def loopTurn (fault : Option String) : LoopStage → Option (BridgeSupervisor × List Effect)
  | .ready => none
  | .killing why kill =>
    match s.killStep why fault kill with
    | (t, some kill, os) => some ({ t with loop := .killing why kill }, os)
    | (t, none, os) => some ({ t with loop := .ready }, os)
  | .drainingExited worker =>
    some ({ s.drain (.workerCrashed "worker exited (code 0)") with
      loop := .clearingExited worker },
      [.exitHandled worker (s.inner.pendingRequests.map (·.worker))])
  | .clearingExited worker =>
    some ({ (s.finishExited worker fault).withInner s.inner.clearExited with loop := .ready },
      [.exitHandled worker s.inner.owners])
  | .crashed worker code =>
    let error : BridgeError :=
      if s.inner.currentSession = some .debug then .debugSessionClosed
      else .workerCrashed ("exit_code=" ++ toString code)
    some ({ ((s.drain error).finishExited worker fault).withInner s.inner.clearCrashed with
      loop := .ready },
      [.exitHandled worker (s.inner.pendingRequests.map (·.worker) ++ s.inner.owners)])

def step : Event → Option (BridgeSupervisor × List Effect)
  | .execute method cancelId =>
    match s.loop with
    | .ready => some ({ s with tasks := s.tasks ++ [⟨method, cancelId, .first method⟩] }, [])
    | _ => none
  | .turn pid fault =>
    match s.tasks[pid]? with
    | some task => s.turn pid task fault task.stage
    | none => none
  | .forceRecycle => some ({ s with helpers := s.helpers ++ [.recycling .forced] }, [])
  | .recycleIfUnowned owner => some ({ s with helpers := s.helpers ++ [.checking owner] }, [])
  | .callerTimeout cancelId =>
    -- Only the request that has the slot is waited for.
    match s.inner.currentRequestId with
    | some id =>
      if s.inner.currentCancelId = some cancelId then
        some ({ s with helpers := s.helpers ++ [.graceWait id] }, [])
      else some (s, [])
    | none => some (s, [])
  | .helperTurn pid fault =>
    match s.helpers[pid]? with
    | some helper => s.helperTurn pid fault helper
    | none => none
  | .cancel cancelId =>
    match s.loop with
    | .ready =>
      let triggered := s.inner.cancelRegistry.trigger s.now cancelId
      some ((s.withInner { s.inner with cancelRegistry := triggered.1 }).cancelTokens triggered.2, [])
    | _ => none
  | .idleTimeout =>
    match s.loop with
    | .ready =>
      if s.inner.workerState = .idle ∧ s.inner.pendingRequests.isEmpty ∧ s.inner.process.isSome
      then some ({ s with loop := .killing .idle .taking }, [])
      else some (s, [])
    | _ => none
  | .shutdown =>
    match s.loop with
    | .ready => some ({ s with loop := .killing .shutdown .taking }, [])
    | _ => none
  | .response id success =>
    match s.loop with
    | .ready => some (s.answer id (.ok success), [])
    | _ => none
  | .responseError id error =>
    match s.loop with
    | .ready => some (s.answer id (.error (.internal ("IPC 响应解析失败: " ++ error))), [])
    | _ => none
  | .workerExited worker =>
    match s.loop, s.workers[worker]? with
    | .ready, some (.exited code) =>
      some ({ s with loop := if code = 0 then .drainingExited worker else .crashed worker code }, [])
    | _, _ => none
  | .loopTurn fault => s.loopTurn fault s.loop
  | .exit worker code =>
    if s.workers[worker]? = some .running then
      some ({ s with workers := s.workers.set worker (.exited code) }, [])
    else none
  | .resetSpawnFailures => some (s.withInner s.inner.resetSpawnFailures, [])
  | .tick elapsed => some ({ s with now := s.now + elapsed }, [])

end BridgeSupervisor

def bridgeMachine : Machine BridgeSupervisor Event Effect := ⟨BridgeSupervisor.step⟩

/-- Before the first request. -/
def BridgeSupervisor.init (environment : Bool) : BridgeSupervisor := { environment }

/-- Task `pid` takes `n` steps. -/
def turns (pid n : Nat) : List Event := List.replicate n (.turn pid)

/-- The first request starts the worker, whose health check has the id 1, and is sent with the id 2. -/
def firstRequest (method cancelId : String) : List Event :=
  .execute method cancelId :: turns 0 12 ++ .response 1 true :: turns 0 4

end CampusAuth.Bridge
