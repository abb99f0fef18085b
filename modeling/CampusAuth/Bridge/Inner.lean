import CampusAuth.Bridge.Ipc
import CampusAuth.Bridge.Session

/- What the bridge keeps behind its lock, and what is done with it under one lock
   (`bridge/mod.rs`).

   Every operation here is one locked section of the source. Workers are numbered in the order
   they are started. The numbers of workers in `Pending`, `Token`, `Sent`, `sessionWorker` and
   `debugWorker` are not in the source: they record to which worker a request was sent. -/
namespace CampusAuth.Bridge

inductive WorkerState where
  | notInstalled
  | starting
  | idle
  | inLogin
  | inDebug
  | error
  deriving DecidableEq

/-! ## Methods and sessions -/

/-- Methods beside the session slot. -/
def isLightweightMethod (method : String) : Bool :=
  method = "ocr_recognize" || method = "feedback_capture"

def isDebugMethod (method : String) : Bool := "debug_".toList.isPrefixOf method.toList

def sessionOf (method : String) : SessionType :=
  if method = "test_redirect" then .redirectTest
  else if isDebugMethod method then .debug
  else .login

/-- May `method` go ahead beside the current session? -/
def checkSessionCompat (current : Option SessionType) (method : String) : Bool :=
  if method = "ocr_recognize" || method = "feedback_capture" then true
  else
    match current with
    | none => true
    | some .login => !(method = "debug_step" || method = "debug_stop" || method = "test_redirect")
    | some .redirectTest => false
    | some .debug =>
      isDebugMethod method &&
        (method = "debug_step" || method = "debug_stop" || method = "debug_run_all" ||
          method = "debug_status" || method = "feedback_capture")

/-- Idle for longer than this, a debug session is taken for abandoned; in nanoseconds. -/
def debugSessionTtl : Nat := 30 * 60 * 1000000000

/-! ## The state behind the lock -/

structure Pending where
  id : Nat
  /-- `none` for a health check. -/
  method : Option String
  worker : Nat
  deriving DecidableEq

/-- Does the request hold the session slot? -/
def Pending.slotted (p : Pending) : Bool := p.method.any fun method => !isLightweightMethod method

/-- What cancels the request of a task. -/
structure Token where
  task : Nat
  worker : Nat

/-- The request as it was sent. -/
structure Sent where
  id : Nat
  worker : Nat
  deriving DecidableEq

/-- What a request comes to: whether the worker's result is a success, or an error. -/
abbrev Answer := Except BridgeError Bool

def Answer.isSuccess : Answer → Bool
  | .ok success => success
  | .error _ => false

structure BridgeInner where
  workerState : WorkerState := .notInstalled
  process : Option Nat := none
  pendingRequests : List Pending := []
  nextRequestId : Nat := 1
  cancelRegistry : CancelRegistry Token := {}
  currentSession : Option SessionType := none
  currentCancelId : Option String := none
  currentRequestId : Option Nat := none
  sessionWorker : Option Nat := none
  consecutiveSpawnFailures : Nat := 0
  debugSessionOpen : Bool := false
  debugLastActivity : Option Nat := none
  debugWorker : Option Nat := none

namespace BridgeInner
variable (inner : BridgeInner)

def isWorkerReady : Bool := inner.workerState = .idle && inner.process.isSome

/-- The pending requests that are not lightweight. -/
def inFlight : List Pending := inner.pendingRequests.filter (·.slotted)

def debugSessionStale (now : Nat) : Bool :=
  inner.currentSession = some .debug &&
    match inner.debugLastActivity with
    | none => true
    | some last => now - last > debugSessionTtl

def removePending (id : Nat) : BridgeInner :=
  { inner with pendingRequests := inner.pendingRequests.filter (·.id ≠ id) }

def removeCancel (cancelId : String) : BridgeInner :=
  { inner with cancelRegistry := inner.cancelRegistry.remove cancelId }

/-! ### Starting a worker -/

def storeProcess (worker : Nat) : BridgeInner :=
  { inner with workerState := .starting, process := some worker }

def takeRequestId : BridgeInner := { inner with nextRequestId := inner.nextRequestId + 1 }

def insertHealthCheck (sent : Sent) : BridgeInner :=
  { inner with pendingRequests := inner.pendingRequests ++ [⟨sent.id, none, sent.worker⟩] }

def markReady : BridgeInner := { inner with workerState := .idle, consecutiveSpawnFailures := 0 }

def recordSpawnFailure : BridgeInner :=
  { inner with consecutiveSpawnFailures := inner.consecutiveSpawnFailures + 1 }

def resetSpawnFailures : BridgeInner :=
  { inner with
    consecutiveSpawnFailures := 0
    workerState :=
      if inner.process.isNone && inner.workerState = .error then .idle else inner.workerState }

/-! ### Sending a request -/

/-- The request takes the session slot, from whichever request has it. -/
def occupy (method cancelId : String) (sent : Sent) : BridgeInner :=
  { inner with
    workerState := if sessionOf method = .debug then .inDebug else .inLogin
    currentSession := some (sessionOf method)
    currentCancelId := some cancelId
    currentRequestId := some sent.id
    sessionWorker := some sent.worker }

/-- The request is in the worker's pipe: it is pending and its token is registered. -/
def sendTo (worker now task : Nat) (method cancelId : String) :
    BridgeInner × Sent × List Token :=
  let sent : Sent := ⟨inner.nextRequestId, worker⟩
  let registered :=
    inner.cancelRegistry.register now cancelId ⟨task, worker⟩ (isLightweightMethod method)
  let accepted :=
    { inner.takeRequestId with
      pendingRequests := inner.pendingRequests ++ [⟨sent.id, some method, worker⟩]
      cancelRegistry := registered.1 }
  (if isLightweightMethod method then accepted else accepted.occupy method cancelId sent, sent,
    registered.2)

/-- The one section of `execute_inner`; `fault` is the failure of the pipe. -/
def accept (now task : Nat) (method cancelId : String) (fault : Option String) :
    BridgeInner × Except BridgeError Sent × List Token :=
  if !checkSessionCompat inner.currentSession method then (inner, .error .workerBusy, [])
  else if method = "debug_start" && inner.debugSessionOpen then (inner, .error .workerBusy, [])
  else
    match inner.process, fault with
    | none, _ => (inner.takeRequestId, .error .supervisorNotRunning, [])
    | some _, some e =>
      (inner.takeRequestId, .error (.ipcWriteError ("IPC channel send failed: " ++ e)), [])
    | some worker, none =>
      match inner.sendTo worker now task method cancelId with
      | (next, sent, cancelled) => (next, .ok sent, cancelled)

/-! ### Letting go of the slot -/

def emptySlot : BridgeInner :=
  { inner with
    currentSession := none
    currentCancelId := none
    currentRequestId := none
    sessionWorker := none }

/-- The session and its request are the ones given. -/
def holds (session : SessionType) (id : Nat) : Bool :=
  inner.currentSession = some session && inner.currentRequestId = some id

def resetSession (session : SessionType) (id : Nat) : BridgeInner :=
  if !inner.holds session id then inner
  else
    { (inner.removePending id).emptySlot with
      cancelRegistry :=
        match inner.currentCancelId with
        | some cancelId => inner.cancelRegistry.remove cancelId
        | none => inner.cancelRegistry
      workerState := .idle }

def debugGuardCleanup (id : Nat) (cancelId : String) (isStop : Bool) : BridgeInner :=
  if !inner.holds .debug id then inner.removeCancel cancelId
  else if isStop || !inner.debugSessionOpen then
    { (inner.removeCancel cancelId).emptySlot with
      debugSessionOpen := false
      debugLastActivity := none
      debugWorker := none
      workerState := .idle }
  -- The session outlives the request: the slot keeps it without an owner.
  else { inner.removeCancel cancelId with currentRequestId := none, currentCancelId := none }

def lightweightCleanup (id : Nat) (cancelId : String) : BridgeInner :=
  (inner.removePending id).removeCancel cancelId

/-- What the guard of a request does when it is dropped, under the lock. -/
def dropGuard (method cancelId : String) (id : Nat) : BridgeInner :=
  if isLightweightMethod method then inner.lightweightCleanup id cancelId
  else if sessionOf method = .debug then inner.debugGuardCleanup id cancelId (method = "debug_stop")
  else inner.resetSession (sessionOf method) id

/-- `execute_debug_settle` and what follows from it. -/
def settleDebug (now : Nat) (method : String) (worker : Nat) (ok : Bool) : BridgeInner :=
  if method = "debug_start" && ok then
    { inner with
      debugSessionOpen := true
      debugLastActivity := some now
      debugWorker := some worker }
  else if (method = "debug_step" || method = "debug_run_all") && ok then
    { inner with debugLastActivity := some now }
  else inner

/-! ### The end of a worker -/

def takeProcess : BridgeInner := { inner with process := none }

def drainPending : BridgeInner := { inner with pendingRequests := [] }

/-- The last section of `kill_worker_now` and of `handle_shutdown`. -/
def markStopped (state : WorkerState) : BridgeInner :=
  { inner with
    workerState := state
    debugSessionOpen := false
    debugLastActivity := none
    debugWorker := none }

/-- `force_recycle` before it kills; with the tokens it cancels. -/
def forgetSession : BridgeInner × List Token :=
  ({ inner.emptySlot with cancelRegistry := inner.cancelRegistry.triggerAll.1 },
    inner.cancelRegistry.triggerAll.2)

/-- The second section of `handle_worker_exited` for the exit code 0. -/
def clearExited : BridgeInner :=
  { inner.emptySlot.takeProcess with
    cancelRegistry := CancelRegistry.clear
    debugSessionOpen := false
    debugLastActivity := none
    debugWorker := none
    workerState := .idle }

/-- The section of `handle_worker_exited` for a crash. -/
def clearCrashed : BridgeInner :=
  { inner.drainPending.emptySlot.takeProcess with
    cancelRegistry := CancelRegistry.clear
    workerState := .error }

/-- The workers to which the process, the slot and the registered tokens belong. -/
def owners : List Nat :=
  inner.process.toList ++ inner.sessionWorker.toList ++ inner.cancelRegistry.tokens.map (·.worker)

end BridgeInner
end CampusAuth.Bridge
