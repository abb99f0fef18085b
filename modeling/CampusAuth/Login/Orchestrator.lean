import Mathlib.Logic.Function.Basic
import CampusAuth.Login.Preemption
import CampusAuth.Login.Session

/- The login orchestrator (`login/mod.rs`): any number of `submit` calls, the tasks of
   their sessions and the calls that cancel them, interleaved at their await points.

   A request and its session share one identifier and one cancellation token. `stage` says
   where the future of `submit` stands; from `deciding` to the end it holds the gate that
   serialises the submits. Preparing a request (the profile, its validation, the browser)
   is I/O whose outcome is the event. -/
namespace CampusAuth.Login
open Lib Status

/-- What a preempting submit waits for the old session, in milliseconds. -/
def preemptWaitBudget : Nat := (8 + 10) * 1000

inductive SubmitStage where
  | preparing
  /-- Has the gate, not yet the state lock. -/
  | deciding
  /-- Took `old` out of the slot at `askedAt` and waits for it to finish. -/
  | waitingOld (old askedAt : Nat) (owner : Option String)
  | creating
  /-- Writes the history entry of an immediate handle. -/
  | ending (result : LoginResult)
  | returned (handle : LoginHandle)
  /-- The caller dropped the future. -/
  | dropped

/-- The task around `run`. -/
structure SessionTask where
  session : LoginSession
  /-- The slot the handles share. -/
  result : Option LoginResult := none
  /-- When a preempting submit took the session out of the active slot. -/
  preemptedAt : Option Nat := none
  panicked : Bool := false
  /-- `finished` was notified. -/
  finished : Bool := false
  cleaned : Bool := false

/-- `run` returned or panicked. -/
def SessionTask.over (task : SessionTask) : Bool :=
  match task.session.phase with
  | .finished => true
  | _ => task.panicked

structure Request where
  source : LoginSource
  profileId : String
  cancelToken : Bool := false
  stage : SubmitStage := .preparing
  task : Option SessionTask := none

structure ActiveSession where
  source : LoginSource
  sessionId : Nat
  deriving DecidableEq, Repr

structure Orchestrator where
  activeSession : Option ActiveSession := none
  nextSessionId : Nat := 0
  requests : Nat → Option Request := fun _ => none
  submitGate : Option Nat := none
  shutdownToken : Bool := false
  now : Nat := 0

inductive OrchestratorEvent where
  | submit (source : LoginSource) (profileId : String)
  /-- Preparing the request failed. -/
  | refuse (id : Nat) (message : String)
  /-- Preparing the browser found the token cancelled. -/
  | abandon (id : Nat)
  | lockGate (id : Nat)
  | decide (id : Nat)
  | waitCancelled (id : Nat)
  | waitFinished (id : Nat)
  | waitTimedOut (id : Nat)
  | planMissing (id : Nat)
  | install (id : Nat) (params : SessionParams)
  | ret (id : Nat)
  | drop (id : Nat)
  | poll (id : Nat) (p : SessionPoll)
  | panic (id : Nat)
  | finish (id : Nat)
  | cleanUp (id : Nat)
  | cancelCurrent
  | cancelAutoPending (reason : String)
  | cancelHandle (id : Nat)
  | shutdown
  | advance (now : Nat)

inductive OrchestratorEffect where
  | session (id : Nat) (effect : SessionEffect)
  | preempt (old new : Nat)
  | cancelAttempt (cancelId : String)
  | forceRecycle (owner : Option String)
  | started (id : Nat)
  | returned (id : Nat) (handle : LoginHandle)
  | finished (id : Nat)
  | merge (snapshot : PartialSnapshot)
  | record (entry : LoginHistoryEntry)
  /-- The result slot of a session, written from outside the session. -/
  | setResult (id : Nat) (result : LoginResult)

namespace SubmitStage

/-- The future is alive: its request is registered for cancellation. -/
def live : SubmitStage → Bool
  | .returned _ | .dropped => false
  | _ => true

/-- The stages that hold the gate whatever happened before. -/
def inGate : SubmitStage → Bool
  | .deciding | .waitingOld _ _ _ | .creating => true
  | _ => false

/-- The stages after the decision: the slot is empty. -/
def emptied : SubmitStage → Bool
  | .waitingOld _ _ _ | .creating => true
  | _ => false

end SubmitStage

namespace Orchestrator

abbrev Stepped := Option (Orchestrator × List OrchestratorEffect)

def setRequest (w : Orchestrator) (id : Nat) (r : Request) : Orchestrator :=
  { w with requests := Function.update w.requests id (some r) }

/-- The session `id` is in the active slot. -/
def occupies (w : Orchestrator) (id : Nat) : Bool :=
  match w.activeSession with
  | some a => a.sessionId == id
  | none => false

/-- The gate after the future of `id` let go of everything it held. -/
def releaseGate (w : Orchestrator) (id : Nat) : Option Nat :=
  if w.submitGate = some id then none else w.submitGate

/-- The request `id` goes on to another stage. -/
def setStage (w : Orchestrator) (id : Nat) (r : Request) (stage : SubmitStage) : Orchestrator :=
  w.setRequest id { r with stage }

/-- The future of `id` is gone: its guards are dropped. -/
def leave (w : Orchestrator) (id : Nat) (r : Request) (stage : SubmitStage) : Orchestrator :=
  { w.setStage id r stage with submitGate := w.releaseGate id }

/-- A result that is there at once, with its broadcast and history entry. -/
def immediate (r : Request) (terminal : LoginTerminal) (status : LoginStatus)
    (history : HistoryResult) (message historyMessage : String) :
    LoginResult × List OrchestratorEffect :=
  ({ terminal, message, source := r.source, duration := 0, attempts := 0 },
    [.merge (.login status (some r.source) (some message) 0),
     .record { source := r.source, channel := none, profileId := r.profileId, result := history,
               message := historyMessage, duration := 0 }])

def cancelledHandle (r : Request) : LoginResult × List OrchestratorEffect :=
  immediate r .cancelled .cancelled .cancelled "登录已取消" "登录已取消（准备阶段）"

def immediateHandle (r : Request) (message : String) : LoginResult × List OrchestratorEffect :=
  immediate r .failed .failed .failed message message

/-- The request ends without a session. -/
def endWith (w : Orchestrator) (id : Nat) (r : Request)
    (h : LoginResult × List OrchestratorEffect) : Orchestrator × List OrchestratorEffect :=
  (w.setStage id r (.ending h.1), h.2)

/-- Sets the token of a request, which its session shares. -/
def cancelRequest (r : Request) : Request :=
  { r with
    cancelToken := true
    task := r.task.map fun t => { t with session := { t.session with cancelToken := true } } }

/-- `ActiveSession::propagate_cancel`: the token, then the reason. -/
def propagateCancel (r : Request) (reason : String) : Request :=
  { r with
    cancelToken := true
    task := r.task.map fun t =>
      { t with session := { t.session with cancelToken := true, cancelReason := some reason } } }

/-- The session of `old` is cancelled for a request that may preempt it. -/
def takeOut (w : Orchestrator) (old : Request) : Request :=
  let old := propagateCancel old "被更高优先级登录抢占"
  { old with task := old.task.map fun t => { t with preemptedAt := some w.now } }

/-- The attempt in flight, which the worker is told to stop. -/
def cancelsAttempt (r : Request) : List OrchestratorEffect :=
  match r.task.bind (·.session.attemptCancelId) with
  | some cid => [.cancelAttempt cid]
  | none => []

/-- The session `id` is in the active slot and `which` picks its source. -/
def picksActive (w : Orchestrator) (which : LoginSource → Bool) (id : Nat) : Bool :=
  match w.activeSession with
  | some a => a.sessionId == id && which a.source
  | none => false

/-- What a cancellation makes of the request `id`: the active session is told the reason, a
    registered request only loses its token. -/
def cancelPicked (w : Orchestrator) (which : LoginSource → Bool) (reason : String) (id : Nat)
    (r : Request) : Request :=
  if w.picksActive which id then propagateCancel r reason
  else if r.stage.live && which r.source then cancelRequest r
  else r

/-- Cancels the active session if `which` picks it, and every registered request that
    `which` picks. -/
def cancelMatching (w : Orchestrator) (which : LoginSource → Bool) (reason : String) :
    Orchestrator × List OrchestratorEffect :=
  let stops := match w.activeSession with
    | some a => if which a.source then ((w.requests a.sessionId).map cancelsAttempt).getD [] else []
    | none => []
  ({ w with requests := fun id => (w.requests id).map (w.cancelPicked which reason id) }, stops)

/-- The decision, under the state lock: reuse, take the old session out, or go ahead. -/
def stepDecide (w : Orchestrator) (id : Nat) (r : Request) : Stepped :=
  let decision := match w.activeSession with
    | none => PreemptionDecision.create
    | some active => Preemption.decide r.source (some active.source) (some (.session active.sessionId))
  match decision, w.activeSession with
  | .reuse handle, _ => some (w.leave id r (.returned handle), [.returned id handle])
  | .preempt, some active =>
    match w.requests active.sessionId with
    | none => none
    | some old =>
      let owner := old.task.bind (·.session.attemptCancelId)
      let emptied := { w with activeSession := none }.setRequest active.sessionId (w.takeOut old)
      some (emptied.setStage id r (.waitingOld active.sessionId w.now owner),
        .preempt active.sessionId id :: cancelsAttempt old)
  | _, _ => some (w.setStage id r .creating, [])

/-- A session of its own goes into the slot and is spawned. -/
def stepInstall (w : Orchestrator) (id : Nat) (r : Request) (params : SessionParams) : Stepped :=
  let params := { params with source := r.source, loginTimeout := max params.loginTimeout 1000 }
  let session : LoginSession :=
    { params, cancelToken := r.cancelToken, shutdownToken := w.shutdownToken }
  match w.activeSession with
  | none =>
    some ({ w.leave id { r with task := some { session } } (.returned (.session id)) with
        activeSession := some { source := r.source, sessionId := id } },
      [.started id, .returned id (.session id)])
  | some _ =>
    let result : LoginResult :=
      { terminal := .cancelled, message := "被更新的登录请求取代", source := r.source,
        duration := 0, attempts := 0 }
    some (w.leave id r (.returned (.immediate result)), [.returned id (.immediate result)])

/-- The session's task is polled; a result goes into the shared slot. -/
def stepPoll (w : Orchestrator) (id : Nat) (r : Request) (task : SessionTask) (p : SessionPoll) :
    Stepped :=
  if task.panicked then none
  else
    match task.session.poll { p with now := w.now } with
    | none => none
    | some (session, os) =>
      let written := os.findSome? SessionEffect.result?
      let task := { task with session, result := written <|> task.result }
      some (w.setRequest id { r with task := some task }, os.map (.session id))

/-- `run` panicked: the outer task writes the result it left out. -/
def stepPanic (w : Orchestrator) (id : Nat) (r : Request) (task : SessionTask) : Stepped :=
  if task.over then none
  else
    let message := "登录会话内部异常，已中止"
    let result : LoginResult :=
      { terminal := .failed, message, source := r.source, duration := 0, attempts := 0 }
    let entry : LoginHistoryEntry :=
      { source := r.source, channel := some task.session.params.plan.channel,
        profileId := r.profileId, result := .failed, message, duration := 0 }
    let task := { task with panicked := true, result := some result }
    some (w.setRequest id { r with task := some task },
      [.setResult id result, .merge (.login .failed none (some message) 0), .record entry])

/-- `run` is over, with all it does behind its result: the waiting submit may go on. -/
def stepFinish (w : Orchestrator) (id : Nat) (r : Request) (task : SessionTask) : Stepped :=
  if task.over && !task.finished then
    some (w.setRequest id { r with task := some { task with finished := true } }, [.finished id])
  else none

/-- The finished session leaves the slot if it still is in it. -/
def stepCleanUp (w : Orchestrator) (id : Nat) (r : Request) (task : SessionTask) : Stepped :=
  if task.finished && !task.cleaned then
    let activeSession := if w.occupies id then none else w.activeSession
    some ({ w.setRequest id { r with task := some { task with cleaned := true } } with
      activeSession }, [])
  else none

/-- The old session a submit waits for has notified its end. -/
def oldFinished (w : Orchestrator) (old : Nat) : Bool :=
  match (w.requests old).bind (·.task) with
  | some task => task.finished
  | none => false

/-- One step of the future of `submit` of the request `id`. -/
def stepSubmit (w : Orchestrator) (id : Nat) (r : Request) : OrchestratorEvent → Stepped
  | .refuse _ message =>
    match r.stage with
    | .preparing => some (w.endWith id r (immediateHandle r message))
    | _ => none
  | .abandon _ =>
    match r.stage with
    | .preparing => if r.cancelToken then some (w.endWith id r (cancelledHandle r)) else none
    | _ => none
  | .lockGate _ =>
    match r.stage, w.submitGate with
    | .preparing, none => some ({ w.setStage id r .deciding with submitGate := some id }, [])
    | _, _ => none
  | .decide _ =>
    match r.stage with
    | .deciding => w.stepDecide id r
    | _ => none
  | .waitCancelled _ =>
    match r.stage with
    | .waitingOld _ _ _ =>
      if r.cancelToken then some (w.endWith id r (cancelledHandle r)) else none
    | _ => none
  | .waitFinished _ =>
    match r.stage with
    | .waitingOld old _ _ =>
      if w.oldFinished old then some (w.setStage id r .creating, []) else none
    | _ => none
  | .waitTimedOut _ =>
    match r.stage with
    | .waitingOld _ askedAt owner =>
      if askedAt + preemptWaitBudget ≤ w.now then
        some (w.setStage id r .creating, [.forceRecycle owner])
      else none
    | _ => none
  | .planMissing _ =>
    match r.stage with
    | .creating => some (w.endWith id r (immediateHandle r "登录任务计划缺失，请检查方案绑定"))
    | _ => none
  | .install _ params =>
    match r.stage with
    | .creating => w.stepInstall id r params
    | _ => none
  | .ret _ =>
    match r.stage with
    | .ending result =>
      some (w.leave id r (.returned (.immediate result)), [.returned id (.immediate result)])
    | _ => none
  | .drop _ => if r.stage.live then some (w.leave id r .dropped, []) else none
  | _ => none

/-- One step of the task of the session `id`. -/
def stepTask (w : Orchestrator) (id : Nat) (r : Request) (task : SessionTask) :
    OrchestratorEvent → Stepped
  | .poll _ p => w.stepPoll id r task p
  | .panic _ => w.stepPanic id r task
  | .finish _ => w.stepFinish id r task
  | .cleanUp _ => w.stepCleanUp id r task
  | _ => none

/-- The request a step of a submit or of a session's task belongs to. -/
def step (w : Orchestrator) (e : OrchestratorEvent) : Stepped :=
  match e with
  | .submit source profileId =>
    some ({ w.setRequest w.nextSessionId { source, profileId } with
      nextSessionId := w.nextSessionId + 1 }, [])
  | .refuse id _ | .abandon id | .lockGate id | .decide id | .waitCancelled id
  | .waitFinished id | .waitTimedOut id | .planMissing id | .install id _ | .ret id | .drop id =>
    (w.requests id).bind fun r => w.stepSubmit id r e
  | .poll id _ | .panic id | .finish id | .cleanUp id =>
    (w.requests id).bind fun r => r.task.bind fun task => w.stepTask id r task e
  | .cancelCurrent => some (w.cancelMatching (fun _ => true) "用户取消")
  | .cancelAutoPending reason => some (w.cancelMatching (· == .auto) reason)
  | .cancelHandle id =>
    (w.requests id).bind fun r => r.task.bind fun _ =>
      some (w.setRequest id (cancelRequest r), [])
  | .shutdown =>
    let requests := fun id => (w.requests id).map fun r =>
      { r with task := r.task.map fun t =>
          { t with session := { t.session with shutdownToken := true } } }
    some ({ w with requests, shutdownToken := true }, [])
  | .advance now => if w.now ≤ now then some ({ w with now }, []) else none

end Orchestrator

def orchestratorMachine : Machine Orchestrator OrchestratorEvent OrchestratorEffect :=
  ⟨Orchestrator.step⟩

/-- The states the orchestrator reaches from its start. -/
def Orchestrator.Reachable (w : Orchestrator) : Prop := orchestratorMachine.Reach {} w

end CampusAuth.Login
