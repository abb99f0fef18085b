import CampusAuth.Status.Snapshot
import CampusAuth.Login.Attempt
import CampusAuth.Lib.Machine

/- The login session (`login/session.rs`): `LoginSession::run` as a machine that is
   polled.

   A phase is a place where the task awaits something; one poll takes the session from
   one of them to the next or leaves it where it is. What the poll finds there (the clock,
   the attempt's result, the probe's report) is the event; the cancellation and the
   shutdown token, set by others between two polls, are part of the state. Arithmetic on
   the retry counters is that of `u32`. Logging and the login counters are left out. -/
namespace CampusAuth.Login
open Lib Status Bridge

inductive HistoryResult where
  | success | failed | cancelled
  deriving DecidableEq, Repr

structure LoginHistoryEntry where
  source : LoginSource
  channel : Option Config.LoginChannel
  profileId : String
  result : HistoryResult
  message : String
  duration : Nat

inductive SessionPhase where
  /-- Spawned, not yet polled. -/
  | starting
  | loopTop
  /-- The attempt's work races the tokens and the total timeout. -/
  | attempting (cancelId : String) (started : Bool) (deadline : Nat)
  /-- The probe after a successful attempt; it begins at `wakeAt`. -/
  | verifying (structured : StructuredResult) (owner : Option String) (wakeAt deadline : Nat)
  /-- The worker is recycled before the back-off. -/
  | recycling (backoff : Nat)
  | backingOff (wakeAt : Nat)
  /-- The result is out and goes into the history. -/
  | recording (result : LoginResult)
  | closingBrowser
  | finished

structure LoginSession where
  params : SessionParams
  phase : SessionPhase := .starting
  sessionStart : Nat := 0
  attemptsUsed : UInt32 := 0
  lastOutcome : Option Outcome := none
  attemptCancelId : Option String := none
  cancelToken : Bool := false
  shutdownToken : Bool := false
  cancelReason : Option String := none

/-- What a poll finds. -/
structure SessionPoll where
  now : Nat
  /-- The identifier an attempt begun now is given. -/
  cancelId : String := ""
  work : Option WorkResult := none
  report : Option (Except String NetworkStatus) := none
  /-- The recycling, the history entry or the closing of the browser is through. -/
  ioReady : Bool := false
  postLoginDelay : Nat := 5
  keepAlive : Bool := false
  hasLiveWorker : Bool := false

/-- What the session does. `attempted` and `verified` note what it learnt. -/
inductive SessionEffect where
  | merge (snapshot : PartialSnapshot)
  | execute (call : AttemptCall)
  | attempted (outcome : Outcome)
  | verified (verification : NetworkVerification)
  | cancelAttempt (cancelId : String)
  | forceRecycle (owner : Option String)
  | setResult (result : LoginResult)
  | record (entry : LoginHistoryEntry)
  | closeBrowser (preserveState : Bool)

/-- The result an effect writes into the slot the handles share. -/
def SessionEffect.result? : SessionEffect → Option LoginResult
  | .setResult r => some r
  | _ => none

namespace LoginSession

def elapsed (s : LoginSession) (p : SessionPoll) : Nat := p.now - s.sessionStart

/-- The total timeout of the session. -/
def totalTimeout (s : LoginSession) : Nat := max s.params.loginTimeout 1000

def makeResult (s : LoginSession) (p : SessionPoll) (terminal : LoginTerminal)
    (message : String) : LoginResult :=
  { networkRetryable := terminal == .failed &&
      (s.lastOutcome == some .networkError || s.lastOutcome == some .navigationTimeout)
    terminal := terminal
    message := message
    source := s.params.source
    duration := s.elapsed p
    attempts := (s.attemptsUsed + 1).toNat }

def makeCancelledResult (s : LoginSession) (p : SessionPoll) : LoginResult :=
  { networkRetryable := false
    terminal := .cancelled
    message := s.cancelReason.getD "已取消"
    source := s.params.source
    duration := s.elapsed p
    attempts := (s.attemptsUsed + 1).toNat }

/-- The result goes into the shared slot, the snapshot and the history. -/
def emit (s : LoginSession) (result : LoginResult) : LoginSession × List SessionEffect :=
  let history := match result.terminal with
    | .success => HistoryResult.success
    | .failed => .failed
    | .cancelled => .cancelled
  let (status, msg) := match history with
    | .success => (LoginStatus.success, "登录成功")
    | .cancelled => (.cancelled, result.message)
    | .failed => (.failed, result.message)
  let entry : LoginHistoryEntry :=
    { source := result.source, channel := some s.params.plan.channel,
      profileId := s.params.profileId, result := history, message := result.message,
      duration := result.duration }
  ({ s with phase := .recording result },
    [.setResult result, .merge (.login status none (some msg) (result.attempts - 1)),
     .record entry])

def finishWithCancelled (s : LoginSession) (p : SessionPoll) (reason : Option String) :
    LoginSession × List SessionEffect :=
  let s := match reason with
    | some r => { s with cancelReason := some r }
    | none => s
  s.emit (s.makeCancelledResult p)

def finishWithFailure (s : LoginSession) (p : SessionPoll) (message : String) :
    LoginSession × List SessionEffect :=
  s.emit (s.makeResult p .failed message)

/-- Does `os` first. -/
def after (os : List SessionEffect) (r : LoginSession × List SessionEffect) :
    LoginSession × List SessionEffect := (r.1, os ++ r.2)

/-- Counts the retry and waits for it, or gives up. -/
def tryRetry (s : LoginSession) (p : SessionPoll) (structured : StructuredResult)
    (forceRecycle : Bool) (owner : Option String) : LoginSession × List SessionEffect :=
  if s.attemptsUsed ≥ s.params.maxRetries then
    let total := if s.params.maxRetries.toNat + 1 < 2 ^ 32
      then s.params.maxRetries.toNat + 1 else s.params.maxRetries.toNat
    s.finishWithFailure p
      (s!"重试耗尽（共 {total} 次尝试）: " ++ structured.message ++ dialogNote structured.data)
  else
    let s := { s with attemptsUsed := s.attemptsUsed + 1 }
    let backoff := retryBackoffDelay s.params.retryInterval s.attemptsUsed
    let waiting := SessionEffect.merge (.login .running (some s.params.source)
      (some s!"重试中 {s.attemptsUsed}/{s.params.maxRetries}（{backoff / 1000}s 后）")
      s.attemptsUsed.toNat)
    if forceRecycle then
      ({ s with phase := .recycling backoff }, [waiting, .forceRecycle owner])
    else ({ s with phase := .backingOff (p.now + backoff) }, [waiting])

/-- The message of a successful attempt. -/
def successMessage (structured : StructuredResult) : String :=
  let m := trim structured.message
  let detail := if m != "" && m != "执行成功" then "（" ++ m ++ "）" else ""
  "登录成功" ++ detail ++ dialogNote structured.data

/-- The verification did not find the network online: the login is tried again. -/
def retryUnverified (s : LoginSession) (p : SessionPoll) (structured : StructuredResult)
    (owner : Option String) : LoginSession × List SessionEffect :=
  after [.verified .retryableFailure]
    (({ s with lastOutcome := some .networkError } : LoginSession).tryRetry p
      { outcome := .networkError, message := "网络验证未通过", data := structured.data } false owner)

/-- The attempt came back. -/
def attemptDone (s : LoginSession) (p : SessionPoll) :
    Except String StructuredResult → LoginSession × List SessionEffect
  | .error e => s.finishWithFailure p e
  | .ok structured =>
    let owner := s.attemptCancelId
    let s := { s with lastOutcome := some structured.outcome, attemptCancelId := none }
    let action := classify structured.outcome
    let action := if action = .retry ∧ s.attemptsUsed ≥ s.params.maxRetries
      then .exhausted else action
    after [.attempted structured.outcome] <|
    match action with
    | .terminal .success =>
      if s.params.plan.hasExplicitSuccessCondition then
        s.emit (s.makeResult p .success (successMessage structured))
      else
        -- delay and probe share what is left of the total timeout
        let remaining := s.params.loginTimeout - s.elapsed p
        if remaining = 0 then s.retryUnverified p structured owner
        else
          let delay := min p.postLoginDelay 60
          let wakeAt := p.now + delay * 1000
          ({ s with phase := .verifying structured owner wakeAt (p.now + remaining) }, [])
    | .terminal .cancelled => s.finishWithCancelled p none
    | .terminal .failed =>
      s.finishWithFailure p (structured.message ++ dialogNote structured.data)
    | .retry =>
      s.tryRetry p structured
        (s.params.plan.usesBridge && shouldForceRecycle structured.outcome) owner
    | .exhausted =>
      s.finishWithFailure p
        (s!"重试耗尽（共 {s.params.maxRetries + 1} 次尝试）: " ++ structured.message ++
          dialogNote structured.data)

/-- The top of the loop: the token, the total timeout, then the next attempt. -/
def pollLoopTop (s : LoginSession) (p : SessionPoll) : LoginSession × List SessionEffect :=
  if s.cancelToken then s.finishWithCancelled p none
  else if s.elapsed p > s.totalTimeout then
    let cancels := match s.attemptCancelId with
      | some cid => if s.params.plan.usesBridge then [SessionEffect.cancelAttempt cid] else []
      | none => []
    after cancels (s.finishWithFailure p "登录超时")
  else
    let s := if s.params.plan.usesBridge then { s with attemptCancelId := some p.cancelId } else s
    let attempt := SessionEffect.merge (.login .running (some s.params.source)
      (some s!"尝试 {s.attemptsUsed + 1}/{s.params.maxRetries + 1}") s.attemptsUsed.toNat)
    ({ s with
        phase := .attempting p.cancelId false (p.now + (s.totalTimeout - s.elapsed p)) },
      [attempt])

/-- The race of an attempt, checked in its order: the tokens, the timeout, the work. -/
def pollAttempt (s : LoginSession) (p : SessionPoll) (cancelId : String) (started : Bool)
    (deadline : Nat) : LoginSession × List SessionEffect :=
  let cancels :=
    if s.params.plan.usesBridge then [SessionEffect.cancelAttempt cancelId] else []
  if s.cancelToken then after cancels (s.finishWithCancelled p none)
  else if s.shutdownToken then after cancels (s.finishWithCancelled p (some "应用关闭"))
  else if deadline ≤ p.now then after cancels (s.finishWithFailure p "登录超时")
  else
    -- the first poll of the work is what sends it
    let sends := if started then [] else [SessionEffect.execute (s.params.attemptCall cancelId)]
    match p.work with
    | none => ({ s with phase := .attempting cancelId true deadline }, sends)
    | some work => after sends (s.attemptDone p work.result)

/-- The verification, checked in its order: the tokens, the probe, the timeout. -/
def pollVerification (s : LoginSession) (p : SessionPoll) (structured : StructuredResult)
    (owner : Option String) (wakeAt deadline : Nat) : LoginSession × List SessionEffect :=
  if s.cancelToken then after [.verified .cancelled] (s.finishWithCancelled p none)
  else if s.shutdownToken then
    after [.verified .cancelled]
      (({ s with cancelReason := some "应用关闭" } : LoginSession).finishWithCancelled p none)
  else
    match (if wakeAt ≤ p.now then p.report else none) with
    | some (.ok .online) =>
      after [.verified .online] (s.emit (s.makeResult p .success (successMessage structured)))
    | some _ => s.retryUnverified p structured owner
    | none =>
      if deadline ≤ p.now then s.retryUnverified p structured owner
      else (s, [])

/-- The wait for the next retry. -/
def pollBackoff (s : LoginSession) (p : SessionPoll) (wakeAt : Nat) :
    LoginSession × List SessionEffect :=
  if s.cancelToken then s.emit (s.makeCancelledResult p)
  else if s.shutdownToken then
    let s := { s with cancelReason := some "应用关闭" }
    s.emit (s.makeCancelledResult p)
  else if wakeAt ≤ p.now then ({ s with phase := .loopTop }, [])
  else (s, [])

/-- The end of `emit`: a live worker closes the session's browser. -/
def pollRecording (s : LoginSession) (p : SessionPoll) (result : LoginResult) :
    LoginSession × List SessionEffect :=
  if p.ioReady then
    if s.params.plan.usesBridge && p.hasLiveWorker then
      ({ s with phase := .closingBrowser }, [.closeBrowser (result.isSuccess && p.keepAlive)])
    else ({ s with phase := .finished }, [])
  else (s, [])

/-- One poll of the session's task; `none` once it has returned. -/
def poll (s : LoginSession) (p : SessionPoll) : Option (LoginSession × List SessionEffect) :=
  match s.phase with
  | .starting =>
    some ({ s with sessionStart := p.now, phase := .loopTop },
      [.merge (.login .running (some s.params.source) (some "登录中...") 0)])
  | .loopTop => some (s.pollLoopTop p)
  | .attempting cancelId started deadline => some (s.pollAttempt p cancelId started deadline)
  | .verifying structured owner wakeAt deadline =>
    some (s.pollVerification p structured owner wakeAt deadline)
  | .recycling backoff =>
    some (if p.ioReady then ({ s with phase := .backingOff (p.now + backoff) }, []) else (s, []))
  | .backingOff wakeAt => some (s.pollBackoff p wakeAt)
  | .recording result => some (s.pollRecording p result)
  | .closingBrowser =>
    some (if p.ioReady then ({ s with phase := .finished }, []) else (s, []))
  | .finished => none

end LoginSession

/-- What happens to a session: a poll, or someone else sets a token or the reason. -/
inductive SessionEvent where
  | poll (p : SessionPoll)
  | cancel
  | setCancelReason (reason : String)
  | shutdown

def sessionStep (s : LoginSession) : SessionEvent → Option (LoginSession × List SessionEffect)
  | .poll p => s.poll p
  | .cancel => some ({ s with cancelToken := true }, [])
  | .setCancelReason reason => some ({ s with cancelReason := some reason }, [])
  | .shutdown => some ({ s with shutdownToken := true }, [])

def sessionMachine : Machine LoginSession SessionEvent SessionEffect := ⟨sessionStep⟩

end CampusAuth.Login
