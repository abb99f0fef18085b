import Mathlib.Algebra.Order.Ring.Nat
import CampusAuth.Config.Runtime
import CampusAuth.Login.Result
import CampusAuth.Status.Snapshot

/- The handlers of the engine loop (`engine/run_loop.rs`).

   `EngineInner` is the state the loop keeps on its stack, `EngineDeps` what a handler
   reads of the services around it: the published configuration and its version, the two
   clocks, the counters. A handler returns the next state and the list of what it did to
   the outside, in order: probes and logins spawned, snapshot updates merged. Clocks count
   milliseconds. A handler that awaits another service receives the service's answer and
   the surroundings after the wait (`Awaited`); the wait for the first tick of a fresh
   interval is immediate. -/
namespace CampusAuth.Engine
open Status Monitor Config Login

/-! ## Constants -/

/-- Consecutive failures that start a cooling-down. -/
def coolingDownThreshold : Nat := 3

def coolingDownDurationSecs : Nat := 300

/-- Probe interval while the network is not online, and the base of the back-off. -/
def probeOnlineBackoffBaseSecs : Nat := 30

def defaultCheckIntervalSecs : Nat := 300
def profileCheckIntervalMin : Nat := 60
def profileCheckIntervalMax : Nat := 600
def checkIntervalMin : Nat := 20
def checkIntervalMax : Nat := 1200

/-- `s` seconds on the clock. -/
def secs (s : Nat) : Nat := s * 1000

/-! ## State, surroundings, effects -/

/-- What a probe task sends back, with the configuration version it was spawned under. -/
inductive ProbeMessage where
  | report (report : ProbeReport) (configVersion : Nat)
  | failed (error : String) (configVersion : Nat)
  deriving DecidableEq, Repr

def ProbeMessage.configVersion : ProbeMessage → Nat
  | .report _ v | .failed _ v => v

/-- A ticking timer that skips missed ticks. -/
structure Interval where
  period : Nat
  deadline : Nat
  deriving DecidableEq, Repr

/-- The timer after a tick at `now`: back on its grid if the tick came more than 5 ms late. -/
def Interval.tick (t : Interval) (now : Nat) : Interval :=
  { t with
    deadline :=
      if t.deadline + 5 < now then now + t.period - (now - t.deadline) % t.period
      else t.deadline + t.period }

structure EngineInner where
  monitoring : Bool := false
  lastAssessment : ConnectivityAssessment := {}
  lastEvidence : Option ProbeEvidence := none
  /-- The configuration version a cautious login was already made under. -/
  cautiousAttemptedConfigVersion : Option Nat := none
  cautiousRetryAfter : Option Nat := none
  lastCheckTime : Option LocalTime := none
  manualPaused : Bool := false
  lastProfileCheck : Nat
  checkTimer : Interval
  consecutiveFailures : Nat := 0
  onlineStreak : Nat := 0
  coolingDownUntil : Option Nat := none
  autoLoginInFlight : Bool := false
  probeInFlight : Bool := false
  /-- A check asked for while a probe was in flight. -/
  probePending : Bool := false
  notifier : Notifier := {}
  deriving DecidableEq, Repr

structure EngineDeps where
  runtime : RuntimeConfig
  configVersion : Nat
  now : Nat
  localNow : LocalTime
  /-- Probe and login totals, when metrics are kept. -/
  metricsTotals : Option (Nat × Nat) := none
  detectMatchingProfile : String → String → Option String := fun _ _ => none

/-- The answer of the service a handler awaits, and the surroundings after the wait. -/
structure Awaited where
  outcome : Except String Unit
  after : EngineDeps

inductive Effect where
  /-- A check was asked for while a probe was in flight. -/
  | checkMeanwhile (priority : Bool)
  | spawnProbe (configVersion : Nat)
  | spawnDiagnosis
  | submitLogin (source : LoginSource)
  | merge (update : PartialSnapshot)
  | warnLoginFailure (profile : String) (consecutiveFailures : Nat) (reason : String)
      (firstFailure : Bool)
  deriving DecidableEq, Repr

/-- What a handler leaves behind. -/
abbrev Handled := EngineInner × List Effect

def Handled.andThen (r : Handled) (f : EngineInner → Handled) : Handled :=
  ((f r.1).1, r.2 ++ (f r.1).2)

@[simp] theorem Handled.andThen_fst (r : Handled) (f : EngineInner → Handled) :
    (r.andThen f).1 = (f r.1).1 := rfl

@[simp] theorem Handled.andThen_snd (r : Handled) (f : EngineInner → Handled) :
    (r.andThen f).2 = r.2 ++ (f r.1).2 := rfl

def EngineInner.new (now : Nat) : EngineInner where
  lastProfileCheck := now
  checkTimer := { period := secs defaultCheckIntervalSecs, deadline := now }

/-! ## Pause windows and intervals -/

/-- Whether the wall clock is in the half-open window; equal bounds mean the whole day. -/
def isInPauseWindow (now : LocalTime) (startHour startMinute endHour endMinute : Nat) : Bool :=
  let nowMin := now.hour * 60 + now.minute
  let start := startHour * 60 + startMinute
  let «end» := endHour * 60 + endMinute
  if start = «end» then true
  else if start < «end» then decide (start ≤ nowMin ∧ nowMin < «end»)
  else decide (start ≤ nowMin ∨ nowMin < «end»)

def isScheduledPauseActive (deps : EngineDeps) : Bool :=
  let cfg := deps.runtime
  if !cfg.pause.enabled then false
  else
    isInPauseWindow deps.localNow cfg.pause.startHour cfg.pause.startMinute cfg.pause.endHour
      cfg.pause.endMinute

def isAnyPauseActive (inner : EngineInner) (deps : EngineDeps) : Bool :=
  if inner.manualPaused then true else isScheduledPauseActive deps

def clamp (x lo hi : Nat) : Nat := max lo (min x hi)

def checkIntervalSecs (deps : EngineDeps) : Nat :=
  clamp deps.runtime.monitor.checkInterval checkIntervalMin checkIntervalMax

def profileCheckIntervalSecs (deps : EngineDeps) : Nat :=
  clamp deps.runtime.monitor.profileCheckInterval profileCheckIntervalMin profileCheckIntervalMax

/-- The next interval: doubling with every online probe up to `baseSecs`, short otherwise. -/
def adaptiveCheckIntervalSecs (status : NetworkStatus) (onlineStreak baseSecs : Nat) : Nat :=
  if status = .online then
    let shift := min (onlineStreak - 1) 16
    min (probeOnlineBackoffBaseSecs <<< shift) (max baseSecs 1)
  else probeOnlineBackoffBaseSecs

/-- A timer that has consumed its immediate first tick. -/
def newCheckTimer (periodSecs now : Nat) : Interval :=
  { period := secs periodSecs, deadline := now + secs periodSecs }

def resetCheckTimer (inner : EngineInner) (deps : EngineDeps) : EngineInner :=
  { inner with checkTimer := newCheckTimer (checkIntervalSecs deps) deps.now }

/-! ## Snapshot updates -/

def engineStateFor (inner : EngineInner) : EngineState :=
  if inner.monitoring then .running else .stopped

/-- Whole seconds until `deadline`, as the snapshot carries them. -/
def remainingSecs (deadline now : Nat) : Nat := (deadline - now) / 1000 % 2 ^ 32

/-- The update of `merge_engine_state`: the last true check time, an expired cooling-down
shown as none. -/
def engineSnapshot (inner : EngineInner) (deps : EngineDeps) (state : EngineState) :
    PartialSnapshot :=
  let coolingDown := inner.coolingDownUntil.any (deps.now < ·)
  .engine state inner.lastAssessment.status inner.lastAssessment inner.lastEvidence
    (inner.lastCheckTime.getD deps.localNow) (inner.manualPaused || isScheduledPauseActive deps)
    coolingDown
    (if coolingDown then inner.coolingDownUntil.map (remainingSecs · deps.now) else none)
    inner.consecutiveFailures

def mergeEngineState (inner : EngineInner) (deps : EngineDeps) (state : EngineState) : Effect :=
  .merge (engineSnapshot inner deps state)

/-- The update after a probe; `evidence` is `none` when the probe failed. -/
def probeSnapshot (inner : EngineInner) (deps : EngineDeps) (evidence : Option ProbeEvidence) :
    PartialSnapshot :=
  .engine (engineStateFor inner) inner.lastAssessment.status inner.lastAssessment evidence
    deps.localNow (isAnyPauseActive inner deps) inner.coolingDownUntil.isSome
    (inner.coolingDownUntil.map (remainingSecs · deps.now)) inner.consecutiveFailures

/-! ## Cautious logins and cooling-down -/

/-- Only a network failure of an automatic login gives the cautious attempt back, later. -/
def observeCautiousResult (result : LoginResult) (now : Nat) (inner : EngineInner) : EngineInner :=
  if result.source = .auto ∧ inner.cautiousAttemptedConfigVersion.isSome then
    { inner with
      cautiousRetryAfter :=
        if result.terminal = .failed ∧ result.networkRetryable then
          some (now + secs coolingDownDurationSecs)
        else none }
  else inner

def cautiousBlocked (inner : EngineInner) (now configVersion : Nat) : Bool :=
  inner.cautiousAttemptedConfigVersion == some configVersion &&
    inner.cautiousRetryAfter.all (now < ·)

/-- An expired cooling-down goes, and the failure count with it. -/
def clearExpiredCoolingDown (now : Nat) (inner : EngineInner) : EngineInner :=
  if inner.coolingDownUntil.any (· ≤ now) then
    { inner with coolingDownUntil := none, consecutiveFailures := 0 }
  else inner

inductive LoginFailureBudgetAction where
  | reset | increment | preserve
  deriving DecidableEq, Repr

def loginFailureBudgetAction : LoginTerminal → LoginSource → LoginFailureBudgetAction
  | .success, _ => .reset
  | .failed, .auto => .increment
  | .failed, _ | .cancelled, _ => .preserve

/-- One more failure, and a cooling-down if the budget is used up. -/
def countFailure (now : Nat) (inner : EngineInner) : EngineInner :=
  let inner := { inner with consecutiveFailures := inner.consecutiveFailures + 1 }
  if coolingDownThreshold ≤ inner.consecutiveFailures ∧ inner.coolingDownUntil.isNone then
    { inner with coolingDownUntil := some (now + secs coolingDownDurationSecs) }
  else inner

def handleLoginResult (result : LoginResult) (inner : EngineInner) (deps : EngineDeps) : Handled :=
  let inner := { inner with autoLoginInFlight := false }
  let inner := observeCautiousResult result deps.now inner
  let profileId := deps.runtime.profile.id
  let budgeted : Handled :=
    match loginFailureBudgetAction result.terminal result.source with
    | .reset =>
      ({ inner with
          consecutiveFailures := 0
          coolingDownUntil := none
          notifier := inner.notifier.onLoginSuccess profileId }, [])
    | .increment =>
      let (firstFailure, notifier) := inner.notifier.shouldNotifyLoginFailure profileId
      let counted := countFailure deps.now { inner with notifier }
      (counted,
        [.warnLoginFailure profileId counted.consecutiveFailures result.message firstFailure])
    | .preserve => (inner, [])
  budgeted.andThen fun inner => (inner, [mergeEngineState inner deps (engineStateFor inner)])

/-! ## Probes -/

/-- Starts a probe, or queues one check when a probe is in flight and this one has priority. -/
def handleNetworkCheckWithPriority (priority : Bool) (inner : EngineInner) (deps : EngineDeps) :
    Handled :=
  if inner.probeInFlight then
    ({ inner with probePending := inner.probePending || priority }, [.checkMeanwhile priority])
  else
    ({ inner with probeInFlight := true }, [.spawnProbe deps.configVersion])

def handleNetworkCheck (inner : EngineInner) (deps : EngineDeps) : Handled :=
  handleNetworkCheckWithPriority false inner deps

/-- Runs the check that was queued while the probe was in flight. -/
def runPendingCheck (pending : Bool) (inner : EngineInner) (deps : EngineDeps) : Handled :=
  if pending && inner.monitoring && !isAnyPauseActive inner deps then handleNetworkCheck inner deps
  else (inner, [])

/-- The branch of a failed probe. -/
def handleProbeFailed (pending : Bool) (inner : EngineInner) (deps : EngineDeps) : Handled :=
  (runPendingCheck pending inner deps).andThen fun inner =>
    let inner := { inner with lastCheckTime := some deps.localNow }
    (inner, [.merge (probeSnapshot inner deps none)])

/-- The period of the timer that is rebuilt after a report. -/
def nextCheckSecs (assessment : ConnectivityAssessment) (onlineStreak : Nat) (deps : EngineDeps) :
    Nat :=
  if assessment.recoveryAdvice = .noProbeEvidence then checkIntervalSecs deps
  else adaptiveCheckIntervalSecs assessment.status onlineStreak (checkIntervalSecs deps)

/-- What a report changes before the login decision. -/
def observeReport (report : ProbeReport) (inner : EngineInner) (deps : EngineDeps) : EngineInner :=
  let inner := { inner with lastCheckTime := some deps.localNow }
  let status := report.assessment.status
  let inner :=
    -- out of the portal this authentication event is over
    if status ≠ .captivePortal then
      { inner with cautiousAttemptedConfigVersion := none, cautiousRetryAfter := none }
    else inner
  let inner :=
    { inner with
      lastAssessment := report.assessment
      lastEvidence := some report.evidence
      onlineStreak :=
        if status = NetworkStatus.online then min (inner.onlineStreak + 1) (2 ^ 32 - 1) else 0 }
  let nextSecs := nextCheckSecs report.assessment inner.onlineStreak deps
  { inner with checkTimer := newCheckTimer nextSecs deps.now }

def totalsUpdate (deps : EngineDeps) : List Effect :=
  match deps.metricsTotals with
  | some (probeTotal, loginTotal) => [.merge (.totals probeTotal loginTotal)]
  | none => []

/-- Why an advised login is left out, in the order of the checks. -/
inductive LoginGate where
  | stopped | paused | stale | coolingDown | inFlight | cautiousAttempted | pass
  deriving DecidableEq, Repr

def loginGate (advice : RecoveryAdvice) (probeConfigVersion : Nat) (configStale : Bool)
    (inner : EngineInner) (deps : EngineDeps) : LoginGate :=
  if !inner.monitoring then .stopped
  else if isAnyPauseActive inner deps then .paused
  else if configStale then .stale
  else if inner.coolingDownUntil.isSome then .coolingDown
  else if inner.autoLoginInFlight then .inFlight
  else if advice = .attemptLoginOnce ∧ cautiousBlocked inner deps.now probeConfigVersion then
    .cautiousAttempted
  else .pass

/-- Submits an automatic login if the report advises one and every gate is open. -/
def decideLogin (advice : RecoveryAdvice) (probeConfigVersion : Nat) (configStale : Bool)
    (inner : EngineInner) (deps : EngineDeps) : Handled :=
  if (advice = .attemptLogin ∨ advice = .attemptLoginOnce) ∧
      loginGate advice probeConfigVersion configStale inner deps = .pass then
    let inner :=
      if advice = .attemptLoginOnce then
        { inner with
          cautiousAttemptedConfigVersion := some probeConfigVersion, cautiousRetryAfter := none }
      else inner
    ({ inner with autoLoginInFlight := true }, [.submitLogin .auto])
  else (inner, [])

/-- The branch of a report. -/
def handleProbeReport (report : ProbeReport) (probeConfigVersion : Nat)
    (configStale pending : Bool) (inner : EngineInner) (deps : EngineDeps) : Handled :=
  let inner := observeReport report inner deps
  let merged : Handled :=
    (inner, .merge (probeSnapshot inner deps (some report.evidence)) :: totalsUpdate deps)
  let decided := merged.andThen fun inner =>
    decideLogin report.assessment.recoveryAdvice probeConfigVersion configStale inner deps
  decided.andThen fun inner => runPendingCheck pending inner deps

/-- The handler once it has read the current configuration version. -/
def handleProbeMessageWith (msg : ProbeMessage) (currentConfigVersion : Nat) (inner : EngineInner)
    (deps : EngineDeps) : Handled :=
  let pending := inner.probePending
  let inner := { inner with probeInFlight := false, probePending := false }
  let inner := clearExpiredCoolingDown deps.now inner
  let configStale := msg.configVersion != currentConfigVersion
  match msg with
  | .failed _ _ => handleProbeFailed pending inner deps
  | .report report v => handleProbeReport report v configStale pending inner deps

def handleProbeMessage (msg : ProbeMessage) (inner : EngineInner) (deps : EngineDeps) : Handled :=
  handleProbeMessageWith msg deps.configVersion inner deps

/-! ## Commands -/

inductive ProfileSwitchSource where
  | manual | autoSwitch
  deriving DecidableEq, Repr

inductive EngineCommand where
  | start | stop | reload
  | applyProfile (profileId : String) (source : ProfileSwitchSource)
  | testNetwork | pause | resume | shutdown
  deriving DecidableEq, Repr

/-- The check a manual operation starts at once, unless a pause is active. -/
def immediateCheck (inner : EngineInner) (deps : EngineDeps) : Handled :=
  if isAnyPauseActive inner deps then (inner, [])
  else handleNetworkCheckWithPriority true inner deps

/-- The same where the timer is only reset after a check. -/
def immediateCheckAndReset (inner : EngineInner) (deps : EngineDeps) : Handled :=
  if inner.monitoring && !isAnyPauseActive inner deps then
    (handleNetworkCheckWithPriority true inner deps).andThen fun inner =>
      (resetCheckTimer inner deps, [])
  else (inner, [])

def handleStart (inner : EngineInner) (deps : EngineDeps) : Handled :=
  if inner.monitoring then (inner, [])
  else
    let inner := { inner with monitoring := true }
    let merged : Handled := (inner, [mergeEngineState inner deps .running])
    (merged.andThen fun inner => immediateCheck inner deps).andThen fun inner =>
      (resetCheckTimer inner deps, [])

def handleStop (inner : EngineInner) (deps : EngineDeps) : Handled :=
  if !inner.monitoring then (inner, [])
  else
    let inner := { inner with monitoring := false }
    (inner, [mergeEngineState inner deps .stopped])

/-- Whatever the reload answers, the timer takes the interval now published. -/
def handleReload (aw : Awaited) (inner : EngineInner) : Handled :=
  (resetCheckTimer inner aw.after, [])

/-- `deps` are the surroundings after the switch. -/
def finishApplyProfile (profileId : String) (inner : EngineInner) (deps : EngineDeps) : Handled :=
  let merged : Handled := (inner, [.merge (.activeProfile profileId)])
  merged.andThen fun inner => immediateCheckAndReset inner deps

/-- A profile already active is only confirmed; a failed switch ends the handler. -/
def handleApplyProfile (profileId : String) (aw : Awaited) (inner : EngineInner)
    (deps : EngineDeps) : Handled :=
  if deps.runtime.profile.id = profileId then finishApplyProfile profileId inner deps
  else
    match aw.outcome with
    | .error _ => (inner, [])
    | .ok _ => finishApplyProfile profileId inner aw.after

def handlePause (inner : EngineInner) (deps : EngineDeps) : Handled :=
  let inner := { inner with manualPaused := true }
  (inner, [mergeEngineState inner deps (engineStateFor inner)])

def handleResume (inner : EngineInner) (deps : EngineDeps) : Handled :=
  let inner := { inner with manualPaused := false }
  let merged : Handled := (inner, [mergeEngineState inner deps (engineStateFor inner)])
  merged.andThen fun inner => immediateCheckAndReset inner deps

def handleShutdown (inner : EngineInner) (deps : EngineDeps) : Handled :=
  (inner, [mergeEngineState inner deps .stopped])

/-- Dispatches a command; `true` ends the loop. -/
def handleCommand (cmd : EngineCommand) (aw : Awaited) (inner : EngineInner) (deps : EngineDeps) :
    Handled × Bool :=
  match cmd with
  | .start => (handleStart inner deps, false)
  | .stop => (handleStop inner deps, false)
  | .reload => (handleReload aw inner, false)
  | .applyProfile profileId _ => (handleApplyProfile profileId aw inner deps, false)
  | .testNetwork => ((inner, [.spawnDiagnosis]), false)
  | .pause => (handlePause inner deps, false)
  | .resume => (handleResume inner deps, false)
  | .shutdown => (handleShutdown inner deps, true)

/-! ## Timer and profile switch -/

/-- The branch of the check timer. -/
def handleTick (inner : EngineInner) (deps : EngineDeps) : Handled :=
  let inner := { inner with checkTimer := inner.checkTimer.tick deps.now }
  if inner.monitoring && !isAnyPauseActive inner deps then handleNetworkCheck inner deps
  else (inner, [])

/-- Whether step 3 of the loop looks for another profile. -/
def profileCheckDue (inner : EngineInner) (deps : EngineDeps) : Bool :=
  inner.monitoring && !isAnyPauseActive inner deps && deps.runtime.autoSwitch &&
    decide (secs (profileCheckIntervalSecs deps) ≤ deps.now - inner.lastProfileCheck)

/-- Gateway and SSID choose a profile; another one than the active is switched to. -/
def checkProfileSwitch (gateways : Except String (List String))
    (ssid : Except String (Option String)) (aw : Awaited) (inner : EngineInner)
    (deps : EngineDeps) : Handled :=
  match gateways, ssid with
  | .ok gateways, .ok ssid =>
    match deps.detectMatchingProfile (gateways.head?.getD "") (ssid.getD "") with
    | some matchedId =>
      if matchedId ≠ deps.runtime.profile.id then
        let inner := { inner with notifier := inner.notifier.onProfileSwitch }
        handleApplyProfile matchedId aw inner deps
      else (inner, [])
    | none => (inner, [])
  | _, _ => (inner, [])

end CampusAuth.Engine
