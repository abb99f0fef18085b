import CampusAuth.Config.Runtime
import CampusAuth.Monitor.Model

/- From probe evidence to a network status and a recovery advice (`monitor/decision.rs`),
   and the order in which one check applies the tables (`monitor/mod.rs`, `check_once_via`).

   `AttemptLoginOnce` is the cautious advice. It arises for a portal whose
   authentication endpoint does not answer, for inconclusive evidence with an endpoint
   that does, and for the redirect fallback. The last section says which network
   statuses can carry it. -/
namespace CampusAuth.Monitor
open Status Config Lib

def assessment (status : NetworkStatus) (confidence : AssessmentConfidence)
    (reason : AssessmentReason) (recoveryAdvice : RecoveryAdvice) : ConnectivityAssessment :=
  { status, confidence, reason, authEndpoint := .notChecked, recoveryAdvice }

/-- Portal evidence goes before success, success before failure. -/
def assessConnectivity (evidence : ProbeEvidence) : ConnectivityAssessment :=
  let active := [evidence.tcp, evidence.http, evidence.url].filter (· != .disabled)
  if active.isEmpty then
    assessment .unknown .low .noProbesEnabled .noProbeEvidence
  else if evidence.http = .captive ∨ evidence.url = .captive then
    assessment .captivePortal .high .captiveDetected .attemptLogin
  else if evidence.http = .pass ∨ evidence.url = .pass then
    assessment .online .high .internetVerified .noAction
  else if active.all (· == .fail) then
    assessment .offline .medium .allProbesFailed .waitForNetwork
  else
    let reason := if active.contains .inconclusive then .inconclusiveEvidence else .weakEvidenceOnly
    assessment .unknown .low reason .waitForMoreEvidence

/-- Supplements the base assessment with the state of the authentication endpoint. -/
def applyAuthEndpoint (current : ConnectivityAssessment) (authEndpoint : AuthEndpointState) :
    ConnectivityAssessment :=
  let current := { current with authEndpoint }
  match current.status with
  | .online => { current with recoveryAdvice := .noAction }
  | .captivePortal =>
    { current with
      recoveryAdvice := match authEndpoint with
        | .invalid | .missing => .fixConfiguration
        | .unreachable => .attemptLoginOnce
        | .reachable | .skippedRedirectMode | .notChecked => .attemptLogin }
  | .offline | .unknown =>
    match authEndpoint with
    | .reachable =>
      -- a probe target that fails by itself must not trigger logins without bound
      if current.reason = .inconclusiveEvidence ∧ current.status = .unknown then
        { current with recoveryAdvice := .attemptLoginOnce }
      else
        { current with
          status := .captivePortal, confidence := .medium, reason := .externalFailedAuthReachable,
          recoveryAdvice := .attemptLogin }
    | .invalid | .missing => { current with recoveryAdvice := .fixConfiguration }
    | .unreachable =>
      { current with
        recoveryAdvice :=
          if current.status = .offline then .waitForNetwork else .waitForMoreEvidence }
    | .skippedRedirectMode | .notChecked => current

/-- Whether the lenient trigger may still raise this assessment. -/
def lenientTriggerCandidate (current : ConnectivityAssessment) : Bool :=
  current.status != .online &&
    match current.recoveryAdvice with
    | .fixConfiguration | .noProbeEvidence | .attemptLogin | .attemptLoginOnce => false
    | _ => true

def applyLenientTrigger (current : ConnectivityAssessment) (localLink : LocalLinkState) :
    ConnectivityAssessment :=
  if !lenientTriggerCandidate current || localLink != .available then current
  else
    { current with
      status := .captivePortal, confidence := .low, reason := .linkUpLoginAssumed,
      recoveryAdvice := .attemptLogin }

/-- Whether a redirect login deserves one browser attempt. -/
def redirectFallbackCandidate (current : ConnectivityAssessment) : Bool :=
  (current.status == .offline || current.status == .unknown) &&
    (current.recoveryAdvice == .waitForNetwork || current.recoveryAdvice == .waitForMoreEvidence)

def applyRedirectFallback (current : ConnectivityAssessment) (localLink : LocalLinkState) :
    ConnectivityAssessment :=
  if !redirectFallbackCandidate current || localLink != .available then current
  else
    { current with
      status := .captivePortal, confidence := .low, reason := .redirectLoginAssumed,
      recoveryAdvice := .attemptLoginOnce }

/-! ## One check -/

inductive CheckPurpose where
  | autoMonitor | manualDiagnostic | postLoginVerification
  deriving DecidableEq, Repr

/-- What the outside answers to the measurements of one check. -/
structure Measurements where
  tcp : ProbeOutcome
  http : ProbeOutcome
  url : ProbeOutcome
  /-- What `inspect_auth_endpoint_via` finds, when the check gets to it. -/
  authEndpoint : AuthEndpointState
  /-- What `probe_local_link` finds, when the check wants it. -/
  localLink : LocalLinkState
  deriving DecidableEq, Repr

/-- The authentication endpoint state the profile asks for. -/
def authEndpointFor (rt : RuntimeConfig) (m : Measurements) : AuthEndpointState :=
  if rt.profile.loginChannel.isInProcess then .notChecked
  else if rt.profile.usesRedirectLogin then .skippedRedirectMode
  else if isBlank rt.profile.authUrl then .missing
  else m.authEndpoint

/-- The evidence and assessment of one check under the configuration `rt`. -/
def checkOnce (purpose : CheckPurpose) (rt : RuntimeConfig) (m : Measurements) :
    ProbeEvidence × ConnectivityAssessment :=
  let evidence : ProbeEvidence :=
    { tcp := if rt.monitor.tcpEnabled then m.tcp else .disabled
      http := if rt.monitor.httpEnabled then m.http else .disabled
      url := if rt.monitor.urlEnabled then m.url else .disabled }
  let base := assessConnectivity evidence
  let supplemented :=
    if purpose = .autoMonitor ∧ base.recoveryAdvice ≠ .noProbeEvidence ∧ base.status ≠ .online then
      applyAuthEndpoint base (authEndpointFor rt m)
    else if purpose ≠ .autoMonitor then
      { base with authEndpoint := .notChecked, recoveryAdvice := .notEvaluated }
    else base
  let redirectFallback := purpose = .autoMonitor ∧ rt.monitor.strictLoginMode ∧
    rt.profile.usesRedirectLogin ∧ redirectFallbackCandidate supplemented
  let wantLocalLink := purpose = .autoMonitor ∧
    (redirectFallback ∨ (!rt.monitor.strictLoginMode ∧ lenientTriggerCandidate supplemented))
  let evidence := if wantLocalLink then { evidence with localLink := m.localLink } else evidence
  let fallback :=
    if redirectFallback then applyRedirectFallback supplemented evidence.localLink else supplemented
  let final :=
    if purpose = .autoMonitor ∧ !rt.monitor.strictLoginMode then
      applyLenientTrigger fallback evidence.localLink
    else fallback
  (evidence, final)

/-! ## Which status carries the cautious advice -/

/-- A login is advised once only for a portal that does not answer and for an unknown state. -/
def Cautious (c : ConnectivityAssessment) : Prop :=
  c.recoveryAdvice = .attemptLoginOnce → c.status = .captivePortal ∨ c.status = .unknown

theorem assessConnectivity_not_once (e : ProbeEvidence) :
    (assessConnectivity e).recoveryAdvice ≠ .attemptLoginOnce := by
  unfold assessConnectivity
  dsimp only
  repeat' split
  all_goals simp [assessment]

theorem cautious_applyAuthEndpoint {c : ConnectivityAssessment} (a : AuthEndpointState)
    (hc : c.recoveryAdvice ≠ .attemptLoginOnce) : Cautious (applyAuthEndpoint c a) := by
  intro h
  rcases c with ⟨status, _, reason, _, _⟩
  cases status <;> cases a <;> simp_all [applyAuthEndpoint]
  split at h <;> simp_all

theorem cautious_applyLenientTrigger {c : ConnectivityAssessment} (l : LocalLinkState)
    (hc : Cautious c) : Cautious (applyLenientTrigger c l) := by
  unfold applyLenientTrigger
  split
  · exact hc
  · intro h
    cases h

theorem cautious_applyRedirectFallback {c : ConnectivityAssessment} (l : LocalLinkState)
    (hc : Cautious c) : Cautious (applyRedirectFallback c l) := by
  unfold applyRedirectFallback
  split
  · exact hc
  · exact fun _ => .inl rfl

theorem checkOnce_cautious (purpose : CheckPurpose) (rt : RuntimeConfig) (m : Measurements) :
    Cautious (checkOnce purpose rt m).2 := by
  unfold checkOnce
  dsimp only
  generalize ({ tcp := _, http := _, url := _ } : ProbeEvidence) = evidence
  have hbase := assessConnectivity_not_once evidence
  generalize assessConnectivity evidence = base at hbase ⊢
  generalize hsupplemented : (if purpose = .autoMonitor ∧ base.recoveryAdvice ≠ .noProbeEvidence ∧
      base.status ≠ .online then applyAuthEndpoint base (authEndpointFor rt m)
    else if purpose ≠ .autoMonitor then
      { base with authEndpoint := .notChecked, recoveryAdvice := .notEvaluated }
    else base) = supplemented
  have hcautious : Cautious supplemented := by
    rw [← hsupplemented]
    split
    · exact cautious_applyAuthEndpoint _ hbase
    · split
      · intro h
        cases h
      · exact fun h => absurd h hbase
  split
  · refine cautious_applyLenientTrigger _ ?_
    split
    · exact cautious_applyRedirectFallback _ hcautious
    · exact hcautious
  · split
    · exact cautious_applyRedirectFallback _ hcautious
    · exact hcautious

end CampusAuth.Monitor
