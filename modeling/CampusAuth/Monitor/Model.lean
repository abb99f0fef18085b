import CampusAuth.Status.Kinds

/- Probe evidence, assessment and recovery advice (`monitor/model.rs`). -/
namespace CampusAuth.Monitor
open Status

inductive ProbeOutcome where
  | pass | captive | inconclusive | fail | disabled
  deriving DecidableEq, Repr

inductive LocalLinkState where
  | notChecked | available | unavailable | probeFailed
  deriving DecidableEq, Repr

inductive AuthEndpointState where
  | notChecked | reachable | unreachable | invalid | missing | skippedRedirectMode
  deriving DecidableEq, Repr

inductive AssessmentConfidence where
  | high | medium | low
  deriving DecidableEq, Repr

inductive AssessmentReason where
  | notChecked | internetVerified | captiveDetected | externalFailedAuthReachable
  | linkUpLoginAssumed | redirectLoginAssumed | allProbesFailed | weakEvidenceOnly
  | inconclusiveEvidence | conflictingEvidence | noProbesEnabled
  deriving DecidableEq, Repr

/-- What the monitor advises; the engine still checks pause, cooling-down, configuration
version and the login in flight. -/
inductive RecoveryAdvice where
  | noAction | attemptLogin | attemptLoginOnce | waitForNetwork | waitForMoreEvidence
  | fixConfiguration | noProbeEvidence | notEvaluated
  deriving DecidableEq, Repr

structure ProbeEvidence where
  tcp : ProbeOutcome := .disabled
  http : ProbeOutcome := .disabled
  url : ProbeOutcome := .disabled
  localLink : LocalLinkState := .notChecked
  deriving DecidableEq, Repr

structure ConnectivityAssessment where
  status : NetworkStatus := .unknown
  confidence : AssessmentConfidence := .low
  reason : AssessmentReason := .notChecked
  authEndpoint : AuthEndpointState := .notChecked
  recoveryAdvice : RecoveryAdvice := .notEvaluated
  deriving DecidableEq, Repr

structure ProbeReport where
  evidence : ProbeEvidence
  assessment : ConnectivityAssessment
  latencyMs : Nat
  checkNumber : Nat
  deriving DecidableEq, Repr

end CampusAuth.Monitor
