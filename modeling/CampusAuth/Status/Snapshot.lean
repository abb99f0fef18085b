import Mathlib.Data.List.Basic
import CampusAuth.Monitor.Model

/- Partial updates of the status snapshot (`status/snapshot.rs`) and the failure
   notifier (`status/notifier.rs`). -/
namespace CampusAuth.Status
open Monitor

/-- A reading of the local wall clock. -/
structure LocalTime where
  stamp : Nat
  hour : Nat
  minute : Nat
  deriving DecidableEq, Repr

/-- The updates the engine and the login code merge into the snapshot. -/
inductive PartialSnapshot where
  | engine (state : EngineState) (network : NetworkStatus) (assessment : ConnectivityAssessment)
      (evidence : Option ProbeEvidence) (lastCheck : LocalTime) (pause : Bool) (coolingDown : Bool)
      (coolingDownRemaining : Option Nat) (consecutiveFailures : Nat)
  | login (status : LoginStatus) (source : Option LoginSource) (message : Option String)
      (retryCount : Nat)
  | activeProfile (id : String)
  | totals (probeTotal loginTotal : Nat)
  deriving DecidableEq, Repr

/-- The profiles whose login failure has already been notified. -/
structure Notifier where
  notifiedFailures : List String := []
  deriving DecidableEq, Repr

/-- Whether to notify this failure; the profile is remembered. -/
def Notifier.shouldNotifyLoginFailure (n : Notifier) (profileId : String) : Bool × Notifier :=
  if n.notifiedFailures.contains profileId then (false, n)
  else (true, { notifiedFailures := profileId :: n.notifiedFailures })

def Notifier.onProfileSwitch (_ : Notifier) : Notifier := { notifiedFailures := [] }

def Notifier.onLoginSuccess (n : Notifier) (profileId : String) : Notifier :=
  { notifiedFailures := n.notifiedFailures.filter (· != profileId) }

end CampusAuth.Status
