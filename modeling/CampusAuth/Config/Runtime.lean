import CampusAuth.Lib.Text

/- The runtime configuration snapshot (`config/runtime.rs`, `config/schema.rs`), as far as
   the engine, the monitor and the login code read it. -/
namespace CampusAuth.Config
open Lib

inductive LoginChannel where
  | browser | http | script
  deriving DecidableEq, Repr

/-- The channels that need no Python environment, browser or worker. -/
def LoginChannel.isInProcess : LoginChannel → Bool
  | .http | .script => true
  | .browser => false

structure ProfileSnapshot where
  id : String
  loginChannel : LoginChannel
  authUrl : String
  triggerUrl : String
  deriving DecidableEq, Repr

def ProfileSnapshot.usesRedirectLogin (p : ProfileSnapshot) : Bool :=
  p.loginChannel == .browser && (!isBlank p.triggerUrl || isBlank p.authUrl)

/-- The daily pause window, half open and possibly across midnight. -/
structure PauseSettings where
  enabled : Bool := true
  startHour : Nat := 23
  startMinute : Nat := 0
  endHour : Nat := 6
  endMinute : Nat := 0
  deriving DecidableEq, Repr

structure MonitorSettings where
  checkInterval : Nat := 300
  profileCheckInterval : Nat := 180
  strictLoginMode : Bool := true
  tcpEnabled : Bool := false
  httpEnabled : Bool := true
  urlEnabled : Bool := false
  deriving DecidableEq, Repr

structure RuntimeConfig where
  monitor : MonitorSettings := {}
  pause : PauseSettings := {}
  profile : ProfileSnapshot
  autoSwitch : Bool := false
  deriving DecidableEq, Repr

end CampusAuth.Config
