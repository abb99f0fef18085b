import CampusAuth.Status.Kinds

/- The terminal result of a login (`login/session.rs`). -/
namespace CampusAuth.Login
open Status

inductive LoginTerminal where
  | success | cancelled | failed
  deriving DecidableEq, Repr

structure LoginResult where
  /-- Only network failures let the engine retry a cautious login after a cooling-down. -/
  networkRetryable : Bool := false
  terminal : LoginTerminal
  message : String
  source : LoginSource
  duration : Nat
  attempts : Nat
  deriving DecidableEq, Repr

def LoginResult.isSuccess (r : LoginResult) : Bool := r.terminal == .success

def LoginResult.isCancelled (r : LoginResult) : Bool := r.terminal == .cancelled

end CampusAuth.Login
