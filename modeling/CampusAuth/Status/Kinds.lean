/- The enumerations of the status snapshot (`status/snapshot.rs`). -/
namespace CampusAuth.Status

inductive EngineState where
  | running | stopped | dead
  deriving DecidableEq, Repr

/-- The verdict of a network probe. -/
inductive NetworkStatus where
  | online | captivePortal | offline | unknown
  deriving DecidableEq, Repr

inductive LoginStatus where
  | idle | running | success | failed | cancelled
  deriving DecidableEq, Repr

/-- Who asked for a login. -/
inductive LoginSource where
  | auto | manual | loginOnce | browser
  deriving DecidableEq, Repr

end CampusAuth.Status
