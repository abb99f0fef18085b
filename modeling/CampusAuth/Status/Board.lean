import CampusAuth.Status.Snapshot

/- The status snapshot and its manager (`status/snapshot.rs`, `status/mod.rs`).

   Services merge partial updates into one snapshot, and each merge takes the version one further;
   a version tells which snapshot it is of (`BoardOk.unique`). -/
namespace CampusAuth.Status
open Monitor

inductive WorkerStatus where
  | notInstalled | stopped | starting | ready | busy | error
  deriving DecidableEq, Repr

structure InstallProgress where
  phase : String
  percent : Nat
  message : String
  deriving DecidableEq, Repr

structure StatusSnapshot where
  snapshotVersion : Nat := 0
  engineState : EngineState := .stopped
  coolingDown : Bool := false
  coolingDownRemaining : Option Nat := none
  consecutiveFailures : Nat := 0
  networkStatus : NetworkStatus := .unknown
  connectivity : ConnectivityAssessment := {}
  lastProbeEvidence : Option ProbeEvidence := none
  lastCheckTime : Option LocalTime := none
  loginStatus : LoginStatus := .idle
  loginSource : Option LoginSource := none
  loginMessage : Option String := none
  retryCount : Nat := 0
  activeProfile : String := "default"
  monitorEnabled : Bool := true
  pauseActive : Bool := false
  updateAvailable : Bool := false
  updateProgress : Option InstallProgress := none
  workerState : WorkerStatus := .notInstalled
  environmentProgress : Option InstallProgress := none
  uptimeSeconds : Nat := 0
  monitoringSeconds : Nat := 0
  monitoringStartedAt : Option LocalTime := none
  schedulerRunning : Bool := false
  schedulerNextFireAt : Option String := none
  schedulerTaskCount : Nat := 0
  probeTotal : Nat := 0
  loginTotal : Nat := 0
  deriving DecidableEq, Repr

/-- The partial updates: those of the engine and the login code, and the others. -/
inductive Update where
  | service (p : PartialSnapshot)
  | worker (state : WorkerStatus)
  | environment (progress : Option InstallProgress)
  | update (available : Bool) (progress : Option InstallProgress)
  | monitorEnabled (enabled : Bool)
  | uptime (seconds : Nat)
  | scheduler (running : Bool) (nextFireAt : Option String) (taskCount : Nat)
  deriving DecidableEq, Repr

/-- When monitoring began: kept while the engine runs, and nothing while it does not. -/
def monitoringStart (s : StatusSnapshot) (state : EngineState) (now : LocalTime) :
    Option LocalTime :=
  match state with
  | .running => if s.engineState = .running then s.monitoringStartedAt else some now
  | .stopped | .dead => none

/-- `apply_partial`, with what the clock says and its seconds as stamps. -/
def applyPartial (s : StatusSnapshot) (now : LocalTime) : Update → StatusSnapshot
  | .service (.engine state network assessment evidence lastCheck pause coolingDown remaining
      failures) =>
    { s with
      monitoringStartedAt := monitoringStart s state now
      engineState := state
      networkStatus := network
      connectivity := assessment
      lastProbeEvidence := evidence
      lastCheckTime := some lastCheck
      pauseActive := pause
      coolingDown := coolingDown
      coolingDownRemaining := remaining
      consecutiveFailures := failures }
  | .service (.login status source message retryCount) =>
    { s with loginStatus := status, loginSource := source, loginMessage := message, retryCount }
  | .service (.activeProfile id) => { s with activeProfile := id }
  | .service (.totals probeTotal loginTotal) => { s with probeTotal, loginTotal }
  | .worker state => { s with workerState := state }
  | .environment progress => { s with environmentProgress := progress }
  | .update available progress =>
    { s with updateAvailable := available, updateProgress := progress }
  | .monitorEnabled enabled => { s with monitorEnabled := enabled }
  | .uptime seconds =>
    { s with
      uptimeSeconds := seconds
      monitoringSeconds := (s.monitoringStartedAt.map fun t => now.stamp - t.stamp).getD 0 }
  | .scheduler running nextFireAt taskCount =>
    { s with
      schedulerRunning := running
      schedulerNextFireAt := nextFireAt
      schedulerTaskCount := taskCount }

/-- The largest number of a `u64`. -/
def maxVersion : Nat := UInt64.size - 1

/-- `StatusManager::merge`. -/
def merge (s : StatusSnapshot) (now : LocalTime) (update : Update) : StatusSnapshot :=
  { applyPartial s now update with
    snapshotVersion := min ((applyPartial s now update).snapshotVersion + 1) maxVersion }

theorem version_applyPartial (s : StatusSnapshot) (now : LocalTime) (update : Update) :
    (applyPartial s now update).snapshotVersion = s.snapshotVersion := by
  cases update with
  | service p => cases p <;> rfl
  | _ => rfl

theorem version_merge {s : StatusSnapshot} (h : s.snapshotVersion < maxVersion) (now : LocalTime)
    (update : Update) : (merge s now update).snapshotVersion = s.snapshotVersion + 1 := by
  rw [merge, version_applyPartial]
  exact Nat.min_eq_left h

/-! ## What has been published -/

/-- The current snapshot, and all that were current. -/
structure Board where
  current : StatusSnapshot
  published : List StatusSnapshot

def Board.merge (board : Board) (now : LocalTime) (update : Update) : Board :=
  let next := Status.merge board.current now update
  ⟨next, next :: board.published⟩

/-- Versions go up with the snapshots, and are at least 1. -/
structure BoardOk (board : Board) : Prop where
  current : board.current ∈ board.published
  range : ∀ x ∈ board.published, 0 < x.snapshotVersion ∧
    x.snapshotVersion ≤ board.current.snapshotVersion
  unique : ∀ x ∈ board.published, ∀ y ∈ board.published,
    x.snapshotVersion = y.snapshotVersion → x = y

theorem BoardOk.merge {board : Board} (h : BoardOk board)
    (hroom : board.current.snapshotVersion < maxVersion) (now : LocalTime) (update : Update) :
    BoardOk (board.merge now update) := by
  have hnext := version_merge hroom now update
  refine ⟨List.mem_cons_self, fun x hx => ?_, fun x hx y hy heq => ?_⟩
  · show 0 < x.snapshotVersion ∧
      x.snapshotVersion ≤ (Status.merge board.current now update).snapshotVersion
    rcases List.mem_cons.mp hx with rfl | hx
    · omega
    · have := h.range x hx
      omega
  · rcases List.mem_cons.mp hx with rfl | hx <;> rcases List.mem_cons.mp hy with rfl | hy
    · rfl
    · have := h.range y hy
      omega
    · have := h.range x hx
      omega
    · exact h.unique x hx y hy heq

end CampusAuth.Status
