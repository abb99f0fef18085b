import CampusAuth.Lib.Machine
import CampusAuth.Lib.Pool
import CampusAuth.Status.Board

/- The status on the page (`web/ws.rs`, `frontend/src/composables/useStatus.ts`).

   The page gets the status in two ways: a connection pushes a snapshot whenever the current one
   has changed, and requests poll for it. Merges, the sending and delivery of frames, the reading
   and arrival of answers, and the loss of the connection happen in any order. The page applies
   every frame, and an answer only if it is not older than what it shows. A frame may take the page
   back behind an answer that overtook it; when the connection has caught up and all its frames are
   delivered, the page shows the current snapshot (`status_shown`). The countdown of a cooling-down
   on the page is left out. -/
namespace CampusAuth.Frontend
open Lib Monitor Status

/-! ## The page -/

/-- The fields of the status on the page. -/
structure Shown where
  monitoring : Bool := false
  engineState : Option EngineState := none
  networkState : NetworkStatus := .unknown
  networkConnected : Bool := false
  pauseActive : Bool := false
  coolingDown : Bool := false
  coolingDownRemaining : Option Nat := none
  connectivity : ConnectivityAssessment := {}
  lastProbeEvidence : Option ProbeEvidence := none
  networkCheckCount : Nat := 0
  loginAttemptCount : Nat := 0
  consecutiveFailures : Nat := 0
  retryCount : Nat := 0
  monitoringSeconds : Nat := 0
  runtimeSeconds : Nat := 0
  lastCheckTime : Option LocalTime := none
  loginStatus : Option LoginStatus := none
  snapshotVersion : Nat := 0
  updateProgress : Option InstallProgress := none
  updateAvailable : Bool := false
  deriving DecidableEq, Repr

/-- `mapBackendStatus`: what may be null in a snapshot stays as it was on the page, but for the rest
    of a cooling-down and the progress of an update. -/
def mapBackendStatus (raw : StatusSnapshot) (status : Shown) : Shown where
  monitoring := raw.engineState = .running
  engineState := some raw.engineState
  networkState := raw.networkStatus
  networkConnected := raw.networkStatus = .online
  pauseActive := raw.pauseActive
  coolingDown := raw.coolingDown
  coolingDownRemaining := raw.coolingDownRemaining
  connectivity := raw.connectivity
  lastProbeEvidence := raw.lastProbeEvidence.or status.lastProbeEvidence
  networkCheckCount := raw.probeTotal
  loginAttemptCount := raw.loginTotal
  consecutiveFailures := raw.consecutiveFailures
  retryCount := raw.retryCount
  monitoringSeconds := raw.monitoringSeconds
  runtimeSeconds := raw.uptimeSeconds
  lastCheckTime := raw.lastCheckTime.or status.lastCheckTime
  loginStatus := some raw.loginStatus
  snapshotVersion := raw.snapshotVersion
  updateProgress := raw.updateProgress
  updateAvailable := raw.updateAvailable

structure View where
  status : Shown := {}
  statusEpoch : Nat := 0
  appliedVersion : Nat := 0
  appliedUptime : Nat := 0

def View.applyStatus (v : View) (raw : StatusSnapshot) : View :=
  { v with
    status := mapBackendStatus raw v.status
    appliedVersion := if 0 < raw.snapshotVersion then raw.snapshotVersion else v.appliedVersion
    appliedUptime := if 0 < raw.uptimeSeconds then raw.uptimeSeconds else v.appliedUptime }

/-- A frame of the connection. -/
def View.updateStatus (v : View) (raw : StatusSnapshot) : View :=
  { v with statusEpoch := v.statusEpoch + 1 }.applyStatus raw

/-- The answer is applied. -/
def View.accepts (v : View) (startEpoch : Nat) (raw : StatusSnapshot) : Bool :=
  if 1 < v.statusEpoch - startEpoch then false
  else if 0 < raw.snapshotVersion then
    !(0 < v.appliedVersion && raw.snapshotVersion < v.appliedVersion)
  else !(0 < raw.uptimeSeconds && raw.uptimeSeconds < v.appliedUptime)

/-- What `fetchStatus` does with an answer. -/
def View.fetched (v : View) (startEpoch : Nat) (raw : StatusSnapshot) : View :=
  if v.accepts startEpoch raw then v.applyStatus raw else v

/-! ## The server and what is on the way -/

/-- Where the task of a connection stands (`handle_logs`). -/
inductive Sender where
  /-- The first frame is still to be sent. -/
  | greeting
  /-- Waiting for a change. -/
  | waiting
  /-- A change was noticed, and the snapshot is to be read. -/
  | due
  deriving DecidableEq

structure Connection where
  sender : Sender
  /-- The version the receiver has seen. -/
  seen : Nat
  /-- Sent and not yet delivered. -/
  wire : List StatusSnapshot

structure Poll where
  startEpoch : Nat
  answer : Option StatusSnapshot

structure StatusSystem where
  board : Board
  connection : Option Connection
  polls : Pool (Option Poll)
  view : View

inductive StatusEvent where
  | merge (now : LocalTime) (update : Update)
  | connect
  | greet
  | notice
  | push
  | deliver
  | lose
  | ask
  | read (poll : Nat)
  | arrive (poll : Nat)
  | fail (poll : Nat)

namespace StatusSystem

def step (s : StatusSystem) : StatusEvent → Option (StatusSystem × List Empty)
  | .merge now update => some ({ s with board := s.board.merge now update }, [])
  | .connect =>
    some ({ s with connection := some ⟨.greeting, s.board.current.snapshotVersion, []⟩ }, [])
  | .greet =>
    match s.connection with
    | some ⟨.greeting, seen, wire⟩ =>
      some ({ s with connection := some ⟨.waiting, seen, wire ++ [s.board.current]⟩ }, [])
    | _ => none
  | .notice =>
    match s.connection with
    | some ⟨.waiting, seen, wire⟩ =>
      if seen < s.board.current.snapshotVersion then
        some ({ s with connection := some ⟨.due, s.board.current.snapshotVersion, wire⟩ }, [])
      else none
    | _ => none
  | .push =>
    match s.connection with
    | some ⟨.due, seen, wire⟩ =>
      some ({ s with connection := some ⟨.waiting, seen, wire ++ [s.board.current]⟩ }, [])
    | _ => none
  | .deliver =>
    match s.connection with
    | some ⟨sender, seen, frame :: wire⟩ =>
      some ({ s with connection := some ⟨sender, seen, wire⟩, view := s.view.updateStatus frame },
        [])
    | _ => none
  | .lose => some ({ s with connection := none }, [])
  | .ask => some ({ s with polls := s.polls ++ [some ⟨s.view.statusEpoch, none⟩] }, [])
  | .read poll =>
    match s.polls[poll]? with
    | some (some ⟨startEpoch, none⟩) =>
      some ({ s with polls := s.polls.set poll (some ⟨startEpoch, some s.board.current⟩) }, [])
    | _ => none
  | .arrive poll =>
    match s.polls[poll]? with
    | some (some ⟨startEpoch, some raw⟩) =>
      some ({ s with polls := s.polls.set poll none, view := s.view.fetched startEpoch raw }, [])
    | _ => none
  | .fail poll =>
    match s.polls[poll]? with
    | some (some _) => some ({ s with polls := s.polls.set poll none }, [])
    | _ => none

end StatusSystem

def statusMachine : Machine StatusSystem StatusEvent Empty where
  step := StatusSystem.step

/-- The page is opened on a server that has merged something already. -/
structure StatusSystem.Opened (s : StatusSystem) : Prop where
  board : BoardOk s.board
  connection : s.connection = none
  polls : s.polls = []
  view : s.view = {}

/-- The page shows this snapshot. -/
def View.Shows (v : View) (raw : StatusSnapshot) : Prop :=
  v.appliedVersion = raw.snapshotVersion ∧ ∃ before, v.status = mapBackendStatus raw before

/-- Everything of the connection has been sent and delivered. -/
def StatusSystem.CaughtUp (s : StatusSystem) : Prop :=
  s.connection = some ⟨.waiting, s.board.current.snapshotVersion, []⟩

/-! ## What every step keeps -/

structure StatusInv (s : StatusSystem) : Prop where
  board : BoardOk s.board
  view : (s.view.appliedVersion = 0 ∧ s.view.status = {}) ∨
    ∃ x ∈ s.board.published, s.view.Shows x
  wire : ∀ c, s.connection = some c → c.seen ≤ s.board.current.snapshotVersion ∧
    (∀ x ∈ c.wire, x ∈ s.board.published) ∧ (c.sender = .greeting → c.wire = []) ∧
    (c.sender = .waiting → c.seen ≤ (c.wire.getLast?.map (·.snapshotVersion)).getD
      s.view.appliedVersion)
  polls : Pool.All (fun _ poll => ∀ p, poll = some p → ∀ x, p.answer = some x →
    x ∈ s.board.published) s.polls

/-- Numbers of the page are exact below this. -/
def exactBelow : Nat := 2 ^ 53

variable {s t : StatusSystem}

theorem View.Shows.applied (v : View) {x : StatusSnapshot} (hx : 0 < x.snapshotVersion) :
    (v.applyStatus x).Shows x :=
  ⟨if_pos hx, v.status, rfl⟩

/-- An answer that is applied is not older than what the page shows. -/
theorem View.fetched_cases (v : View) (startEpoch : Nat) {x : StatusSnapshot}
    (hx : 0 < x.snapshotVersion) :
    v.fetched startEpoch x = v ∨
      (v.fetched startEpoch x = v.applyStatus x ∧ v.appliedVersion ≤ x.snapshotVersion) := by
  unfold View.fetched
  split
  next haccepts =>
    refine .inr ⟨rfl, ?_⟩
    unfold View.accepts at haccepts
    split at haccepts
    · cases haccepts
    · simp only [Bool.not_eq_true', Bool.and_eq_false_iff, decide_eq_false_iff_not] at haccepts
      omega
  next => exact .inl rfl

theorem StatusInv.merge (h : StatusInv s) (hroom : s.board.current.snapshotVersion < exactBelow)
    (now : LocalTime) (update : Update) :
    StatusInv { s with board := s.board.merge now update } := by
  have hversion := version_merge (hroom.trans (by decide)) now update
  have hkept : ∀ {x}, x ∈ s.board.published → x ∈ (s.board.merge now update).published :=
    List.mem_cons_of_mem _
  refine ⟨h.board.merge (hroom.trans (by decide)) now update, ?_, fun c hc => ?_, ?_⟩
  · exact h.view.imp_right fun ⟨x, hx, hshows⟩ => ⟨x, hkept hx, hshows⟩
  · obtain ⟨hseen, hwire, hgreeting, hwaiting⟩ := h.wire c hc
    refine ⟨hseen.trans ?_, fun x hx => hkept (hwire x hx), hgreeting, hwaiting⟩
    show s.board.current.snapshotVersion ≤ (Status.merge s.board.current now update).snapshotVersion
    omega
  · exact h.polls.imp fun i poll hpoll p hp x hx => hkept (hpoll p hp x hx)

theorem StatusInv.connection (h : StatusInv s) {c : Connection}
    (hseen : c.seen ≤ s.board.current.snapshotVersion)
    (hwire : ∀ x ∈ c.wire, x ∈ s.board.published) (hgreeting : c.sender = .greeting → c.wire = [])
    (hwaiting : c.sender = .waiting → c.seen ≤
      (c.wire.getLast?.map (·.snapshotVersion)).getD s.view.appliedVersion) :
    StatusInv { s with connection := some c } where
  board := h.board
  view := h.view
  wire c' hc' := by
    cases hc'
    exact ⟨hseen, hwire, hgreeting, hwaiting⟩
  polls := h.polls

/-- The current snapshot is sent. -/
theorem StatusInv.send (h : StatusInv s) {c : Connection} (hc : s.connection = some c) :
    StatusInv { s with
      connection := some ⟨.waiting, c.seen, c.wire ++ [s.board.current]⟩ } := by
  obtain ⟨hseen, hwire, -, -⟩ := h.wire c hc
  refine h.connection hseen (fun x hx => ?_) (fun hs => nomatch hs) fun _ => ?_
  · rcases List.mem_append.mp hx with hx | hx
    · exact hwire x hx
    · rw [List.mem_singleton.mp hx]
      exact h.board.current
  · simpa using hseen

theorem StatusInv.deliver (h : StatusInv s) {sender : Sender} {seen : Nat} {frame : StatusSnapshot}
    {wire : List StatusSnapshot} (hc : s.connection = some ⟨sender, seen, frame :: wire⟩) :
    StatusInv { s with connection := some ⟨sender, seen, wire⟩,
                       view := s.view.updateStatus frame } := by
  obtain ⟨hseen, hwire, hgreeting, hwaiting⟩ := h.wire _ hc
  have hframe := hwire frame List.mem_cons_self
  have hshows : (s.view.updateStatus frame).Shows frame :=
    View.Shows.applied _ (h.board.range frame hframe).1
  refine ⟨h.board, .inr ⟨frame, hframe, hshows⟩, fun c hc' => ?_, h.polls⟩
  cases hc'
  refine ⟨hseen, fun x hx => hwire x (List.mem_cons_of_mem _ hx), fun hs => ?_, fun hs => ?_⟩
  · cases hgreeting hs
  · have hlast := hwaiting hs
    cases wire with
    | nil => simpa [hshows.1] using hlast
    | cons next wire =>
      obtain ⟨last, hend⟩ := Option.ne_none_iff_exists'.mp
        (mt List.getLast?_eq_none_iff.mp (List.cons_ne_nil next wire))
      rw [List.getLast?_cons_cons, hend] at hlast
      simpa [hend] using hlast

/-- An answer arrives: what the page shows is no older than before. -/
theorem StatusInv.arrive (h : StatusInv s) {poll startEpoch : Nat} {raw : StatusSnapshot}
    (hp : s.polls[poll]? = some (some ⟨startEpoch, some raw⟩)) :
    s.view.appliedVersion ≤ (s.view.fetched startEpoch raw).appliedVersion ∧
      StatusInv { s with polls := s.polls.set poll none,
                         view := s.view.fetched startEpoch raw } := by
  have hraw := h.polls poll _ hp _ rfl raw rfl
  have hpos := (h.board.range raw hraw).1
  have hpolls : Pool.All (fun _ poll => ∀ p, poll = some p → ∀ x, p.answer = some x →
      x ∈ s.board.published) (s.polls.set poll none) :=
    h.polls.set (fun _ _ _ hq => hq) fun p hp => nomatch hp
  obtain heq | ⟨heq, hle⟩ := s.view.fetched_cases startEpoch hpos
  · rw [heq]
    exact ⟨Nat.le_refl _, h.board, h.view, h.wire, hpolls⟩
  · have hshows := View.Shows.applied s.view hpos
    rw [heq]
    refine ⟨hle.trans (Nat.le_of_eq hshows.1.symm), h.board, .inr ⟨raw, hraw, hshows⟩, ?_, hpolls⟩
    intro c hc
    obtain ⟨hseen, hwire, hgreeting, hwaiting⟩ := h.wire c hc
    refine ⟨hseen, hwire, hgreeting, fun hs => ?_⟩
    have hold := hwaiting hs
    show c.seen ≤ (c.wire.getLast?.map (·.snapshotVersion)).getD
      (s.view.applyStatus raw).appliedVersion
    rw [hshows.1]
    cases hlast : c.wire.getLast? with
    | none =>
      rw [hlast] at hold
      exact Nat.le_trans hold hle
    | some x =>
      rw [hlast] at hold
      exact hold

theorem statusInv_step {e : StatusEvent} {os : List Empty} (h : StatusInv s)
    (hroom : s.board.current.snapshotVersion < exactBelow) (hstep : s.step e = some (t, os)) :
    StatusInv t := by
  cases e with
  | merge now update =>
    cases hstep
    exact h.merge hroom now update
  | connect =>
    cases hstep
    exact h.connection (Nat.le_refl _) (fun x hx => absurd hx List.not_mem_nil) (fun _ => rfl)
      (fun hs => nomatch hs)
  | greet =>
    simp only [StatusSystem.step] at hstep
    split at hstep <;> cases hstep
    next hc => exact h.send hc
  | notice =>
    simp only [StatusSystem.step] at hstep
    split at hstep
    next hc =>
      split at hstep <;> cases hstep
      obtain ⟨-, hwire, -, -⟩ := h.wire _ hc
      exact h.connection (Nat.le_refl _) hwire (fun hs => nomatch hs) (fun hs => nomatch hs)
    next => cases hstep
  | push =>
    simp only [StatusSystem.step] at hstep
    split at hstep <;> cases hstep
    next hc => exact h.send hc
  | deliver =>
    simp only [StatusSystem.step] at hstep
    split at hstep <;> cases hstep
    next hc => exact h.deliver hc
  | lose =>
    cases hstep
    exact ⟨h.board, h.view, fun c hc => (nomatch hc), h.polls⟩
  | ask =>
    cases hstep
    refine ⟨h.board, h.view, h.wire, h.polls.spawn (fun _ _ hq => hq) fun p hp x hx => ?_⟩
    cases hp
    cases hx
  | read poll =>
    simp only [StatusSystem.step] at hstep
    split at hstep <;> cases hstep
    refine ⟨h.board, h.view, h.wire, h.polls.set (fun _ _ _ hq => hq) fun p hp x hx => ?_⟩
    cases hp
    cases hx
    exact h.board.current
  | arrive poll =>
    simp only [StatusSystem.step] at hstep
    split at hstep <;> cases hstep
    next hp => exact (h.arrive hp).2
  | fail poll =>
    simp only [StatusSystem.step] at hstep
    split at hstep <;> cases hstep
    exact ⟨h.board, h.view, h.wire, h.polls.set (fun _ _ _ hq => hq) fun p hp => nomatch hp⟩

theorem statusInv_run {es : List StatusEvent} {os : List Empty} (hopen : s.Opened)
    (hroom : statusMachine.Along (fun s _ => s.board.current.snapshotVersion < exactBelow) s es)
    (hrun : statusMachine.Steps s es os t) : StatusInv t := by
  obtain ⟨hboard, hconnection, hpolls, hview⟩ := hopen
  have hstart : StatusInv s := by
    refine ⟨hboard, .inl (by rw [hview]; exact ⟨rfl, rfl⟩), fun c hc => ?_, ?_⟩
    · rw [hconnection] at hc
      cases hc
    · rw [hpolls]
      exact .nil
  exact hrun.invariant (I := StatusInv) (fun h hroom hstep => statusInv_step h hroom hstep) hroom
    hstart

/-- What the page shows when the connection has caught up is no older than the current snapshot, and
    the versions tell that it is this one. -/
theorem StatusInv.caughtUp (h : StatusInv t) (hcaught : t.CaughtUp) :
    t.view.Shows t.board.current := by
  have hseen := (h.wire _ hcaught).2.2.2 rfl
  have hpos := (h.board.range _ h.board.current).1
  simp only [List.getLast?_nil, Option.map_none, Option.getD_none] at hseen
  obtain ⟨hzero, -⟩ | ⟨x, hx, hshows⟩ := h.view
  · omega
  · have hle := (h.board.range x hx).2
    have hversion := hshows.1
    rwa [← h.board.unique x hx _ h.board.current (by omega)]

/-- In whatever order merges, frames and answers come: what the page shows was published, an answer
    never takes it back, and when the connection has caught up it is the current snapshot. -/
theorem status_shown {es : List StatusEvent} {os : List Empty} (hopen : s.Opened)
    (hroom : statusMachine.Along (fun s _ => s.board.current.snapshotVersion < exactBelow) s es)
    (hrun : statusMachine.Steps s es os t) :
    (t.view.status = {} ∨ ∃ x ∈ t.board.published, t.view.Shows x) ∧
      (∀ poll u os, t.step (.arrive poll) = some (u, os) →
        t.view.appliedVersion ≤ u.view.appliedVersion) ∧
      (t.CaughtUp → t.view.Shows t.board.current) := by
  have hinv := statusInv_run hopen hroom hrun
  refine ⟨hinv.view.imp_left (·.2), fun poll u os hstep => ?_, hinv.caughtUp⟩
  simp only [StatusSystem.step] at hstep
  split at hstep <;> cases hstep
  next hp => exact (hinv.arrive hp).1

/-- A page on a server up for five seconds, and what happens: an answer overtakes the frames of a
    login that begins. -/
def openedStatus : StatusSystem where
  board := Board.merge ⟨{}, []⟩ ⟨0, 0, 0⟩ (.uptime 5)
  connection := none
  polls := []
  view := {}

def overtaken : List StatusEvent :=
  [.connect, .ask, .greet, .merge ⟨1, 0, 1⟩ (.service (.login .running (some .manual) none 0)),
    .read 0, .arrive 0, .notice]

theorem openedStatus_opened : openedStatus.Opened where
  board := ⟨List.mem_cons_self, by simp [openedStatus, Board.merge]; decide, by
    simp [openedStatus, Board.merge]⟩
  connection := rfl
  polls := rfl
  view := rfl

theorem status_shown_sample : ∃ t os,
    statusMachine.Steps openedStatus (overtaken ++ [.deliver, .push, .deliver]) os t ∧
      t.view.Shows t.board.current ∧ t.view.status.loginStatus = some .running := by
  have hrun : statusMachine.Steps openedStatus (overtaken ++ [.deliver, .push, .deliver]) _ _ :=
    Machine.steps_of_exec rfl
  exact ⟨_, _, hrun, (status_shown openedStatus_opened (by decide) hrun).2.2 rfl, rfl⟩

/-! ## Catching up -/

/-- The server merges nothing, and the connection lives on. -/
def StatusEvent.quiet : StatusEvent → Bool
  | .merge _ _ | .connect | .lose => false
  | _ => true

/-- A step of the connection. -/
def StatusEvent.moves : StatusEvent → Bool
  | .greet | .notice | .push | .deliver => true
  | _ => false

/-- The steps the connection has before it: a frame on the way is to be delivered, one that is due
    to be sent as well, and a change to be noticed before. -/
def StatusSystem.backlog (s : StatusSystem) : Nat :=
  match s.connection with
  | none => 0
  | some c =>
    c.wire.length + (if c.sender = .waiting then 0 else 2) +
      if c.seen < s.board.current.snapshotVersion then 3 else 0

theorem backlog_step {e : StatusEvent} {os : List Empty} (hquiet : e.quiet = true)
    (hstep : s.step e = some (t, os)) :
    t.board = s.board ∧ t.connection.isSome = s.connection.isSome ∧
      (if e.moves then 1 else 0) + t.backlog = s.backlog := by
  cases e with
  | merge | connect | lose => cases hquiet
  | greet | push =>
    simp only [StatusSystem.step] at hstep
    split at hstep <;> cases hstep
    next hc =>
      refine ⟨rfl, by simp [hc], ?_⟩
      simp only [StatusEvent.moves, StatusSystem.backlog, hc, List.length_append,
        List.length_singleton, if_true, reduceCtorEq, if_false]
      omega
  | notice =>
    simp only [StatusSystem.step] at hstep
    split at hstep
    next hc =>
      split at hstep <;> cases hstep
      next hlt =>
        refine ⟨rfl, by simp [hc], ?_⟩
        simp only [StatusEvent.moves, StatusSystem.backlog, hc, hlt, if_true, reduceCtorEq,
          if_false, Nat.lt_irrefl]
        omega
    next => cases hstep
  | deliver =>
    simp only [StatusSystem.step] at hstep
    split at hstep <;> cases hstep
    next hc =>
      refine ⟨rfl, by simp [hc], ?_⟩
      simp only [StatusEvent.moves, StatusSystem.backlog, hc, List.length_cons, if_true]
      omega
  | ask =>
    cases hstep
    exact ⟨rfl, rfl, Nat.zero_add _⟩
  | read | arrive | fail =>
    simp only [StatusSystem.step] at hstep
    split at hstep <;> cases hstep
    exact ⟨rfl, rfl, Nat.zero_add _⟩

theorem backlog_run {es : List StatusEvent} {os : List Empty} (hrun : statusMachine.Steps s es os t)
    (hquiet : ∀ e ∈ es, e.quiet = true) :
    t.board = s.board ∧ t.connection.isSome = s.connection.isSome ∧
      es.countP StatusEvent.moves + t.backlog = s.backlog := by
  induction hrun with
  | nil => exact ⟨rfl, rfl, Nat.zero_add _⟩
  | cons hstep _ ih =>
    obtain ⟨hboard, hlive, hsteps⟩ := backlog_step (hquiet _ List.mem_cons_self) hstep
    obtain ⟨hboard', hlive', hsteps'⟩ := ih fun e he => hquiet e (List.mem_cons_of_mem _ he)
    refine ⟨hboard'.trans hboard, hlive'.trans hlive, ?_⟩
    rw [List.countP_cons]
    omega

/-- A connection that has not caught up can take a step. -/
theorem backlog_enabled (hpos : 0 < s.backlog) :
    ∃ e, e.moves = true ∧ (s.step e).isSome = true := by
  unfold StatusSystem.backlog at hpos
  split at hpos
  next => exact absurd hpos (Nat.lt_irrefl 0)
  next c hc =>
    obtain ⟨sender, seen, wire⟩ := c
    cases sender with
    | greeting => exact ⟨.greet, rfl, by simp [StatusSystem.step, hc]⟩
    | due => exact ⟨.push, rfl, by simp [StatusSystem.step, hc]⟩
    | waiting =>
      by_cases hlt : seen < s.board.current.snapshotVersion
      · exact ⟨.notice, rfl, by simp [StatusSystem.step, hc, hlt]⟩
      · cases wire with
        | nil => simp [hlt] at hpos
        | cons frame wire => exact ⟨.deliver, rfl, by simp [StatusSystem.step, hc]⟩

/-- With nothing before it a live connection has caught up. -/
theorem StatusInv.settled (h : StatusInv s) (hlive : s.connection.isSome = true)
    (hnone : s.backlog = 0) : s.CaughtUp := by
  obtain ⟨⟨sender, seen, wire⟩, hc⟩ := Option.isSome_iff_exists.mp hlive
  have hle := (h.wire _ hc).1
  simp only [StatusSystem.backlog, hc, Nat.add_eq_zero_iff, List.length_eq_zero_iff,
    ite_eq_left_iff, ite_eq_right_iff] at hnone
  obtain ⟨⟨rfl, hsender⟩, hseen⟩ := hnone
  have hwaiting : sender = .waiting := by
    by_contra hne
    cases hsender hne
  have heq : seen = s.board.current.snapshotVersion := by
    by_contra hne
    cases hseen (lt_of_le_of_ne hle hne)
  rw [StatusSystem.CaughtUp, hc, hwaiting, heq]

/-- Once the server merges nothing more and the connection lives, polls in between or not: the
    connection has a step to take until it has taken as many as it had before it, and then the page
    shows the current snapshot. -/
theorem status_settles {u : StatusSystem} {es fs : List StatusEvent} {os os' : List Empty}
    (hopen : s.Opened)
    (hroom : statusMachine.Along (fun s _ => s.board.current.snapshotVersion < exactBelow) s
      (es ++ fs))
    (hrun : statusMachine.Steps s es os t) (hlive : t.connection.isSome = true)
    (hquiet : ∀ e ∈ fs, e.quiet = true) (hrest : statusMachine.Steps t fs os' u) :
    fs.countP StatusEvent.moves ≤ t.backlog ∧
      (fs.countP StatusEvent.moves < t.backlog →
        ∃ e, e.moves = true ∧ (u.step e).isSome = true) ∧
      (fs.countP StatusEvent.moves = t.backlog → u.view.Shows t.board.current) := by
  have hinv := statusInv_run hopen hroom (hrun.append hrest)
  obtain ⟨hboard, hsome, hsteps⟩ := backlog_run hrest hquiet
  refine ⟨by omega, fun hlt => backlog_enabled (by omega), fun heq => ?_⟩
  rw [← hboard]
  exact hinv.caughtUp (hinv.settled (hsome.trans hlive) (by omega))

theorem status_settles_sample : ∃ t u os os', statusMachine.Steps openedStatus overtaken os t ∧
    t.backlog = 3 ∧ statusMachine.Steps t [.deliver, .ask, .push, .deliver, .fail 1] os' u ∧
    u.view.Shows t.board.current := by
  have hrun : statusMachine.Steps openedStatus overtaken _
      (statusMachine.advance openedStatus overtaken) := Machine.steps_of_exec rfl
  have hrest : statusMachine.Steps (statusMachine.advance openedStatus overtaken)
      [.deliver, .ask, .push, .deliver, .fail 1] _ _ := Machine.steps_of_exec rfl
  exact ⟨_, _, _, _, hrun, rfl, hrest,
    (status_settles openedStatus_opened (by decide) hrun rfl (by decide) hrest).2.2 rfl⟩

end CampusAuth.Frontend
