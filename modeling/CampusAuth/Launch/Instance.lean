import CampusAuth.Lib.Lines
import CampusAuth.Lib.Machine
import CampusAuth.Lib.Numerals
import CampusAuth.Lib.Pool
import CampusAuth.Lib.Trim

/- One instance at a time (`utils/lock.rs`, and who takes the lock in `launcher.rs` and `main.rs`).

   Processes are started plainly, with `--force`, as the successor of a restart or with `--stop`;
   their steps come in any order, and any of them may die at any point. The lock file belongs to one
   process, and goes free when that one dies. The info file is not under the lock: every process may
   remove it, its holder writes it in two steps, and a dead holder leaves it behind. Operations on
   the files do not fail. -/
namespace CampusAuth.Launch
open Lib

abbrev Pid := Fin (2 ^ 32)

abbrev Port := Fin (2 ^ 16)

/-! ## The info file -/

/-- What `record_port` writes. -/
def record (pid : Pid) (port : Port) : Text :=
  (toString pid.val).toList ++ '\n' :: ((toString port.val).toList ++ ['\n'])

/-- `str::lines`; a carriage return before the end of a line stays, and goes with the trim. -/
def lines (content : Text) : List Text :=
  let (ended, left) := splitLines '\n' content
  if left.isEmpty then ended else ended ++ [left]

structure InstanceInfo where
  pid : Nat
  port : Nat
  running : Bool
  deriving DecidableEq, Repr

/-- `query_instance`, but for the uptime. -/
def queryInstance (isProcessAlive : Nat → Bool) (info : Option Text) : Option InstanceInfo := do
  let content ← info
  let pid ← parseUnsigned (2 ^ 32) (strip (← (lines content)[0]?))
  let port ← parseUnsigned (2 ^ 16) (strip (← (lines content)[1]?))
  some ⟨pid, port, isProcessAlive pid⟩

theorem queryInstance_truncated (alive : Nat → Bool) : queryInstance alive (some []) = none := rfl

theorem strip_numeral {bound n : Nat} {text : Text} (h : Numeral bound text n) :
    strip text = text := by
  refine trimBy_of_solid fun c hc => Bool.eq_false_iff.mpr fun hwhite => ?_
  have hdigit := h.digits c hc
  simp only [Char.isDigit, isWhitespace, Bool.and_eq_true, Bool.or_eq_true, decide_eq_true_eq,
    beq_iff_eq, Char.toNat, UInt32.le_iff_toNat_le] at hdigit hwhite
  have hlow : '0'.val.toNat = 48 := rfl
  have hhigh : '9'.val.toNat = 57 := rfl
  omega

/-- What was recorded is read back. -/
theorem queryInstance_record (alive : Nat → Bool) (pid : Pid) (port : Port) :
    queryInstance alive (some (record pid port)) = some ⟨pid, port, alive pid⟩ := by
  have hpid : Numeral (2 ^ 32) (toString pid.val).toList pid := numeral_toString pid.isLt
  have hport : Numeral (2 ^ 16) (toString port.val).toList port := numeral_toString port.isLt
  have hlines : lines (record pid port) =
      [(toString pid.val).toList, (toString port.val).toList] := by
    rw [lines, record, splitLines_line (hpid.not_mem (by decide)),
      splitLines_line (hport.not_mem (by decide))]
    rfl
  simp only [queryInstance, Option.bind_eq_bind, Option.bind_some, hlines, List.getElem?_cons_zero,
    List.getElem?_cons_succ, strip_numeral hpid, strip_numeral hport, parseUnsigned_numeral hpid,
    parseUnsigned_numeral hport]

/-! ## Processes -/

inductive Start where
  | plain | force | restarting | stop
  deriving DecidableEq

/-- Which `try_acquire` it is. -/
inductive Attempt where
  | first
  /-- After a kill, with so many more to come. -/
  | retry (left : Nat)
  /-- After the leftover info was removed. -/
  | last
  deriving DecidableEq

inductive Phase where
  | trying (attempt : Attempt)
  /-- The lock is taken, the info another one left is still there. -/
  | cleaning
  /-- The handle lives, and this port was recorded. -/
  | holding (port : Option Port)
  /-- The info file is empty, and the port is to be written. -/
  | recording (port : Port)
  | dropping (port : Option Port)
  /-- The info is removed, the file of the lock still open. -/
  | closing
  /-- The lock was taken, or `--stop`: the info is to be read. -/
  | asking
  | killing (pid : Nat)
  | removing
  | ended
  deriving DecidableEq

/-- The process has the lock file locked. -/
def Phase.holds : Phase → Bool
  | .cleaning | .holding _ | .recording _ | .dropping _ | .closing => true
  | _ => false

/-- The info file is this process's to fill. -/
def Phase.settled : Phase → Bool
  | .holding _ | .recording _ | .dropping _ => true
  | _ => false

/-- The port that was recorded. -/
def Phase.port : Phase → Option Port
  | .holding port | .dropping port => port
  | _ => none

theorem Phase.holds_of_settled {phase : Phase} (h : phase.settled = true) : phase.holds = true := by
  cases phase <;> first | rfl | simp [settled] at h

theorem Phase.settled_of_port {phase : Phase} {port : Port} (h : phase.port = some port) :
    phase.settled = true := by
  cases phase <;> first | rfl | simp [Phase.port] at h

theorem Phase.port_of_not_holds {phase : Phase} (h : phase.holds = false) : phase.port = none := by
  cases hport : phase.port with
  | none => rfl
  | some port =>
    rw [holds_of_settled (settled_of_port hport)] at h
    cases h

structure Process where
  pid : Pid
  start : Start
  phase : Phase
  deriving DecidableEq

def Process.live (p : Process) : Bool := p.phase ≠ .ended

structure Host where
  info : Option Text
  lock : Option Nat
  processes : Pool Process

/-- What the machine answers in a turn. -/
structure Answers where
  /-- The pid that is asked for is one of another program. -/
  foreign : Bool := false
  /-- `is_own_process`. -/
  own : Bool := false
  /-- The successor of a restart has waited long enough. -/
  timedOut : Bool := false

inductive LaunchEvent where
  | launch (pid : Pid) (start : Start)
  | turn (process : Nat) (answers : Answers)
  | record (process : Nat) (port : Port)
  | quit (process : Nat)
  | die (process : Nat)

/-- Behind a `try_acquire` that failed. -/
def Attempt.failed (attempt : Attempt) (start : Start) (timedOut : Bool) : Phase :=
  match attempt with
  | .first =>
    match start with
    | .plain | .stop => .ended
    | .force => .asking
    | .restarting => if timedOut then .ended else .trying .first
  | .retry 0 => .ended
  | .retry (left + 1) => .trying (.retry left)
  | .last => .ended

/-- What a process does that has asked for the info. -/
def Start.asked (start : Start) (own : Bool) : Option InstanceInfo → Phase
  | none => if start = .stop then .ended else .removing
  | some info =>
    if !info.running then .removing
    -- The one that runs is asked to shut down, which is an event of its own.
    else if start = .stop then .ended
    else if own then .killing info.pid
    else .removing

namespace Host

def alive (s : Host) (pid : Nat) : Bool := s.processes.any fun p => p.live && p.pid.val == pid

def move (s : Host) (i : Nat) (p : Process) (phase : Phase) : Host :=
  { s with processes := s.processes.set i { p with phase } }

/-- The process ends, and what it had locked is free. -/
def finish (s : Host) (i : Nat) (p : Process) : Host :=
  { s.move i p .ended with lock := if p.phase.holds then none else s.lock }

/-- `force_kill`. -/
def forceKill (s : Host) (pid : Nat) : Host :=
  match s.processes.findIdx? fun p => p.live && p.pid.val == pid with
  | none => s
  | some i =>
    match s.processes[i]? with
    | none => s
    | some p => s.finish i p

def turn (s : Host) (i : Nat) (p : Process) (answers : Answers) : Option Host :=
  match p.phase with
  | .trying attempt =>
    if s.lock = none then some { s.move i p .cleaning with lock := some i }
    else some (s.move i p (attempt.failed p.start answers.timedOut))
  | .cleaning => some { s.move i p (.holding none) with info := none }
  | .recording port => some { s.move i p (.holding port) with info := some (record p.pid port) }
  | .dropping _ => some { s.move i p .closing with info := none }
  | .closing => some (s.finish i p)
  | .asking =>
    let info := queryInstance (fun pid => answers.foreign || s.alive pid) s.info
    some (s.move i p (p.start.asked answers.own info))
  | .killing pid => some ((s.move i p (.trying (.retry 4))).forceKill pid)
  | .removing =>
    let phase := if p.start = .stop then .ended else .trying .last
    some { s.move i p phase with info := none }
  | .holding _ | .ended => none

def step (s : Host) : LaunchEvent → Option (Host × List Empty)
  | .launch pid start =>
    if s.alive pid then none
    else
      let phase := if start = .stop then .asking else .trying .first
      some ({ s with processes := s.processes ++ [⟨pid, start, phase⟩] }, [])
  | .turn i answers =>
    match s.processes[i]? with
    | none => none
    | some p => (s.turn i p answers).map (·, [])
  | .record i port =>
    match s.processes[i]? with
    | some ⟨pid, start, .holding before⟩ =>
      let next := s.move i ⟨pid, start, .holding before⟩ (.recording port)
      some ({ next with info := some [] }, [])
    | _ => none
  | .quit i =>
    match s.processes[i]? with
    | some ⟨pid, start, .holding port⟩ =>
      some (s.move i ⟨pid, start, .holding port⟩ (.dropping port), [])
    | _ => none
  | .die i =>
    match s.processes[i]? with
    | none => none
    | some p => some (s.finish i p, [])

end Host

def launchMachine : Machine Host LaunchEvent Empty where
  step := Host.step

/-- Nothing has been started; the info file may be anything. -/
structure Host.Fresh (s : Host) : Prop where
  processes : s.processes = []
  lock : s.lock = none

/-! ## What every step keeps -/

/-- What the info file can be beside this process. -/
structure Told (info : Option Text) (p : Process) : Prop where
  settled : p.phase.settled = true →
    info = none ∨ info = some [] ∨
      ∃ port, p.phase.port = some port ∧ info = some (record p.pid port)
  closing : p.phase = .closing → info = none

structure LaunchInv (s : Host) : Prop where
  owned : Pool.Owned (fun p : Process => p.phase.holds) s.lock s.processes
  told : Pool.All (fun _ p => Told s.info p) s.processes

theorem Told.of_not_holds {info : Option Text} {p : Process} (h : p.phase.holds = false) :
    Told info p := by
  constructor
  · intro hsettled
    rw [Phase.holds_of_settled hsettled] at h
    cases h
  · intro hclosing
    rw [hclosing] at h
    cases h

theorem Told.none (p : Process) : Told none p := ⟨fun _ => .inl rfl, fun _ => rfl⟩

variable {s t : Host} {i : Nat} {p : Process} {phase : Phase}

/-- A process moves: the lock passes, and the info stays, goes, or is written by its holder. -/
theorem LaunchInv.move (h : LaunchInv s) (hat : s.processes[i]? = some p) {lock : Option Nat}
    {info : Option Text} (hlock : Pool.Passes i s.lock lock p.phase.holds phase.holds)
    (hinfo : info = s.info ∨ info = none ∨ p.phase.holds = true)
    (hself : Told info { p with phase }) :
    LaunchInv ⟨info, lock, s.processes.set i { p with phase }⟩ where
  owned := h.owned.set hat hlock
  told := by
    intro j r hj
    obtain ⟨rfl, rfl⟩ | ⟨hne, hj⟩ := Pool.of_set hj
    · exact hself
    · have hr := h.told j r hj
      obtain rfl | rfl | hholds := hinfo
      · exact hr
      · exact .none r
      · refine .of_not_holds (Bool.eq_false_iff.mpr fun hr => hne ?_)
        exact h.owned.unique hj hat hr hholds

theorem LaunchInv.finish (h : LaunchInv s) (hat : s.processes[i]? = some p) :
    LaunchInv (s.finish i p) := by
  refine h.move hat ?_ (.inl rfl) (.of_not_holds rfl)
  cases hp : p.phase.holds with
  | true => exact .inr (.inr ⟨rfl, rfl, rfl⟩)
  | false => exact .inl ⟨rfl, rfl⟩

theorem LaunchInv.forceKill (h : LaunchInv s) (pid : Nat) : LaunchInv (s.forceKill pid) := by
  unfold Host.forceKill
  split
  next => exact h
  next i _ =>
    split
    next => exact h
    next p hat => exact h.finish hat

/-- A process that does not hold the lock moves on without it. -/
theorem LaunchInv.pass (h : LaunchInv s) (hat : s.processes[i]? = some p) {info : Option Text}
    (hinfo : info = s.info ∨ info = none) (hp : p.phase.holds = false)
    (hnext : phase.holds = false) :
    LaunchInv ⟨info, s.lock, s.processes.set i { p with phase }⟩ :=
  h.move hat (.inl ⟨rfl, hnext.trans hp.symm⟩) (hinfo.imp_right .inl) (.of_not_holds hnext)

theorem failed_not_holds (attempt : Attempt) (start : Start) (timedOut : Bool) :
    (attempt.failed start timedOut).holds = false := by
  unfold Attempt.failed
  repeat' split
  all_goals rfl

theorem asked_not_holds (start : Start) (own : Bool) (info : Option InstanceInfo) :
    (start.asked own info).holds = false := by
  unfold Start.asked
  repeat' split
  all_goals rfl

theorem LaunchInv.turn (h : LaunchInv s) (hat : s.processes[i]? = some p) {answers : Answers}
    (hturn : s.turn i p answers = some t) : LaunchInv t := by
  obtain ⟨pid, start, phase⟩ := p
  cases phase with
  | trying attempt =>
    simp only [Host.turn] at hturn
    split at hturn <;> cases hturn
    next hfree => exact h.move hat (.inr (.inl ⟨hfree, rfl, rfl⟩)) (.inl rfl) ⟨nofun, nofun⟩
    next => exact h.pass hat (.inl rfl) rfl (failed_not_holds _ _ _)
  | cleaning =>
    cases hturn
    exact h.move hat (.inl ⟨rfl, rfl⟩) (.inr (.inl rfl)) (.none _)
  | recording port =>
    cases hturn
    refine h.move hat (.inl ⟨rfl, rfl⟩) (.inr (.inr rfl)) ⟨fun _ => ?_, nofun⟩
    exact .inr (.inr ⟨port, rfl, rfl⟩)
  | dropping port =>
    cases hturn
    exact h.move hat (.inl ⟨rfl, rfl⟩) (.inr (.inl rfl)) (.none _)
  | closing =>
    cases hturn
    exact h.finish hat
  | asking =>
    cases hturn
    exact h.pass hat (.inl rfl) rfl (asked_not_holds _ _ _)
  | killing pid =>
    cases hturn
    exact LaunchInv.forceKill (h.pass hat (.inl rfl) rfl rfl) pid
  | removing =>
    cases hturn
    refine h.pass hat (.inr rfl) rfl ?_
    split <;> rfl
  | holding | ended => cases hturn

theorem launchInv_step {e : LaunchEvent} {os : List Empty} (h : LaunchInv s)
    (hstep : s.step e = some (t, os)) : LaunchInv t := by
  cases e with
  | launch pid start =>
    simp only [Host.step] at hstep
    split at hstep <;> cases hstep
    have hfirst : (if start = .stop then Phase.asking else .trying .first).holds = false := by
      split <;> rfl
    exact ⟨h.owned.spawn hfirst, h.told.spawn (fun _ _ hp => hp) (.of_not_holds hfirst)⟩
  | turn i answers =>
    simp only [Host.step] at hstep
    split at hstep
    next => cases hstep
    next p hat =>
      obtain ⟨t', hturn, heq⟩ := Option.map_eq_some_iff.mp hstep
      cases heq
      exact h.turn hat hturn
  | record i port =>
    simp only [Host.step] at hstep
    split at hstep <;> cases hstep
    next hat =>
      exact h.move hat (.inl ⟨rfl, rfl⟩) (.inr (.inr rfl)) ⟨fun _ => .inr (.inl rfl), nofun⟩
  | quit i =>
    simp only [Host.step] at hstep
    split at hstep <;> cases hstep
    next hat =>
      refine h.move hat (.inl ⟨rfl, rfl⟩) (.inl rfl) ⟨fun _ => ?_, nofun⟩
      exact (h.told _ _ hat).settled rfl
  | die i =>
    simp only [Host.step] at hstep
    split at hstep <;> cases hstep
    next hat => exact h.finish hat

/-! ## The record of a running instance -/

/-- A removal by `--force` or `--stop` comes when no port is recorded. -/
def Host.spares (s : Host) : LaunchEvent → Bool
  | .turn i _ =>
    match s.processes[i]? with
    | some p => p.phase ≠ .removing || s.processes.all fun q => q.phase.port.isNone
    | none => true
  | _ => true

/-- What was recorded is in the info file. -/
def Recorded (s : Host) : Prop :=
  Pool.All (fun _ p => ∀ port, p.phase.port = some port → s.info = some (record p.pid port))
    s.processes

theorem unrecorded {info : Option Text} {pid : Pid} (h : phase.port = none) (port : Port)
    (hport : phase.port = some port) : info = some (record pid port) := by
  rw [h] at hport
  cases hport

/-- A process moves: the info stays, or its holder changes it, or nothing is recorded. -/
theorem Recorded.move (hrec : Recorded s) (h : LaunchInv s) (hat : s.processes[i]? = some p)
    {lock : Option Nat} {info : Option Text}
    (hinfo : info = s.info ∨ p.phase.holds = true ∨ ∀ q ∈ s.processes, q.phase.port = none)
    (hself : ∀ port, phase.port = some port → info = some (record p.pid port)) :
    Recorded ⟨info, lock, s.processes.set i { p with phase }⟩ := by
  intro j r hj port hport
  obtain ⟨rfl, rfl⟩ | ⟨hne, hold⟩ := Pool.of_set hj
  · exact hself port hport
  · have hr : r.phase.holds = true := Phase.holds_of_settled (Phase.settled_of_port hport)
    obtain rfl | hholds | hnone := hinfo
    · exact hrec j r hold port hport
    · exact absurd (h.owned.unique hold hat hr hholds) hne
    · rw [hnone r (List.mem_of_getElem? hold)] at hport
      cases hport

theorem Recorded.finish (hrec : Recorded s) (h : LaunchInv s) (hat : s.processes[i]? = some p) :
    Recorded (s.finish i p) :=
  hrec.move h hat (.inl rfl) (unrecorded rfl)

theorem Recorded.forceKill (hrec : Recorded s) (h : LaunchInv s) (pid : Nat) :
    Recorded (s.forceKill pid) := by
  unfold Host.forceKill
  split
  next => exact hrec
  next i _ =>
    split
    next => exact hrec
    next p hat => exact hrec.finish h hat

theorem Recorded.turn (hrec : Recorded s) (h : LaunchInv s) (hat : s.processes[i]? = some p)
    {answers : Answers} (hspares : s.spares (.turn i answers) = true)
    (hturn : s.turn i p answers = some t) : Recorded t := by
  obtain ⟨pid, start, phase⟩ := p
  cases phase with
  | trying attempt =>
    simp only [Host.turn] at hturn
    split at hturn <;> cases hturn
    next => exact hrec.move h hat (.inl rfl) (unrecorded rfl)
    next =>
      refine hrec.move h hat (.inl rfl) (unrecorded ?_)
      exact Phase.port_of_not_holds (failed_not_holds _ _ _)
  | cleaning =>
    cases hturn
    exact hrec.move h hat (.inr (.inl rfl)) (unrecorded rfl)
  | recording port =>
    cases hturn
    refine hrec.move h hat (.inr (.inl rfl)) fun port hport => ?_
    cases hport
    rfl
  | dropping port =>
    cases hturn
    exact hrec.move h hat (.inr (.inl rfl)) (unrecorded rfl)
  | closing =>
    cases hturn
    exact hrec.finish h hat
  | asking =>
    cases hturn
    exact hrec.move h hat (.inl rfl) (unrecorded (Phase.port_of_not_holds (asked_not_holds _ _ _)))
  | killing target =>
    cases hturn
    have hnext : LaunchInv (s.move i ⟨pid, start, .killing target⟩ (.trying (.retry 4))) :=
      h.pass hat (.inl rfl) rfl rfl
    exact Recorded.forceKill (hrec.move h hat (.inl rfl) (unrecorded rfl)) hnext target
  | removing =>
    cases hturn
    have hnone : ∀ q ∈ s.processes, q.phase.port = none := by
      simpa [Host.spares, hat] using hspares
    refine hrec.move h hat (.inr (.inr hnone)) (unrecorded ?_)
    split <;> rfl
  | holding | ended => cases hturn

theorem recorded_step {e : LaunchEvent} {os : List Empty} (hrec : Recorded s) (h : LaunchInv s)
    (hspares : s.spares e = true) (hstep : s.step e = some (t, os)) : Recorded t := by
  cases e with
  | launch pid start =>
    simp only [Host.step] at hstep
    split at hstep <;> cases hstep
    refine Pool.All.spawn hrec (fun _ _ hp => hp) (unrecorded ?_)
    split <;> rfl
  | turn i answers =>
    simp only [Host.step] at hstep
    split at hstep
    next => cases hstep
    next p hat =>
      obtain ⟨t', hturn, heq⟩ := Option.map_eq_some_iff.mp hstep
      cases heq
      exact hrec.turn h hat hspares hturn
  | record i port =>
    simp only [Host.step] at hstep
    split at hstep <;> cases hstep
    next hat => exact hrec.move h hat (.inr (.inl rfl)) (unrecorded rfl)
  | quit i =>
    simp only [Host.step] at hstep
    split at hstep <;> cases hstep
    next hat => exact hrec.move h hat (.inl rfl) (hrec _ _ hat)
  | die i =>
    simp only [Host.step] at hstep
    split at hstep <;> cases hstep
    next hat => exact hrec.finish h hat

/-! ## Runs -/

theorem Host.Fresh.inv (h : s.Fresh) : LaunchInv s ∧ Recorded s := by
  obtain ⟨info, lock, processes⟩ := s
  obtain ⟨rfl, rfl⟩ := h
  exact ⟨⟨.nil, .nil⟩, Pool.All.nil⟩

theorem launchInv_run {es : List LaunchEvent} {os : List Empty} (hfresh : s.Fresh)
    (hrun : launchMachine.Steps s es os t) : LaunchInv t :=
  hrun.invariant (I := LaunchInv) (C := fun _ _ => True) (fun h _ hstep => launchInv_step h hstep)
    (Machine.along_of_forall fun _ _ => trivial) hfresh.inv.1

/-- A live process has a pid that is alive. -/
theorem Host.alive_of_settled (hat : t.processes[i]? = some p) (h : p.phase.settled = true) :
    t.alive p.pid = true := by
  refine List.any_eq_true.mpr ⟨p, List.mem_of_getElem? hat, ?_⟩
  have hlive : p.phase ≠ .ended := by
    rintro heq
    rw [heq] at h
    cases h
  simp [Process.live, hlive]

/-- However processes start, contend for the lock, kill, stop, quit and die: one at a time has the
    lock; while an instance runs, a query that is answered at all names this instance, alive, with
    the port it recorded; and one that has ended in order has left no info behind. -/
theorem one_instance {es : List LaunchEvent} {os : List Empty} (hfresh : s.Fresh)
    (hrun : launchMachine.Steps s es os t) {i : Nat} {p : Process}
    (hat : t.processes[i]? = some p) :
    (p.phase.holds = true → ∀ j q, t.processes[j]? = some q → q.phase.holds = true → j = i) ∧
      (p.phase.settled = true →
        ∀ alive : Nat → Bool, (∀ pid, t.alive pid = true → alive pid = true) →
          ∀ info, queryInstance alive t.info = some info →
            info.pid = p.pid ∧ info.running = true ∧
              ∃ port, p.phase.port = some port ∧ info.port = port) ∧
      (p.phase = .closing → t.info = none) := by
  have hinv := launchInv_run hfresh hrun
  refine ⟨fun hp j q hj hq => hinv.owned.unique hj hat hq hp, ?_, (hinv.told i p hat).closing⟩
  intro hp alive halive info hquery
  obtain hnone | hempty | ⟨port, hport, hrecord⟩ := (hinv.told i p hat).settled hp
  · rw [hnone] at hquery
    cases hquery
  · rw [hempty, queryInstance_truncated] at hquery
    cases hquery
  · rw [hrecord, queryInstance_record] at hquery
    cases hquery
    exact ⟨rfl, halive _ (Host.alive_of_settled hat hp), port, hport, rfl⟩

/-- The info of a dead instance is there. One is started and records its port, another one comes
    with `--force`, kills it, takes the lock and records its own. -/
def leftover : Host := ⟨some "77\n50000\n".toList, none, []⟩

def pids : Pid × Pid := (⟨100, by decide⟩, ⟨200, by decide⟩)

def ports : Port × Port := (⟨50721, by decide⟩, ⟨50722, by decide⟩)

def takeover : List LaunchEvent :=
  [.launch pids.1 .plain, .turn 0 {}, .turn 0 {}, .record 0 ports.1, .turn 0 {},
    .launch pids.2 .force, .turn 1 {}, .turn 1 { own := true }, .turn 1 {}, .turn 1 {}, .turn 1 {},
    .record 1 ports.2, .turn 1 {}]

theorem leftover_fresh : leftover.Fresh := ⟨rfl, rfl⟩

theorem takeover_steps :
    launchMachine.Steps leftover takeover [] (launchMachine.advance leftover takeover) :=
  Machine.steps_of_exec rfl

theorem takeover_holds : (launchMachine.advance leftover takeover).processes[1]? =
    some ⟨pids.2, .force, .holding (some ports.2)⟩ := rfl

theorem one_instance_sample : ∃ t os, launchMachine.Steps leftover takeover os t ∧
    ∀ info, queryInstance t.alive t.info = some info → info.pid = 200 := by
  refine ⟨_, _, takeover_steps, fun info hquery => ?_⟩
  obtain ⟨-, hnamed, -⟩ := one_instance leftover_fresh takeover_steps takeover_holds
  exact (hnamed rfl _ (fun _ halive => halive) info hquery).1

end CampusAuth.Launch
