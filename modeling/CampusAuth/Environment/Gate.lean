import CampusAuth.Environment.Evidence

/- The gate before all work on the environment (`environment/mod.rs`, `BootstrapGate`).

   Callers with different goals share one lock, one counter of finished rounds and the error of
   the last round. A caller whose goal is not ready remembers the counter, waits for the lock and
   then looks again; where a round has ended in the meantime it fails without a round of its own.
   At most one operation works at any time. That failure is owed to a failed round of the
   caller's level exactly when no caller comes to the lock in the way `Clear` rules out
   (`gate_errors_iff`): a smaller round that succeeded is enough to fail a waiter. -/
namespace CampusAuth.Environment.Gate
open Lib

/-! ## The gate and its callers -/

/-- What the callers want (`L`), how it is seen and how it is brought about. -/
structure Site (L S Q : Type) (A : Q → Type) where
  ready : L → S → Bool
  bootstrap : L → Prog Q A (Except EnvironmentError Unit)
  world : Prog.World S Q A

/-- A round that has ended. -/
structure Round (L : Type) where
  goal : L
  error : Option String

inductive Caller (L Q : Type) (A : Q → Type)
  | absent
  /-- Not ready on the fast path. -/
  | entered (goal : L)
  | waiting (goal : L) (entryGeneration : Nat)
  | running (goal : L) (rest : Prog Q A (Except EnvironmentError Unit))
  | waitingExclusive (op : Prog Q A (Except EnvironmentError Unit))
  | exclusive (rest : Prog Q A (Except EnvironmentError Unit))
  /-- What was returned, whether after a round of the caller's own, and the rounds that ended
      while it waited. -/
  | returned (goal : L) (result : Except EnvironmentError Unit) (own : Bool) (seen : List (Round L))
  | gone

/-- The caller works on the environment. -/
def Caller.Works {L Q : Type} {A : Q → Type} : Caller L Q A → Prop
  | running _ _ | exclusive _ => True
  | _ => False

structure State (L S Q : Type) (A : Q → Type) where
  holder : Option Nat
  generation : Nat
  lastError : Option String
  env : S
  callers : Nat → Caller L Q A
  /-- The rounds that have ended, the first one first. -/
  rounds : List (Round L)

variable {L S Q : Type} {A : Q → Type}

def initial (env : S) : State L S Q A where
  holder := none
  generation := 0
  lastError := none
  env := env
  callers _ := .absent
  rounds := []

def State.set (s : State L S Q A) (c : Nat) (caller : Caller L Q A) : State L S Q A :=
  { s with callers := fun d => if d = c then caller else s.callers d }

@[simp] theorem set_self (s : State L S Q A) (c : Nat) (caller : Caller L Q A) :
    (s.set c caller).callers c = caller := if_pos rfl

theorem set_other (s : State L S Q A) {c d : Nat} (caller : Caller L Q A) (h : d ≠ c) :
    (s.set c caller).callers d = s.callers d := if_neg h

inductive Event
  | call | count | take | work | finish | drop
  deriving DecidableEq, Repr

/-- The error of a waiter in whose place a round has ended. -/
def sharedError (lastError : Option String) : EnvironmentError :=
  match lastError with
  | some message => .bootstrapFailedShared message
  | none => .bootstrapInvariant "上一轮引导已结束但能力仍未就绪，且没有失败记录"

def errorText : Except EnvironmentError Unit → Option String
  | .ok () => none
  | .error e => some e.text

/-- `ensure` and `run_exclusive`, one caller at a time. Nobody reads the last error without the
    lock, so that it is written together with the counter. -/
inductive Step (site : Site L S Q A) : State L S Q A → Event → Nat → State L S Q A → Prop
  | ready {s c goal} : s.callers c = .absent → site.ready goal s.env = true →
      Step site s .call c (s.set c (.returned goal (.ok ()) false []))
  | enters {s c goal} : s.callers c = .absent → site.ready goal s.env = false →
      Step site s .call c (s.set c (.entered goal))
  | counts {s c goal} : s.callers c = .entered goal →
      Step site s .count c (s.set c (.waiting goal s.generation))
  | wants {s c op} : s.callers c = .absent → Step site s .call c (s.set c (.waitingExclusive op))
  | finds {s c goal entry} : s.callers c = .waiting goal entry → s.holder = none →
      site.ready goal s.env = true →
      Step site s .take c (s.set c (.returned goal (.ok ()) false (s.rounds.drop entry)))
  | shares {s c g n} : s.callers c = .waiting g n → s.holder = none →
      site.ready g s.env = false → n < s.generation →
      Step site s .take c
        (s.set c (.returned g (.error (sharedError s.lastError)) false (s.rounds.drop n)))
  | begins {s c goal entry} : s.callers c = .waiting goal entry → s.holder = none →
      site.ready goal s.env = false → ¬entry < s.generation →
      Step site s .take c ({ s with holder := some c }.set c (.running goal (site.bootstrap goal)))
  | takes {s c op} : s.callers c = .waitingExclusive op → s.holder = none →
      Step site s .take c ({ s with holder := some c }.set c (.exclusive op))
  | works {s c goal q next a t} : s.callers c = .running goal (.ask q next) →
      site.world s.env q a t → Step site s .work c ({ s with env := t }.set c (.running goal (next a)))
  | worksExclusive {s c q next a t} : s.callers c = .exclusive (.ask q next) →
      site.world s.env q a t → Step site s .work c ({ s with env := t }.set c (.exclusive (next a)))
  | ends {s c goal result} : s.callers c = .running goal (.done result) →
      Step site s .finish c ({ s with
        holder := none
        lastError := errorText result
        generation := s.generation + 1
        rounds := s.rounds ++ [Round.mk goal (errorText result)] }.set c (.returned goal result true []))
  | endsExclusive {s c result} : s.callers c = .exclusive (.done result) →
      Step site s .finish c ({ s with holder := none }.set c .gone)
  | leaves {s c} : ¬(s.callers c).Works → (∀ goal r own seen, s.callers c ≠ .returned goal r own seen) →
      Step site s .drop c (s.set c .gone)
  | abandons {s c} : (s.callers c).Works → Step site s .drop c ({ s with holder := none }.set c .gone)

/-- A run with the states, events and callers of its steps, the last one first. -/
inductive Run (site : Site L S Q A) (s : State L S Q A) :
    List (State L S Q A × Event × Nat) → State L S Q A → Prop
  | nil : Run site s [] s
  | step {trail t e c u} : Run site s trail t → Step site t e c u → Run site s ((t, e, c) :: trail) u

/-! ## One operation at a time -/

structure Inv (s : State L S Q A) : Prop where
  holds : ∀ c, (s.callers c).Works → s.holder = some c
  counted : s.generation = s.rounds.length

theorem inv_initial (env : S) : Inv (initial env : State L S Q A) := ⟨fun _ h => h.elim, rfl⟩

/-- Setting a caller that does not work, with the lock free or left with its holder. -/
theorem holds_set {s : State L S Q A} {c : Nat} {caller : Caller L Q A} (h : Inv s)
    (hidle : ¬caller.Works) (d : Nat) (hd : ((s.set c caller).callers d).Works) :
    s.holder = some d ∧ d ≠ c := by
  by_cases hdc : d = c
  · rw [hdc, set_self] at hd
    exact absurd hd hidle
  · rw [set_other s caller hdc] at hd
    exact ⟨h.holds d hd, hdc⟩

theorem step_inv {site : Site L S Q A} {s t : State L S Q A} {e : Event} {c : Nat} (h : Inv s)
    (hs : Step site s e c t) : Inv t := by
  -- the lock is free, so that nobody works
  have hfree : s.holder = none → ∀ d, ¬(s.callers d).Works := fun hnone d hd => by
    have := h.holds d hd
    rw [hnone] at this
    cases this
  have hidle : ∀ caller : Caller L Q A, ¬caller.Works → Inv (s.set c caller) := fun caller hc =>
    ⟨fun d hd => (holds_set h hc d hd).1, h.counted⟩
  have htake : ∀ caller : Caller L Q A, s.holder = none →
      Inv ({ s with holder := some c }.set c caller) := fun caller hnone =>
    ⟨fun d hd => by
      by_cases hdc : d = c
      · rw [hdc]; rfl
      · rw [set_other _ caller hdc] at hd
        exact absurd hd (hfree hnone d), h.counted⟩
  have hrelease : ∀ (caller : Caller L Q A) (t : State L S Q A), (s.callers c).Works →
      ¬caller.Works → t.callers = s.callers → ∀ d, ¬((t.set c caller).callers d).Works := by
    intro caller t hw hc ht d hd
    by_cases hdc : d = c
    · rw [hdc, set_self] at hd
      exact hc hd
    · rw [set_other t caller hdc, ht] at hd
      have hother := (h.holds d hd).symm.trans (h.holds c hw)
      exact hdc (Option.some.inj hother)
  have hwork : ∀ (caller : Caller L Q A) (env : S), (s.callers c).Works →
      Inv ({ s with env := env }.set c caller) := fun caller env hw =>
    ⟨fun d hd => by
      by_cases hdc : d = c
      · rw [hdc]; exact h.holds c hw
      · rw [set_other _ caller hdc] at hd
        exact h.holds d hd, h.counted⟩
  cases hs with
  | ready _ _ | enters _ _ | counts _ | wants _ | finds _ _ _ | shares _ _ _ _ | leaves _ _ =>
    exact hidle _ id
  | begins _ hnone _ _ => exact htake _ hnone
  | takes _ hnone => exact htake _ hnone
  | works hc _ => exact hwork _ _ (by rw [hc]; trivial)
  | worksExclusive hc _ => exact hwork _ _ (by rw [hc]; trivial)
  | @ends _ goal result hc =>
    refine ⟨fun d hd => absurd hd (hrelease _ _ (by rw [hc]; trivial) id rfl d), ?_⟩
    show s.generation + 1 = (s.rounds ++ _).length
    rw [List.length_append, h.counted]
    rfl
  | endsExclusive hc =>
    exact ⟨fun d hd => absurd hd (hrelease _ _ (by rw [hc]; trivial) id rfl d), h.counted⟩
  | abandons hw => exact ⟨fun d hd => absurd hd (hrelease _ _ hw id rfl d), h.counted⟩

theorem run_inv {site : Site L S Q A} {s t : State L S Q A}
    {trail : List (State L S Q A × Event × Nat)} (hrun : Run site s trail t) (h : Inv s) : Inv t := by
  induction hrun with
  | nil => exact h
  | step _ hs ih => exact step_inv ih hs

theorem one_works {s : State L S Q A} (h : Inv s) {c d : Nat} (hc : (s.callers c).Works)
    (hd : (s.callers d).Works) : c = d :=
  Option.some.inj ((h.holds c hc).symm.trans (h.holds d hd))

/-! ## What an error is owed to -/

/-- What was returned stays. -/
theorem returned_stays {site : Site L S Q A} {s t : State L S Q A} {e : Event} {c d : Nat}
    (hs : Step site s e c t) {goal : L} {r : Except EnvironmentError Unit} {own : Bool}
    {seen : List (Round L)} (hd : s.callers d = .returned goal r own seen) :
    t.callers d = .returned goal r own seen := by
  have hkeep : ∀ (u : State L S Q A) (caller : Caller L Q A), u.callers = s.callers →
      s.callers c ≠ .returned goal r own seen →
      (u.set c caller).callers d = .returned goal r own seen := by
    intro u caller hu hc
    have hdc : d ≠ c := fun h => hc (h ▸ hd)
    rw [set_other u caller hdc, hu, hd]
  cases hs with
  | ready hc _ | enters hc _ | counts hc | wants hc | finds hc _ _ | shares hc _ _ _
  | begins hc _ _ _ | takes hc _ | works hc _ | worksExclusive hc _ | ends hc | endsExclusive hc =>
    exact hkeep _ _ rfl (by rw [hc]; exact fun h => by cases h)
  | leaves _ hret => exact hkeep _ _ rfl (hret goal r own seen)
  | abandons hw => exact hkeep _ _ rfl fun h => by rw [h] at hw; exact hw

variable [LE L]

/-- One of the rounds had at least this goal and failed. -/
def Failed (goal : L) (rounds : List (Round L)) : Prop :=
  ∃ round ∈ rounds, goal ≤ round.goal ∧ round.error ≠ none

/-- Every error that was returned is that of a round of the caller's own, or a round of at least
    its level failed while it waited. -/
def Justified (s : State L S Q A) : Prop :=
  ∀ c goal e own seen, s.callers c = .returned goal (.error e) own seen →
    own = true ∨ Failed goal seen

/-- A waiter that comes to the lock finds its goal ready, no round ended since it came, or one of
    at least its level among those that failed. -/
def Clear (site : Site L S Q A) (s : State L S Q A) (e : Event) (c : Nat) : Prop :=
  e = .take → ∀ goal entry, s.callers c = .waiting goal entry →
    site.ready goal s.env = true ∨ s.generation ≤ entry ∨ Failed goal (s.rounds.drop entry)

theorem justified_before {site : Site L S Q A} {s t : State L S Q A} {e : Event} {c : Nat}
    (hs : Step site s e c t) (h : Justified t) : Justified s :=
  fun d goal err own seen hd => h d goal err own seen (returned_stays hs hd)

theorem justified_step {site : Site L S Q A} {s t : State L S Q A} {e : Event} {c : Nat}
    (h : Justified s) (hs : Step site s e c t) : Justified t ↔ Clear site s e c := by
  have hset : ∀ (u : State L S Q A) (caller : Caller L Q A), u.callers = s.callers →
      (∀ goal err own seen, caller = .returned goal (.error err) own seen →
        own = true ∨ Failed goal seen) → Justified (u.set c caller) := by
    intro u caller hu hcaller d goal err own seen hd
    by_cases hdc : d = c
    · rw [hdc, set_self] at hd
      exact hcaller goal err own seen hd
    · rw [set_other u caller hdc, hu] at hd
      exact h d goal err own seen hd
  have hother : ∀ {goal entry}, e = .take → s.callers c = .waiting goal entry →
      (site.ready goal s.env = true ∨ s.generation ≤ entry ∨ Failed goal (s.rounds.drop entry)) →
      Clear site s e c := by
    intro goal entry _ hc hclear _ goal' entry' hc'
    rw [hc] at hc'
    cases hc'
    exact hclear
  cases hs with
  | ready _ _ | enters _ _ | counts _ | wants _ | endsExclusive _ | works _ _ | worksExclusive _ _
  | leaves _ _ | abandons _ =>
    exact iff_of_true (hset _ _ rfl fun _ _ _ _ heq => by cases heq) fun he => by cases he
  | ends _ =>
    refine iff_of_true (hset _ _ rfl fun _ _ _ _ heq => ?_) fun he => by cases he
    cases heq
    exact Or.inl rfl
  | finds hc _ hready =>
    exact iff_of_true (hset _ _ rfl fun _ _ _ _ heq => by cases heq)
      (hother rfl hc (Or.inl hready))
  | begins hc _ _ hnone =>
    exact iff_of_true (hset _ _ rfl fun _ _ _ _ heq => by cases heq)
      (hother rfl hc (Or.inr (Or.inl (Nat.not_lt.mp hnone))))
  | takes hc _ =>
    refine iff_of_true (hset _ _ rfl fun _ _ _ _ heq => by cases heq) fun _ goal entry hwait => ?_
    rw [hc] at hwait
    cases hwait
  | @shares _ goal entry hc _ hready hended =>
    constructor
    · intro hj
      exact hother rfl hc (Or.inr (Or.inr ((hj c goal _ false _ (set_self ..)).resolve_left
        (by decide))))
    · intro hclear
      refine hset _ _ rfl fun _ _ _ _ heq => ?_
      cases heq
      rcases hclear rfl goal entry hc with htrue | hnone | hfailed
      · rw [hready] at htrue
        cases htrue
      · omega
      · exact Or.inr hfailed

/-- For every interleaving of calls with any goals, exclusive operations, rounds that succeed or
    fail and callers that are dropped: one operation works at a time, and every error is owed to
    a failed round of the caller's own or of its level exactly when every waiter comes to the
    lock in a clear state. -/
theorem gate_errors_iff (site : Site L S Q A) (env : S)
    {trail : List (State L S Q A × Event × Nat)} {t : State L S Q A}
    (hrun : Run site (initial env) trail t) :
    (∀ c d, (t.callers c).Works → (t.callers d).Works → c = d) ∧
      (Justified t ↔ ∀ p ∈ trail, Clear site p.1 p.2.1 p.2.2) := by
  refine ⟨fun c d => one_works (run_inv hrun (inv_initial env)), ?_⟩
  induction hrun with
  | nil => exact iff_of_true (fun _ _ _ _ _ h => by cases h) fun _ h => by cases h
  | step _ hs ih =>
    constructor
    · intro hj p hp
      have hbefore := justified_before hs hj
      rcases List.mem_cons.mp hp with rfl | hp
      · exact (justified_step hbefore hs).mp hj
      · exact ih.mp hbefore p hp
    · intro hclear
      have hbefore := ih.mpr fun p hp => hclear p (List.mem_cons_of_mem _ hp)
      exact (justified_step hbefore hs).mpr (hclear _ List.mem_cons_self)

/-! ## The goals of the environment -/

inductive Goal
  | python
  | worker
  | capability
  deriving DecidableEq, Repr

def Goal.level : Goal → Nat
  | .python => 0
  | .worker => 1
  | .capability => 2

instance : LE Goal := ⟨fun a b => a.level ≤ b.level⟩

/-- `python_runtime_ready`, `worker_runtime_ready` and `is_ready`. -/
def isReady : Goal → Env → Bool
  | .python, s => s.status.pythonReady
  | .worker, s => s.status.pythonReady && s.status.workerReady && s.status.manifestCurrent
  | .capability, s => s.status.capabilityReady

/-- The rounds of `ensure_python_runtime`, `ensure_worker_ready` and `ensure_capability`, each
    with a token of its own. -/
def round (platform : Platform) (openwrt : Bool) : Goal → Act Unit
  | .python => do
    ask .beginInstall
    let _ ← bootstrapPythonRuntime openwrt
    ask (.stage .done)
  | .worker => do
    ask .beginInstall
    bootstrapWorkerRuntime platform openwrt false
  | .capability => do
    ask .beginInstall
    bootstrapCapability platform openwrt false

def environmentSite (platform : Platform) (openwrt : Bool) : Site Goal Env Ask Ask.Answer where
  ready := isReady
  bootstrap goal := (round platform openwrt goal).run
  world := world

/-- A caller that works goes through its program while the others wait. -/
theorem run_works {L S Q : Type} {A : Q → Type} {site : Site L S Q A} {s t : State L S Q A}
    {trail : List (State L S Q A × Event × Nat)} {c : Nat} {g : L}
    {p p' : Prog Q A (Except EnvironmentError Unit)} {env env' : S}
    (hreach : Prog.Reach site.world p env p' env') (hrun : Run site s trail t)
    (hc : t.callers c = .running g p) (henv : t.env = env) :
    ∃ trail', Run site s trail' ({ t with env := env' }.set c (.running g p')) := by
  induction hreach with
  | refl =>
    refine ⟨trail, ?_⟩
    have hsame : ({ t with env := env }.set c (.running g p)) = t := by
      unfold State.set
      rw [← henv]
      congr 1
      funext d
      split
      next hd => rw [hd, hc]
      next => rfl
    rw [hsame]
    exact hrun
  | @step q next u v a _ hanswer ih =>
    obtain ⟨trail', hrun'⟩ := ih
    have hstep : Step site ({ t with env := u }.set c (.running g (.ask q next))) .work c
        ({ ({ t with env := u }.set c (.running g (.ask q next))) with env := v }.set c
          (.running g (next a))) := Step.works (set_self ..) hanswer
    have hsame : ({ ({ t with env := u }.set c (.running g (.ask q next))) with env := v }.set c
        (.running g (next a))) = { t with env := v }.set c (.running g (next a)) := by
      unfold State.set
      congr 1
      funext d
      dsimp only
      split <;> rfl
    rw [hsame] at hstep
    exact ⟨_, hrun'.step hstep⟩

/-- A new installation, with nothing in its status yet. -/
def freshEnv : Env :=
  { sampleEnv with status := ⟨false, false, false, false, false, false, false, false, false, .idle, none⟩ }

def sampleSite : Site Goal Env Ask Ask.Answer := environmentSite samplePlatform false

/-- A script asks for Python, -/
def scriptWaits : State Goal Env Ask Ask.Answer :=
  ((initial freshEnv).set 0 (.entered Goal.python)).set 0 (.waiting Goal.python 0)

/-- and begins its round. -/
def scriptWorks : State Goal Env Ask Ask.Answer :=
  { scriptWaits with holder := some 0 }.set 0
    (.running Goal.python (sampleSite.bootstrap Goal.python))

theorem scriptWorks_run : Run sampleSite (initial freshEnv)
    [(scriptWaits, .take, 0), ((initial freshEnv).set 0 (.entered Goal.python), .count, 0),
      (initial freshEnv, .call, 0)] scriptWorks := by
  have hcall : Step sampleSite (initial freshEnv) .call 0
      ((initial freshEnv).set 0 (.entered Goal.python)) := Step.enters rfl rfl
  have hcount : Step sampleSite ((initial freshEnv).set 0 (.entered Goal.python)) .count 0
      scriptWaits := Step.counts rfl
  have htake : Step sampleSite scriptWaits .take 0 scriptWorks :=
    Step.begins rfl rfl rfl (Nat.lt_irrefl 0)
  exact ((Run.nil.step hcall).step hcount).step htake

theorem scriptWorks_justified : Justified scriptWorks ∧ (scriptWorks.callers 0).Works := by
  refine ⟨(gate_errors_iff sampleSite freshEnv scriptWorks_run).2.mpr ?_, trivial⟩
  intro p hp
  rcases List.mem_cons.mp hp with rfl | hp
  · intro _ goal entry _
    exact Or.inr (Or.inl (Nat.zero_le _))
  · rcases List.mem_cons.mp hp with rfl | hp
    · exact fun h => by cases h
    · rw [List.mem_singleton.mp hp]
      exact fun h => by cases h

/-- A login waits for the full capability while the round of the script succeeds: Python is
    there, and the login fails although no round failed. -/
theorem smaller_round_fails_waiter : ¬∀ (trail : List (State Goal Env Ask Ask.Answer × Event × Nat))
    (t : State Goal Env Ask Ask.Answer),
    Run sampleSite (initial freshEnv) trail t → Justified t := by
  intro h
  have hcall : Step sampleSite scriptWorks .call 1
      (scriptWorks.set 1 (.entered Goal.capability)) := Step.enters rfl rfl
  have hwaits := (scriptWorks_run.step hcall).step (Step.counts (set_self ..))
  have hplay := Prog.play_reach (usual_world allWell (fun _ => CommandResult.noConfusion) false)
    (round samplePlatform false .python).run freshEnv
  obtain ⟨trail, hdone⟩ := run_works (c := 0) (g := .python) hplay hwaits rfl rfl
  have hended := hdone.step (Step.ends (set_self ..))
  have hshared := hended.step (Step.shares (c := 1) (g := .capability) (n := 0) rfl rfl
    (by decide +kernel) Nat.one_pos)
  rcases h _ _ hshared 1 .capability _ false _ (set_self ..) with hown | ⟨round, hround, hle, -⟩
  · cases hown
  · rw [List.mem_singleton.mp hround] at hle
    exact absurd hle (by decide)

end CampusAuth.Environment.Gate
