import CampusAuth.Lib.Prog

/- Whole runs of a program together with everything the world told it.

   `Run W p s told r t`: asked in order, the questions of `p` had the answers `told`, led the
   world from `s` to `t`, and `p` returned `r`. A run of a composed program splits where the
   program does (`Run.bind`, `Run.then`), and what no question of it touches is kept
   (`Run.keeps`). -/
namespace CampusAuth.Lib.Prog

variable {Q : Type} {A : Q → Type} {R R' E S α : Type}

/-- A question, its answer, and the states around it. -/
structure Told (S Q : Type) (A : Q → Type) where
  before : S
  question : Q
  answer : A question
  after : S

inductive Run (W : World S Q A) : Prog Q A R → S → List (Told S Q A) → R → S → Prop
  | done (r : R) (s : S) : Run W (.done r) s [] r s
  | ask {q : Q} {next : A q → Prog Q A R} {s u t : S} {a : A q} {told : List (Told S Q A)} {r : R} :
      W s q a u → Run W (next a) u told r t → Run W (.ask q next) s (⟨s, q, a, u⟩ :: told) r t

variable {W : World S Q A} {s t : S} {told : List (Told S Q A)}

/-! ## Taking a run apart -/

theorem Run.bind {f : R → Prog Q A R'} {r : R'} : ∀ {p : Prog Q A R} {s : S}
    {told : List (Told S Q A)}, Run W (p >>= f) s told r t →
    ∃ a u first rest, told = first ++ rest ∧ Run W p s first a u ∧ Run W (f a) u rest r t
  | .done a, s, told, h => ⟨a, s, [], told, rfl, .done a s, h⟩
  | .ask q next, s, _, .ask hw hrest => by
    obtain ⟨a, u, first, rest, rfl, hfirst, hf⟩ := Run.bind (p := next _) hrest
    exact ⟨a, u, _ :: first, rest, rfl, .ask hw hfirst, hf⟩

/-- A step that failed ends the run; behind one that returned the run goes on. -/
theorem Run.then {x : Fallible Q A E R} {f : R → Fallible Q A E R'} {r : Except E R'}
    (h : Run W (x >>= f : Fallible Q A E R').run s told r t) :
    (∃ e, r = .error e ∧ Run W x.run s told (.error e) t) ∨
    ∃ a u first rest, told = first ++ rest ∧ Run W x.run s first (.ok a) u ∧
      Run W (f a).run u rest r t := by
  obtain ⟨a, u, first, rest, htold, hx, hf⟩ := Run.bind (p := x.run) h
  cases a with
  | error e =>
    cases hf
    rw [List.append_nil] at htold
    exact Or.inl ⟨e, rfl, htold ▸ hx⟩
  | ok a => exact Or.inr ⟨a, u, first, rest, htold, hx, hf⟩

theorem Run.fetch {q : Q} {r : Except E (A q)}
    (h : Run W (Prog.fetch q : Fallible Q A E (A q)).run s told r t) :
    ∃ a, r = .ok a ∧ W s q a t ∧ told = [⟨s, q, a, t⟩] := by
  cases h with
  | ask hw hrest =>
    cases hrest
    exact ⟨_, rfl, hw, rfl⟩

/-- The answer to a question and the run behind it. -/
theorem Run.ask_then {q : Q} {f : A q → Fallible Q A E R} {r : Except E R}
    (h : Run W (Prog.fetch q >>= f : Fallible Q A E R).run s told r t) :
    ∃ a u rest, told = ⟨s, q, a, u⟩ :: rest ∧ W s q a u ∧ Run W (f a).run u rest r t := by
  cases h.then with
  | inl hfail =>
    obtain ⟨e, -, hq⟩ := hfail
    obtain ⟨a, ha, -⟩ := hq.fetch
    cases ha
  | inr hnext =>
    obtain ⟨a, u, first, rest, rfl, hq, hf⟩ := hnext
    obtain ⟨a', ha, hw, rfl⟩ := hq.fetch
    cases ha
    exact ⟨a, u, rest, rfl, hw, hf⟩

/-! ## What a run keeps -/

/-- Every question of the program meets `P`, whatever it is told. -/
def Asks (P : Q → Prop) : Prog Q A R → Prop
  | done _ => True
  | ask q next => P q ∧ ∀ a, Asks P (next a)

variable {P : Q → Prop}

theorem Asks.bind {f : R → Prog Q A R'} (hf : ∀ a, Asks P (f a)) : ∀ {p : Prog Q A R},
    Asks P p → Asks P (p >>= f)
  | .done a, _ => hf a
  | .ask _ _, h => ⟨h.1, fun a => Asks.bind hf (h.2 a)⟩

theorem Asks.then {x : Fallible Q A E R} {f : R → Fallible Q A E R'} (hx : Asks P x.run)
    (hf : ∀ a, Asks P (f a).run) : Asks P (x >>= f : Fallible Q A E R').run := by
  refine Asks.bind (p := x.run) (fun a => ?_) hx
  cases a with
  | ok a => exact hf a
  | error e => trivial

theorem Asks.fetch {q : Q} (hq : P q) : Asks P (Prog.fetch q : Fallible Q A E (A q)).run :=
  ⟨hq, fun _ => trivial⟩

theorem Asks.mono {P' : Q → Prop} (hP : ∀ q, P q → P' q) : ∀ {p : Prog Q A R},
    Asks P p → Asks P' p
  | .done _, _ => trivial
  | .ask q _, h => ⟨hP q h.1, fun a => Asks.mono hP (h.2 a)⟩

theorem Run.asked {p : Prog Q A R} {r : R} (h : Run W p s told r t) (hp : Asks P p) :
    ∀ st ∈ told, P st.question := by
  induction h with
  | done => exact fun _ hmem => absurd hmem List.not_mem_nil
  | ask _ _ ih =>
    intro st hmem
    cases List.mem_cons.mp hmem with
    | inl hst => exact hst ▸ hp.1
    | inr hrest => exact ih (hp.2 _) st hrest

/-- A property that no answer to such a question ends holds at the end of the run. -/
theorem Run.keeps {I : S → Prop} (hI : ∀ s q a u, P q → W s q a u → I s → I u)
    {p : Prog Q A R} {r : R} (h : Run W p s told r t) (hp : Asks P p) (hs : I s) : I t := by
  induction h with
  | done => exact hs
  | ask hw _ ih => exact ih (hp.2 _) (hI _ _ _ _ hp.1 hw hs)

/-! ## Playing a program -/

/-- What `play` is told. -/
def playTold (o : S → (q : Q) → A q × S) : Prog Q A R → S → List (Told S Q A)
  | .done _, _ => []
  | .ask q next, s => ⟨s, q, (o s q).1, (o s q).2⟩ :: playTold o (next (o s q).1) (o s q).2

theorem play_run {o : S → (q : Q) → A q × S} (ho : ∀ s q, W s q (o s q).1 (o s q).2) :
    ∀ (p : Prog Q A R) (s : S), Run W p s (playTold o p s) (play o p s).1 (play o p s).2
  | .done r, s => .done r s
  | .ask q next, s => .ask (ho s q) (play_run ho (next (o s q).1) (o s q).2)

end CampusAuth.Lib.Prog
