import Mathlib.Data.List.Basic
import Mathlib.Algebra.Order.BigOperators.Group.List
import Mathlib.Algebra.Order.Ring.Nat

/- Event-driven machines with outputs: runs, conditions along a run, and the
   induction rules the developments below use.

   A machine answers an event in a state by refusing it or by moving on and
   emitting a list of outputs. `Steps s es os t` is a run, `exec` computes it.
   `Along C` says that every step of a run meets `C`. The rules are
   `Steps.invariant` (what one step keeps under `C`, a run keeps along `C`),
   `Steps.budget` (a potential that pays for every output bounds the outputs of
   a run; `Steps.pays` is the same for events), `Steps.emits` (what the outputs of
   every step meet, those of a run meet) and `Steps.output` (an output of a run was
   emitted by one of its steps). -/
namespace CampusAuth.Lib

structure Machine (σ ε ο : Type*) where
  /-- `none` refuses the event; otherwise the next state and what is emitted. -/
  step : σ → ε → Option (σ × List ο)

namespace Machine
variable {σ ε ο : Type*} {M : Machine σ ε ο}

/-- A run from `s` to `t` over the events `es`, emitting `os`. -/
inductive Steps (M : Machine σ ε ο) : σ → List ε → List ο → σ → Prop
  | nil (s : σ) : Steps M s [] [] s
  | cons {s t u : σ} {e : ε} {es : List ε} {os os' : List ο} :
      M.step s e = some (t, os) → Steps M t es os' u → Steps M s (e :: es) (os ++ os') u

/-- The run as a computation. -/
def exec (M : Machine σ ε ο) : σ → List ε → Option (σ × List ο)
  | s, [] => some (s, [])
  | s, e :: es =>
    match M.step s e with
    | none => none
    | some (t, os) =>
      match exec M t es with
      | none => none
      | some (u, os') => some (u, os ++ os')

theorem steps_of_exec : ∀ {es : List ε} {s t : σ} {os : List ο},
    M.exec s es = some (t, os) → M.Steps s es os t
  | [], s, t, os, h => by
    simp only [exec, Option.some.injEq, Prod.mk.injEq] at h
    obtain ⟨rfl, rfl⟩ := h
    exact .nil _
  | e :: es, s, t, os, h => by
    simp only [exec] at h
    split at h
    · cases h
    next u os₁ hu =>
      split at h
      · cases h
      next v os₂ hv =>
        simp only [Option.some.injEq, Prod.mk.injEq] at h
        obtain ⟨rfl, rfl⟩ := h
        exact .cons hu (steps_of_exec hv)

/-- The run a computation found. -/
theorem steps_get {s : σ} {es : List ε} (h : (M.exec s es).isSome) :
    M.Steps s es ((M.exec s es).get h).2 ((M.exec s es).get h).1 :=
  steps_of_exec (Option.some_get h).symm

/-- The run a computation found, with what was checked of its end. -/
theorem steps_of_any {s : σ} {es : List ε} {q : σ × List ο → Bool}
    (h : (M.exec s es).any q = true) : ∃ t os, M.Steps s es os t ∧ q (t, os) = true := by
  obtain ⟨⟨t, os⟩, hrun, hq⟩ := (Option.any_eq_true ..).mp h
  exact ⟨t, os, steps_of_exec hrun, hq⟩

theorem steps_cons {s u : σ} {e : ε} {es : List ε} {os : List ο} :
    M.Steps s (e :: es) os u ↔
      ∃ t os₁ os₂, M.step s e = some (t, os₁) ∧ M.Steps t es os₂ u ∧ os = os₁ ++ os₂ := by
  constructor
  · intro h
    cases h with
    | cons hs ht => exact ⟨_, _, _, hs, ht, rfl⟩
  · rintro ⟨t, os₁, os₂, hs, ht, rfl⟩
    exact .cons hs ht

theorem Steps.append {s t u : σ} {es es' : List ε} {os os' : List ο}
    (h : M.Steps s es os t) (h' : M.Steps t es' os' u) : M.Steps s (es ++ es') (os ++ os') u := by
  induction h with
  | nil => exact h'
  | cons hs _ ih =>
    rw [List.append_assoc]
    exact .cons hs (ih h')

theorem Steps.single {s t : σ} {e : ε} {os : List ο} (h : M.step s e = some (t, os)) :
    M.Steps s [e] os t := by
  simpa using Steps.cons h (.nil t)

/-- A run over `es ++ es'` stops once in between. -/
theorem Steps.split {s u : σ} : ∀ {es es' : List ε} {os : List ο}, M.Steps s (es ++ es') os u →
    ∃ t os₁ os₂, M.Steps s es os₁ t ∧ M.Steps t es' os₂ u ∧ os = os₁ ++ os₂ := by
  intro es
  induction es generalizing s with
  | nil => intro es' os h; exact ⟨s, [], os, .nil s, h, rfl⟩
  | cons e es ih =>
    intro es' os h
    obtain ⟨t, os₁, os₂, hs, ht, rfl⟩ := steps_cons.mp h
    obtain ⟨v, os₃, os₄, h₁, h₂, rfl⟩ := ih ht
    exact ⟨v, os₁ ++ os₃, os₄, .cons hs h₁, h₂, (List.append_assoc ..).symm⟩

/-- Every step of the run over `es` from `s` meets `C` in the state it is taken in. -/
def Along (M : Machine σ ε ο) (C : σ → ε → Prop) : σ → List ε → Prop
  | _, [] => True
  | s, e :: es => C s e ∧ ∀ t os, M.step s e = some (t, os) → Along M C t es

theorem Along.mono {C D : σ → ε → Prop} (hCD : ∀ s e, C s e → D s e) :
    ∀ {es : List ε} {s : σ}, M.Along C s es → M.Along D s es
  | [], _, _ => trivial
  | _ :: _, _, h => ⟨hCD _ _ h.1, fun t os ht => Along.mono hCD (h.2 t os ht)⟩

theorem Along.and {C D : σ → ε → Prop} :
    ∀ {es : List ε} {s : σ}, M.Along C s es → M.Along D s es →
      M.Along (fun s e => C s e ∧ D s e) s es
  | [], _, _, _ => trivial
  | _ :: _, _, h, h' => ⟨⟨h.1, h'.1⟩, fun t os ht => Along.and (h.2 t os ht) (h'.2 t os ht)⟩

/-- A condition on the events alone, checked on the list of events. -/
theorem along_of_forall {C : ε → Prop} : ∀ {es : List ε} {s : σ},
    (∀ e ∈ es, C e) → M.Along (fun _ e => C e) s es
  | [], _, _ => trivial
  | e :: _, _, h =>
    ⟨h e List.mem_cons_self, fun _ _ _ => along_of_forall fun e' he' => h e' (List.mem_cons_of_mem _ he')⟩

theorem along_cons {C : σ → ε → Prop} {s t : σ} {e : ε} {es : List ε} {os : List ο}
    (h : M.step s e = some (t, os)) : M.Along C s (e :: es) ↔ C s e ∧ M.Along C t es := by
  constructor
  · exact fun ⟨hC, hrest⟩ => ⟨hC, hrest t os h⟩
  · rintro ⟨hC, hrest⟩
    refine ⟨hC, fun t' os' h' => ?_⟩
    rw [h] at h'
    cases h'
    exact hrest

/-- A condition along a run holds at every step of it. -/
theorem Along.at {C : σ → ε → Prop} {s t : σ} {e : ε} {es es' : List ε} {os : List ο}
    (h : M.Along C s (es ++ e :: es')) (hrun : M.Steps s es os t) : C t e := by
  induction hrun with
  | nil => exact h.1
  | cons hs _ ih => exact ih (h.2 _ _ hs)

/-- What a condition gives at a step under an invariant it keeps, it gives along a run. -/
theorem along_of_invariant {I : σ → Prop} {C D : σ → ε → Prop}
    (hstep : ∀ s e, I s → C s e → D s e ∧ ∀ t os, M.step s e = some (t, os) → I t) :
    ∀ {es : List ε} {s : σ}, I s → M.Along C s es → M.Along D s es
  | [], _, _, _ => trivial
  | _ :: _, s, hI, h =>
    have ⟨hD, hkeep⟩ := hstep s _ hI h.1
    ⟨hD, fun t os ht => along_of_invariant hstep (hkeep t os ht) (h.2 t os ht)⟩

/-- Two conditions that agree under an invariant which the first keeps agree along a run. -/
theorem along_iff {I : σ → Prop} {C D : σ → ε → Prop} (hiff : ∀ s e, I s → (C s e ↔ D s e))
    (hkeep : ∀ s e t os, I s → C s e → M.step s e = some (t, os) → I t) :
    ∀ {es : List ε} {s : σ}, I s → (M.Along C s es ↔ M.Along D s es)
  | [], _, _ => Iff.rfl
  | e :: es, s, hI => by
    constructor
    · rintro ⟨hC, hrest⟩
      exact ⟨(hiff s e hI).mp hC, fun t os ht =>
        (along_iff hiff hkeep (hkeep s e t os hI hC ht)).mp (hrest t os ht)⟩
    · rintro ⟨hD, hrest⟩
      have hC := (hiff s e hI).mpr hD
      exact ⟨hC, fun t os ht =>
        (along_iff hiff hkeep (hkeep s e t os hI hC ht)).mpr (hrest t os ht)⟩

/-- On a computable condition the run decides `Along`. -/
instance Along.instDecidable (C : σ → ε → Prop) [∀ s e, Decidable (C s e)] :
    ∀ (s : σ) (es : List ε), Decidable (M.Along C s es)
  | _, [] => isTrue trivial
  | s, e :: es =>
    have := fun r : σ × List ο => Along.instDecidable C r.1 es
    decidable_of_iff (C s e ∧ ∀ r ∈ M.step s e, M.Along C r.1 es)
      ⟨fun h => ⟨h.1, fun t os ht => h.2 (t, os) ht⟩, fun h => ⟨h.1, fun r hr => h.2 r.1 r.2 hr⟩⟩

/-- The run over the events as far as the machine goes. -/
def advance (M : Machine σ ε ο) : σ → List ε → σ
  | s, [] => s
  | s, e :: es =>
    match M.step s e with
    | some (t, _) => advance M t es
    | none => s

/-! ## Rules over whole runs -/

/-- What every step over the events keeps, holds as far as the machine goes. -/
theorem advance_invariant {I : σ → Prop} : ∀ {es : List ε} {s : σ},
    (∀ s e t os, e ∈ es → I s → M.step s e = some (t, os) → I t) → I s → I (M.advance s es)
  | [], _, _, hI => hI
  | e :: es, s, hstep, hI => by
    unfold advance
    split
    next t os ht =>
      exact advance_invariant (fun s' e' t' os' he => hstep s' e' t' os' (List.mem_cons_of_mem _ he))
        (hstep s e t os List.mem_cons_self hI ht)
    next => exact hI

/-- Where `C` says exactly when a step keeps `P`, it says along a run exactly when all its
    states meet `P`. -/
theorem advance_iff {P : σ → Prop} {C : σ → ε → Prop}
    (hstep : ∀ s e, P s → ((∀ t os, M.step s e = some (t, os) → P t) ↔ C s e)) :
    ∀ {es : List ε} {s : σ}, P s → ((∀ n, P (M.advance s (es.take n))) ↔ M.Along C s es)
  | [], s, hs => by simp [advance, Along, hs]
  | e :: es, s, hs => by
    constructor
    · intro h
      have hnext : ∀ t os, M.step s e = some (t, os) → ∀ n, P (M.advance t (es.take n)) := by
        intro t os ht n
        have hn := h (n + 1)
        rwa [List.take_succ_cons, advance, ht] at hn
      have hP : ∀ t os, M.step s e = some (t, os) → P t := fun t os ht => by
        simpa [advance] using hnext t os ht 0
      exact ⟨(hstep s e hs).mp hP, fun t os ht =>
        (advance_iff hstep (hP t os ht)).mp (hnext t os ht)⟩
    · rintro ⟨hC, hrest⟩ n
      cases n with
      | zero => simpa [advance] using hs
      | succ n =>
        rw [List.take_succ_cons, advance]
        cases ht : M.step s e with
        | none => exact hs
        | some r =>
          have hP := (hstep s e hs).mpr hC r.1 r.2 ht
          exact (advance_iff hstep hP).mpr (hrest r.1 r.2 ht) n

/-- What one step keeps under `C`, a run keeps along `C`. -/
theorem Steps.invariant {I : σ → Prop} {C : σ → ε → Prop}
    (hstep : ∀ {s e t os}, I s → C s e → M.step s e = some (t, os) → I t)
    {s t : σ} {es : List ε} {os : List ο} (h : M.Steps s es os t)
    (hC : M.Along C s es) (hI : I s) : I t := by
  induction h with
  | nil => exact hI
  | cons hs _ ih => exact ih (hC.2 _ _ hs) (hstep hI hC.1 hs)

/-- `s` is reached by some run from `init`. -/
def Reach (M : Machine σ ε ο) (init s : σ) : Prop := ∃ es os, M.Steps init es os s

theorem Reach.refl (s : σ) : M.Reach s s := ⟨[], [], .nil s⟩

theorem Reach.step {init s t : σ} {e : ε} {os : List ο} (h : M.Reach init s)
    (hs : M.step s e = some (t, os)) : M.Reach init t := by
  obtain ⟨es, os', h⟩ := h
  exact ⟨_, _, h.append (.single hs)⟩

theorem Reach.steps {init s t : σ} {es : List ε} {os : List ο} (h : M.Reach init s)
    (hs : M.Steps s es os t) : M.Reach init t := by
  obtain ⟨es', os', h⟩ := h
  exact ⟨_, _, h.append hs⟩

/-- What holds at first and is kept by every step holds of every reachable state. -/
theorem Reach.invariant {I : σ → Prop} {init : σ} (hinit : I init)
    (hstep : ∀ {s e t os}, I s → M.step s e = some (t, os) → I t)
    {s : σ} (h : M.Reach init s) : I s := by
  obtain ⟨es, os, h⟩ := h
  exact h.invariant (C := fun _ _ => True) (fun hI _ hs => hstep hI hs)
    (along_of_forall fun _ _ => trivial) hinit

/-- How much the outputs weigh together. -/
def weigh (w : ο → Nat) (os : List ο) : Nat := (os.map w).sum

@[simp] theorem weigh_nil (w : ο → Nat) : weigh w [] = 0 := rfl

@[simp] theorem weigh_cons (w : ο → Nat) (o : ο) (os : List ο) :
    weigh w (o :: os) = w o + weigh w os := by simp [weigh]

@[simp] theorem weigh_append (w : ο → Nat) (os os' : List ο) :
    weigh w (os ++ os') = weigh w os + weigh w os' := by simp [weigh]

theorem le_weigh_of_mem {w : ο → Nat} {o : ο} {os : List ο} (h : o ∈ os) : w o ≤ weigh w os :=
  List.single_le_sum (fun _ _ => Nat.zero_le _) _ (List.mem_map_of_mem h)

/-- A potential that every step lowers by at least what it emits bounds what a run emits. -/
theorem Steps.budget {I : σ → Prop} {C : σ → ε → Prop} {φ : σ → Nat} {w : ο → Nat}
    (hstep : ∀ {s e t os}, I s → C s e → M.step s e = some (t, os) →
      I t ∧ φ t + weigh w os ≤ φ s)
    {s t : σ} {es : List ε} {os : List ο} (h : M.Steps s es os t)
    (hC : M.Along C s es) (hI : I s) : φ t + weigh w os ≤ φ s := by
  induction h with
  | nil => simp
  | cons hs _ ih =>
    obtain ⟨hI', hle⟩ := hstep hI hC.1 hs
    have := ih (hC.2 _ _ hs) hI'
    rw [weigh_append]
    omega

/-- The weight of a run's events, each in the state it is taken in. -/
def tally (M : Machine σ ε ο) (c : σ → ε → Nat) : σ → List ε → Nat
  | _, [] => 0
  | s, e :: es =>
    c s e + match M.step s e with
      | some (t, _) => tally M c t es
      | none => 0

/-- A potential that pays for every event bounds what a run's events weigh. -/
theorem Steps.pays {I : σ → Prop} {φ : σ → Nat} {c : σ → ε → Nat}
    (hstep : ∀ {s e t os}, I s → M.step s e = some (t, os) → I t ∧ φ t + c s e ≤ φ s)
    {s t : σ} {es : List ε} {os : List ο} (h : M.Steps s es os t) (hI : I s) :
    φ t + M.tally c s es ≤ φ s := by
  induction h with
  | nil => simp [tally]
  | @cons s u _ e es _ _ hs _ ih =>
    obtain ⟨hI', hle⟩ := hstep hI hs
    have hrest := ih hI'
    have htally : M.tally c s (e :: es) = c s e + M.tally c u es := by simp only [tally, hs]
    omega

/-- An invariant that remembers: `I s os` with `os` the outputs so far. -/
theorem Steps.tracing {I : σ → List ο → Prop} {C : σ → ε → Prop}
    (hstep : ∀ {s e t os₀ os}, I s os₀ → C s e → M.step s e = some (t, os) → I t (os₀ ++ os))
    {s t : σ} {es : List ε} {os : List ο} (h : M.Steps s es os t) (hC : M.Along C s es)
    (hI : I s []) : I t os := by
  have hfrom : ∀ os₀, I s os₀ → I t (os₀ ++ os) := by
    clear hI
    induction h with
    | nil => intro os₀ hI; simpa using hI
    | cons hs _ ih =>
      intro os₀ hI
      have := ih (hC.2 _ _ hs) _ (hstep hI hC.1 hs)
      rwa [List.append_assoc] at this
  exact hfrom [] hI

/-- Where a step keeps `I` and emits outputs that meet `Q`, so does a run, if `Q` survives `++`. -/
theorem Steps.emits {I : σ → Prop} {C : σ → ε → Prop} {Q : List ο → Prop} (hnil : Q [])
    (happend : ∀ {os os'}, Q os → Q os' → Q (os ++ os'))
    (hstep : ∀ {s e t os}, I s → C s e → M.step s e = some (t, os) → I t ∧ Q os)
    {s t : σ} {es : List ε} {os : List ο} (h : M.Steps s es os t) (hC : M.Along C s es)
    (hI : I s) : I t ∧ Q os := by
  induction h with
  | nil => exact ⟨hI, hnil⟩
  | cons hs _ ih =>
    obtain ⟨hI', hQ⟩ := hstep hI hC.1 hs
    obtain ⟨hend, hrest⟩ := ih (hC.2 _ _ hs) hI'
    exact ⟨hend, happend hQ hrest⟩

/-- An invariant that counts: `I s n` with `n` the weight of the events so far. -/
theorem Steps.counting {I : σ → Nat → Prop} {c : ε → Nat}
    (hstep : ∀ {s e t os n}, I s n → M.step s e = some (t, os) → I t (n + c e))
    {s t : σ} {es : List ε} {os : List ο} (h : M.Steps s es os t) (hI : I s 0) :
    I t (weigh c es) := by
  have hfrom : ∀ n, I s n → I t (n + weigh c es) := by
    clear hI
    induction h with
    | nil => intro n hI; simpa using hI
    | cons hs _ ih =>
      intro n hI
      have := ih _ (hstep hI hs)
      rwa [weigh_cons, ← Nat.add_assoc]
  simpa using hfrom 0 hI

/-- An output of a run was emitted by one of its steps. -/
theorem Steps.output {s u : σ} {es : List ε} {os : List ο} {o : ο} (h : M.Steps s es os u)
    (ho : o ∈ os) : ∃ es₁ e es₂ os₁ os₂ os₃ t t', es = es₁ ++ e :: es₂ ∧ M.Steps s es₁ os₁ t ∧
      M.step t e = some (t', os₂) ∧ M.Steps t' es₂ os₃ u ∧ o ∈ os₂ := by
  induction h with
  | nil => cases ho
  | @cons s t u e es os os' hs ht ih =>
    rcases List.mem_append.mp ho with ho | ho
    · exact ⟨[], e, es, [], os, os', s, t, rfl, .nil s, hs, ht, ho⟩
    · obtain ⟨es₁, e', es₂, os₁, os₂, os₃, v, v', rfl, h₁, h₂, h₃, ho⟩ := ih ho
      exact ⟨e :: es₁, e', es₂, os ++ os₁, os₂, os₃, v, v', rfl, .cons hs h₁, h₂, h₃, ho⟩

end Machine
end CampusAuth.Lib
