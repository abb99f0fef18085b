import Mathlib.Data.List.Basic

/- Programs that ask the world for everything they do not compute themselves.

   A program is done, or asks a question and goes on with the answer. A world says which answers
   a question can have in a state and what becomes of the state; it answers one question after
   the other, and a crash leaves what was reached so far. `Wp W I p post s` says of every run of
   `p` from `s` that all states reached meet `I` and a run to the end meets `post`
   (`Wp.sound`). `Triple` is the same for programs that can fail, with a rule for each way to
   build one; `play` runs a program against a world that always gives one answer. -/
namespace CampusAuth.Lib

inductive Prog (Q : Type) (A : Q → Type) (R : Type)
  | done (r : R)
  | ask (q : Q) (next : A q → Prog Q A R)

namespace Prog
variable {Q : Type} {A : Q → Type} {R R' E S : Type}

def bind : Prog Q A R → (R → Prog Q A R') → Prog Q A R'
  | done r, f => f r
  | ask q next, f => ask q fun a => (next a).bind f

instance : Monad (Prog Q A) where
  pure := done
  bind := bind

/-- The program that returns the answer. -/
def query (q : Q) : Prog Q A (A q) := ask q done

/-- In a state a question can have an answer after which the world is in another state. -/
abbrev World (S Q : Type) (A : Q → Type) := S → (q : Q) → A q → S → Prop

/-- What a program and its world have come to after some answers. -/
inductive Reach (W : World S Q A) : Prog Q A R → S → Prog Q A R → S → Prop
  | refl (p : Prog Q A R) (s : S) : Reach W p s p s
  | step {p : Prog Q A R} {s : S} {q : Q} {next : A q → Prog Q A R} {t u : S} {a : A q} :
      Reach W p s (ask q next) t → W t q a u → Reach W p s (next a) u

def Wp (W : World S Q A) (I : S → Prop) : Prog Q A R → (R → S → Prop) → S → Prop
  | done r, post, s => post r s
  | ask q next, post, s => ∀ a t, W s q a t → I t ∧ Wp W I (next a) post t

/-! ## Rules -/

variable {W : World S Q A} {I : S → Prop}

@[simp] theorem wp_done (r : R) (post : R → S → Prop) (s : S) :
    Wp W I (done r) post s ↔ post r s := Iff.rfl

@[simp] theorem wp_pure (r : R) (post : R → S → Prop) (s : S) :
    Wp W I (pure r : Prog Q A R) post s ↔ post r s := Iff.rfl

theorem Wp.mono {post post' : R → S → Prop} (himp : ∀ r t, post r t → post' r t) :
    ∀ {p : Prog Q A R} {s : S}, Wp W I p post s → Wp W I p post' s
  | done r, s, h => himp r s h
  | ask _ _, _, h => fun a t ht => ⟨(h a t ht).1, Wp.mono himp (h a t ht).2⟩

theorem wp_bind (f : R → Prog Q A R') (post : R' → S → Prop) : ∀ (p : Prog Q A R) (s : S),
    Wp W I (p >>= f) post s ↔ Wp W I p (fun r t => Wp W I (f r) post t) s
  | done _, _ => Iff.rfl
  | ask _ next, _ =>
    ⟨fun h a t ht => ⟨(h a t ht).1, (wp_bind f post (next a) t).mp (h a t ht).2⟩,
      fun h a t ht => ⟨(h a t ht).1, (wp_bind f post (next a) t).mpr (h a t ht).2⟩⟩

/-- What is reached meets the invariant, and what is done the postcondition. -/
theorem Wp.sound {post : R → S → Prop} {p p' : Prog Q A R} {s s' : S}
    (hreach : Reach W p s p' s') (hI : I s) (h : Wp W I p post s) : I s' ∧ Wp W I p' post s' := by
  induction hreach with
  | refl => exact ⟨hI, h⟩
  | step _ hanswer ih => exact ih.2 _ _ hanswer

theorem Wp.done {post : R → S → Prop} {p : Prog Q A R} {s s' : S} {r : R}
    (hreach : Reach W p s (done r) s') (hI : I s) (h : Wp W I p post s) : post r s' :=
  (Wp.sound hreach hI h).2

/-! ## Programs that can fail -/

/-- A program that returns a value or an error; a failed step ends it. -/
abbrev Fallible (Q : Type) (A : Q → Type) (E R : Type) := ExceptT E (Prog Q A) R

/-- A question whose answer is a value. -/
def fetch (q : Q) : Fallible Q A E (A q) := ExceptT.lift (query q)

@[simp] theorem wp_ok (r : R) (post : Except E R → S → Prop) (s : S) :
    Wp W I (pure r : Fallible Q A E R) post s ↔ post (.ok r) s := Iff.rfl

@[simp] theorem wp_throw (e : E) (post : Except E R → S → Prop) (s : S) :
    Wp W I (throw e : Fallible Q A E R) post s ↔ post (.error e) s := Iff.rfl

/-- What is left to show behind a step, when it returned and when it failed. -/
def After (W : World S Q A) (I : S → Prop) (f : R → Fallible Q A E R')
    (post : Except E R' → S → Prop) : Except E R → S → Prop
  | .ok a, t => Wp W I (f a) post t
  | .error e, t => post (.error e) t

theorem wp_then (x : Fallible Q A E R) (f : R → Fallible Q A E R')
    (post : Except E R' → S → Prop) (s : S) :
    Wp W I (x >>= f : Fallible Q A E R') post s ↔ Wp W I x (After W I f post) s := by
  refine (wp_bind _ post x s).trans ⟨Wp.mono fun r t h => ?_, Wp.mono fun r t h => ?_⟩ <;>
    cases r <;> exact h

/-! ## Triples -/

/-- From a state that meets `J`, a run that returns ends in `Ok` and one that fails in `Err`. -/
def Triple (W : World S Q A) (I : S → Prop) (J : S → Prop) (x : Fallible Q A E R)
    (Ok : R → S → Prop) (Err : S → Prop) : Prop :=
  ∀ s, J s → Wp W I x (fun r t => match r with | .ok a => Ok a t | .error _ => Err t) s

variable {J : S → Prop} {Err : S → Prop}

theorem Triple.sound {x : Fallible Q A E R} {Ok : R → S → Prop} (h : Triple W I J x Ok Err)
    {p : Prog Q A (Except E R)} {s t : S} (hreach : Reach W x.run s p t) (hI : I s) (hJ : J s) :
    I t ∧ ∀ r, p = .done (.ok r) → Ok r t := by
  have hsound := Wp.sound hreach hI (h s hJ)
  refine ⟨hsound.1, ?_⟩
  rintro r rfl
  exact hsound.2

theorem Triple.conseq {x : Fallible Q A E R} {J' F F' : S → Prop} {Ok Ok' : R → S → Prop}
    (h : Triple W I J x Ok F) (hJ : ∀ s, J' s → J s) (hOk : ∀ r s, Ok r s → Ok' r s)
    (hErr : ∀ s, F s → F' s) : Triple W I J' x Ok' F' := by
  intro s hs
  refine (h s (hJ s hs)).mono fun r t ht => ?_
  cases r with
  | ok a => exact hOk a t ht
  | error e => exact hErr t ht

theorem Triple.bind {x : Fallible Q A E R} {f : R → Fallible Q A E R'} {M : R → S → Prop}
    {Ok : R' → S → Prop} (hx : Triple W I J x M Err) (hf : ∀ a, Triple W I (M a) (f a) Ok Err) :
    Triple W I J (x >>= f) Ok Err := by
  intro s hs
  rw [wp_then]
  refine (hx s hs).mono fun r t ht => ?_
  cases r with
  | ok a => exact hf a t ht
  | error e => exact ht

theorem Triple.pure {r : R} {Ok : R → S → Prop} (h : ∀ s, J s → Ok r s) :
    Triple W I J (Pure.pure r : Fallible Q A E R) Ok Err := h

theorem Triple.throw {e : E} {Ok : R → S → Prop} (h : ∀ s, J s → Err s) :
    Triple W I J (MonadExcept.throw e : Fallible Q A E R) Ok Err := h

theorem Triple.fetch {q : Q} {Ok : A q → S → Prop}
    (h : ∀ s a t, J s → W s q a t → I t ∧ Ok a t) :
    Triple W I J (Prog.fetch q : Fallible Q A E (A q)) Ok Err :=
  fun s hs a t ht => h s a t hs ht

theorem Triple.ite {b : Bool} {x y : Fallible Q A E R} {Ok : R → S → Prop}
    (hx : b = true → Triple W I J x Ok Err) (hy : b = false → Triple W I J y Ok Err) :
    Triple W I J (if b then x else y) Ok Err := by
  cases b with
  | true => exact hx rfl
  | false => exact hy rfl

/-- What is shown of a program in two ways is shown at once. -/
theorem Triple.and {I' J' Err' : S → Prop} {x : Fallible Q A E R} {Ok Ok' : R → S → Prop}
    (h : Triple W I J x Ok Err) (h' : Triple W I' J' x Ok' Err') :
    Triple W I (fun s => J s ∧ J' s) x (fun r s => Ok r s ∧ Ok' r s)
      (fun s => Err s ∧ Err' s) := by
  have hboth : ∀ {p : Prog Q A (Except E R)} {post post' : Except E R → S → Prop} {s : S},
      Wp W I p post s → Wp W I' p post' s → Wp W I p (fun r t => post r t ∧ post' r t) s := by
    intro p
    induction p with
    | done r => exact fun hp hp' => ⟨hp, hp'⟩
    | ask q next ih =>
      exact fun hp hp' a t ht => ⟨(hp a t ht).1, ih a (hp a t ht).2 (hp' a t ht).2⟩
  intro s hs
  refine (hboth (h s hs.1) (h' s hs.2)).mono fun r t ht => ?_
  cases r with
  | ok a => exact ht
  | error e => exact ht

/-! ## Playing a program -/

/-- The run against a world that answers each question in one way. -/
def play (o : S → (q : Q) → A q × S) : Prog Q A R → S → R × S
  | .done r, s => (r, s)
  | .ask q next, s => play o (next (o s q).1) (o s q).2

theorem play_reach {o : S → (q : Q) → A q × S} (ho : ∀ s q, W s q (o s q).1 (o s q).2)
    (p : Prog Q A R) (s : S) : Reach W p s (.done (play o p s).1) (play o p s).2 := by
  have hfrom : ∀ (p' : Prog Q A R) (t : S), Reach W p s p' t →
      Reach W p s (.done (play o p' t).1) (play o p' t).2 := by
    intro p'
    induction p' with
    | done r => exact fun t h => h
    | ask q next ih => exact fun t h => ih _ _ (h.step (ho t q))
  exact hfrom p s (.refl p s)

/-- Answers that are the world's wherever the invariant holds, play a run of the world. -/
theorem Wp.play_reach {o : S → (q : Q) → A q × S}
    (ho : ∀ s q, I s → W s q (o s q).1 (o s q).2) {post : R → S → Prop} {p : Prog Q A R} {s : S}
    (hI : I s) (h : Wp W I p post s) : Reach W p s (.done (play o p s).1) (play o p s).2 := by
  have hfrom : ∀ (p' : Prog Q A R) (t : S), Reach W p s p' t → I t → Wp W I p' post t →
      Reach W p s (.done (play o p' t).1) (play o p' t).2 := by
    intro p'
    induction p' with
    | done r => exact fun t hreach _ _ => hreach
    | ask q next ih =>
      intro t hreach ht hp
      have hnext := hp _ _ (ho t q ht)
      exact ih _ _ (hreach.step (ho t q ht)) hnext.1 hnext.2
  exact hfrom p s (.refl p s) hI h

end Prog
end CampusAuth.Lib
