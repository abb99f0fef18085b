import CampusAuth.Login.Result

/- The preemption matrix (`login/preemption.rs`): what a new request does to the login
   that occupies the slot. -/
namespace CampusAuth.Login
open Status

/-- What `submit` hands out: a session's result slot, or a result that is already there. -/
inductive LoginHandle where
  | session (sessionId : Nat)
  | immediate (result : LoginResult)
  deriving DecidableEq, Repr

inductive PreemptionDecision where
  | reuse (handle : LoginHandle)
  | preempt
  | create
  deriving DecidableEq, Repr

def priority : LoginSource → Nat
  | .loginOnce => 4
  | .browser => 3
  | .manual => 2
  | .auto => 1

def Preemption.decide (newSource : LoginSource) (currentSource : Option LoginSource)
    (currentHandle : Option LoginHandle) : PreemptionDecision :=
  match currentSource with
  | none => .create
  | some current =>
    if newSource = current then
      match current with
      | .auto =>
        match currentHandle with
        | some handle => .reuse handle
        | none => .create
      | _ => .preempt
    else if priority newSource > priority current then .preempt
    else
      match currentHandle with
      | some handle => .reuse handle
      | none => .create

/-- Who may preempt whom: a higher priority, or a request of the same source that is not
    automatic. -/
def MayPreempt (new current : LoginSource) : Prop :=
  priority current < priority new ∨ (new = current ∧ current ≠ .auto)

instance (new current : LoginSource) : Decidable (MayPreempt new current) :=
  inferInstanceAs (Decidable (_ ∨ _))

theorem decide_preempt_iff (new current : LoginSource) (handle : LoginHandle) :
    Preemption.decide new (some current) (some handle) = .preempt ↔ MayPreempt new current := by
  cases new <;> cases current <;> simp [Preemption.decide, MayPreempt, priority]

theorem decide_reuse_of_not {new current : LoginSource} (handle : LoginHandle)
    (h : ¬MayPreempt new current) :
    Preemption.decide new (some current) (some handle) = .reuse handle := by
  revert h
  cases new <;> cases current <;> simp [Preemption.decide, MayPreempt, priority]

/-- Of two requests of different sources at most one may preempt the other. -/
theorem mayPreempt_asymm {a b : LoginSource} (hne : a ≠ b) (h : MayPreempt a b) :
    ¬MayPreempt b a := by
  rcases h with h | ⟨h, -⟩
  · rintro (h' | ⟨h', -⟩)
    · omega
    · exact hne h'.symm
  · exact absurd h hne

end CampusAuth.Login
