import Mathlib.Data.List.Basic

/- The kinds of sessions and the registry of cancellations (`bridge/session.rs`).

   A token is what a request is cancelled by; the registry finds it by the request's cancel id.
   Cancelling is given as the list of the tokens that an operation cancels. -/
namespace CampusAuth.Bridge

inductive SessionType where
  | login
  | redirectTest
  | debug
  deriving DecidableEq

/-- How long a cancellation is kept for a request that has not registered yet, in nanoseconds. -/
def pendingTtl : Nat := 60 * 1000000000

structure CancelRegistry (τ : Type*) where
  map : List (String × τ) := []
  lightweight : List (String × τ) := []
  /-- Cancelled before they registered, and when. -/
  pending : List (String × Nat) := []

namespace CancelRegistry
variable {τ : Type*} (registry : CancelRegistry τ) (now : Nat) (cancelId : String) (token : τ)

def prunePending : CancelRegistry τ :=
  { registry with pending := registry.pending.filter fun p => now - p.2 < pendingTtl }

def dropPending : CancelRegistry τ :=
  { registry with pending := registry.pending.filter (·.1 ≠ cancelId) }

/-- `register_inner`: a token whose cancellation came before it is cancelled at once. -/
def register (lightweight : Bool) : CancelRegistry τ × List τ :=
  let pruned := registry.prunePending now
  let kept := pruned.dropPending cancelId
  let cancelled := if pruned.pending.any (·.1 = cancelId) then [token] else []
  if lightweight then
    ({ kept with lightweight := (cancelId, token) :: kept.lightweight.filter (·.1 ≠ cancelId) },
      cancelled)
  else
    ({ kept with map := (cancelId, token) :: kept.map.filter (·.1 ≠ cancelId) }, cancelled)

def trigger : CancelRegistry τ × List τ :=
  match registry.map.lookup cancelId with
  | some token => ({ registry with map := registry.map.filter (·.1 ≠ cancelId) }, [token])
  | none =>
    match registry.lightweight.lookup cancelId with
    | some token =>
      ({ registry with lightweight := registry.lightweight.filter (·.1 ≠ cancelId) }, [token])
    | none =>
      let kept := (registry.prunePending now).dropPending cancelId
      ({ kept with pending := (cancelId, now) :: kept.pending }, [])

def remove : CancelRegistry τ :=
  { map := registry.map.filter (·.1 ≠ cancelId)
    lightweight := registry.lightweight.filter (·.1 ≠ cancelId)
    pending := registry.pending.filter (·.1 ≠ cancelId) }

/-- Cancels the session tokens; the lightweight ones stay. -/
def triggerAll : CancelRegistry τ × List τ :=
  ({ registry with map := [], pending := [] }, registry.map.map (·.2))

/-- Forgets everything and cancels nothing. -/
def clear : CancelRegistry τ := { map := [], lightweight := [], pending := [] }

/-! ## The registered tokens -/

def tokens : List τ := (registry.map ++ registry.lightweight).map (·.2)

variable {registry now cancelId token}

theorem mem_tokens {t : τ} :
    t ∈ registry.tokens ↔ (∃ c, (c, t) ∈ registry.map) ∨ ∃ c, (c, t) ∈ registry.lightweight := by
  simp [tokens]

theorem mem_tokens_register {t : τ} {lightweight : Bool}
    (h : t ∈ (registry.register now cancelId token lightweight).1.tokens) :
    t = token ∨ t ∈ registry.tokens := by
  cases lightweight with
  | true =>
    rcases mem_tokens.mp h with ⟨c, hc⟩ | ⟨c, hc⟩
    · exact .inr (mem_tokens.mpr (.inl ⟨c, hc⟩))
    · rcases List.mem_cons.mp hc with heq | hc
      · exact .inl (Prod.mk.inj heq).2
      · exact .inr (mem_tokens.mpr (.inr ⟨c, (List.mem_filter.mp hc).1⟩))
  | false =>
    rcases mem_tokens.mp h with ⟨c, hc⟩ | ⟨c, hc⟩
    · rcases List.mem_cons.mp hc with heq | hc
      · exact .inl (Prod.mk.inj heq).2
      · exact .inr (mem_tokens.mpr (.inl ⟨c, (List.mem_filter.mp hc).1⟩))
    · exact .inr (mem_tokens.mpr (.inr ⟨c, hc⟩))

theorem mem_tokens_trigger {t : τ} (h : t ∈ (registry.trigger now cancelId).1.tokens) :
    t ∈ registry.tokens := by
  simp only [trigger] at h
  split at h
  · rcases mem_tokens.mp h with ⟨c, hc⟩ | hc
    · exact mem_tokens.mpr (.inl ⟨c, (List.mem_filter.mp hc).1⟩)
    · exact mem_tokens.mpr (.inr hc)
  · split at h
    · rcases mem_tokens.mp h with hc | ⟨c, hc⟩
      · exact mem_tokens.mpr (.inl hc)
      · exact mem_tokens.mpr (.inr ⟨c, (List.mem_filter.mp hc).1⟩)
    · exact h

theorem mem_tokens_remove {t : τ} (h : t ∈ (registry.remove cancelId).tokens) :
    t ∈ registry.tokens := by
  rcases mem_tokens.mp h with ⟨c, hc⟩ | ⟨c, hc⟩
  · exact mem_tokens.mpr (.inl ⟨c, (List.mem_filter.mp hc).1⟩)
  · exact mem_tokens.mpr (.inr ⟨c, (List.mem_filter.mp hc).1⟩)

theorem mem_tokens_triggerAll {t : τ} (h : t ∈ registry.triggerAll.1.tokens) :
    t ∈ registry.tokens := by
  rcases mem_tokens.mp h with ⟨c, hc⟩ | hc
  · cases hc
  · exact mem_tokens.mpr (.inr hc)

end CancelRegistry
end CampusAuth.Bridge
