import Mathlib.Data.List.Basic

/- A value that is stored first and versioned later.

   A writer stores a new value and raises the version afterwards, in two steps that others
   may come between. A reader notes the version, reads the value at some later time, and
   is judged by comparing its version with the current one. The comparison misses the
   stores whose version is still to be raised: `Covered` says that it misses nothing
   else, and `Covered.current` what an equal version is worth. -/
namespace CampusAuth.Lib

structure Publication (κ : Type*) where
  value : κ
  /-- How many stores there were; the number of the last names the value. -/
  stored : Nat := 0
  version : Nat := 0
  /-- The stores whose version is still to be raised. -/
  unbumped : List Nat := []

/-- A reader: the version it noted, and the number and the value it has read. -/
structure Reading (κ : Type*) where
  version : Nat
  seen : Option (Nat × κ) := none
  deriving DecidableEq, Repr

namespace Publication
variable {κ : Type*}

def store (p : Publication κ) (k : κ) : Publication κ :=
  { p with value := k, stored := p.stored + 1, unbumped := p.unbumped ++ [p.stored + 1] }

def bump (p : Publication κ) (i : Nat) : Publication κ :=
  { p with version := p.version + 1, unbumped := p.unbumped.erase i }

/-- The reader takes what is stored now. -/
def read (p : Publication κ) (r : Reading κ) : Reading κ :=
  { r with seen := some (p.stored, p.value) }

/-- Every store since the reading is still to be versioned, or has outdated the reader. -/
structure Covered (p : Publication κ) (r : Reading κ) : Prop where
  version_le : r.version ≤ p.version
  seen_le : ∀ i k, r.seen = some (i, k) → i ≤ p.stored
  last : ∀ k, r.seen = some (p.stored, k) → k = p.value
  later : ∀ i k, r.seen = some (i, k) → ∀ j, i < j → j ≤ p.stored →
    j ∈ p.unbumped ∨ r.version < p.version

variable {p : Publication κ} {r : Reading κ}

theorem covered_new {v : Nat} (h : v ≤ p.version) : p.Covered { version := v } where
  version_le := h
  seen_le := by intro i k hs; cases hs
  last := by intro k hs; cases hs
  later := by intro i k hs; cases hs

theorem Covered.read (h : p.Covered r) : p.Covered (p.read r) where
  version_le := h.version_le
  seen_le := by
    intro i k hs
    cases hs
    exact Nat.le_refl _
  last := by
    intro k hs
    cases hs
    rfl
  later := by
    intro i k hs j hij hj
    cases hs
    omega

theorem Covered.store (h : p.Covered r) (k : κ) : (p.store k).Covered r where
  version_le := h.version_le
  seen_le := by
    intro i k' hs
    exact Nat.le_succ_of_le (h.seen_le i k' hs)
  last := by
    intro k' hs
    have := h.seen_le _ _ hs
    simp only [Publication.store] at this
    omega
  later := by
    intro i k' hs j hij hj
    by_cases hlast : j = p.stored + 1
    · exact .inl (by simp [Publication.store, hlast])
    · have hj' : j ≤ p.stored := by
        simp only [Publication.store] at hj
        omega
      rcases h.later i k' hs j hij hj' with hmem | hlt
      · exact .inl (List.mem_append_left _ hmem)
      · exact .inr hlt

theorem Covered.bump (h : p.Covered r) (i : Nat) : (p.bump i).Covered r where
  version_le := Nat.le_succ_of_le h.version_le
  seen_le := h.seen_le
  last := h.last
  later := fun _ _ _ _ _ _ => .inr (Nat.lt_succ_of_le h.version_le)

/-- With an equal version and no store waiting since the reading, the value is the one stored. -/
theorem Covered.current (h : p.Covered r) {i : Nat} {k : κ} (hs : r.seen = some (i, k))
    (hv : r.version = p.version) (hwait : ∀ j ∈ p.unbumped, j ≤ i) : i = p.stored ∧ k = p.value := by
  have hi : i = p.stored := by
    by_contra hne
    have hlt : i < p.stored := Nat.lt_of_le_of_ne (h.seen_le i k hs) hne
    rcases h.later i k hs p.stored hlt (Nat.le_refl _) with hmem | hlt'
    · have := hwait _ hmem
      omega
    · omega
  subst hi
  exact ⟨rfl, h.last k hs⟩

end Publication
end CampusAuth.Lib
