import Mathlib.Data.List.Basic

/- A pool of processes: the list of where each one stands, a process being its index.

   `Pool.All P` says of every process that it meets `P` at its index. A step that moves one
   process and leaves the others where they are is `All.set`, a new process is `All.spawn`.
   A lock that one process at a time holds is `Owned`; `Passes` is all that a move of one
   process may do to it. -/
namespace CampusAuth.Lib

abbrev Pool (α : Type*) := List α

namespace Pool
variable {α : Type*} {P Q : Nat → α → Prop} {pool : Pool α} {i : Nat} {a b : α}

/-- Every process meets `P`. -/
def All (P : Nat → α → Prop) (pool : Pool α) : Prop := ∀ i a, pool[i]? = some a → P i a

theorem All.nil : All P [] := by
  intro i a h
  rw [List.getElem?_nil] at h
  cases h

theorem All.imp (h : All P pool) (hPQ : ∀ i a, P i a → Q i a) : All Q pool :=
  fun i a ha => hPQ i a (h i a ha)

/-- Process `i` moves to `b`: any other process is where it was. -/
theorem of_set {j : Nat} (h : (pool.set i b)[j]? = some a) :
    (j = i ∧ a = b) ∨ (j ≠ i ∧ pool[j]? = some a) := by
  rw [List.getElem?_set] at h
  split at h
  next heq =>
    split at h
    · exact .inl ⟨heq.symm, (Option.some.inj h).symm⟩
    · cases h
  next hne => exact .inr ⟨Ne.symm hne, h⟩

/-- A new process comes last. -/
theorem of_spawn {j : Nat} (h : (pool ++ [b])[j]? = some a) :
    pool[j]? = some a ∨ (j = pool.length ∧ a = b) := by
  by_cases hlt : j < pool.length
  · rw [List.getElem?_append_left hlt] at h
    exact .inl h
  · rw [List.getElem?_append_right (Nat.not_lt.mp hlt)] at h
    rcases Nat.eq_zero_or_pos (j - pool.length) with hz | hpos
    · rw [hz] at h
      exact .inr ⟨by omega, (Option.some.inj h).symm⟩
    · rw [List.getElem?_eq_none (by rw [List.length_singleton]; omega)] at h
      cases h

/-- Process `i` moves to `b`; what the others do not lose, the pool keeps. -/
theorem All.set (h : All P pool) (hothers : ∀ j a, j ≠ i → P j a → Q j a) (hb : Q i b) :
    All Q (pool.set i b) := by
  intro j a hj
  rcases of_set hj with ⟨rfl, rfl⟩ | ⟨hne, hj⟩
  · exact hb
  · exact hothers j a hne (h j a hj)

/-- A new process starts at `b`. -/
theorem All.spawn (h : All P pool) (hold : ∀ j a, P j a → Q j a) (hb : Q pool.length b) :
    All Q (pool ++ [b]) := by
  intro j a hj
  rcases of_spawn hj with hj | ⟨rfl, rfl⟩
  · exact hold j a (h j a hj)
  · exact hb

/-- A process that does not meet `p` moves; another one that does stays. -/
theorem any_set {p : α → Bool} (hat : pool[i]? = some a) (ha : p a = false)
    (h : pool.any p = true) : (pool.set i b).any p = true := by
  obtain ⟨other, hmem, hother⟩ := List.any_eq_true.mp h
  obtain ⟨j, hj⟩ := List.mem_iff_getElem?.mp hmem
  have hne : i ≠ j := by
    rintro rfl
    rw [hat] at hj
    cases hj
    rw [ha] at hother
    cases hother
  exact List.any_eq_true.mpr
    ⟨other, List.mem_of_getElem? ((List.getElem?_set_ne hne).trans hj), hother⟩

/-- The process that moves meets `p` now. -/
theorem any_set_self {p : α → Bool} (hat : pool[i]? = some a) (hb : p b = true) :
    (pool.set i b).any p = true :=
  List.any_eq_true.mpr ⟨b, List.mem_of_getElem?
    (List.getElem?_set_self (List.getElem?_eq_some_iff.mp hat).1), hb⟩

/-- How many meet `p` changes by the one that moves. -/
theorem countP_set_add {p : α → Bool} (hat : pool[i]? = some a) :
    (pool.set i b).countP p + (if p a then 1 else 0) =
      pool.countP p + (if p b then 1 else 0) := by
  obtain ⟨hlt, heq⟩ := List.getElem?_eq_some_iff.mp hat
  have hpos : p a = true → 0 < pool.countP p := fun hp =>
    List.countP_pos_iff.mpr ⟨a, List.mem_of_getElem? hat, hp⟩
  rw [List.countP_set hlt, heq]
  split
  next hp =>
    have := hpos hp
    omega
  next => omega

/-- Processes that meet `p` are no more than the list they are all in. -/
theorem countP_le_length {p : α → Bool} : ∀ {pool : Pool α} {indices : List Nat},
    (∀ i a, pool[i]? = some a → p a = true → i ∈ indices) → pool.countP p ≤ indices.length
  | [], _, _ => Nat.zero_le _
  | a :: pool, indices, h => by
    -- The others stand one place further on in the list without the first.
    have hrest : pool.countP p ≤ ((indices.filter (· ≠ 0)).map (· - 1)).length := by
      refine countP_le_length fun i b hb hp => ?_
      refine List.mem_map.mpr ⟨i + 1, List.mem_filter.mpr ⟨h (i + 1) b hb hp, by simp⟩, ?_⟩
      exact Nat.add_sub_cancel i 1
    rw [List.length_map] at hrest
    rw [List.countP_cons]
    split
    next hp =>
      have hlt : (indices.filter (· ≠ 0)).length < indices.length :=
        List.length_filter_lt_length_iff_exists.mpr ⟨0, h 0 a rfl hp, by simp⟩
      omega
    next =>
      have hle : (indices.filter (· ≠ 0)).length ≤ indices.length := List.length_filter_le _ _
      omega

/-! ## Locks -/

/-- Just the process that the lock names holds it. -/
structure Owned (holds : α → Bool) (lock : Option Nat) (pool : Pool α) : Prop where
  owner : All (fun i a => holds a = true ↔ lock = some i) pool
  present : ∀ i, lock = some i → i < pool.length

/-- Process `i` leaves the lock as it is, takes it when it is free, or lets it go. -/
def Passes (i : Nat) (lock lock' : Option Nat) (held held' : Bool) : Prop :=
  (lock' = lock ∧ held' = held) ∨ (lock = none ∧ lock' = some i ∧ held' = true) ∨
    (held = true ∧ lock' = none ∧ held' = false)

variable {holds : α → Bool} {lock lock' : Option Nat}

theorem Owned.nil : Owned holds none [] := ⟨.nil, by intro i h; cases h⟩

/-- Two processes that hold a lock are one. -/
theorem Owned.unique (h : Owned holds lock pool) {j : Nat} (hi : pool[i]? = some a)
    (hj : pool[j]? = some b) (ha : holds a = true) (hb : holds b = true) : i = j := by
  have hfirst := (h.owner i a hi).mp ha
  have hsecond := (h.owner j b hj).mp hb
  rw [hfirst] at hsecond
  exact Option.some.inj hsecond

theorem Owned.set (h : Owned holds lock pool) (hat : pool[i]? = some a)
    (hpasses : Passes i lock lock' (holds a) (holds b)) : Owned holds lock' (pool.set i b) := by
  have hself := h.owner i a hat
  refine ⟨h.owner.set (fun j c hne hother => ?_) ?_, fun j hj => ?_⟩
  · rcases hpasses with ⟨rfl, -⟩ | ⟨rfl, rfl, -⟩ | ⟨hheld, rfl, -⟩
    · exact hother
    · simpa [Ne.symm hne] using hother
    · rw [hself.mp hheld] at hother
      simpa [Ne.symm hne] using hother
  · rcases hpasses with ⟨rfl, hsame⟩ | ⟨-, rfl, hheld⟩ | ⟨-, rfl, hfree⟩
    · rw [hsame]
      exact hself
    · simp [hheld]
    · simp [hfree]
  · rw [List.length_set]
    rcases hpasses with ⟨rfl, -⟩ | ⟨-, rfl, -⟩ | ⟨-, rfl, -⟩
    · exact h.present j hj
    · cases hj
      exact (List.getElem?_eq_some_iff.mp hat).1
    · cases hj

/-- A process that holds nothing comes. -/
theorem Owned.spawn (h : Owned holds lock pool) (hb : holds b = false) :
    Owned holds lock (pool ++ [b]) := by
  refine ⟨h.owner.spawn (fun _ _ hold => hold) ?_, fun i hi => ?_⟩
  · rw [hb]
    exact ⟨Bool.false_ne_true.elim, fun hlock => absurd (h.present _ hlock) (Nat.lt_irrefl _)⟩
  · rw [List.length_append]
    exact Nat.lt_add_right _ (h.present i hi)

end Pool
end CampusAuth.Lib
