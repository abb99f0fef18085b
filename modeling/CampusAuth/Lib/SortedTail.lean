import CampusAuth.Lib.StableSort
import Mathlib.Data.List.DropRight

/- The tail of a list against the tail of that list sorted.

   A sorted list is known by what it holds of each key (`eq_of_sorted`), so sorting the pieces
   of a list first changes nothing (`sortByKey_flatten`). The last `n` of a list are the last
   `n` of it sorted just when they are in order and nothing before them is later than one of
   them (`rtake_eq_rtake_sortByKey`); over sorted pieces that is a condition on each piece and
   the last `n` of those after it (`settled_flatten`). -/
namespace CampusAuth.Lib
variable {α κ : Type*} [LinearOrder κ] {key : α → κ} {n : Nat}

/-! ## What sorts to the same -/

/-- What two lists hold of each key, in order. -/
def SameByKey (key : α → κ) (l l' : List α) : Prop :=
  ∀ k, l.filter (fun a => decide (key a = k)) = l'.filter fun a => decide (key a = k)

theorem SameByKey.mem {l l' : List α} (h : SameByKey key l l') {a : α} (ha : a ∈ l) : a ∈ l' := by
  have hfilter : a ∈ l.filter fun b => decide (key b = key a) := by simp [ha]
  rw [h (key a)] at hfilter
  exact (List.mem_filter.mp hfilter).1

theorem SameByKey.symm {l l' : List α} (h : SameByKey key l l') : SameByKey key l' l :=
  fun k => (h k).symm

theorem sameByKey_sortByKey (key : α → κ) (l : List α) : SameByKey key (sortByKey key l) l := by
  intro k
  apply sortByKey_filter
  intro a _ b _ ha hb
  exact (of_decide_eq_true ha).trans (of_decide_eq_true hb).symm

theorem SameByKey.append {l₁ l₁' l₂ l₂' : List α} (h₁ : SameByKey key l₁ l₁')
    (h₂ : SameByKey key l₂ l₂') : SameByKey key (l₁ ++ l₂) (l₁' ++ l₂') := by
  intro k
  rw [List.filter_append, List.filter_append, h₁ k, h₂ k]

theorem sameByKey_flatten (ls : List (List α)) :
    SameByKey key (ls.map (sortByKey key)).flatten ls.flatten := by
  induction ls with
  | nil => exact fun k => rfl
  | cons l ls ih =>
    simp only [List.map_cons, List.flatten_cons]
    exact (sameByKey_sortByKey key l).append ih

/-- Two sorted lists that hold the same of each key. -/
theorem eq_of_sorted : ∀ {l l' : List α}, l.Pairwise (fun a b => key a ≤ key b) →
    l'.Pairwise (fun a b => key a ≤ key b) → SameByKey key l l' → l = l'
  | [], [], _, _, _ => rfl
  | [], b :: l', _, _, hsame => absurd (hsame.symm.mem List.mem_cons_self) (by simp)
  | a :: l, [], _, _, hsame => absurd (hsame.mem List.mem_cons_self) (by simp)
  | a :: l, b :: l', h, h', hsame => by
    obtain ⟨ha, hl⟩ := List.pairwise_cons.mp h
    obtain ⟨hb, hl'⟩ := List.pairwise_cons.mp h'
    have hba : key b ≤ key a := by
      rcases List.mem_cons.mp (hsame.mem List.mem_cons_self) with rfl | hmem
      · exact le_rfl
      · exact hb a hmem
    have hab : key a ≤ key b := by
      rcases List.mem_cons.mp (hsame.symm.mem List.mem_cons_self) with rfl | hmem
      · exact le_rfl
      · exact ha b hmem
    have hkey : key a = key b := le_antisymm hab hba
    have hhead := hsame (key a)
    simp only [List.filter_cons, hkey, decide_true, if_true, List.cons.injEq] at hhead
    obtain ⟨rfl, hties⟩ := hhead
    have htail : SameByKey key l l' := by
      intro k
      have hk := hsame k
      by_cases heq : key a = k
      · simpa [heq] using hk
      · simpa [heq] using hk
    rw [eq_of_sorted hl hl' htail]

/-- Sorting the pieces first changes nothing. -/
theorem sortByKey_flatten (key : α → κ) (ls : List (List α)) :
    sortByKey key (ls.map (sortByKey key)).flatten = sortByKey key ls.flatten := by
  apply eq_of_sorted (sortByKey_pairwise key _) (sortByKey_pairwise key _)
  intro k
  rw [sameByKey_sortByKey key _ k, sameByKey_flatten ls k, sameByKey_sortByKey key _ k]

/-! ## The last `n` -/

theorem rdrop_append_rtake (n : Nat) (l : List α) : l.rdrop n ++ l.rtake n = l :=
  List.take_append_drop _ l

theorem rtake_append_of_le {l l' : List α} (h : n ≤ l'.length) :
    (l ++ l').rtake n = l'.rtake n := by
  unfold List.rtake
  rw [List.length_append, Nat.add_sub_assoc h, List.drop_length_add_append]

theorem rtake_append_of_ge {l l' : List α} (h : l'.length ≤ n) :
    (l ++ l').rtake n = l.rtake (n - l'.length) ++ l' := by
  unfold List.rtake
  have hlen : (l ++ l').length - n = l.length - (n - l'.length) := by
    rw [List.length_append]
    omega
  rw [hlen, List.drop_append_of_le_length (Nat.sub_le _ _)]

theorem rdrop_append_of_le {l l' : List α} (h : n ≤ l'.length) :
    (l ++ l').rdrop n = l ++ l'.rdrop n := by
  unfold List.rdrop
  rw [List.length_append, Nat.add_sub_assoc h, List.take_length_add_append]

theorem rdrop_append_of_ge {l l' : List α} (h : l'.length ≤ n) :
    (l ++ l').rdrop n = l.rdrop (n - l'.length) := by
  unfold List.rdrop
  have hlen : (l ++ l').length - n = l.length - (n - l'.length) := by
    rw [List.length_append]
    omega
  rw [hlen, List.take_append_of_le_length (Nat.sub_le _ _)]

theorem rtake_of_length_le {l : List α} (h : l.length ≤ n) : l.rtake n = l := by
  rw [List.rtake, Nat.sub_eq_zero_of_le h, List.drop_zero]

theorem length_rtake (n : Nat) (l : List α) : (l.rtake n).length = min n l.length := by
  rw [List.rtake, List.length_drop]
  omega

/-- The last `n` are in order, and nothing before them is later than one of them. -/
def Settled (key : α → κ) (n : Nat) (l : List α) : Prop :=
  (l.rtake n).Pairwise (fun a b => key a ≤ key b) ∧
    ∀ a ∈ l.rdrop n, ∀ b ∈ l.rtake n, key a ≤ key b

/-- The last `n` of a list are the last `n` of it sorted. -/
theorem rtake_eq_rtake_sortByKey (key : α → κ) (n : Nat) (l : List α) :
    l.rtake n = (sortByKey key l).rtake n ↔ Settled key n l := by
  constructor
  · intro h
    have hsorted := sortByKey_pairwise key l
    rw [← rdrop_append_rtake n (sortByKey key l), ← h] at hsorted
    have hperm : ((sortByKey key l).rdrop n ++ l.rtake n).Perm (l.rdrop n ++ l.rtake n) := by
      nth_rewrite 1 [h]
      rw [rdrop_append_rtake, rdrop_append_rtake]
      exact sortByKey_perm key l
    have hfront := (List.perm_append_right_iff _).mp hperm
    obtain ⟨-, htail, hle⟩ := List.pairwise_append.mp hsorted
    exact ⟨htail, fun a ha b hb => hle a (hfront.mem_iff.mpr ha) b hb⟩
  · rintro ⟨htail, hle⟩
    have hsorted : (sortByKey key (l.rdrop n) ++ l.rtake n).Pairwise fun a b => key a ≤ key b := by
      refine List.pairwise_append.mpr ⟨sortByKey_pairwise key _, htail, fun a ha b hb => ?_⟩
      exact hle a (mem_sortByKey.mp ha) b hb
    have hsame : SameByKey key (sortByKey key (l.rdrop n) ++ l.rtake n) (sortByKey key l) := by
      intro k
      rw [List.filter_append, sameByKey_sortByKey key _ k, ← List.filter_append,
        rdrop_append_rtake, sameByKey_sortByKey key l k]
    rw [← eq_of_sorted hsorted (sortByKey_pairwise key l) hsame]
    by_cases hlen : n ≤ l.length
    · have htake : (l.rtake n).length = n := by rw [length_rtake, Nat.min_eq_left hlen]
      rw [rtake_append_of_le htake.ge, rtake_of_length_le htake.le]
    · have hle : (l.rtake n).length ≤ n := by
        rw [length_rtake]
        exact Nat.min_le_left _ _
      have hempty : l.rdrop n = [] := by
        rw [List.rdrop, Nat.sub_eq_zero_of_le (by omega), List.take_zero]
      rw [hempty, rtake_append_of_ge hle]
      simp [sortByKey, List.rtake]

/-- A sorted piece put before the list. -/
theorem settled_append {l l' : List α} (h : l.Pairwise fun a b => key a ≤ key b) :
    Settled key n (l ++ l') ↔
      (∀ a ∈ l, ∀ b ∈ l'.rtake n, key a ≤ key b) ∧ Settled key n l' := by
  unfold Settled
  by_cases hlen : n ≤ l'.length
  · rw [rtake_append_of_le hlen, rdrop_append_of_le hlen]
    simp only [List.mem_append, or_imp, forall_and]
    tauto
  · have hge : l'.length ≤ n := by omega
    have hempty : l'.rdrop n = [] := by
      rw [List.rdrop, Nat.sub_eq_zero_of_le hge, List.take_zero]
    rw [rtake_append_of_ge hge, rdrop_append_of_ge hge, rtake_of_length_le hge, hempty]
    set m := n - l'.length
    have hparts := h
    rw [← rdrop_append_rtake m l] at hparts
    obtain ⟨-, htail, hcross⟩ := List.pairwise_append.mp hparts
    have hsplit : ∀ a, a ∈ l ↔ a ∈ l.rdrop m ∨ a ∈ l.rtake m := by
      intro a
      rw [← List.mem_append, rdrop_append_rtake]
    simp only [List.pairwise_append, hsplit, List.mem_append]
    constructor
    · rintro ⟨⟨-, hl', hmid⟩, hfront⟩
      refine ⟨fun a ha b hb => ?_, hl', by simp⟩
      exact ha.elim (fun ha => hfront a ha b (.inr hb)) fun ha => hmid a ha b hb
    · rintro ⟨hall, hl', -⟩
      refine ⟨⟨htail, hl', fun a ha b hb => hall a (.inr ha) b hb⟩, fun a ha b hb => ?_⟩
      exact hb.elim (hcross a ha b) fun hb => hall a (.inl ha) b hb

/-- Each piece, and the last `n` of those after it. -/
def InOrder (key : α → κ) (n : Nat) : List (List α) → Prop
  | [] => True
  | l :: later => (∀ a ∈ l, ∀ b ∈ later.flatten.rtake n, key a ≤ key b) ∧ InOrder key n later

theorem settled_flatten : ∀ {ls : List (List α)},
    (∀ l ∈ ls, l.Pairwise fun a b => key a ≤ key b) → (Settled key n ls.flatten ↔ InOrder key n ls)
  | [], _ => by simp [Settled, InOrder, List.rtake, List.rdrop]
  | l :: ls, h => by
    obtain ⟨hl, hls⟩ := List.forall_mem_cons.mp h
    rw [List.flatten_cons, settled_append hl, settled_flatten hls]
    rfl

end CampusAuth.Lib
