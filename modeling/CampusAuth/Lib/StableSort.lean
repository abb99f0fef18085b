import Mathlib.Order.Basic
import Mathlib.Order.Lattice
import Mathlib.Order.Defs.LinearOrder
import Mathlib.Data.List.Basic
import Mathlib.Data.List.Pairwise

/- Sorting by a key, stably.

   What is sorted is the same list in another order (`sortByKey_perm`), the keys do not fall
   (`sortByKey_pairwise`), and elements of one key stay as they stand (`sortByKey_filter`). So a
   search in the sorted list finds the first of those with the least key
   (`firstLeast_of_find`). -/
namespace CampusAuth.Lib
variable {α κ : Type*} [LinearOrder κ]

def sortByKey (key : α → κ) (l : List α) : List α := l.mergeSort fun a b => decide (key a ≤ key b)

variable {key : α → κ}

theorem sortByKey_perm (key : α → κ) (l : List α) : (sortByKey key l).Perm l :=
  List.mergeSort_perm l _

@[simp] theorem mem_sortByKey {l : List α} {a : α} : a ∈ sortByKey key l ↔ a ∈ l :=
  (sortByKey_perm key l).mem_iff

theorem keyLe_trans (key : α → κ) (a b c : α) (hab : decide (key a ≤ key b) = true)
    (hbc : decide (key b ≤ key c) = true) : decide (key a ≤ key c) = true :=
  decide_eq_true ((of_decide_eq_true hab).trans (of_decide_eq_true hbc))

theorem keyLe_total (key : α → κ) (a b : α) :
    (decide (key a ≤ key b) || decide (key b ≤ key a)) = true := by
  rcases le_total (key a) (key b) with h | h
  · simp [h]
  · simp [h]

theorem sortByKey_pairwise (key : α → κ) (l : List α) :
    (sortByKey key l).Pairwise fun a b => key a ≤ key b := by
  have hsorted := List.pairwise_mergeSort (keyLe_trans key) (keyLe_total key) l
  exact hsorted.imp fun h => of_decide_eq_true h

theorem sortByKey_of_pairwise {l : List α} (h : l.Pairwise fun a b => key a ≤ key b) :
    sortByKey key l = l := by
  have hpairwise : l.Pairwise fun a b => decide (key a ≤ key b) = true := h.imp fun h => decide_eq_true h
  exact List.mergeSort_of_pairwise hpairwise

/-- Elements of one key keep their order. -/
theorem sortByKey_filter (key : α → κ) {p : α → Bool} {l : List α}
    (hp : ∀ a ∈ l, ∀ b ∈ l, p a → p b → key a = key b) :
    (sortByKey key l).filter p = l.filter p := by
  have hpairwise : (l.filter p).Pairwise fun a b => decide (key a ≤ key b) = true := by
    refine List.pairwise_of_forall_mem_list fun a ha b hb => ?_
    obtain ⟨ha, hpa⟩ := List.mem_filter.mp ha
    obtain ⟨hb, hpb⟩ := List.mem_filter.mp hb
    exact decide_eq_true (hp a ha b hb hpa hpb).le
  have hsub : (l.filter p).Sublist (sortByKey key l) :=
    List.sublist_mergeSort (keyLe_trans key) (keyLe_total key) hpairwise List.filter_sublist
  have hfilter := hsub.filter p
  simp only [List.filter_filter, Bool.and_self] at hfilter
  exact (hfilter.eq_of_length ((sortByKey_perm key l).filter p).length_eq.symm).symm

/-- Elements of one key stand as they stood. -/
theorem sortByKey_stable {R : α → α → Prop} {l : List α} (h : l.Pairwise R) :
    (sortByKey key l).Pairwise fun a b => key a < key b ∨ key a = key b ∧ R a b := by
  refine List.pairwise_iff_forall_sublist.mpr fun {a b} hsub => ?_
  have hle := List.pairwise_iff_forall_sublist.mp (sortByKey_pairwise key l) hsub
  rcases hle.lt_or_eq with hlt | heq
  · exact .inl hlt
  have hties : (sortByKey key l).filter (fun c => decide (key c = key a)) =
      l.filter fun c => decide (key c = key a) :=
    sortByKey_filter key fun c _ d _ hc hd => (of_decide_eq_true hc).trans (of_decide_eq_true hd).symm
  have hfilter := hsub.filter fun c => decide (key c = key a)
  rw [hties] at hfilter
  have hpair : [a, b].filter (fun c => decide (key c = key a)) = [a, b] := by simp [heq]
  rw [hpair] at hfilter
  exact .inr ⟨heq, List.pairwise_iff_forall_sublist.mp h (hfilter.trans List.filter_sublist)⟩

/-- Sorted by its place in an order of all that is sorted. -/
theorem map_sortByKey {β : Type*} {f : α → β} {place : β → κ} {l : List α} {order : List β}
    (hperm : order.Perm (l.map f)) (hplace : order.Pairwise fun a b => place a < place b) :
    (sortByKey (fun a => place (f a)) l).map f = order := by
  have hsame : ((sortByKey (fun a => place (f a)) l).map f).Perm order :=
    ((sortByKey_perm _ l).map f).trans hperm.symm
  have hanti : ∀ a b, a ∈ (sortByKey (fun a => place (f a)) l).map f → b ∈ order →
      place a ≤ place b → place b ≤ place a → a = b := by
    intro a b ha hb hab hba
    by_contra hne
    have hdistinct : order.Pairwise fun a b => place a ≠ place b := hplace.imp fun h => h.ne
    have hsymm : Std.Symm fun a b => place a ≠ place b := ⟨fun _ _ h => h.symm⟩
    exact hdistinct.forall (hsame.mem_iff.mp ha) hb hne (le_antisymm hab hba)
  have hsorted : ((sortByKey (fun a => place (f a)) l).map f).Pairwise fun a b =>
      place a ≤ place b := List.pairwise_map.mpr (sortByKey_pairwise _ l)
  have horder : order.Pairwise fun a b => place a ≤ place b := hplace.imp fun h => h.le
  exact hsame.eq_of_pairwise hanti hsorted horder

/-! ## The greatest -/

/-- The last of the elements with the greatest key. -/
def lastGreatest (key : α → κ) : List α → Option α
  | [] => none
  | a :: l =>
    match lastGreatest key l with
    | some b => if key a ≤ key b then some b else some a
    | none => some a

theorem lastGreatest_eq_none {l : List α} : lastGreatest key l = none ↔ l = [] := by
  cases l with
  | nil => simp [lastGreatest]
  | cons a l =>
    refine iff_of_false (fun h => ?_) (List.cons_ne_nil a l)
    unfold lastGreatest at h
    split at h
    · split at h <;> cases h
    · cases h

theorem lastGreatest_spec {r : α} : ∀ {l : List α}, lastGreatest key l = some r →
    ∃ before after, l = before ++ r :: after ∧ (∀ a ∈ before, key a ≤ key r) ∧
      ∀ a ∈ after, key a < key r
  | [], h => by cases h
  | a :: l, h => by
    unfold lastGreatest at h
    split at h
    next b hb =>
      obtain ⟨before, after, rfl, hbefore, hafter⟩ := lastGreatest_spec hb
      split at h
      next hle =>
        cases h
        exact ⟨a :: before, after, rfl, List.forall_mem_cons.mpr ⟨hle, hbefore⟩, hafter⟩
      next hgt =>
        cases h
        have hlt : key b < key r := lt_of_not_ge hgt
        refine ⟨[], before ++ b :: after, rfl, by simp, fun c hc => ?_⟩
        rcases List.mem_append.mp hc with hc | hc
        · exact (hbefore c hc).trans_lt hlt
        · rcases List.mem_cons.mp hc with rfl | hc
          · exact hlt
          · exact (hafter c hc).trans hlt
    next hnone =>
      cases h
      exact ⟨[], [], by rw [lastGreatest_eq_none.mp hnone]; rfl, by simp, by simp⟩

/-! ## Searching what is sorted -/

/-- The first of those with `p` that have the least key. -/
def FirstLeast (key : α → κ) (p : α → Bool) (l : List α) (r : α) : Prop :=
  p r ∧ ∃ before after, l = before ++ r :: after ∧ (∀ a ∈ before, p a → key r < key a) ∧
    ∀ a ∈ after, p a → key r ≤ key a

/-- A search in the sorted list. -/
theorem firstLeast_of_find {p : α → Bool} {l : List α} {r : α}
    (h : (sortByKey key l).find? p = some r) : FirstLeast key p l r := by
  obtain ⟨hr, first, last, hsplit, hfirst⟩ := List.find?_eq_some_iff_append.mp h
  have hleast : ∀ a ∈ l, p a → key r ≤ key a := by
    intro a ha hpa
    have hmem : a ∈ first ++ r :: last := hsplit ▸ mem_sortByKey.mpr ha
    rcases List.mem_append.mp hmem with hmem | hmem
    · exact absurd hpa (by simpa using hfirst a hmem)
    · have hpairwise := hsplit ▸ sortByKey_pairwise key l
      rcases List.mem_cons.mp hmem with rfl | hmem
      · exact le_rfl
      · exact List.rel_of_pairwise_cons (List.pairwise_append.mp hpairwise).2.1 hmem
  have hties : l.filter (fun a => p a && decide (key a = key r)) =
      r :: last.filter fun a => p a && decide (key a = key r) := by
    have hkeys : ∀ a ∈ l, ∀ b ∈ l, (p a && decide (key a = key r)) = true →
        (p b && decide (key b = key r)) = true → key a = key b := by
      intro a _ b _ ha hb
      simp only [Bool.and_eq_true, decide_eq_true_eq] at ha hb
      exact ha.2.trans hb.2.symm
    rw [← sortByKey_filter key hkeys, hsplit, List.filter_append]
    have hnone : first.filter (fun a => p a && decide (key a = key r)) = [] := by
      refine List.filter_eq_nil_iff.mpr fun a ha => ?_
      have hnot := hfirst a ha
      simp only [Bool.not_eq_true'] at hnot
      simp [hnot]
    rw [hnone, List.nil_append, List.filter_cons_of_pos]
    simpa using hr
  obtain ⟨before, after, rfl, hbefore, _, _⟩ := List.filter_eq_cons_iff.mp hties
  refine ⟨hr, before, after, rfl, fun a ha hpa => ?_, fun a ha hpa => ?_⟩
  · have hne : key a ≠ key r := by simpa [hpa] using hbefore a ha
    exact lt_of_le_of_ne (hleast a (List.mem_append_left _ ha) hpa) hne.symm
  · exact hleast a (List.mem_append_right _ (List.mem_cons_of_mem _ ha)) hpa

end CampusAuth.Lib
