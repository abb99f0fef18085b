import Mathlib.Data.List.Basic
import Mathlib.Data.List.Nodup

/- A job done item by item, and doing it again after an interruption.

   For each item the job decides in the present state what operations it takes. An item that
   takes none is settled. When an item is settled behind its own operations and no part of
   another item's operations unsettles it, a job that is stopped between two items and done
   again takes exactly the operations it had left (`rerun_between`). -/
namespace CampusAuth.Lib

structure Job (σ ι ο : Type*) where
  apply : σ → ο → σ
  ops : σ → ι → List ο

namespace Job
variable {σ ι ο : Type*} (J : Job σ ι ο)

/-- The state behind the operations. -/
def after (s : σ) (os : List ο) : σ := os.foldl J.apply s

/-- The operations of the whole job. -/
def work (s : σ) : List ι → List ο
  | [] => []
  | i :: is => J.ops s i ++ work (J.after s (J.ops s i)) is

/-- The operations when the job is stopped behind `k` of them and then done again. -/
def rerun (s : σ) (k : Nat) (is : List ι) : List ο :=
  (J.work s is).take k ++ J.work (J.after s ((J.work s is).take k)) is

/-- Nothing is to be done for the item. -/
def Settled (s : σ) (i : ι) : Prop := J.ops s i = []

@[simp] theorem after_nil (s : σ) : J.after s [] = s := rfl

theorem after_append (s : σ) (os os' : List ο) :
    J.after s (os ++ os') = J.after (J.after s os) os' := List.foldl_append

theorem work_append (s : σ) (is js : List ι) :
    J.work s (is ++ js) = J.work s is ++ J.work (J.after s (J.work s is)) js := by
  induction is generalizing s with
  | nil => rfl
  | cons i is ih =>
    rw [List.cons_append, work, work, ih, J.after_append, List.append_assoc]

theorem work_settled {s : σ} {is : List ι} (h : ∀ i ∈ is, J.Settled s i) (js : List ι) :
    J.work s (is ++ js) = J.work s js := by
  induction is with
  | nil => rfl
  | cons i is ih =>
    have hi : J.ops s i = [] := h i List.mem_cons_self
    rw [List.cons_append, work, hi, List.nil_append, after_nil]
    exact ih fun j hj => h j (List.mem_cons_of_mem _ hj)

/-- Own operations settle an item, and no part of another's operations unsettles it. -/
structure Settles : Prop where
  own : ∀ s i, J.Settled (J.after s (J.ops s i)) i
  other : ∀ s i j n, i ≠ j → J.Settled s i → J.Settled (J.after s ((J.ops s j).take n)) i

variable {J}

/-- The items a job has done are settled. -/
theorem Settles.done (h : J.Settles) {s : σ} {is : List ι} (hnodup : is.Nodup) :
    ∀ i ∈ is, J.Settled (J.after s (J.work s is)) i := by
  have hkeep : ∀ (js : List ι) (s : σ) (i : ι), i ∉ js → J.Settled s i →
      J.Settled (J.after s (J.work s js)) i := by
    intro js
    induction js with
    | nil => intro s i _ hs; exact hs
    | cons j js ih =>
      intro s i hnot hs
      obtain ⟨hne, hnot⟩ := not_or.mp (List.mem_cons.not.mp hnot)
      rw [work, J.after_append]
      refine ih _ i hnot ?_
      have := h.other s i j (J.ops s j).length hne hs
      rwa [List.take_length] at this
  induction is generalizing s with
  | nil => intro i hi; cases hi
  | cons j js ih =>
    intro i hi
    obtain ⟨hnot, hnodup⟩ := List.nodup_cons.mp hnodup
    rw [work, J.after_append]
    rcases List.mem_cons.mp hi with rfl | hi
    · exact hkeep js _ i hnot (h.own s i)
    · exact ih hnodup i hi

/-- Stopped between two items, the job takes in all the operations it takes without a stop. -/
theorem Settles.rerun_between (h : J.Settles) {s : σ} {k : Nat} {is js : List ι}
    (hnodup : (is ++ js).Nodup) (hk : (J.work s (is ++ js)).take k = J.work s is) :
    J.rerun s k (is ++ js) = J.work s (is ++ js) := by
  unfold rerun
  rw [hk, J.work_settled (h.done (List.nodup_append.mp hnodup).1), ← J.work_append]

variable (J)

/-- A stop falls into the operations of one item, or between two items. -/
theorem stop_cases (s : σ) (is : List ι) (k : Nat) :
    (∃ before i rest, is = before ++ i :: rest ∧ (J.work s before).length < k ∧
      k < (J.work s before).length + (J.ops (J.after s (J.work s before)) i).length) ∨
    ∃ before rest, is = before ++ rest ∧ (J.work s is).take k = J.work s before := by
  induction is generalizing s k with
  | nil => exact .inr ⟨[], [], rfl, List.take_nil⟩
  | cons i is ih =>
    rcases Nat.eq_zero_or_pos k with rfl | hpos
    · exact .inr ⟨[], i :: is, rfl, rfl⟩
    by_cases hlt : k < (J.ops s i).length
    · exact .inl ⟨[], i, is, rfl, hpos, by show k < 0 + _; rw [Nat.zero_add]; exact hlt⟩
    have hge : (J.ops s i).length ≤ k := Nat.not_lt.mp hlt
    rcases ih (J.after s (J.ops s i)) (k - (J.ops s i).length) with
      ⟨before, j, rest, rfl, hlow, hhigh⟩ | ⟨before, rest, rfl, htake⟩
    · refine .inl ⟨i :: before, j, rest, rfl, ?_, ?_⟩
      · rw [work, List.length_append]
        omega
      · rw [work, List.length_append, J.after_append]
        omega
    · refine .inr ⟨i :: before, rest, rfl, ?_⟩
      show (J.ops s i ++ _).take k = J.ops s i ++ _
      rw [List.take_append, List.take_of_length_le hge, htake]

/-- What is done up to a stop within item `i`. -/
theorem take_within {s : σ} {before : List ι} (rest : List ι) {i : ι} {k : Nat}
    (hlow : (J.work s before).length < k)
    (hhigh : k < (J.work s before).length + (J.ops (J.after s (J.work s before)) i).length) :
    (J.work s (before ++ i :: rest)).take k = J.work s before ++
      (J.ops (J.after s (J.work s before)) i).take (k - (J.work s before).length) := by
  rw [J.work_append, work, List.take_append, List.take_of_length_le (Nat.le_of_lt hlow),
    List.take_append_of_le_length (by omega)]

end Job
end CampusAuth.Lib
