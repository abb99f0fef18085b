import Mathlib.Data.List.Basic

/- Lists that are made of two others, each kept in its order. -/
namespace CampusAuth.Lib

variable {α β : Type*}

/-- `m` holds the elements of `l` and of `r`, those of each in their order. -/
inductive Interleaves : List α → List α → List α → Prop
  | nil : Interleaves [] [] []
  | left {a : α} {l r m : List α} : Interleaves l r m → Interleaves (a :: l) r (a :: m)
  | right {a : α} {l r m : List α} : Interleaves l r m → Interleaves l (a :: r) (a :: m)

namespace Interleaves
variable {l r m : List α}

theorem append_left (h : Interleaves l r m) (a : α) : Interleaves (l ++ [a]) r (m ++ [a]) := by
  induction h with
  | nil => exact .left .nil
  | left _ ih => exact .left ih
  | right _ ih => exact .right ih

theorem append_right (h : Interleaves l r m) (a : α) : Interleaves l (r ++ [a]) (m ++ [a]) := by
  induction h with
  | nil => exact .right .nil
  | left _ ih => exact .left ih
  | right _ ih => exact .right ih

theorem eq_of_right_nil (h : Interleaves l [] m) : m = l := by
  generalize hr : ([] : List α) = r at h
  induction h with
  | nil => rfl
  | left _ ih => rw [ih hr]
  | right _ _ => cases hr

theorem length_eq (h : Interleaves l r m) : m.length = l.length + r.length := by
  induction h with
  | nil => rfl
  | left _ ih => simp only [List.length_cons, ih]; omega
  | right _ ih => simp only [List.length_cons, ih]; omega

theorem sublist_left (h : Interleaves l r m) : l.Sublist m := by
  induction h with
  | nil => exact .slnil
  | left _ ih => exact ih.cons₂ _
  | right _ ih => exact ih.cons _

end Interleaves
end CampusAuth.Lib
