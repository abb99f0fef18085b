import Mathlib.Data.List.Basic

/- Cutting a stream into lines.

   `splitLines` gives the lines that a separator ends and what follows the last one, the open line.
   A stream that arrives in pieces is cut the same way however it is cut into pieces
   (`splitLines_append`): what is left open by one piece is put before the next. -/
namespace CampusAuth.Lib
variable {α : Type*} [DecidableEq α] {sep : α}

/-- The ended lines and the open one. -/
def splitLines (sep : α) : List α → List (List α) × List α
  | [] => ([], [])
  | a :: rest =>
    if a = sep then ([] :: (splitLines sep rest).1, (splitLines sep rest).2)
    else
      match splitLines sep rest with
      | ([], left) => ([], a :: left)
      | (line :: lines, left) => ((a :: line) :: lines, left)

/-- Without a separator everything is left open. -/
theorem splitLines_of_not_mem {xs : List α} (h : sep ∉ xs) : splitLines sep xs = ([], xs) := by
  induction xs with
  | nil => rfl
  | cons a rest ih =>
    have hne : a ≠ sep := fun heq => h (heq ▸ List.mem_cons_self)
    have hrest : sep ∉ rest := fun hmem => h (List.mem_cons_of_mem _ hmem)
    unfold splitLines
    rw [if_neg hne, ih hrest]

/-- The first separator ends the first line. -/
theorem splitLines_line {xs : List α} (h : sep ∉ xs) (ys : List α) :
    splitLines sep (xs ++ sep :: ys) = (xs :: (splitLines sep ys).1, (splitLines sep ys).2) := by
  induction xs with
  | nil =>
    rw [List.nil_append, splitLines, if_pos rfl]
  | cons a rest ih =>
    have hne : a ≠ sep := fun heq => h (heq ▸ List.mem_cons_self)
    have hrest : sep ∉ rest := fun hmem => h (List.mem_cons_of_mem _ hmem)
    rw [List.cons_append, splitLines, if_neg hne, ih hrest]

/-- Either no separator is there, or a first one. -/
theorem line_cases (sep : α) (xs : List α) :
    sep ∉ xs ∨ ∃ line rest, sep ∉ line ∧ xs = line ++ sep :: rest := by
  by_cases h : sep ∈ xs
  · obtain ⟨line, rest, heq, hnot⟩ := List.eq_append_cons_of_mem h
    exact .inr ⟨line, rest, hnot, heq⟩
  · exact .inl h

/-- What is left open has no separator. -/
theorem sep_not_mem_left (sep : α) (xs : List α) : sep ∉ (splitLines sep xs).2 := by
  induction hn : xs.length using Nat.strongRecOn generalizing xs with
  | _ n ih =>
    rcases line_cases sep xs with hnot | ⟨line, rest, hnot, rfl⟩
    · rw [splitLines_of_not_mem hnot]
      exact hnot
    · rw [splitLines_line hnot]
      refine ih rest.length ?_ rest rfl
      rw [← hn, List.length_append, List.length_cons]
      omega

/-- What one piece leaves open is put before the next. -/
theorem splitLines_append (xs ys : List α) :
    splitLines sep (xs ++ ys) =
      ((splitLines sep xs).1 ++ (splitLines sep ((splitLines sep xs).2 ++ ys)).1,
        (splitLines sep ((splitLines sep xs).2 ++ ys)).2) := by
  induction hn : xs.length using Nat.strongRecOn generalizing xs with
  | _ n ih =>
    rcases line_cases sep xs with hnot | ⟨line, rest, hnot, rfl⟩
    · rw [splitLines_of_not_mem hnot, List.nil_append]
    · have hlt : rest.length < n := by
        rw [← hn, List.length_append, List.length_cons]
        omega
      rw [List.append_assoc, List.cons_append, splitLines_line hnot, splitLines_line hnot,
        ih rest.length hlt rest rfl, List.cons_append]

end CampusAuth.Lib
