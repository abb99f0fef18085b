import CampusAuth.Lib.Text

/- Trimming: what is taken off both ends of a list, as long as a test holds there. Two tests
   that trim the same list agree exactly on what the first one takes off
   (`trimBy_trimBy_eq_iff`). -/
namespace CampusAuth.Lib

variable {α : Type*} {out : α → Bool} {l front back : List α}

def trimBy (out : α → Bool) (l : List α) : List α := (l.dropWhile out).rdropWhile out

/-- What is taken off, at the front and at the back. -/
def offBy (out : α → Bool) (l : List α) : List α :=
  l.takeWhile out ++ (l.dropWhile out).rtakeWhile out

theorem off_of_mem_offBy : ∀ a ∈ offBy out l, out a = true := by
  intro a ha
  rcases List.mem_append.mp ha with hfront | hback
  · exact List.mem_takeWhile_imp hfront
  · exact List.mem_rtakeWhile_imp hback

theorem exists_trimBy (out : α → Bool) (l : List α) :
    ∃ front back, l = front ++ (trimBy out l ++ back) ∧ offBy out l = front ++ back := by
  refine ⟨l.takeWhile out, (l.dropWhile out).rtakeWhile out, ?_, rfl⟩
  unfold trimBy
  rw [List.rdropWhile_append_rtakeWhile, List.takeWhile_append_dropWhile]

theorem mem_of_mem_trimBy {a : α} (h : a ∈ trimBy out l) : a ∈ l := by
  obtain ⟨front, back, heq, -⟩ := exists_trimBy out l
  rw [heq]
  exact List.mem_append_right _ (List.mem_append_left _ h)

theorem trimBy_eq_nil_iff : trimBy out l = [] ↔ ∀ a ∈ l, out a = true := by
  unfold trimBy
  rw [List.rdropWhile_eq_nil_iff]
  constructor
  · intro h a ha
    rw [← List.takeWhile_append_dropWhile (p := out) (l := l)] at ha
    exact (List.mem_append.mp ha).elim List.mem_takeWhile_imp (h a)
  · exact fun h a ha => h a ((List.dropWhile_sublist out).mem ha)

/-- What is left begins with nothing that could be taken off. -/
theorem head_trimBy {a : α} (h : (trimBy out l).head? = some a) : out a = false := by
  obtain ⟨rest, hrest⟩ := List.head?_eq_some_iff.mp h
  obtain ⟨back, hback⟩ := List.rdropWhile_prefix out (l.dropWhile out)
  have hdrop : (l.dropWhile out).head? = some a := by
    rw [← hback, show (l.dropWhile out).rdropWhile out = a :: rest from hrest]
    rfl
  have hnot := List.head?_dropWhile_not out l
  rw [hdrop] at hnot
  simpa using hnot

theorem trimBy_front (hfront : ∀ a ∈ front, out a = true) :
    trimBy out (front ++ l) = trimBy out l := by
  unfold trimBy
  rw [List.dropWhile_append_of_pos hfront]

theorem rdropWhile_back (hback : ∀ a ∈ back, out a = true) :
    (l ++ back).rdropWhile out = l.rdropWhile out := by
  unfold List.rdropWhile
  rw [List.reverse_append,
    List.dropWhile_append_of_pos fun a ha => hback a (List.mem_reverse.mp ha)]

theorem trimBy_back (hback : ∀ a ∈ back, out a = true) :
    trimBy out (l ++ back) = trimBy out l := by
  unfold trimBy
  rw [List.dropWhile_append]
  split
  next hempty =>
    rw [List.isEmpty_iff.mp hempty, List.dropWhile_eq_nil_iff.mpr hback]
  next => exact rdropWhile_back hback

/-- Whatever is kept by the test is kept by the trimming. -/
theorem countP_trimBy (out : α → Bool) (l : List α) :
    (trimBy out l).countP (fun a => !out a) = l.countP fun a => !out a := by
  obtain ⟨front, back, heq, hoff⟩ := exists_trimBy out l
  have hzero : (front ++ back).countP (fun a => !out a) = 0 := by
    rw [← hoff, List.countP_eq_zero]
    intro a ha
    simp [off_of_mem_offBy a ha]
  rw [List.countP_append] at hzero
  calc (trimBy out l).countP (fun a => !out a)
      = (front ++ (trimBy out l ++ back)).countP fun a => !out a := by
        rw [List.countP_append, List.countP_append]; omega
    _ = l.countP fun a => !out a := by rw [← heq]

/-- A list that is trimmed by one test first loses nothing for another exactly when the other
    would have taken it off too. -/
theorem trimBy_trimBy_eq_iff {first : α → Bool} :
    trimBy out (trimBy first l) = trimBy out l ↔ ∀ a ∈ offBy first l, out a = true := by
  obtain ⟨front, back, heq, hoff⟩ := exists_trimBy first l
  rw [hoff]
  constructor
  · intro h
    have hcount := congrArg (List.countP fun a => !out a) h
    rw [countP_trimBy, countP_trimBy] at hcount
    have htotal := congrArg (List.countP fun a => !out a) heq
    rw [List.countP_append, List.countP_append] at htotal
    have hzero : (front ++ back).countP (fun a => !out a) = 0 := by
      rw [List.countP_append]; omega
    intro a ha
    simpa using List.countP_eq_zero.mp hzero a ha
  · intro h
    have hfront : ∀ a ∈ front, out a = true := fun a ha => h a (List.mem_append_left _ ha)
    have hback : ∀ a ∈ back, out a = true := fun a ha => h a (List.mem_append_right _ ha)
    calc trimBy out (trimBy first l)
        = trimBy out (trimBy first l ++ back) := (trimBy_back hback).symm
      _ = trimBy out (front ++ (trimBy first l ++ back)) := (trimBy_front hfront).symm
      _ = trimBy out l := by rw [← heq]

/-- Nothing is taken off where nothing could be. -/
theorem trimBy_of_solid (h : ∀ a ∈ l, out a = false) : trimBy out l = l := by
  cases l with
  | nil => rfl
  | cons a l =>
    have hlast : ∀ hne : a :: l ≠ [], ¬out ((a :: l).getLast hne) = true := by
      intro hne
      simp [h _ (List.getLast_mem hne)]
    unfold trimBy
    rw [List.dropWhile_cons_of_neg (by simp [h a List.mem_cons_self])]
    exact List.rdropWhile_eq_self_iff.mpr hlast

theorem trimBy_sublist (out : α → Bool) (l : List α) : (trimBy out l).Sublist l := by
  obtain ⟨front, back, heq, -⟩ := exists_trimBy out l
  conv_rhs => rw [heq]
  exact (List.sublist_append_left _ back).trans (List.sublist_append_right front _)

/-- Behind something that is kept only the back is trimmed. -/
theorem trimBy_append_kept {a : α} (front l : List α) (h : out a = false) :
    ∃ rest, trimBy out (front ++ a :: l) = rest ++ a :: l.rdropWhile out := by
  have hdrop : ∀ (kept back : List α),
      (kept ++ a :: back).dropWhile out = kept.dropWhile out ++ a :: back := by
    intro kept back
    rw [List.dropWhile_append]
    split
    next hempty =>
      rw [List.isEmpty_iff.mp hempty, List.dropWhile_cons_of_neg (by simp [h])]
      rfl
    next => rfl
  refine ⟨front.dropWhile out, ?_⟩
  calc trimBy out (front ++ a :: l)
      = (front.dropWhile out ++ a :: l).rdropWhile out := by rw [trimBy, hdrop]
    _ = ((l.reverse ++ a :: (front.dropWhile out).reverse).dropWhile out).reverse := by
        simp [List.rdropWhile]
    _ = front.dropWhile out ++ a :: l.rdropWhile out := by
        rw [hdrop]
        simp [List.rdropWhile]

/-- What a test keeps is kept wherever it stands. -/
theorem mem_trimBy {a : α} (ha : a ∈ l) (h : out a = false) : a ∈ trimBy out l := by
  obtain ⟨front, back, heq, hoff⟩ := exists_trimBy out l
  rw [heq, List.mem_append, List.mem_append] at ha
  have hkept : ∀ b ∈ front ++ back, out b = true := hoff ▸ off_of_mem_offBy
  rcases ha with hfront | hmid | hback
  · simp [hkept a (List.mem_append_left _ hfront)] at h
  · exact hmid
  · simp [hkept a (List.mem_append_right _ hback)] at h

end CampusAuth.Lib
