import Mathlib.Data.List.Basic
import Mathlib.Data.List.DropRight

/- Cutting a list at the letters that an automaton chooses.

   `pieces` are what stands between the chosen letters. Where a cut leaves the automaton in the
   state it started from, a piece is cut no further, and neither is a part of it that the
   automaton reaches in that state. -/
namespace CampusAuth.Lib.Cutting

variable {α σ : Type*} (step : σ → α → σ) (cuts : σ → α → Bool)

/-- The pieces between the letters at which `cuts` holds. -/
def pieces : σ → List α → List (List α)
  | _, [] => [[]]
  | s, a :: l =>
    if cuts s a then [] :: pieces (step s a) l
    else (pieces (step s a) l).modifyHead (a :: ·)

/-- Nothing of the list is cut from the state `s`. -/
def Uncut (s : σ) (l : List α) : Prop :=
  ∀ before a after, l = before ++ a :: after → cuts (before.foldl step s) a = false

theorem exists_pieces_cons (s : σ) (l : List α) :
    ∃ p ps, pieces step cuts s l = p :: ps := by
  induction l generalizing s with
  | nil => exact ⟨[], [], rfl⟩
  | cons a l ih =>
    obtain ⟨p, ps, hp⟩ := ih (step s a)
    rw [pieces, hp]
    cases cuts s a
    · exact ⟨a :: p, ps, rfl⟩
    · exact ⟨[], p :: ps, rfl⟩

variable {step cuts}

/-! ## Uncut lists -/

theorem uncut_nil (s : σ) : Uncut step cuts s [] := fun before a after h => by
  cases before <;> cases h

theorem uncut_cons {s : σ} {a : α} {l : List α} :
    Uncut step cuts s (a :: l) ↔ cuts s a = false ∧ Uncut step cuts (step s a) l := by
  constructor
  · intro h
    refine ⟨h [] a l rfl, fun before b after hl => ?_⟩
    exact h (a :: before) b after (by rw [hl, List.cons_append])
  · rintro ⟨ha, hl⟩ before b after h
    cases before with
    | nil =>
      obtain ⟨rfl, rfl⟩ := List.cons.inj h
      exact ha
    | cons c before =>
      obtain ⟨rfl, htail⟩ := List.cons.inj h
      exact hl before b after htail

theorem uncut_append {s : σ} {l r : List α} :
    Uncut step cuts s (l ++ r) ↔
      Uncut step cuts s l ∧ Uncut step cuts (l.foldl step s) r := by
  induction l generalizing s with
  | nil => exact ⟨fun h => ⟨uncut_nil s, h⟩, fun h => h.2⟩
  | cons a l ih => rw [List.cons_append, uncut_cons, uncut_cons, ih, List.foldl_cons, and_assoc]

/-- An uncut list stands at the start of one piece. -/
theorem pieces_append {s : σ} {l : List α} (h : Uncut step cuts s l) (rest : List α) :
    pieces step cuts s (l ++ rest) =
      (pieces step cuts (l.foldl step s) rest).modifyHead (l ++ ·) := by
  induction l generalizing s with
  | nil =>
    obtain ⟨p, ps, hp⟩ := exists_pieces_cons step cuts s rest
    rw [List.nil_append, List.foldl_nil, hp]
    rfl
  | cons a l ih =>
    obtain ⟨ha, hl⟩ := uncut_cons.mp h
    obtain ⟨p, ps, hp⟩ :=
      exists_pieces_cons step cuts (l.foldl step (step s a)) rest
    rw [List.cons_append, pieces, ha, ih hl, List.foldl_cons, hp]
    rfl

theorem pieces_of_uncut {s : σ} {l : List α} (h : Uncut step cuts s l) :
    pieces step cuts s l = [l] := by
  have hpieces := pieces_append h []
  rw [List.append_nil] at hpieces
  rw [hpieces, pieces, List.modifyHead_cons, List.append_nil]

/-! ## Where a list is cut -/

theorem mem_intercalate {sep : α} {ps : List (List α)} {a : α} :
    a ∈ List.intercalate [sep] ps → a = sep ∨ ∃ p ∈ ps, a ∈ p := by
  induction ps with
  | nil => exact fun h => (List.not_mem_nil h).elim
  | cons p ps ih =>
    by_cases hlast : ps = []
    · rw [hlast, List.intercalate_singleton]
      exact fun h => .inr ⟨p, List.mem_cons_self, h⟩
    · rw [List.intercalate_cons_of_ne_nil hlast, List.append_assoc]
      intro h
      rcases List.mem_append.mp h with hp | hrest
      · exact .inr ⟨p, List.mem_cons_self, hp⟩
      · rcases List.mem_cons.mp hrest with rfl | hrest
        · exact .inl rfl
        · exact (ih hrest).imp_right fun ⟨q, hq, ha⟩ => ⟨q, List.mem_cons_of_mem p hq, ha⟩

theorem mem_of_mem_piece {sep : α} {ps : List (List α)} {p : List α} {a : α} (hp : p ∈ ps)
    (ha : a ∈ p) :
    a ∈ List.intercalate [sep] ps := by
  induction ps with
  | nil => cases hp
  | cons q ps ih =>
    by_cases hlast : ps = []
    · rw [hlast] at hp ⊢
      rwa [List.intercalate_singleton, ← List.mem_singleton.mp hp]
    · rw [List.intercalate_cons_of_ne_nil hlast, List.append_assoc]
      rcases List.mem_cons.mp hp with rfl | hp
      · exact List.mem_append_left _ ha
      · exact List.mem_append_right _ (List.mem_append_right _ (ih hp))

section Separator

variable {sep : α} (hsep : ∀ s a, cuts s a = true → a = sep)
include hsep

/-- The pieces, with the separator between them again. -/
theorem intercalate_pieces (s : σ) (l : List α) :
    List.intercalate [sep] (pieces step cuts s l) = l := by
  induction l generalizing s with
  | nil => rfl
  | cons a l ih =>
    obtain ⟨p, ps, hp⟩ := exists_pieces_cons step cuts (step s a) l
    have hl := ih (step s a)
    rw [pieces]
    cases ha : cuts s a with
    | true =>
      obtain rfl := hsep s a ha
      rw [if_pos rfl, List.intercalate_cons_of_ne_nil (by rw [hp]; exact List.cons_ne_nil _ _), hl]
      rfl
    | false =>
      rw [if_neg Bool.false_ne_true, hp, List.modifyHead_cons]
      rw [hp] at hl
      cases ps with
      | nil =>
        rw [List.intercalate_singleton] at hl ⊢
        rw [hl]
      | cons q ps => rw [List.intercalate_cons_cons_left, hl]

/-- Behind the pieces in front of a border the automaton chose the separator. -/
theorem cut_between {s : σ} {l : List α} (front : List (List α)) {back : List (List α)}
    (h : pieces step cuts s l = front ++ back) (hfront : front ≠ []) (hback : back ≠ []) :
    cuts ((List.intercalate [sep] front).foldl step s) sep = true := by
  induction l generalizing s front with
  | nil =>
    obtain ⟨f, front, rfl⟩ := List.exists_cons_of_ne_nil hfront
    obtain ⟨-, hnil⟩ := List.cons.inj h
    exact absurd (List.append_eq_nil_iff.mp hnil.symm).2 hback
  | cons a l ih =>
    obtain ⟨f, front, rfl⟩ := List.exists_cons_of_ne_nil hfront
    obtain ⟨p, ps, hp⟩ := exists_pieces_cons step cuts (step s a) l
    rw [pieces] at h
    cases ha : cuts s a with
    | true =>
      obtain rfl := hsep s a ha
      rw [ha, if_pos rfl, List.cons_append] at h
      obtain ⟨rfl, htail⟩ := List.cons.inj h
      by_cases hempty : front = []
      · rw [hempty, List.intercalate_singleton]
        exact ha
      · rw [List.intercalate_cons_of_ne_nil hempty]
        exact ih front htail hempty
    | false =>
      rw [ha, if_neg Bool.false_ne_true, hp, List.modifyHead_cons, List.cons_append] at h
      obtain ⟨rfl, rfl⟩ := List.cons.inj h
      have hborder := ih (p :: front) hp (List.cons_ne_nil _ _)
      cases front with
      | nil =>
        rw [List.intercalate_singleton] at hborder ⊢
        exact hborder
      | cons q front =>
        rw [List.intercalate_cons_cons_left]
        exact hborder

/-- A separator inside a piece was not chosen. -/
theorem uncut_inside {s : σ} {l r : List α} (front : List (List α)) (q : List α)
    {back : List (List α)}
    (h : pieces step cuts s l = front ++ (q ++ sep :: r) :: back) :
    cuts ((List.intercalate [sep] (front ++ [q])).foldl step s) sep = false := by
  induction l generalizing s front q with
  | nil =>
    rw [pieces] at h
    cases front with
    | nil =>
      obtain ⟨hempty, -⟩ := List.cons.inj h
      cases q <;> cases hempty
    | cons f front =>
      obtain ⟨-, hnil⟩ := List.cons.inj h
      cases front <;> cases hnil
  | cons a l ih =>
    obtain ⟨p, ps, hp⟩ := exists_pieces_cons step cuts (step s a) l
    rw [pieces] at h
    cases ha : cuts s a with
    | true =>
      obtain rfl := hsep s a ha
      rw [ha, if_pos rfl] at h
      cases front with
      | nil =>
        obtain ⟨hempty, -⟩ := List.cons.inj h
        cases q <;> cases hempty
      | cons f front =>
        obtain ⟨rfl, htail⟩ := List.cons.inj h
        rw [List.cons_append, List.intercalate_cons_of_ne_nil (by simp)]
        exact ih front q htail
    | false =>
      rw [ha, if_neg Bool.false_ne_true, hp, List.modifyHead_cons] at h
      cases front with
      | nil =>
        obtain ⟨hhead, rfl⟩ := List.cons.inj h
        cases q with
        | nil =>
          obtain ⟨rfl, -⟩ := List.cons.inj hhead
          exact ha
        | cons b q =>
          obtain ⟨rfl, rfl⟩ := List.cons.inj hhead
          have hinside := ih [] q hp
          rw [List.nil_append, List.intercalate_singleton] at hinside ⊢
          exact hinside
      | cons f front =>
        obtain ⟨rfl, rfl⟩ := List.cons.inj h
        have hinside := ih (p :: front) q hp
        obtain ⟨g, gs, hg⟩ : ∃ g gs, front ++ [q] = g :: gs :=
          List.exists_cons_of_ne_nil (by simp)
        rw [List.cons_append, hg] at hinside ⊢
        rw [List.intercalate_cons_cons_left]
        exact hinside

end Separator

/-! ## Pieces are cut no further -/

/-- Behind a cut the automaton starts anew. -/
theorem uncut_pieces {start : σ} (hreset : ∀ s a, cuts s a = true → step s a = start) {s : σ}
    {l p : List α} {ps : List (List α)} (h : pieces step cuts s l = p :: ps) :
    Uncut step cuts s p ∧ ∀ q ∈ ps, Uncut step cuts start q := by
  induction l generalizing s p ps with
  | nil =>
    obtain ⟨rfl, rfl⟩ := List.cons.inj h
    exact ⟨uncut_nil s, fun _ hq => (List.not_mem_nil hq).elim⟩
  | cons a l ih =>
    obtain ⟨p', ps', hp⟩ := exists_pieces_cons step cuts (step s a) l
    obtain ⟨hfirst, hothers⟩ := ih hp
    rw [pieces, hp] at h
    cases ha : cuts s a with
    | true =>
      rw [ha, if_pos rfl] at h
      obtain ⟨rfl, rfl⟩ := List.cons.inj h
      rw [hreset s a ha] at hfirst
      exact ⟨uncut_nil s, fun q hq => (List.mem_cons.mp hq).elim (fun hq => hq ▸ hfirst)
        (hothers q)⟩
    | false =>
      rw [ha, if_neg Bool.false_ne_true, List.modifyHead_cons] at h
      obtain ⟨rfl, rfl⟩ := List.cons.inj h
      exact ⟨uncut_cons.mpr ⟨ha, hfirst⟩, hothers⟩

/-- Uncut lists that lead back to the start are the pieces of what they are joined to. -/
theorem pieces_intercalate {start : σ} {sep : α} (hcut : cuts start sep = true)
    (hstay : step start sep = start) {ps : List (List α)} (hne : ps ≠ [])
    (h : ∀ p ∈ ps, Uncut step cuts start p ∧ p.foldl step start = start) :
    pieces step cuts start (List.intercalate [sep] ps) = ps := by
  induction ps with
  | nil => exact absurd rfl hne
  | cons p ps ih =>
    obtain ⟨huncut, hback⟩ := h p List.mem_cons_self
    by_cases hlast : ps = []
    · rw [hlast, List.intercalate_singleton, pieces_of_uncut huncut]
    · have hrest := ih hlast fun q hq => h q (List.mem_cons_of_mem p hq)
      rw [List.intercalate_cons_of_ne_nil hlast, List.append_assoc, pieces_append huncut, hback,
        List.singleton_append, pieces, hcut, if_pos rfl, hstay, hrest, List.modifyHead_cons,
        List.append_nil]

end CampusAuth.Lib.Cutting
