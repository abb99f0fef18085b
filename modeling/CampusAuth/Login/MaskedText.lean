import CampusAuth.Lib.Masking
import CampusAuth.Login.Redaction

/- What is left of the secrets in a masked text (`login/http_login.rs`, `redact_text`).

   The dictionary is in the order of `normalize_secrets`: of two nested secrets the longer one
   comes first, and none of it is left when the shorter one is replaced. A secret that keeps off
   the masks is not in the text at the end (`redact_removes`). One that begins or ends with an
   asterisk can come back beside a mask, and of two occurrences that overlap the second keeps
   its tail (`masked_text_keeps`). -/
namespace CampusAuth.Login
open Lib

/-- The dictionary made of a list of secrets, each with its encoding. -/
def dictionaryOf (values : List Text) : List Text :=
  normalizeSecrets (values.foldl addSecret [])

theorem foldl_addSecret_ne_nil {secrets : List Text} (h : ∀ s ∈ secrets, s ≠ [])
    (values : List Text) : ∀ s ∈ values.foldl addSecret secrets, s ≠ [] := by
  induction values generalizing secrets with
  | nil => exact h
  | cons value values ih => exact ih (addSecret_ne_nil h value)

theorem dictionaryOf_ne_nil (values : List Text) : ∀ s ∈ dictionaryOf values, s ≠ [] :=
  fun s hs => foldl_addSecret_ne_nil (fun _ h => absurd h List.not_mem_nil) values s
    (mem_normalizeSecrets.mp hs)

theorem byteLen_append (a b : Text) : byteLen (a ++ b) = byteLen a + byteLen b := by
  rw [byteLen, byteLen, byteLen, List.map_append, List.sum_append]

theorem byteLen_pos {s : Text} (h : s ≠ []) : 0 < byteLen s := by
  obtain ⟨c, cs, rfl⟩ := List.exists_cons_of_ne_nil h
  rw [byteLen, List.map_cons, List.sum_cons]
  exact Nat.lt_of_lt_of_le (Char.utf8Size_pos c) (Nat.le_add_right ..)

/-- What is contained in another text is shorter. -/
theorem byteLen_lt_of_infix {s long : Text} (h : s <:+: long) (hne : s ≠ long) :
    byteLen s < byteLen long := by
  obtain ⟨a, b, rfl⟩ := h
  rw [byteLen_append, byteLen_append]
  rcases eq_or_ne a [] with rfl | ha
  · have hb : b ≠ [] := by
      rintro rfl
      exact hne (by simp)
    have := byteLen_pos hb
    omega
  · have := byteLen_pos ha
    omega

/-- Of two nested secrets the longer one comes first. -/
theorem nested_order {values : List Text} {s long : Text} (hs : s ∈ dictionaryOf values)
    (hlong : long ∈ dictionaryOf values) (hnested : s <:+: long) (hne : s ≠ long) :
    ∃ before mid after, dictionaryOf values = before ++ long :: (mid ++ s :: after) := by
  obtain ⟨before, rest, hsplit⟩ := List.append_of_mem hlong
  have hsorted : (dictionaryOf values).Pairwise Before := normalizeSecrets_sorted _
  have hshort := byteLen_lt_of_infix hnested hne
  have hrest : s ∈ rest := by
    rw [hsplit] at hs hsorted
    rcases List.mem_append.mp hs with hs | hs
    · -- it would be the longer of the two
      have hbefore := (List.pairwise_append.mp hsorted).2.2 s hs long List.mem_cons_self
      rcases hbefore.1 with hlt | ⟨heq, -⟩ <;> omega
    · exact (List.mem_cons.mp hs).resolve_left hne
  obtain ⟨mid, after, rfl⟩ := List.append_of_mem hrest
  exact ⟨before, mid, after, hsplit⟩

/-- What masking with the dictionary `D` does for the text. -/
structure Masked (D : List Text) (text : Text) : Prop where
  gone : ∀ s ∈ D, KeepsOff mask s → ¬s <:+: redactText text D
  /-- The longer of two nested secrets is replaced first: nothing of it is left for the other. -/
  nested : ∀ s ∈ D, ∀ long ∈ D, s <:+: long → s ≠ long →
    ∃ before mid after, D = before ++ long :: (mid ++ s :: after) ∧
      (KeepsOff mask long → ¬long <:+: redactText text (before ++ long :: mid))
  /-- A secret that no other match meets, or runs into from the left, becomes one mask. -/
  whole : ∀ before long after, D = before ++ long :: after →
    (∀ p ∈ before ++ [long], KeepsOff mask p) → ∀ a b, text = a ++ long ++ b →
    (∀ p ∈ before, ¬Meets p a long b) → ¬Meets long a [] (long ++ b) →
    redactText text (before ++ [long]) =
      redactText a (before ++ [long]) ++ mask ++ redactText b (before ++ [long])

theorem redact_removes (values : List Text) (text : Text) : Masked (dictionaryOf values) text where
  gone s hs hkeeps := hkeeps.not_infix_replaceEach (dictionaryOf_ne_nil values) hs text
  nested s hs long hlong hnested hne := by
    obtain ⟨before, mid, after, hsplit⟩ := nested_order hs hlong hnested hne
    refine ⟨before, mid, after, hsplit, fun hkeeps => ?_⟩
    refine hkeeps.not_infix_replaceEach (fun p hp => dictionaryOf_ne_nil values p ?_) (by simp) text
    rw [hsplit]
    rcases List.mem_append.mp hp with hp | hp
    · exact List.mem_append_left _ hp
    · rcases List.mem_cons.mp hp with rfl | hp
      · exact List.mem_append_right _ List.mem_cons_self
      · exact List.mem_append_right _ (List.mem_cons_of_mem _ (List.mem_append_left _ hp))
  whole before long after _ hkeeps a b htext hmeets hself := by
    rw [htext]
    exact replaceEach_match (fun p hp => hkeeps p (List.mem_append_left _ hp))
      (hkeeps long (by simp)) hmeets hself

/-- A secret with an asterisk comes back, and an overlapped one keeps its tail. -/
theorem masked_text_keeps :
    (¬∀ (values : List Text) (text : Text), ∀ s ∈ dictionaryOf values, ¬s ⊆ mask →
      ¬s <:+: redactText text (dictionaryOf values)) ∧
    ¬∀ (values : List Text) (a b : Text), ∀ s ∈ dictionaryOf values,
      ∀ long ∈ dictionaryOf values, s <:+: long → s ≠ long →
      redactText (a ++ long ++ b) (dictionaryOf values) =
        redactText a (dictionaryOf values) ++ mask ++ redactText b (dictionaryOf values) := by
  constructor
  · intro hall
    exact absurd (hall ["a*".toList] "aa*".toList "a*".toList (by decide) (by decide)) (by decide)
  · intro hall
    exact absurd (hall ["aba".toList, "b".toList] "ab".toList [] "b".toList (by decide +kernel)
      "aba".toList (by decide +kernel) (by decide) (by decide)) (by decide +kernel)

end CampusAuth.Login
