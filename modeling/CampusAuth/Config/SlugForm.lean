import Mathlib.Computability.RegularExpressions
import CampusAuth.Config.ProfileSlug

/- The form of the ids `slugify_id` makes (`config/profiles.rs`), as a regular expression, and
   which of them `is_valid_profile_id` (`config/service.rs`) accepts.

   Every id that is not empty is of the form, and is accepted unless it is the name of a device
   (`slugifyId_form`): `slugify_id` does not look at these names, and whoever makes a profile
   asks `is_valid_profile_id` once more. -/
namespace CampusAuth.Config
open Lib

/-! ## The expression -/

/-- `[..]`, one of the characters. -/
def anyOf (chars : List Char) : RegularExpression Char :=
  chars.foldr (fun c rest => .char c + rest) 0

/-- `r+` -/
def oneOrMore (r : RegularExpression Char) : RegularExpression Char := r * r.star

/-- `[a-z0-9]` -/
def slugChar : RegularExpression Char := anyOf "abcdefghijklmnopqrstuvwxyz0123456789".toList

/-- `[a-z0-9]+(-[a-z0-9]+)*` -/
def slugPattern : RegularExpression Char :=
  oneOrMore slugChar * (.char '-' * oneOrMore slugChar).star

theorem mem_anyOf {chars : List Char} {c : Char} (h : c ∈ chars) :
    [c] ∈ (anyOf chars).matches' := by
  induction chars with
  | nil => cases h
  | cons d chars ih =>
    show [c] ∈ (RegularExpression.char d + anyOf chars).matches'
    rw [RegularExpression.matches'_add, Language.mem_add]
    rcases List.mem_cons.mp h with rfl | hrest
    · exact .inl rfl
    · exact .inr (ih hrest)

theorem mem_oneOrMore {r : RegularExpression Char} {word : Text} (hne : word ≠ [])
    (h : ∀ c ∈ word, [c] ∈ r.matches') : word ∈ (oneOrMore r).matches' := by
  cases word with
  | nil => exact (hne rfl).elim
  | cons c word =>
    have hrest : word ∈ r.star.matches' := by
      rw [RegularExpression.matches'_star, Language.mem_kstar]
      refine ⟨word.map fun d => [d], ?_, ?_⟩
      · rw [← List.flatMap_def, List.flatMap_singleton']
      · intro piece hpiece
        obtain ⟨d, hd, rfl⟩ := List.mem_map.mp hpiece
        exact h d (List.mem_cons_of_mem c hd)
    unfold oneOrMore
    rw [RegularExpression.matches'_mul]
    exact Language.append_mem_mul (h c List.mem_cons_self) hrest

/-- One more repetition in front. -/
theorem append_mem_star {r : RegularExpression Char} {front rest : Text}
    (hfront : front ∈ r.matches') (hrest : rest ∈ r.star.matches') :
    front ++ rest ∈ r.star.matches' := by
  rw [RegularExpression.matches'_star, Language.mem_kstar] at hrest ⊢
  obtain ⟨pieces, rfl, hpieces⟩ := hrest
  exact ⟨front :: pieces, rfl, List.forall_mem_cons.mpr ⟨hfront, hpieces⟩⟩

/-! ## A slug has the form -/

theorem IsPlain.mem_slugChar {c : Char} (h : IsPlain c) : [c] ∈ slugChar.matches' := by
  have hall : ∀ n < 123, 48 ≤ n ∧ n ≤ 57 ∨ 97 ≤ n ∧ n ≤ 122 →
      Char.ofNat n ∈ "abcdefghijklmnopqrstuvwxyz0123456789".toList := by decide
  have hcode := h.code
  have hmem := hall c.toNat (by omega) hcode
  rw [Char.ofNat_toNat] at hmem
  exact mem_anyOf hmem

/-- The first word and what follows it, a dash and a shorter slug. -/
theorem slug_cases {s : Text} (h : SlugStart s) (hlast : s.getLast? ≠ some '-') (hne : s ≠ []) :
    ∃ word, word ≠ [] ∧ (∀ c ∈ word, IsPlain c) ∧ (s = word ∨
      ∃ rest, s = word ++ '-' :: rest ∧ SlugStart rest ∧ rest.getLast? ≠ some '-' ∧ rest ≠ []) := by
  have hsplit : s.takeWhile (· != '-') ++ s.dropWhile (· != '-') = s :=
    List.takeWhile_append_dropWhile
  have hword : s.takeWhile (· != '-') ≠ [] := by
    cases s with
    | nil => exact (hne rfl).elim
    | cons c s =>
      have hc : (c != '-') = true := bne_iff_ne.mpr fun heq => h.first (congrArg some heq)
      rw [List.takeWhile_cons_of_pos (p := (· != '-')) hc]
      exact List.cons_ne_nil _ _
  refine ⟨s.takeWhile (· != '-'), hword, fun c hc => ?_, ?_⟩
  · have hmem : c ∈ s := (List.takeWhile_sublist _).mem hc
    exact (h.chars c hmem).resolve_right
      (bne_iff_ne.mp (List.mem_takeWhile_imp (p := (· != '-')) hc))
  · cases hdrop : s.dropWhile (· != '-') with
    | nil => rw [hdrop, List.append_nil] at hsplit; exact .inl hsplit.symm
    | cons d rest =>
      have hdash : d = '-' := by
        have hnot := List.head?_dropWhile_not (· != '-') s
        rw [hdrop] at hnot
        simpa using hnot
      subst hdash
      rw [hdrop] at hsplit
      have hrest : rest ≠ [] := by
        rintro rfl
        rw [← hsplit, List.getLast?_concat] at hlast
        exact hlast rfl
      have happart := h.apart
      rw [← hsplit] at happart
      have htail : ('-' :: rest).IsChain NoTwin := (List.isChain_append.mp happart).2.1
      refine .inr ⟨rest, hsplit.symm, ⟨fun c hc => ?_, htail.tail, ?_⟩, ?_, hrest⟩
      · exact h.chars c (hsplit ▸ List.mem_append_right _ (List.mem_cons_of_mem _ hc))
      · intro hhead
        obtain ⟨tail, rfl⟩ := List.head?_eq_some_iff.mp hhead
        exact (List.isChain_cons_cons.mp htail).1 ⟨rfl, rfl⟩
      · rwa [← hsplit, List.getLast?_append_of_ne_nil _ (List.cons_ne_nil _ _),
          List.getLast?_cons_of_ne_nil hrest] at hlast

theorem mem_slugPattern : ∀ (bound : Nat) (s : Text), s.length ≤ bound → SlugStart s →
    s.getLast? ≠ some '-' → s ≠ [] → s ∈ slugPattern.matches'
  | 0, s, hlen, _, _, hne => (hne (List.length_eq_zero_iff.mp (by omega))).elim
  | bound + 1, s, hlen, h, hlast, hne => by
    obtain ⟨word, hword, hplain, hform⟩ := slug_cases h hlast hne
    have hmem := mem_oneOrMore hword fun c hc => (hplain c hc).mem_slugChar
    unfold slugPattern
    rw [RegularExpression.matches'_mul]
    rcases hform with rfl | ⟨rest, rfl, hstart, hend, hrest⟩
    · have hnone := Language.append_mem_mul hmem
        (Language.nil_mem_kstar (RegularExpression.char '-' * oneOrMore slugChar).matches')
      rwa [List.append_nil] at hnone
    · rw [List.length_append, List.length_cons] at hlen
      have hrec := mem_slugPattern bound rest (by omega) hstart hend hrest
      unfold slugPattern at hrec
      rw [RegularExpression.matches'_mul, Language.mem_mul] at hrec
      obtain ⟨second, hsecond, others, hothers, rfl⟩ := hrec
      have hgroup : '-' :: second ∈
          (RegularExpression.char '-' * oneOrMore slugChar).matches' := by
        have hdash : ['-'] ∈ (RegularExpression.char '-').matches' := rfl
        rw [RegularExpression.matches'_mul]
        exact Language.append_mem_mul hdash hsecond
      exact Language.append_mem_mul hmem (append_mem_star hgroup hothers)

/-- What `slugify_id` gives is empty or a slug of at most 64 characters, an id unless it is the
    name of a device; and what it gives it leaves as it is. -/
theorem slugifyId_form (raw : String) :
    (slugifyId raw = "" ∨ (slugifyId raw).toList.length ≤ 64 ∧
      (slugifyId raw).toList ∈ slugPattern.matches' ∧
      isValidProfileId (slugifyId raw) = !isWindowsReservedName (slugifyId raw)) ∧
    slugifyId (slugifyId raw) = slugifyId raw := by
  have hslug := slugifyId_isSlug raw
  refine ⟨?_, slugifyId_of_isSlug hslug⟩
  by_cases hne : (slugifyId raw).toList = []
  · exact .inl (String.toList_eq_nil_iff.mp hne)
  · exact .inr ⟨hslug.short, mem_slugPattern _ _ le_rfl hslug.toSlugStart hslug.last hne,
      hslug.isValidProfileId hne⟩

/-- `CON` becomes the name of a device. -/
theorem device_name_refused : ¬∀ raw,
    (slugifyId raw = "" ∨ (slugifyId raw).toList.length ≤ 64 ∧
      (slugifyId raw).toList ∈ slugPattern.matches' ∧ isValidProfileId (slugifyId raw) = true) ∧
    slugifyId (slugifyId raw) = slugifyId raw := by
  intro h
  rcases (h "CON").1 with hempty | ⟨-, -, hvalid⟩
  · exact absurd hempty (by decide)
  · exact absurd hvalid (by decide)

end CampusAuth.Config
