import Mathlib.Data.List.Chain
import CampusAuth.Lib.Text
import CampusAuth.Config.ProfileId

/- The profile id made of a text (`config/profiles.rs`, `slugify_id`).

   An id is left as it is exactly when it is a slug (`slugifyId_eq_self_iff`): lower case
   letters, digits and single dashes between them, at most 64 characters. -/
namespace CampusAuth.Config
open Lib

/-- The lower case of a character. A letter whose lower case is no ASCII letter stays as it
    is here: both are dropped. -/
def lowercase (c : Char) : Text :=
  if c.toNat = 0x130 then ['i', Char.ofNat 0x307]
  else if c.toNat = 0x212A then ['k']
  else [c.toLower]

def toLowercase (s : Text) : Text := s.flatMap lowercase

/-- The loop over the characters, with `out` and `prev_dash`. -/
def slugLoop : Text → Text → Bool → Text
  | [], out, _ => out
  | ch :: chars, out, prevDash =>
    if ch.isAlphanum then slugLoop chars (out ++ [ch]) false
    else if (isWhitespace ch || ch == '_' || ch == '-') && !prevDash && !out.isEmpty then
      slugLoop chars (out ++ ['-']) true
    else slugLoop chars out prevDash

def trimDashes (s : Text) : Text := (s.dropWhile (· == '-')).rdropWhile (· == '-')

def slugifyId (raw : String) : String :=
  String.ofList (trimDashes ((slugLoop (toLowercase (strip raw.toList)) [] false).take 64))

/-! ## Slugs -/

/-- A letter or a digit, no upper case letter. -/
def IsPlain (c : Char) : Prop := c.isAlphanum = true ∧ c.isUpper = false

/-- No two dashes side by side. -/
def NoTwin (a b : Char) : Prop := ¬(a = '-' ∧ b = '-')

/-- What a slug starts with. -/
structure SlugStart (s : Text) : Prop where
  chars : ∀ c ∈ s, IsPlain c ∨ c = '-'
  apart : s.IsChain NoTwin
  first : s.head? ≠ some '-'

structure IsSlug (s : Text) : Prop extends SlugStart s where
  last : s.getLast? ≠ some '-'
  short : s.length ≤ 64

theorem IsPlain.ne_dash {c : Char} (h : IsPlain c) : c ≠ '-' := by
  rintro rfl
  exact absurd h.1 (by decide)

theorem IsPlain.code {c : Char} (h : IsPlain c) :
    48 ≤ c.toNat ∧ c.toNat ≤ 57 ∨ 97 ≤ c.toNat ∧ c.toNat ≤ 122 := by
  obtain ⟨halnum, hupper⟩ := h
  have hcases : ((c.isUpper || c.isLower) || c.isDigit) = true := halnum
  rw [hupper, Bool.false_or, Bool.or_eq_true] at hcases
  rcases hcases with hlower | hdigit
  · obtain ⟨hlow, hhigh⟩ := Bool.and_eq_true_iff.mp hlower
    exact .inr ⟨UInt32.le_iff_toNat_le.mp (of_decide_eq_true hlow),
      UInt32.le_iff_toNat_le.mp (of_decide_eq_true hhigh)⟩
  · simp only [Char.isDigit, Bool.and_eq_true, decide_eq_true_eq, UInt32.le_iff_toNat_le,
      ge_iff_le] at hdigit
    exact .inl hdigit

theorem IsPlain.lowercase {c : Char} (h : IsPlain c) : lowercase c = [c] := by
  have hcode := h.code
  unfold Config.lowercase
  rw [if_neg (by omega), if_neg (by omega), toLower_of_not_isUpper h.2]

theorem IsPlain.isWhitespace {c : Char} (h : IsPlain c) : isWhitespace c = false := by
  have hcode := h.code
  simp only [Lib.isWhitespace, Bool.or_eq_false_iff, Bool.and_eq_false_iff,
    decide_eq_false_iff_not, beq_eq_false_iff_ne]
  omega

theorem lowercase_dash : lowercase '-' = ['-'] := by decide

theorem isUpper_of_mem_lowercase {c d : Char} (h : d ∈ lowercase c) : d.isUpper = false := by
  unfold lowercase at h
  split at h
  · simp only [List.mem_cons, List.not_mem_nil, or_false] at h
    rcases h with rfl | rfl <;> decide
  · split at h
    · rw [List.mem_singleton.mp h]
      decide
    · rw [List.mem_singleton.mp h]
      exact isUpper_toLower c

theorem SlugStart.take {s t : Text} (h : SlugStart t) (hpre : s <+: t) : SlugStart s := by
  obtain ⟨rest, rfl⟩ := hpre
  refine ⟨fun c hc => h.chars c (List.mem_append_left _ hc),
    h.apart.prefix (List.prefix_append s rest), ?_⟩
  cases s with
  | nil => exact nofun
  | cons c s => exact h.first

theorem SlugStart.concat {s : Text} {c : Char} (h : SlugStart s) (hc : IsPlain c ∨ c = '-')
    (hapart : s.getLast? = some '-' → c ≠ '-') (hfirst : s = [] → c ≠ '-') :
    SlugStart (s ++ [c]) := by
  refine ⟨fun d hd => ?_, ?_, ?_⟩
  · rcases List.mem_append.mp hd with hd | hd
    · exact h.chars d hd
    · exact List.mem_singleton.mp hd ▸ hc
  · refine List.isChain_append.mpr ⟨h.apart, List.isChain_singleton c, ?_⟩
    intro last hlast d hd
    obtain rfl : c = d := Option.some.inj hd
    rintro ⟨rfl, heq⟩
    exact hapart hlast heq
  · cases s with
    | nil => exact fun heq => hfirst rfl (Option.some.inj heq)
    | cons d s => exact h.first

/-! ## What `slugify_id` gives is a slug -/

theorem slugLoop_start {chars out : Text} {prevDash : Bool}
    (hlower : ∀ c ∈ chars, c.isUpper = false) (hstart : SlugStart out)
    (hdash : out.getLast? = some '-' → prevDash = true) :
    SlugStart (slugLoop chars out prevDash) := by
  induction chars generalizing out prevDash with
  | nil => exact hstart
  | cons c chars ih =>
    have hrest : ∀ d ∈ chars, d.isUpper = false := fun d hd =>
      hlower d (List.mem_cons_of_mem _ hd)
    unfold slugLoop
    split
    next halnum =>
      have hplain : IsPlain c := ⟨halnum, hlower c List.mem_cons_self⟩
      refine ih hrest (hstart.concat (.inl hplain) (fun _ => hplain.ne_dash)
        fun _ => hplain.ne_dash) fun hlast => ?_
      rw [List.getLast?_concat] at hlast
      exact absurd (Option.some.inj hlast) hplain.ne_dash
    next =>
      split
      next hgap =>
        simp only [Bool.and_eq_true, Bool.not_eq_true', List.isEmpty_eq_false_iff] at hgap
        refine ih hrest (hstart.concat (.inr rfl) (fun hlast => ?_) fun hnil =>
          absurd hnil hgap.2) fun _ => rfl
        rw [hdash hlast] at hgap
        exact absurd hgap.1.2 (by decide)
      next => exact ih hrest hstart hdash

theorem trimDashes_eq_rdropWhile {s : Text} (h : s.head? ≠ some '-') :
    trimDashes s = s.rdropWhile (· == '-') := by
  unfold trimDashes
  congr 1
  cases s with
  | nil => rfl
  | cons c s =>
    refine List.dropWhile_cons_of_neg ?_
    rw [beq_iff_eq]
    exact fun heq => h (congrArg some heq)

theorem slugifyId_isSlug (raw : String) : IsSlug (slugifyId raw).toList := by
  have hlower : ∀ c ∈ toLowercase (strip raw.toList), c.isUpper = false := by
    intro c hc
    obtain ⟨d, -, hd⟩ := List.mem_flatMap.mp hc
    exact isUpper_of_mem_lowercase hd
  have hloop : SlugStart (slugLoop (toLowercase (strip raw.toList)) [] false) :=
    slugLoop_start hlower ⟨nofun, .nil, nofun⟩ nofun
  have htake := hloop.take (List.take_prefix 64 _)
  unfold slugifyId
  rw [String.toList_ofList, trimDashes_eq_rdropWhile htake.first]
  have hpre := List.rdropWhile_prefix (· == '-')
    ((slugLoop (toLowercase (strip raw.toList)) [] false).take 64)
  refine ⟨htake.take hpre, fun hlast => ?_, hpre.length_le.trans (List.length_take_le _ _)⟩
  have hne : ((slugLoop (toLowercase (strip raw.toList)) [] false).take 64).rdropWhile
      (· == '-') ≠ [] := fun hnil => by rw [hnil] at hlast; cases hlast
  rw [List.getLast?_eq_some_getLast hne] at hlast
  exact List.rdropWhile_last_not _ _ hne (beq_iff_eq.mpr (Option.some.inj hlast))

/-! ## A slug stays as it is -/

theorem slugLoop_of_start {chars out : Text} {prevDash : Bool} (h : SlugStart (out ++ chars))
    (hdash : prevDash = true → out.getLast? = some '-') :
    slugLoop chars out prevDash = out ++ chars := by
  induction chars generalizing out prevDash with
  | nil => rw [List.append_nil]; rfl
  | cons c chars ih =>
    have hnext : SlugStart ((out ++ [c]) ++ chars) := by rwa [List.append_assoc]
    unfold slugLoop
    rcases h.chars c (List.mem_append_right _ List.mem_cons_self) with hplain | rfl
    · rw [if_pos hplain.1, ih hnext (absurd · Bool.false_ne_true), List.append_assoc,
        List.singleton_append]
    · have hne : out ≠ [] := by
        rintro rfl
        exact h.first rfl
      have hlast : prevDash = false := by
        refine Bool.eq_false_iff.mpr fun hprev => ?_
        exact (List.isChain_append.mp h.apart).2.2 '-' (hdash hprev) '-' rfl ⟨rfl, rfl⟩
      rw [if_neg (by decide), if_pos (by simp [hlast, hne]), ih hnext fun _ =>
        List.getLast?_concat, List.append_assoc, List.singleton_append]

theorem strip_of_solid {s : Text} (h : ∀ c ∈ s, isWhitespace c = false) : strip s = s := by
  have hkept : ∀ t : Text, (∀ c ∈ t, isWhitespace c = false) → t.dropWhile isWhitespace = t := by
    intro t ht
    cases t with
    | nil => rfl
    | cons c t => exact List.dropWhile_cons_of_neg (by simp [ht c List.mem_cons_self])
  unfold strip
  rw [hkept s h, hkept s.reverse fun c hc => h c (List.mem_reverse.mp hc), List.reverse_reverse]

theorem toLowercase_of_slug {s : Text} (h : ∀ c ∈ s, IsPlain c ∨ c = '-') :
    toLowercase s = s := by
  induction s with
  | nil => rfl
  | cons c s ih =>
    have hc : lowercase c = [c] := by
      rcases h c List.mem_cons_self with hplain | rfl
      · exact hplain.lowercase
      · exact lowercase_dash
    show lowercase c ++ toLowercase s = c :: s
    rw [hc, ih fun d hd => h d (List.mem_cons_of_mem _ hd), List.singleton_append]

theorem IsSlug.solid {s : Text} (h : IsSlug s) : ∀ c ∈ s, isWhitespace c = false := by
  intro c hc
  rcases h.chars c hc with hplain | rfl
  · exact hplain.isWhitespace
  · decide

theorem slugifyId_of_isSlug {id : String} (h : IsSlug id.toList) : slugifyId id = id := by
  unfold slugifyId
  rw [strip_of_solid h.solid, toLowercase_of_slug h.chars,
    slugLoop_of_start (by exact h.toSlugStart) (absurd · Bool.false_ne_true), List.nil_append,
    List.take_of_length_le h.short, trimDashes_eq_rdropWhile h.first,
    List.rdropWhile_eq_self_iff.mpr, String.ofList_toList]
  intro hne hlast
  rw [beq_iff_eq] at hlast
  exact h.last (hlast ▸ List.getLast?_eq_some_getLast hne)

theorem slugifyId_eq_self_iff (id : String) : slugifyId id = id ↔ IsSlug id.toList :=
  ⟨fun h => h ▸ slugifyId_isSlug id, slugifyId_of_isSlug⟩

/-! ## Suffixes -/

/-- `{suggested}-{suffix}` -/
def suffixedId (suggested : String) (suffix : Nat) : String :=
  suggested ++ ("-" ++ toString suffix)

theorem suffixedId_toList (s : String) (n : Nat) :
    (suffixedId s n).toList = s.toList ++ '-' :: Nat.toDigits 10 n := by
  unfold suffixedId
  have hdigits : (toString n).toList = Nat.toDigits 10 n := by
    rw [Nat.toString_eq_ofList_toDigits, String.toList_ofList]
  rw [String.toList_append, String.toList_append, hdigits]
  rfl

theorem isPlain_of_isDigit {c : Char} (h : c.isDigit = true) : IsPlain c := by
  refine ⟨by rw [Char.isAlphanum, h, Bool.or_true], ?_⟩
  simp only [Char.isDigit, Bool.and_eq_true, decide_eq_true_eq, UInt32.le_iff_toNat_le,
    ge_iff_le] at h
  have h9 : '9'.val.toNat = 57 := rfl
  have hA : 'A'.val.toNat = 65 := rfl
  refine decide_eq_false ?_
  rintro ⟨hlow, -⟩
  rw [ge_iff_le, UInt32.le_iff_toNat_le] at hlow
  omega

theorem isPlain_of_mem_digits {n : Nat} {c : Char} (h : c ∈ Nat.toDigits 10 n) : IsPlain c :=
  isPlain_of_isDigit (Nat.isDigit_of_mem_toDigits (by decide) (by decide) h)

theorem apart_dash {s : Text} (h : ∀ c ∈ s, IsPlain c) : ('-' :: s).IsChain NoTwin := by
  induction s with
  | nil => exact .singleton _
  | cons c s ih =>
    refine .cons_cons (fun htwin => (h c List.mem_cons_self).ne_dash htwin.2) ?_
    cases s with
    | nil => exact .singleton _
    | cons d s =>
      refine .cons_cons (fun htwin => (h c List.mem_cons_self).ne_dash htwin.1) ?_
      exact (ih fun e he => h e (List.mem_cons_of_mem _ he)).tail

theorem IsSlug.suffixed {s : String} {n : Nat} (h : IsSlug s.toList) (hne : s.toList ≠ [])
    (hlen : (suffixedId s n).toList.length ≤ 64) : IsSlug (suffixedId s n).toList := by
  rw [suffixedId_toList] at hlen ⊢
  refine ⟨⟨fun c hc => ?_, ?_, ?_⟩, ?_, hlen⟩
  · rcases List.mem_append.mp hc with hc | hc
    · exact h.chars c hc
    · rcases List.mem_cons.mp hc with rfl | hc
      · exact .inr rfl
      · exact .inl (isPlain_of_mem_digits hc)
  · refine List.isChain_append.mpr ⟨h.apart, apart_dash fun c => isPlain_of_mem_digits, ?_⟩
    rintro last hlast - - ⟨rfl, -⟩
    exact h.last hlast
  · rw [List.head?_append_of_ne_nil _ hne]
    exact h.first
  · have hdigits : Nat.toDigits 10 n ≠ [] := Nat.toDigits_ne_nil
    rw [List.getLast?_append_of_ne_nil _ (List.cons_ne_nil _ _),
      List.getLast?_cons_of_ne_nil hdigits, List.getLast?_eq_some_getLast hdigits]
    exact fun heq => (isPlain_of_mem_digits (List.getLast_mem hdigits)).ne_dash
      (Option.some.inj heq)

/-- A greater number is no shorter. -/
theorem suffixedId_length_mono (s : String) {m n : Nat} (h : m ≤ n) :
    (suffixedId s m).toList.length ≤ (suffixedId s n).toList.length := by
  rw [suffixedId_toList, suffixedId_toList, List.length_append, List.length_append,
    List.length_cons, List.length_cons]
  have hlen : (Nat.toDigits 10 m).length ≤ (Nat.toDigits 10 n).length := by
    refine (Nat.length_toDigits_le_iff (by decide) Nat.length_toDigits_pos).mpr (h.trans_lt ?_)
    exact (Nat.length_toDigits_le_iff (by decide) Nat.length_toDigits_pos).mp le_rfl
  omega

/-! ## Which slugs are ids -/

theorem IsSlug.isValidProfileId {id : String} (h : IsSlug id.toList) (hne : id.toList ≠ []) :
    isValidProfileId id = !isWindowsReservedName id := by
  have hascii : ∀ c ∈ id.toList, c.toNat < 128 := by
    intro c hc
    rcases h.chars c hc with hplain | rfl
    · have hcode := hplain.code
      omega
    · decide
  have hsize : id.utf8ByteSize = id.toList.length := by
    rw [← utf8ByteSize_of_ascii hascii, String.ofList_toList]
  have hchars : (id.toList.all fun c => c.isAlphanum || c == '_' || c == '-') = true := by
    refine List.all_eq_true.mpr fun c hc => ?_
    rcases h.chars c hc with hplain | rfl
    · simp [hplain.1]
    · decide
  unfold Config.isValidProfileId
  rw [if_neg, hchars]
  · cases isWindowsReservedName id <;> rfl
  · rw [hsize]
    simp [hne, h.short]

theorem suffixedId_not_reserved (s : String) (n : Nat) :
    isWindowsReservedName (suffixedId s n) = false := by
  have hdash : '-' ∈ (String.ofList ((suffixedId s n).toList.map Char.toUpper)).toList := by
    rw [String.toList_ofList, suffixedId_toList]
    exact List.mem_map.mpr ⟨'-', by simp, by decide⟩
  refine Bool.eq_false_iff.mpr fun h => ?_
  have hnone : ∀ name ∈ windowsReservedNames, '-' ∉ name.toList := by decide
  exact hnone _ (List.contains_iff_mem.mp h) hdash

end CampusAuth.Config
