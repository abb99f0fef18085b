import Mathlib.Data.List.Basic
import Mathlib.Data.List.DropRight
import Mathlib.Data.List.TakeWhile
import Mathlib.Algebra.Order.Ring.Nat

/- Text as a list of characters: Unicode white space, ASCII letters, and texts whose words are
   joined by single separators (`compactBy`). -/
namespace CampusAuth.Lib

/-- The code points with the Unicode property `White_Space`. -/
def isWhitespace (c : Char) : Bool :=
  let n := c.toNat
  (9 ≤ n && n ≤ 13) || n == 0x20 || n == 0x85 || n == 0xA0 || n == 0x1680 ||
    (0x2000 ≤ n && n ≤ 0x200A) || n == 0x2028 || n == 0x2029 || n == 0x202F ||
    n == 0x205F || n == 0x3000

/-- Nothing is left of `s` once the white space around it is trimmed. -/
def isBlank (s : String) : Bool := s.toList.all isWhitespace

/-- The text without the white space around it. -/
def trim (s : String) : String :=
  String.ofList ((s.toList.dropWhile isWhitespace).reverse.dropWhile isWhitespace).reverse

/-- A string as its characters. -/
abbrev Text := List Char

/-- `trim` on characters. -/
def strip (s : Text) : Text :=
  ((s.dropWhile isWhitespace).reverse.dropWhile isWhitespace).reverse

/-- What is left starts with no white space, and it ends with none. -/
theorem strip_strip (s : Text) : strip (strip s) = strip s := by
  show (((s.dropWhile isWhitespace).rdropWhile isWhitespace).dropWhile isWhitespace).rdropWhile
      isWhitespace = (s.dropWhile isWhitespace).rdropWhile isWhitespace
  have hstart : ((s.dropWhile isWhitespace).rdropWhile isWhitespace).dropWhile isWhitespace =
      (s.dropWhile isWhitespace).rdropWhile isWhitespace := by
    refine List.dropWhile_eq_self_iff.mpr fun hlen => ?_
    -- What is kept is the start of a text that starts with no white space.
    have hkept := List.rdropWhile_prefix isWhitespace (s.dropWhile isWhitespace)
    rw [hkept.getElem hlen]
    exact List.dropWhile_get_zero_not isWhitespace s (hlen.trans_le hkept.length_le)
  rw [hstart, List.rdropWhile_idempotent]

/-- The text before and after the first `c`, when there is one. -/
def splitOnce (c : Char) (s : Text) : Option (Text × Text) :=
  match s.dropWhile (· != c) with
  | [] => none
  | _ :: rest => some (s.takeWhile (· != c), rest)

theorem splitOnce_of_not_mem {c : Char} {s : Text} (h : c ∉ s) : splitOnce c s = none := by
  have hnone : s.dropWhile (· != c) = [] :=
    List.dropWhile_eq_nil_iff.mpr fun x hx => bne_iff_ne.mpr fun heq => h (heq ▸ hx)
  unfold splitOnce
  rw [hnone]

theorem splitOnce_eq_some {c : Char} {s before after : Text}
    (h : splitOnce c s = some (before, after)) : s = before ++ c :: after := by
  unfold splitOnce at h
  split at h
  · cases h
  next d rest hdrop =>
    cases h
    have hhead : ¬(d != c) = true := by
      have hstop := List.head_dropWhile_not (· != c) (l := s) (by rw [hdrop]; simp)
      simpa [hdrop] using hstop
    have hd : d = c := by simpa using hhead
    calc s = s.takeWhile (· != c) ++ s.dropWhile (· != c) := List.takeWhile_append_dropWhile.symm
      _ = s.takeWhile (· != c) ++ c :: after := by rw [hdrop, hd]

theorem splitOnce_append {c : Char} {s : Text} (h : c ∉ s) (rest : Text) :
    splitOnce c (s ++ c :: rest) = some (s, rest) := by
  have hall : ∀ x ∈ s, (x != c) = true := fun x hx => bne_iff_ne.mpr fun heq => h (heq ▸ hx)
  have hstop : (c != c) = false := bne_self_eq_false c
  unfold splitOnce
  rw [List.dropWhile_append_of_pos hall, List.takeWhile_append_of_pos hall, List.dropWhile_cons,
    List.takeWhile_cons, hstop]
  simp

/-! ## ASCII -/

theorem toLower_of_not_isUpper {c : Char} (h : c.isUpper = false) : c.toLower = c := by
  unfold Char.toLower
  exact dif_neg fun hrange => of_decide_eq_false h hrange

theorem isUpper_toLower (c : Char) : c.toLower.isUpper = false := by
  unfold Char.toLower
  split
  next hrange =>
    have hhigh : c.val.toNat ≤ 90 := UInt32.le_iff_toNat_le.mp hrange.2
    have hlow : 65 ≤ c.val.toNat := UInt32.le_iff_toNat_le.mp hrange.1
    have hlower : (c.val + ('a'.val - 'A'.val)).toNat = c.val.toNat + 32 := by
      rw [UInt32.toNat_add, show ('a'.val - 'A'.val).toNat = 32 from rfl]
      omega
    refine decide_eq_false ?_
    rintro ⟨-, hZ⟩
    rw [UInt32.le_iff_toNat_le, hlower, show 'Z'.val.toNat = 90 from rfl] at hZ
    omega
  next hrange => exact decide_eq_false hrange

/-- A byte for each character. -/
theorem utf8ByteSize_of_ascii {s : Text} (h : ∀ c ∈ s, c.toNat < 128) :
    (String.ofList s).utf8ByteSize = s.length := by
  induction s with
  | nil => rfl
  | cons c s ih =>
    have hone : c.utf8Size = 1 :=
      Char.utf8Size_eq_one_iff.mpr
        (UInt32.le_iff_toNat_le.mpr (Nat.le_of_lt_succ (h c List.mem_cons_self)))
    have hsingle : String.ofList [c] = String.singleton c := by
      rw [← String.toList_inj, String.toList_ofList, String.toList_singleton]
    rw [← List.singleton_append, String.ofList_append, String.utf8ByteSize_append, hsingle,
      String.utf8ByteSize_singleton, hone, ih fun d hd => h d (List.mem_cons_of_mem _ hd),
      List.length_append, List.length_singleton]

/-! ## Words -/

variable {α β : Type*}

/-- The pieces between the separators, without the empty ones. -/
def words (sep : α → Bool) (l : List α) : List (List α) :=
  (l.splitOnP sep).filter fun w => !w.isEmpty

/-- The words with one `space` between them. -/
def compactBy (sep : α → Bool) (space : α) (l : List α) : List α :=
  List.intercalate [space] (words sep l)

theorem splitOnP_append_of_not {sep : α → Bool} {block : List α} (h : ∀ x ∈ block, sep x = false)
    (rest : List α) :
    (block ++ rest).splitOnP sep = (rest.splitOnP sep).modifyHead (block ++ ·) := by
  induction block with
  | nil =>
    rw [List.nil_append]
    cases rest.splitOnP sep <;> rfl
  | cons c cs ih =>
    rw [List.cons_append, List.splitOnP_cons_eq_if_modifyHead, h c List.mem_cons_self,
      ih fun x hx => h x (List.mem_cons_of_mem _ hx)]
    cases rest.splitOnP sep <;> rfl

theorem not_mem_of_mem_splitOnP {sep : α → Bool} (l : List α) :
    ∀ block ∈ l.splitOnP sep, ∀ x ∈ block, sep x = false := by
  induction l with
  | nil => simp
  | cons a as ih =>
    rw [List.splitOnP_cons_eq_if_modifyHead]
    split
    · exact List.forall_mem_cons.mpr ⟨by simp, ih⟩
    · next ha =>
      cases hsplit : as.splitOnP sep with
      | nil => simp
      | cons first rest =>
        rw [hsplit] at ih
        obtain ⟨hfirst, hrest⟩ := List.forall_mem_cons.mp ih
        refine List.forall_mem_cons.mpr ⟨?_, hrest⟩
        exact List.forall_mem_cons.mpr ⟨by simpa using ha, hfirst⟩

/-- Putting blocks for the symbols, separators for separators and other symbols for others,
    does not move the borders of the words. -/
theorem splitOnP_flatMap {sep : α → Bool} {sep' : β → Bool} {g : α → List β}
    (hsep : ∀ a, sep a = true → ∃ b, g a = [b] ∧ sep' b = true)
    (hword : ∀ a, sep a = false → ∀ b ∈ g a, sep' b = false) (l : List α) :
    (l.flatMap g).splitOnP sep' = (l.splitOnP sep).map (·.flatMap g) := by
  induction l with
  | nil => rfl
  | cons a l ih =>
    rw [List.flatMap_cons, List.splitOnP_cons_eq_if_modifyHead]
    cases ha : sep a with
    | true =>
      obtain ⟨b, hb, hsb⟩ := hsep a ha
      rw [hb, List.singleton_append, List.splitOnP_cons_eq_if_modifyHead, hsb, ih]
      rfl
    | false =>
      rw [splitOnP_append_of_not (hword a ha), ih]
      obtain ⟨w, ws, hws⟩ := List.exists_cons_of_ne_nil (List.splitOnP_ne_nil sep l)
      rw [hws]
      rfl

theorem flatMap_intercalate {g : α → List β} (space : α) (ws : List (List α)) :
    (List.intercalate [space] ws).flatMap g =
      List.intercalate (g space) (ws.map (·.flatMap g)) := by
  induction ws with
  | nil => rfl
  | cons w ws ih =>
    cases ws with
    | nil => simp
    | cons w' ws =>
      rw [List.intercalate_cons_cons, List.map_cons, List.map_cons, List.intercalate_cons_cons]
      simp only [List.flatMap_append, List.flatMap_cons, List.flatMap_nil, List.append_nil]
      rw [ih, List.map_cons]

theorem compactBy_flatMap {sep : α → Bool} {sep' : β → Bool} {space : α} {space' : β}
    {g : α → List β} (hspace : g space = [space'])
    (hsep : ∀ a, sep a = true → ∃ b, g a = [b] ∧ sep' b = true)
    (hword : ∀ a, sep a = false → ∀ b ∈ g a, sep' b = false) (hne : ∀ a, g a ≠ []) (l : List α) :
    compactBy sep' space' (l.flatMap g) = (compactBy sep space l).flatMap g := by
  have hempty : ∀ w : List α, (w.flatMap g).isEmpty = w.isEmpty := by
    intro w
    cases w with
    | nil => rfl
    | cons a w =>
      rw [List.flatMap_cons]
      obtain ⟨b, bs, hb⟩ := List.exists_cons_of_ne_nil (hne a)
      rw [hb]
      rfl
  rw [compactBy, compactBy, flatMap_intercalate, hspace, words, words, splitOnP_flatMap hsep hword,
    List.filter_map]
  congr 2
  refine List.filter_congr fun w _ => ?_
  simp only [Function.comp_apply, hempty]

end CampusAuth.Lib
