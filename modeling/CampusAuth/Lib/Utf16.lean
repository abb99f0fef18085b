import CampusAuth.Lib.Text

/- Texts as units of 16 bits. What is no text is replaced character by character. -/
namespace CampusAuth.Lib

/-- `encode_utf16` -/
def encodeUtf16 (text : Text) : List Nat :=
  text.flatMap fun c =>
    if c.toNat < 0x10000 then [c.toNat]
    else [0xD800 + (c.toNat - 0x10000) / 0x400, 0xDC00 + (c.toNat - 0x10000) % 0x400]

def isHighSurrogate (unit : Nat) : Bool := 0xD800 ≤ unit && unit < 0xDC00

def isLowSurrogate (unit : Nat) : Bool := 0xDC00 ≤ unit && unit < 0xE000

/-- `from_utf16_lossy` -/
def fromUtf16Lossy : List Nat → Text
  | [] => []
  | unit :: rest =>
    if isHighSurrogate unit then
      match rest with
      | next :: rest' =>
        if isLowSurrogate next then
          Char.ofNat (0x10000 + (unit - 0xD800) * 0x400 + (next - 0xDC00)) :: fromUtf16Lossy rest'
        else Char.ofNat 0xFFFD :: fromUtf16Lossy (next :: rest')
      | [] => [Char.ofNat 0xFFFD]
    else if isLowSurrogate unit then Char.ofNat 0xFFFD :: fromUtf16Lossy rest
    else Char.ofNat unit :: fromUtf16Lossy rest

/-- A text of ASCII. -/
def IsAscii (text : Text) : Prop := ∀ c ∈ text, c.toNat < 128

instance (text : Text) : Decidable (IsAscii text) :=
  List.decidableBAll (fun c : Char => c.toNat < 128) text

theorem encodeUtf16_ascii {text : Text} (h : IsAscii text) :
    encodeUtf16 text = text.map Char.toNat := by
  induction text with
  | nil => rfl
  | cons c cs ih =>
    obtain ⟨hc, hcs⟩ := List.forall_mem_cons.mp h
    have hsmall : c.toNat < 0x10000 := by omega
    unfold encodeUtf16 at ih ⊢
    rw [List.flatMap_cons, if_pos hsmall, ih hcs]
    rfl

theorem fromUtf16Lossy_ascii {text : Text} (h : IsAscii text) :
    fromUtf16Lossy (text.map Char.toNat) = text := by
  induction text with
  | nil => rfl
  | cons c cs ih =>
    obtain ⟨hc, hcs⟩ := List.forall_mem_cons.mp h
    have hhigh : isHighSurrogate c.toNat = false := by
      unfold isHighSurrogate
      simp only [Bool.and_eq_false_iff, decide_eq_false_iff_not]
      omega
    have hlow : isLowSurrogate c.toNat = false := by
      unfold isLowSurrogate
      simp only [Bool.and_eq_false_iff, decide_eq_false_iff_not]
      omega
    rw [List.map_cons]
    unfold fromUtf16Lossy
    rw [hhigh, hlow, ih hcs]
    simp

end CampusAuth.Lib
