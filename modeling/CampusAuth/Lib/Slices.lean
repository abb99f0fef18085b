import CampusAuth.Lib.Text

/- Slices of a text by byte offsets.

   A text is a list of characters, `bytes` its encoding. A slice is there only where both of
   its ends fall between two characters; `slice_middle` says what such a slice is. The length of
   a character can be read off its first byte (`firstByte`). -/
namespace CampusAuth.Lib

def bytes (s : Text) : List UInt8 := s.flatMap String.utf8EncodeChar

/-- The text from byte `n` on, when a character begins there. -/
def dropBytes : Nat → Text → Option Text
  | 0, s => some s
  | _ + 1, [] => none
  | n + 1, c :: s => if c.utf8Size ≤ n + 1 then dropBytes (n + 1 - c.utf8Size) s else none

/-- The first `n` bytes of the text, when a character ends there. -/
def takeBytes : Nat → Text → Option Text
  | 0, _ => some []
  | _ + 1, [] => none
  | n + 1, c :: s =>
    if c.utf8Size ≤ n + 1 then (takeBytes (n + 1 - c.utf8Size) s).map (c :: ·) else none

/-- The bytes from `i` to `j`. -/
def slice (s : Text) (i j : Nat) : Option Text :=
  if i ≤ j then (dropBytes i s).bind (takeBytes (j - i)) else none

/-- The byte at which the character `c` is first found. -/
def findChar (c : Char) : Text → Option Nat
  | [] => none
  | d :: s => if d = c then some 0 else (findChar c s).map (· + d.utf8Size)

/-- How many bytes a character has that begins with `b`. -/
def utf8CharLen (b : UInt8) : Nat :=
  if b.toNat ≤ 0x7F then 1
  else if 0xC0 ≤ b.toNat ∧ b.toNat ≤ 0xDF then 2
  else if 0xE0 ≤ b.toNat ∧ b.toNat ≤ 0xEF then 3
  else if 0xF0 ≤ b.toNat ∧ b.toNat ≤ 0xF7 then 4
  else 1

@[simp] theorem bytes_nil : bytes [] = [] := rfl

@[simp] theorem bytes_cons (c : Char) (s : Text) :
    bytes (c :: s) = String.utf8EncodeChar c ++ bytes s := rfl

@[simp] theorem bytes_append (a b : Text) : bytes (a ++ b) = bytes a ++ bytes b :=
  List.flatMap_append

theorem length_bytes_cons (c : Char) (s : Text) :
    (bytes (c :: s)).length = c.utf8Size + (bytes s).length := by
  rw [bytes_cons, List.length_append, String.length_utf8EncodeChar]

theorem length_bytes_reverse (s : Text) : (bytes s.reverse).length = (bytes s).length := by
  induction s with
  | nil => rfl
  | cons c s ih =>
    rw [List.reverse_cons, bytes_append, List.length_append, ih, length_bytes_cons,
      length_bytes_cons, bytes_nil, List.length_nil]
    omega

theorem dropBytes_append (a b : Text) : dropBytes (bytes a).length (a ++ b) = some b := by
  induction a with
  | nil => rw [bytes_nil, List.length_nil, dropBytes, List.nil_append]
  | cons c a ih =>
    obtain ⟨n, hn⟩ : ∃ n, (bytes (c :: a)).length = n + 1 :=
      ⟨_, (Nat.succ_pred_eq_of_pos (by rw [length_bytes_cons]; have := c.utf8Size_pos; omega)).symm⟩
    have hlen := length_bytes_cons c a
    rw [hn, List.cons_append, dropBytes, if_pos (by omega), ← ih]
    congr 1
    omega

theorem takeBytes_append (a b : Text) : takeBytes (bytes a).length (a ++ b) = some a := by
  induction a with
  | nil => rw [bytes_nil, List.length_nil, takeBytes]
  | cons c a ih =>
    obtain ⟨n, hn⟩ : ∃ n, (bytes (c :: a)).length = n + 1 :=
      ⟨_, (Nat.succ_pred_eq_of_pos (by rw [length_bytes_cons]; have := c.utf8Size_pos; omega)).symm⟩
    have hlen := length_bytes_cons c a
    have hrest : n + 1 - c.utf8Size = (bytes a).length := by omega
    rw [hn, List.cons_append, takeBytes, if_pos (by omega), hrest, ih]
    rfl

/-- The slice between two characters of the text. -/
theorem slice_middle (a m b : Text) :
    slice (a ++ m ++ b) (bytes a).length ((bytes a).length + (bytes m).length) = some m := by
  rw [slice, if_pos (Nat.le_add_right ..), List.append_assoc, dropBytes_append, Option.bind_some,
    Nat.add_sub_cancel_left, takeBytes_append]

/-- What stands at the byte at which a character begins. -/
theorem getElem?_bytes (a : Text) (c : Char) (b : Text) :
    (bytes (a ++ c :: b))[(bytes a).length]? = (String.utf8EncodeChar c).head? := by
  rw [bytes_append, List.getElem?_append_right (Nat.le_refl _), Nat.sub_self, bytes_cons,
    ← List.head?_eq_getElem?, List.head?_append]
  cases hc : String.utf8EncodeChar c with
  | nil => exact absurd hc String.utf8EncodeChar_ne_nil
  | cons x xs => rfl

/-- The first byte of a character tells its length, and an ASCII character from all others. -/
theorem firstByte (c : Char) : ∃ b, (String.utf8EncodeChar c).head? = some b ∧
    utf8CharLen b = c.utf8Size ∧ ∀ a : Char, a.toNat < 128 → (b.toNat = a.toNat ↔ c = a) := by
  have hlen := String.length_utf8EncodeChar c
  have hmax : c.val.toNat < 0x110000 := by
    rcases c.valid with h | ⟨-, h⟩
    · exact Nat.lt_trans h (by decide)
    · exact h
  have hne : ∀ {b : UInt8}, 128 ≤ b.toNat → 128 ≤ c.toNat → ∀ a : Char, a.toNat < 128 →
      (b.toNat = a.toNat ↔ c = a) := by
    intro b hb hc a ha
    constructor
    · intro heq
      omega
    · rintro rfl
      omega
  have hnat : c.toNat = c.val.toNat := rfl
  unfold String.utf8EncodeChar at hlen ⊢
  dsimp only at hlen ⊢
  split at hlen
  next h1 =>
    rw [if_pos h1]
    have hb : (UInt8.ofNat c.val.toNat).toNat = c.val.toNat := by
      rw [UInt8.toNat_ofNat']
      omega
    refine ⟨_, rfl, ?_, fun a _ => ?_⟩
    · rw [← hlen, utf8CharLen, hb, if_pos h1]
      rfl
    · rw [hb, ← hnat]
      exact ⟨fun heq => Char.ext (UInt32.toNat.inj heq), fun heq => heq ▸ rfl⟩
  next h1 =>
    rw [if_neg h1]
    split at hlen
    next h2 =>
      rw [if_pos h2]
      have hb : (UInt8.ofNat (c.val.toNat / 64 % 0x20 + 0xc0)).toNat =
          c.val.toNat / 64 % 0x20 + 0xc0 := by
        rw [UInt8.toNat_ofNat']
        omega
      refine ⟨_, rfl, ?_, hne (by omega) (by omega)⟩
      rw [← hlen, utf8CharLen, hb, if_neg (by omega), if_pos (by omega)]
      rfl
    next h2 =>
      rw [if_neg h2]
      split at hlen
      next h3 =>
        rw [if_pos h3]
        have hb : (UInt8.ofNat (c.val.toNat / 4096 % 0x10 + 0xe0)).toNat =
            c.val.toNat / 4096 % 0x10 + 0xe0 := by
          rw [UInt8.toNat_ofNat']
          omega
        refine ⟨_, rfl, ?_, hne (by omega) (by omega)⟩
        rw [← hlen, utf8CharLen, hb, if_neg (by omega), if_neg (by omega), if_pos (by omega)]
        rfl
      next h3 =>
        rw [if_neg h3]
        have hb : (UInt8.ofNat (c.val.toNat / 262144 % 0x08 + 0xf0)).toNat =
            c.val.toNat / 262144 % 0x08 + 0xf0 := by
          rw [UInt8.toNat_ofNat']
          omega
        refine ⟨_, rfl, ?_, hne (by omega) (by omega)⟩
        rw [← hlen, utf8CharLen, hb, if_neg (by omega), if_neg (by omega), if_neg (by omega),
          if_pos (by omega)]
        rfl

/-- Only NUL has a zero among its bytes. -/
theorem zero_in_char {c : Char} (h : 0 ∈ String.utf8EncodeChar c) : c = Char.ofNat 0 := by
  have hhigh : ∀ n, 128 ≤ n → n < 256 → (0 : UInt8) ≠ UInt8.ofNat n := by
    intro n hlow hlt heq
    have hnat := congrArg UInt8.toNat heq
    rw [UInt8.toNat_ofNat', Nat.mod_eq_of_lt hlt] at hnat
    exact absurd hlow (hnat ▸ by decide)
  have hmax : c.val.toNat < 0x110000 := by
    rcases c.valid with h | ⟨-, h⟩
    · exact Nat.lt_trans h (by decide)
    · exact h
  unfold String.utf8EncodeChar at h
  dsimp only at h
  split at h
  next h1 =>
    have hnat := congrArg UInt8.toNat (List.mem_singleton.mp h)
    rw [UInt8.toNat_ofNat', Nat.mod_eq_of_lt (by omega)] at hnat
    exact Char.ext (UInt32.toNat.inj hnat.symm)
  next h1 =>
    split at h
    next h2 =>
      simp only [List.mem_cons, List.not_mem_nil, or_false] at h
      rcases h with h | h <;> exact absurd h (hhigh _ (by omega) (by omega))
    next h2 =>
      split at h <;> simp only [List.mem_cons, List.not_mem_nil, or_false] at h
      · rcases h with h | h | h <;> exact absurd h (hhigh _ (by omega) (by omega))
      · rcases h with h | h | h | h <;> exact absurd h (hhigh _ (by omega) (by omega))

theorem findChar_eq (c : Char) (s : Text) :
    findChar c s = (s.findIdx? (· == c)).map fun k => (bytes (s.take k)).length := by
  induction s with
  | nil => rfl
  | cons d s ih =>
    rw [findChar, List.findIdx?_cons]
    by_cases hd : d = c
    · rw [if_pos hd, if_pos (by simp [hd])]
      rfl
    · rw [if_neg hd, if_neg (by simp [hd]), ih, Option.map_map, Option.map_map]
      congr 1
      funext k
      rw [Function.comp, Function.comp, List.take_succ_cons, length_bytes_cons, Nat.add_comm]

end CampusAuth.Lib
