import CampusAuth.Lib.Blocks
import Mathlib.Data.Nat.Size

/- The password of the Ruijie portal of one university (`login/ruijie.rs`).

   The text is turned round, cut into pieces and each piece encrypted as one number. The length
   of a piece is twice the number of bytes of the modulus less one: twice as long as a number
   below the modulus can be. A text of up to 127 bytes stays below the modulus for the zeros it
   is filled up with; a longer one does not (`pieces_below_iff`). -/
namespace CampusAuth.Login.Ruijie
open Lib

/-- The modulus of the portal. -/
def shuModulus : Nat :=
  0x94dd2a8675fb779e6b9f7103698634cd400f27a154afa67af6166a43fc26417222a79506d34cacc7641946abda1785b7acf9910ad6a0978c91ec84d40b71d2891379af19ffb333e7517e390bd26ac312fe940c340466b4a5d4af1d65c3b5944078f96a1a51a5a53e4bc302818b7c9f63c4a1b07bd7d874cef1c3d4b2f5eb7871

def exponent : Nat := 65537

def chunkSize (modulus : Nat) : Nat := 2 * ((modulus.size + 7) / 8 - 1)

/-- The bytes of the plaintext, turned round character by character. -/
def reversed (password mac : Text) : List UInt8 := bytes (password ++ '>' :: mac).reverse

/-- `resize` to a multiple of `size`, with zeros. -/
def padded (size : Nat) (bs : List UInt8) : List UInt8 :=
  bs ++ List.replicate ((bs.length + size - 1) / size * size - bs.length) 0

/-- The pieces that are encrypted. -/
def pieces (modulus : Nat) (password mac : Text) : List (List UInt8) :=
  chunks (chunkSize modulus) (padded (chunkSize modulus) (reversed password mac))

def encryptPiece (modulus : Nat) (chunk : List UInt8) : Text :=
  hex (modpow (fromBytesLE chunk) exponent modulus)

/-- `shu_password` for a modulus. -/
def passwordFor (modulus : Nat) (password mac : Text) : Except String Text :=
  if (bytes password).length + (bytes mac).length > 4096 then .error "锐捷密码输入超过大小限制"
  else if chunkSize modulus = 0 then .error "锐捷公钥长度无效"
  else .ok (joined ((pieces modulus password mac).map (encryptPiece modulus)))

def shuPassword (password mac : Text) : Except String Text := passwordFor shuModulus password mac

example : shuPassword "123".toList "5ae915bf808f82732e98e01f704f00cd".toList =
    .ok "91a0e02175f6a0b22ad23dac0d7f599806bc091f9fee1bfdada0d24d011dcdaed418296b7c0ec560f988d92a7bb25dbf7ff51752d9bc6482a8180e56f7b772079ab59844abaae91e6d1c4660dc872717f9218f89acc9b70bb32891f28bf9d8f173d81b0e36c828deac919783e4e909ad1c22f953947b4a7ed7c90ac18fd95aa2".toList := by
  decide +kernel

/-- What the portal can decrypt: every piece is a number below the modulus. -/
def PiecesBelow (modulus : Nat) (password mac : Text) : Prop :=
  ∀ chunk ∈ pieces modulus password mac, fromBytesLE chunk < modulus

/-- A modulus of the length of the portal's. -/
def LongModulus (modulus : Nat) : Prop := modulus.size = 1024

/-- The call is not refused for its length. -/
def Accepted (password mac : Text) : Prop := (bytes password).length + (bytes mac).length ≤ 4096

instance (password mac : Text) : Decidable (Accepted password mac) := Nat.decLe _ _

/-! ## When a piece is below the modulus -/

/-- Bytes `254 * k` to `254 * k + 253` of the reversed text. -/
def block (k : Nat) (bs : List UInt8) : List UInt8 := (bs.drop (k * 254)).take 254

/-- In each block of 254 bytes of the reversed text there are only zeros from byte 128 on, and
    the bytes before are below the modulus. -/
def Fits (modulus : Nat) (password mac : Text) : Prop :=
  ∀ k, (∀ b ∈ (block k (reversed password mac)).drop 128, b = 0) ∧
    fromBytesLE ((block k (reversed password mac)).take 128) < modulus

theorem LongModulus.chunkSize {modulus : Nat} (h : LongModulus modulus) :
    chunkSize modulus = 254 := by
  rw [Ruijie.chunkSize, show modulus.size = 1024 from h]

theorem LongModulus.bounds {modulus : Nat} (h : LongModulus modulus) :
    256 ^ 127 ≤ modulus ∧ modulus ≤ 256 ^ 128 := by
  have hbits : ∀ k, 256 ^ k = 2 ^ (8 * k) := fun k => (Nat.pow_mul 2 8 k).symm
  have hlow : 2 ^ 1023 ≤ modulus := Nat.lt_size.mp (by rw [show modulus.size = 1024 from h]; decide)
  have hhigh : modulus < 2 ^ 1024 := Nat.size_le.mp (Nat.le_of_eq h)
  rw [hbits, hbits]
  exact ⟨Nat.le_trans (Nat.pow_le_pow_right (by decide) (by decide)) hlow, Nat.le_of_lt hhigh⟩

theorem LongModulus.pos {modulus : Nat} (h : LongModulus modulus) : 0 < modulus :=
  Nat.lt_of_lt_of_le (Nat.pow_pos (by decide)) h.bounds.1

theorem length_padded (bs : List UInt8) :
    (padded 254 bs).length = (bs.length + 254 - 1) / 254 * 254 := by
  rw [padded, List.length_append, List.length_replicate]
  omega

/-- The zeros at the end do not count. -/
theorem piece_value (bs : List UInt8) (k : Nat) :
    fromBytesLE (((padded 254 bs).drop (k * 254)).take 254) = fromBytesLE (block k bs) := by
  rw [padded, List.drop_append, List.take_append, List.drop_replicate, List.take_replicate,
    fromBytesLE_append, fromBytesLE_zeros, Nat.mul_zero, Nat.add_zero, block]

theorem pieces_fit_iff {modulus : Nat} (hlong : LongModulus modulus) (password mac : Text) :
    PiecesBelow modulus password mac ↔ Fits modulus password mac := by
  have hblock := fun k => fromBytesLE_lt_iff hlong.bounds.2 (block k (reversed password mac))
  have hmem : ∀ chunk, chunk ∈ pieces modulus password mac ↔
      ∃ k < ((reversed password mac).length + 254 - 1) / 254,
        chunk = ((padded 254 (reversed password mac)).drop (k * 254)).take 254 := fun chunk => by
    rw [pieces, hlong.chunkSize]
    exact mem_chunks_whole (by decide) (length_padded (reversed password mac))
  constructor
  · intro hbelow k
    rw [← hblock]
    rcases Nat.lt_or_ge k (((reversed password mac).length + 254 - 1) / 254) with hk | hk
    · rw [← piece_value]
      exact hbelow _ ((hmem _).mpr ⟨k, hk, rfl⟩)
    · -- behind the last piece
      have hend : (reversed password mac).length ≤ k * 254 := by omega
      rw [block, List.drop_eq_nil_of_le hend]
      exact hlong.pos
  · intro hfits chunk hchunk
    obtain ⟨k, -, rfl⟩ := (hmem chunk).mp hchunk
    rw [piece_value, hblock]
    exact hfits k

/-! ## Texts without NUL -/

theorem length_reversed (password mac : Text) :
    (reversed password mac).length = (bytes password).length + (bytes mac).length + 1 := by
  have hmark : (bytes ['>']).length = 1 := rfl
  rw [reversed, length_bytes_reverse, ← List.singleton_append, bytes_append, bytes_append,
    List.length_append, List.length_append, hmark]
  omega

theorem no_zero {password mac : Text} (hp : Char.ofNat 0 ∉ password) (hm : Char.ofNat 0 ∉ mac) :
    ∀ b ∈ reversed password mac, b ≠ 0 := by
  rintro b hb rfl
  obtain ⟨c, hc, hzero⟩ := List.mem_flatMap.mp hb
  obtain rfl := zero_in_char hzero
  rcases List.mem_append.mp (List.mem_reverse.mp hc) with h | h
  · exact hp h
  · exact hm ((List.mem_cons.mp h).resolve_left (by decide))

/-- Without NUL the length decides: 127 bytes fit, and 128 bytes when they are below the
    modulus. -/
theorem fits_iff_length {modulus : Nat} (hlong : LongModulus modulus) {password mac : Text}
    (hp : Char.ofNat 0 ∉ password) (hm : Char.ofNat 0 ∉ mac) :
    Fits modulus password mac ↔
      (bytes password).length + (bytes mac).length < 127 ∨
        (bytes password).length + (bytes mac).length = 127 ∧
          fromBytesLE (reversed password mac) < modulus := by
  have hlen := length_reversed password mac
  have hzero := no_zero hp hm
  have hfirst : block 0 (reversed password mac) = (reversed password mac).take 254 := rfl
  constructor
  · intro hfits
    obtain ⟨hhigh, hlow⟩ := hfits 0
    have hshort : (reversed password mac).length ≤ 128 := by
      by_contra hlong
      have hne : (block 0 (reversed password mac)).drop 128 ≠ [] := by
        rw [hfirst, ne_eq, List.drop_eq_nil_iff, List.length_take]
        omega
      obtain ⟨b, hb⟩ := List.exists_mem_of_ne_nil _ hne
      rw [hfirst] at hb hhigh
      exact hzero b (List.mem_of_mem_take (List.mem_of_mem_drop hb)) (hhigh b hb)
    have hall : block 0 (reversed password mac) = reversed password mac :=
      hfirst.trans (List.take_of_length_le (by omega))
    rw [hall, List.take_of_length_le hshort] at hlow
    omega
  · intro h k
    rw [← fromBytesLE_lt_iff hlong.bounds.2]
    cases k with
    | succ k =>
      rw [block, List.drop_eq_nil_of_le (by omega)]
      exact hlong.pos
    | zero =>
      rw [hfirst, List.take_of_length_le (by omega)]
      rcases h with hlt | ⟨-, hbelow⟩
      · have hbytes := fromBytesLE_lt (reversed password mac)
        have hpow : 256 ^ (reversed password mac).length ≤ 256 ^ 127 :=
          Nat.pow_le_pow_right (by decide) (by omega)
        exact Nat.lt_of_lt_of_le hbytes (hpow.trans hlong.bounds.1)
      · exact hbelow

/-! ## What the portal reads -/

theorem passwordFor_ok {modulus : Nat} (hlong : LongModulus modulus) {password mac : Text}
    (haccepted : Accepted password mac) :
    passwordFor modulus password mac =
      .ok (joined ((pieces modulus password mac).map (encryptPiece modulus))) := by
  rw [passwordFor, if_neg (Nat.not_lt.mpr haccepted), if_neg (by rw [hlong.chunkSize]; decide)]

theorem length_of_piece {modulus : Nat} (hlong : LongModulus modulus) {password mac : Text}
    {chunk : List UInt8} (h : chunk ∈ pieces modulus password mac) : chunk.length = 254 := by
  rw [pieces, hlong.chunkSize] at h
  exact length_of_mem_chunks (by decide) (length_padded (reversed password mac)) h

theorem pieces_ne_nil {modulus : Nat} (hlong : LongModulus modulus) (password mac : Text) :
    pieces modulus password mac ≠ [] := by
  have hlen := length_reversed password mac
  refine List.ne_nil_of_mem (a := ((padded 254 (reversed password mac)).drop (0 * 254)).take 254) ?_
  rw [pieces, hlong.chunkSize, mem_chunks_whole (by decide) (length_padded _)]
  exact ⟨0, by omega, rfl⟩

/-- Two texts whose pieces are below the modulus are told apart. -/
theorem passwordFor_injective {modulus d : Nat} (hlong : LongModulus modulus)
    (hinv : Inverts modulus exponent d) {password mac password' mac' : Text}
    (haccepted : Accepted password mac) (haccepted' : Accepted password' mac')
    (hbelow : PiecesBelow modulus password mac) (hbelow' : PiecesBelow modulus password' mac')
    (h : passwordFor modulus password mac = passwordFor modulus password' mac') :
    pieces modulus password mac = pieces modulus password' mac' := by
  rw [passwordFor_ok hlong haccepted, passwordFor_ok hlong haccepted', Except.ok.injEq] at h
  have hplain : ∀ (p m : Text), ∀ l ∈ (pieces modulus p m).map (encryptPiece modulus), ' ' ∉ l := by
    intro p m l hl
    obtain ⟨chunk, -, rfl⟩ := List.mem_map.mp hl
    exact space_not_in_hex _
  have hmap := joined_injective (fun hnil => pieces_ne_nil hlong _ _ (List.map_eq_nil_iff.mp hnil))
    (fun hnil => pieces_ne_nil hlong _ _ (List.map_eq_nil_iff.mp hnil)) (hplain _ _)
    (hplain _ _) h
  refine map_injOn (fun a ha b hb hab => ?_) hmap
  have hcipher := hex_injective hab
  have hvalue : fromBytesLE a = fromBytesLE b := by
    rw [← hinv _ (hbelow a ha), ← hinv _ (hbelow' b hb), hcipher]
  exact fromBytesLE_inj ((length_of_piece hlong ha).trans (length_of_piece hlong hb).symm) hvalue

/-! ## The law -/

/-- For a modulus of 1024 bits and every input that is not refused: the pieces are below the
    modulus exactly when the text fits (without NUL: up to 127 bytes, or 128 that are below the
    modulus); only then can each piece be decrypted, and then what is returned tells the pieces. -/
theorem pieces_below_iff (modulus : Nat) (hlong : LongModulus modulus) (password mac : Text)
    (haccepted : Accepted password mac) :
    passwordFor modulus password mac =
        .ok (joined ((pieces modulus password mac).map (encryptPiece modulus))) ∧
      (PiecesBelow modulus password mac ↔ Fits modulus password mac) ∧
      (Char.ofNat 0 ∉ password → Char.ofNat 0 ∉ mac →
        (PiecesBelow modulus password mac ↔
          (bytes password).length + (bytes mac).length < 127 ∨
            (bytes password).length + (bytes mac).length = 127 ∧
              fromBytesLE (reversed password mac) < modulus)) ∧
      ∀ d, Inverts modulus exponent d →
        ((∀ chunk ∈ pieces modulus password mac,
            modpow (modpow (fromBytesLE chunk) exponent modulus) d modulus = fromBytesLE chunk) ↔
          Fits modulus password mac) ∧
        (Fits modulus password mac → ∀ password' mac', Accepted password' mac' →
          Fits modulus password' mac' →
          passwordFor modulus password mac = passwordFor modulus password' mac' →
          pieces modulus password mac = pieces modulus password' mac') := by
  have hiff := pieces_fit_iff hlong
  refine ⟨passwordFor_ok hlong haccepted, hiff password mac, fun hp hm => ?_, fun d hinv => ⟨?_, ?_⟩⟩
  · rw [hiff]
    exact fits_iff_length hlong hp hm
  · rw [← hiff]
    exact forall₂_congr fun chunk _ => recovered_iff hlong.pos hinv _
  · intro hfits password' mac' haccepted' hfits' h
    exact passwordFor_injective hlong hinv haccepted haccepted' ((hiff _ _).mpr hfits)
      ((hiff _ _).mpr hfits') h

/-- A MAC address as it is appended. -/
def sampleMac : Text := "5ae915bf808f82732e98e01f704f00cd".toList

theorem short_password_below : LongModulus shuModulus ∧ Accepted "123".toList sampleMac ∧
    PiecesBelow shuModulus "123".toList sampleMac := by
  have hlong : LongModulus shuModulus := by
    show shuModulus.size = 1024
    decide +kernel
  have haccepted : Accepted "123".toList sampleMac := by decide +kernel
  have h := (pieces_below_iff shuModulus hlong "123".toList sampleMac haccepted).2.2.1
    (by decide) (by decide)
  exact ⟨hlong, haccepted, h.mpr (Or.inl (by decide))⟩

/-- A password of 128 letters is accepted, and its one piece is above the modulus. -/
theorem long_password_above : ¬ ∀ password mac, Accepted password mac →
    PiecesBelow shuModulus password mac := by
  intro h
  have hbelow := h (List.replicate 128 'a') sampleMac (by decide +kernel)
  have habove : ∃ chunk ∈ pieces shuModulus (List.replicate 128 'a') sampleMac,
      shuModulus ≤ fromBytesLE chunk := by decide +kernel
  obtain ⟨chunk, hmem, hle⟩ := habove
  exact absurd (hbelow chunk hmem) (Nat.not_lt.mpr hle)

end CampusAuth.Login.Ruijie
