import CampusAuth.Lib.Base64

/- Passwords at rest (`config/crypto.rs`, `ProfileService::save_password`).

   A stored password is a ciphertext behind `ENC:`, or a plain text as it stands. The cipher is given
   from outside, under the key that is loaded; a nonce is drawn for each encryption. What the form
   sends as a password goes through `savePassword` on one of the ways to a profile, and there a
   text that looks stored is not encrypted again. -/
namespace CampusAuth.Config
open Lib

abbrev Bytes := List UInt8

/-- AES-256-GCM under the loaded key, by nonce. -/
structure Cipher where
  encrypt : Bytes → Bytes → Bytes
  decrypt : Bytes → Bytes → Option Bytes

def nonceLen : Nat := 12

structure Nonce where
  bytes : Bytes
  length : bytes.length = nonceLen

/-- What was encrypted is decrypted. -/
def Cipher.RoundTrips (cipher : Cipher) : Prop :=
  ∀ (nonce : Nonce) plain,
    cipher.decrypt nonce.bytes (cipher.encrypt nonce.bytes plain) = some plain

def encPrefix : Text := "ENC:".toList

def standard : Base64.Alphabet where
  symbols := "ABCDEFGHIJKLMNOPQRSTUVWXYZabcdefghijklmnopqrstuvwxyz0123456789+/".toList
  length := by decide +kernel
  nodup := by decide +kernel
  unpadded := by decide +kernel

/-- The engine `STANDARD` takes the texts that it gives and no others. -/
def standardDecode (text : Text) : Option Bytes :=
  let bytes := Base64.decode standard text
  if Base64.encode standard bytes = text then some bytes else none

def utf8Bytes (s : String) : Bytes := s.toList.flatMap String.utf8EncodeChar

def fromUtf8 (bytes : Bytes) : Option String := String.fromUTF8? bytes.toByteArray

variable (cipher : Cipher)

/-- `encrypt`; the key is loaded and encryption does not fail. -/
def encryptPassword (nonce : Nonce) (plaintext : String) : String :=
  if plaintext.isEmpty then ""
  else
    String.ofList (encPrefix ++
      Base64.encode standard (nonce.bytes ++ cipher.encrypt nonce.bytes (utf8Bytes plaintext)))

def decryptCore (ciphertext : String) : Option String := do
  let payload ← standardDecode (ciphertext.toList.drop encPrefix.length)
  if payload.length < nonceLen then none
  else
    let plain ← cipher.decrypt (payload.take nonceLen) (payload.drop nonceLen)
    fromUtf8 plain

def isEncrypted (s : String) : Bool := encPrefix.isPrefixOf s.toList

/-- `decrypt_to_zeroizing` -/
def decryptPassword (ciphertext : String) : Option String :=
  if ciphertext.isEmpty then some ""
  else if !isEncrypted ciphertext then some ciphertext
  else decryptCore cipher ciphertext

def canDecryptPassword (ciphertext : String) : Bool :=
  if ciphertext.isEmpty || !isEncrypted ciphertext then true
  else (decryptCore cipher ciphertext).isSome

/-- The password of `build_runtime_config`: empty when the stored one cannot be decrypted. -/
def runtimePassword (stored : String) : String := (decryptPassword cipher stored).getD ""

def savePassword (nonce : Nonce) (raw : Option String) (existing : String) : String :=
  match raw with
  | none => existing
  | some s =>
    if s.isEmpty then existing
    else if isEncrypted s then
      if canDecryptPassword cipher s then s else existing
    else encryptPassword cipher nonce s

/-! ## What is stored is used -/

theorem fromUtf8_utf8Bytes (s : String) : fromUtf8 (utf8Bytes s) = some s := by
  unfold fromUtf8 String.fromUTF8?
  have hvalid : (utf8Bytes s).toByteArray.IsValidUTF8 := ⟨s.toList, rfl⟩
  have hbytes : s.toByteArray = (utf8Bytes s).toByteArray := by
    rw [← String.ofList_toList (s := s), String.toByteArray_ofList, String.ofList_toList]
    rfl
  rw [dif_pos hvalid, Option.some_inj, ← String.toByteArray_inj, hbytes]
  rfl

theorem standardDecode_encode (bytes : Bytes) :
    standardDecode (Base64.encode standard bytes) = some bytes := by
  rw [standardDecode, Base64.decode_encode]
  exact if_pos rfl

/-- A password that is given is encrypted to what looks encrypted. -/
theorem isEncrypted_encrypt (nonce : Nonce) {s : String} (h : s ≠ "") :
    isEncrypted (encryptPassword cipher nonce s) = true := by
  have hne : s.isEmpty = false := by simpa using h
  rw [encryptPassword, hne, if_neg Bool.false_ne_true, isEncrypted, String.toList_ofList,
    List.isPrefixOf_iff_prefix]
  exact List.prefix_append _ _

variable {cipher}

theorem decryptCore_encrypt (hcipher : cipher.RoundTrips) (nonce : Nonce) {s : String}
    (h : s ≠ "") :
    decryptCore cipher (encryptPassword cipher nonce s) = some s := by
  have hne : s.isEmpty = false := by simpa using h
  have hpayload :
      ¬(nonce.bytes ++ cipher.encrypt nonce.bytes (utf8Bytes s)).length < nonceLen := by
    rw [List.length_append, nonce.length]
    omega
  rw [encryptPassword, hne, if_neg Bool.false_ne_true, decryptCore, String.toList_ofList,
    List.drop_left, standardDecode_encode, Option.bind_eq_bind, Option.bind_some, if_neg hpayload,
    ← nonce.length, List.take_left, List.drop_left, hcipher nonce _,
    Option.bind_some, fromUtf8_utf8Bytes]

/-- The runtime has the password that was encrypted. -/
theorem runtimePassword_encrypt (hcipher : cipher.RoundTrips) (nonce : Nonce) {s : String}
    (h : s ≠ "") :
    runtimePassword cipher (encryptPassword cipher nonce s) = s := by
  have hencrypted := isEncrypted_encrypt cipher nonce h
  have hstored : (encryptPassword cipher nonce s).isEmpty = false := by
    rw [Bool.eq_false_iff]
    intro hempty
    rw [String.isEmpty_iff.mp hempty] at hencrypted
    cases hencrypted
  rw [runtimePassword, decryptPassword, hstored, if_neg Bool.false_ne_true, hencrypted,
    Bool.not_true, if_neg Bool.false_ne_true, decryptCore_encrypt hcipher nonce h,
    Option.getD_some]

/-- What comes of a password that the form sends: it is encrypted, or taken for a stored one. -/
theorem savePassword_cases (nonce : Nonce) {s : String} (h : s ≠ "") (existing : String) :
    isEncrypted s = false ∧
      savePassword cipher nonce (some s) existing = encryptPassword cipher nonce s ∨
    isEncrypted s = true ∧ (∃ plain, decryptCore cipher s = some plain ∧
      savePassword cipher nonce (some s) existing = s ∧ runtimePassword cipher s = plain) ∨
    isEncrypted s = true ∧ decryptCore cipher s = none ∧
      savePassword cipher nonce (some s) existing = existing := by
  have hne : s.isEmpty = false := by simpa using h
  simp only [savePassword, canDecryptPassword, runtimePassword, decryptPassword, hne,
    Bool.false_or, if_neg Bool.false_ne_true]
  cases hencrypted : isEncrypted s with
  | false => exact .inl ⟨rfl, if_neg Bool.false_ne_true⟩
  | true =>
    cases hcore : decryptCore cipher s with
    | none => exact .inr (.inr ⟨rfl, rfl, rfl⟩)
    | some plain => exact .inr (.inl ⟨rfl, plain, rfl, rfl, rfl⟩)

end CampusAuth.Config
