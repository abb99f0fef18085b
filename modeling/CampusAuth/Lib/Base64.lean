import CampusAuth.Lib.Text
import Mathlib.Data.List.Nodup

/- Base64 over any alphabet of 64 symbols, with padding.

   Three bytes are four symbols; the pad character tells what the last group is short of. What is
   encoded can be decoded (`decode_encode`). -/
namespace CampusAuth.Lib.Base64

def pad : Char := '='

/-- 64 symbols that can be told apart, the pad character not among them. -/
structure Alphabet where
  symbols : Text
  length : symbols.length = 64
  nodup : symbols.Nodup
  unpadded : pad ∉ symbols

/-- The symbols have to be printable. -/
def Alphabet.new (symbols : Text) : Option Alphabet :=
  if h : symbols.length = 64 ∧ symbols.Nodup ∧ pad ∉ symbols then
    if symbols.all (fun c => '!' ≤ c && c ≤ '~') then some ⟨symbols, h.1, h.2.1, h.2.2⟩ else none
  else none

variable (A : Alphabet)

def Alphabet.symbol (n : Nat) : Char := A.symbols.getD n pad

def Alphabet.value (c : Char) : Nat := A.symbols.idxOf c

def encode : List UInt8 → Text
  | [] => []
  | [a] => [A.symbol (a.toNat / 4), A.symbol (a.toNat % 4 * 16), pad, pad]
  | [a, b] =>
    [A.symbol (a.toNat / 4), A.symbol (a.toNat % 4 * 16 + b.toNat / 16),
      A.symbol (b.toNat % 16 * 4), pad]
  | a :: b :: c :: bytes =>
    A.symbol (a.toNat / 4) :: A.symbol (a.toNat % 4 * 16 + b.toNat / 16) ::
      A.symbol (b.toNat % 16 * 4 + c.toNat / 64) :: A.symbol (c.toNat % 64) :: encode bytes

/-- Of a text that was encoded. -/
def decode : Text → List UInt8
  | p :: q :: r :: s :: text =>
    let a := UInt8.ofNat (A.value p * 4 + A.value q / 16)
    let b := UInt8.ofNat (A.value q % 16 * 16 + A.value r / 4)
    let c := UInt8.ofNat (A.value r % 4 * 64 + A.value s)
    if r = pad then [a] else if s = pad then [a, b] else a :: b :: c :: decode text
  | _ => []

theorem Alphabet.symbol_eq {n : Nat} (h : n < A.symbols.length) : A.symbol n = A.symbols[n] := by
  rw [Alphabet.symbol, List.getD_eq_getElem?_getD, List.getElem?_eq_getElem h, Option.getD_some]

theorem Alphabet.symbol_mem {n : Nat} (h : n < 64) : A.symbol n ∈ A.symbols := by
  have hn : n < A.symbols.length := A.length.symm ▸ h
  rw [A.symbol_eq hn]
  exact List.getElem_mem hn

theorem Alphabet.symbol_ne_pad {n : Nat} (h : n < 64) : A.symbol n ≠ pad :=
  fun heq => A.unpadded (heq ▸ A.symbol_mem h)

theorem Alphabet.value_symbol {n : Nat} (h : n < 64) : A.value (A.symbol n) = n := by
  have hn : n < A.symbols.length := A.length.symm ▸ h
  rw [A.symbol_eq hn, Alphabet.value]
  exact A.nodup.idxOf_getElem n hn

theorem byte_eq {n : Nat} {a : UInt8} (h : n % 256 = a.toNat) : UInt8.ofNat n = a :=
  UInt8.toNat_inj.mp (by rw [UInt8.toNat_ofNat']; exact h)

theorem decode_encode (bytes : List UInt8) : decode A (encode A bytes) = bytes := by
  induction bytes using encode.induct with
  | case1 => rfl
  | case2 a =>
    have ha := a.toNat_lt
    rw [encode, decode]
    rw [A.value_symbol (by omega), A.value_symbol (by omega)]
    rw [if_pos rfl, byte_eq (a := a) (by omega)]
  | case3 a b =>
    have ha := a.toNat_lt
    have hb := b.toNat_lt
    rw [encode, decode]
    rw [A.value_symbol (by omega), A.value_symbol (by omega), A.value_symbol (by omega)]
    rw [if_neg (A.symbol_ne_pad (by omega)), if_pos rfl,
      byte_eq (a := a) (by omega), byte_eq (a := b) (by omega)]
  | case4 a b c bytes ih =>
    have ha := a.toNat_lt
    have hb := b.toNat_lt
    have hc := c.toNat_lt
    rw [encode, decode]
    rw [A.value_symbol (by omega), A.value_symbol (by omega), A.value_symbol (by omega),
      A.value_symbol (by omega)]
    rw [if_neg (A.symbol_ne_pad (by omega)), if_neg (A.symbol_ne_pad (by omega)),
      byte_eq (a := a) (by omega), byte_eq (a := b) (by omega), byte_eq (a := c) (by omega), ih]

end CampusAuth.Lib.Base64
