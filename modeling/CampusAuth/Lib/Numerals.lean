import CampusAuth.Lib.Text

/- Unsigned numbers as they are read from texts: decimal digits, with a plus before them or not,
   below the bound of the type. -/
namespace CampusAuth.Lib

def digitsValue (digits : Text) : Nat := digits.foldl (fun n c => n * 10 + (c.toNat - 48)) 0

/-- `str::parse` of an unsigned type with the values below `bound`. -/
def parseUnsigned (bound : Nat) (text : Text) : Option Nat :=
  let digits := if text.head? = some '+' then text.tail else text
  if digits = [] ∨ ¬digits.all Char.isDigit then none
  else if digitsValue digits < bound then some (digitsValue digits) else none

/-- Digits that denote `n`. -/
structure Numeral (bound : Nat) (text : Text) (n : Nat) : Prop where
  nonempty : text ≠ []
  digits : ∀ c ∈ text, c.isDigit = true
  value : digitsValue text = n
  small : n < bound

theorem Numeral.not_mem {bound n : Nat} {text : Text} {c : Char} (h : Numeral bound text n)
    (hc : c.isDigit = false) : c ∉ text := by
  intro hmem
  rw [h.digits c hmem] at hc
  cases hc

theorem parseUnsigned_numeral {bound n : Nat} {text : Text} (h : Numeral bound text n) :
    parseUnsigned bound text = some n := by
  have hsign : text.head? ≠ some '+' := by
    intro hhead
    exact h.not_mem (c := '+') (by decide) (List.mem_of_mem_head? hhead)
  have hall : text.all Char.isDigit = true := List.all_eq_true.mpr h.digits
  unfold parseUnsigned
  rw [if_neg hsign]
  simp [h.nonempty, hall, h.value, h.small]

/-- A number is read back from its decimal digits. -/
theorem numeral_toString {bound n : Nat} (h : n < bound) : Numeral bound (toString n).toList n := by
  have htext : (toString n).toList = Nat.toDigits 10 n := by
    rw [Nat.toString_eq_ofList_toDigits, String.toList_ofList]
  have hvalue : digitsValue (Nat.toDigits 10 n) = Nat.ofDigitChars 10 (Nat.toDigits 10 n) 0 := by
    simp only [digitsValue, Nat.ofDigitChars, Nat.mul_comm]
    rfl
  rw [htext]
  exact ⟨Nat.toDigits_ne_nil, fun c hc => Nat.isDigit_of_mem_toDigits (by decide) (by decide) hc,
    hvalue.trans (Nat.ofDigitChars_ten_toDigits), h⟩

end CampusAuth.Lib
