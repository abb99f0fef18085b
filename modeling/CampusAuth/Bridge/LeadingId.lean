import CampusAuth.Bridge.Reader

/- The id a line begins with, and what a scan of its first bytes finds of it
   (`extract_leading_id`).

   `LeadingNumber` is the form the scan is after, as a cut of the whole line: an opening, a row of
   digits and the rest. A line has one such cut at most (`LeadingNumber.unique`), and the scan of
   the first `n` bytes finds the digits that lie within them (`LeadingNumber.extract_take`). -/
namespace CampusAuth.Bridge.Process
open Lib

/-- The bytes before the number: an opening brace, the key `"id"` and a colon, and white space. -/
def Opening (bytes : List UInt8) : Prop :=
  ∃ a b c d : List UInt8, (∀ x ∈ a ++ b ++ c ++ d, isAsciiWhitespace x = true) ∧
    bytes = a ++ 0x7B :: (b ++ 0x22 :: 0x69 :: 0x64 :: 0x22 :: (c ++ 0x3A :: d))

/-- The line begins with an object whose first key is `"id"`, and its value with `digits`. -/
structure LeadingNumber (line opening digits rest : List UInt8) : Prop where
  line : line = opening ++ digits ++ rest
  opening : Opening opening
  nonempty : digits ≠ []
  digits : ∀ x ∈ digits, isAsciiDigit x = true
  rest : ∀ x ∈ rest.head?, isAsciiDigit x = false

/-- The number is the id of a request: no fraction or exponent follows, and it fits. -/
def IsRequestId (digits rest : List UInt8) : Prop :=
  number digits < UInt64.size ∧ ∀ x ∈ rest.head?, x ≠ 0x2E ∧ x ≠ 0x65 ∧ x ≠ 0x45

/-! ## The scan of an opening -/

theorem not_whitespace_of_digit {x : UInt8} (h : isAsciiDigit x = true) :
    isAsciiWhitespace x = false := by
  unfold isAsciiDigit at h
  unfold isAsciiWhitespace
  obtain ⟨hlow, -⟩ := Bool.and_eq_true_iff.mp h
  have hlow : 0x30 ≤ x.toNat := by simpa [UInt8.le_iff_toNat_le] using hlow
  have hne : ∀ y : UInt8, y.toNat < 0x30 → decide (x = y) = false := by
    intro y hy
    refine decide_eq_false fun heq => ?_
    rw [heq] at hlow
    omega
  rw [hne 0x20 (by decide), hne 0x09 (by decide), hne 0x0A (by decide), hne 0x0C (by decide),
    hne 0x0D (by decide)]
  rfl

theorem skipWs_append {a b : List UInt8} (ha : ∀ x ∈ a, isAsciiWhitespace x = true)
    (hb : ∀ x ∈ b.head?, isAsciiWhitespace x = false) : skipWs (a ++ b) = b := by
  unfold skipWs
  rw [List.dropWhile_append_of_pos ha]
  cases b with
  | nil => rfl
  | cons x rest => rw [List.dropWhile_cons_of_neg (by simp [hb x rfl])]

theorem skipWs_split (bytes : List UInt8) :
    ∃ a, (∀ x ∈ a, isAsciiWhitespace x = true) ∧ bytes = a ++ skipWs bytes ∧
      ∀ x ∈ (skipWs bytes).head?, isAsciiWhitespace x = false := by
  refine ⟨bytes.takeWhile isAsciiWhitespace, fun x hx => List.mem_takeWhile_imp hx,
    List.takeWhile_append_dropWhile.symm, fun x hx => ?_⟩
  have := List.head?_dropWhile_not isAsciiWhitespace bytes
  rw [show (bytes.dropWhile isAsciiWhitespace).head? = some x from hx] at this
  simpa using this

theorem stripByte_eq_some {byte : UInt8} {bytes rest : List UInt8} :
    stripByte byte bytes = some rest ↔ bytes = byte :: rest := by
  cases bytes with
  | nil => simp [stripByte]
  | cons b tail =>
    unfold stripByte
    by_cases heq : b = byte
    · simp [heq]
    · simp [heq]

theorem stripIdKey_eq_some {bytes rest : List UInt8} :
    stripIdKey bytes = some rest ↔ bytes = 0x22 :: 0x69 :: 0x64 :: 0x22 :: rest := by
  unfold stripIdKey
  split
  next a b c d tail =>
    by_cases heq : a = 0x22 ∧ b = 0x69 ∧ c = 0x64 ∧ d = 0x22
    · obtain ⟨rfl, rfl, rfl, rfl⟩ := heq
      simp
    · rw [if_neg (by simpa [and_assoc] using heq)]
      constructor
      · intro h
        cases h
      · intro h
        simp only [List.cons.injEq] at h
        exact absurd ⟨h.1, h.2.1, h.2.2.1, h.2.2.2.1⟩ heq
  next hshort =>
    constructor
    · intro h
      cases h
    · intro h
      exact absurd h (hshort _ _ _ _ _)

/-- After the opening the scan stands at the value. -/
theorem scanIdValue_opening {opening value : List UInt8} (hopening : Opening opening)
    (hvalue : ∀ x ∈ value.head?, isAsciiWhitespace x = false) :
    scanIdValue (opening ++ value) = some value := by
  obtain ⟨a, b, c, d, hws, rfl⟩ := hopening
  have ha : ∀ x ∈ a, isAsciiWhitespace x = true := fun x hx => hws x (by simp [hx])
  have hb : ∀ x ∈ b, isAsciiWhitespace x = true := fun x hx => hws x (by simp [hx])
  have hc : ∀ x ∈ c, isAsciiWhitespace x = true := fun x hx => hws x (by simp [hx])
  have hd : ∀ x ∈ d, isAsciiWhitespace x = true := fun x hx => hws x (by simp [hx])
  unfold scanIdValue
  rw [List.append_assoc, skipWs_append ha (by simp [isAsciiWhitespace])]
  rw [List.cons_append, stripByte_eq_some.mpr rfl, Option.bind_some, List.append_assoc,
    skipWs_append hb (by simp [isAsciiWhitespace])]
  rw [List.cons_append, List.cons_append, List.cons_append, List.cons_append,
    stripIdKey_eq_some.mpr rfl, Option.bind_some, List.append_assoc,
    skipWs_append hc (by simp [isAsciiWhitespace])]
  rw [List.cons_append, stripByte_eq_some.mpr rfl, Option.map_some, skipWs_append hd hvalue]

/-- What the scan leaves follows an opening. -/
theorem opening_of_scan {line value : List UInt8} (h : scanIdValue line = some value) :
    ∃ opening, Opening opening ∧ line = opening ++ value := by
  unfold scanIdValue at h
  obtain ⟨atValue, hcolon, rfl⟩ := Option.map_eq_some_iff.mp h
  obtain ⟨atColon, hkey, hcolon⟩ := Option.bind_eq_some_iff.mp hcolon
  obtain ⟨atKey, hbrace, hkey⟩ := Option.bind_eq_some_iff.mp hkey
  obtain ⟨a, ha, hline, -⟩ := skipWs_split line
  obtain ⟨b, hb, hatKey, -⟩ := skipWs_split atKey
  obtain ⟨c, hc, hatColon, -⟩ := skipWs_split atColon
  obtain ⟨d, hd, hatValue, -⟩ := skipWs_split atValue
  rw [stripByte_eq_some.mp hbrace] at hline
  rw [stripIdKey_eq_some.mp hkey] at hatKey
  rw [stripByte_eq_some.mp hcolon] at hatColon
  refine ⟨_, ⟨a, b, c, d, fun x hx => ?_, rfl⟩, ?_⟩
  · simp only [List.mem_append] at hx
    rcases hx with ((hx | hx) | hx) | hx
    · exact ha x hx
    · exact hb x hx
    · exact hc x hx
    · exact hd x hx
  · calc line = a ++ 0x7B :: atKey := hline
      _ = a ++ 0x7B :: (b ++ 0x22 :: 0x69 :: 0x64 :: 0x22 :: atColon) := by rw [← hatKey]
      _ = a ++ 0x7B :: (b ++ 0x22 :: 0x69 :: 0x64 :: 0x22 :: (c ++ 0x3A :: atValue)) := by
        rw [← hatColon]
      _ = a ++ 0x7B :: (b ++ 0x22 :: 0x69 :: 0x64 :: 0x22 :: (c ++ 0x3A :: (d ++ skipWs atValue))) := by
        rw [← hatValue]
      _ = _ := by simp

/-! ## The number after it -/

section
variable {line opening digits rest : List UInt8}

theorem head_of_digits (hnonempty : digits ≠ []) (hdigits : ∀ x ∈ digits, isAsciiDigit x = true) :
    ∀ x ∈ (digits ++ rest).head?, isAsciiWhitespace x = false := by
  intro x hx
  cases digits with
  | nil => exact absurd rfl hnonempty
  | cons d tail =>
    cases hx
    exact not_whitespace_of_digit (hdigits x List.mem_cons_self)

theorem LeadingNumber.scan (h : LeadingNumber line opening digits rest) :
    scanIdValue line = some (digits ++ rest) := by
  rw [h.line, List.append_assoc]
  exact scanIdValue_opening h.opening (head_of_digits h.nonempty h.digits)

/-- The digits end where the row of digits does. -/
theorem takeWhile_digits {digits rest : List UInt8} (hdigits : ∀ x ∈ digits, isAsciiDigit x = true)
    (hrest : ∀ x ∈ rest.head?, isAsciiDigit x = false) :
    (digits ++ rest).takeWhile isAsciiDigit = digits := by
  rw [List.takeWhile_append_of_pos hdigits]
  cases rest with
  | nil => rw [List.takeWhile_nil, List.append_nil]
  | cons x tail => rw [List.takeWhile_cons_of_neg (by simp [hrest x rfl]), List.append_nil]

/-- A line begins with one number at most. -/
theorem LeadingNumber.unique {opening' digits' rest' : List UInt8}
    (h : LeadingNumber line opening digits rest) (h' : LeadingNumber line opening' digits' rest') :
    opening' = opening ∧ digits' = digits ∧ rest' = rest := by
  have hvalue : digits' ++ rest' = digits ++ rest := Option.some.inj (h'.scan.symm.trans h.scan)
  have hdigits : digits' = digits := by
    rw [← takeWhile_digits h'.digits h'.rest, hvalue, takeWhile_digits h.digits h.rest]
  subst hdigits
  refine ⟨?_, rfl, List.append_cancel_left hvalue⟩
  have hline : opening' ++ (digits' ++ rest') = opening ++ (digits' ++ rest) := by
    rw [← List.append_assoc, ← List.append_assoc, ← h'.line, ← h.line]
  rw [hvalue] at hline
  exact List.append_cancel_right hline

/-- A number at the start of the first bytes of a line is, as far as it goes, the line's. -/
theorem leadingNumber_of_scan {n : Nat} {value : List UInt8}
    (hscan : scanIdValue (line.take n) = some value)
    (hdigit : (value.takeWhile isAsciiDigit).isEmpty = false) :
    ∃ opening digits rest, LeadingNumber line opening digits rest ∧ opening.length < n := by
  obtain ⟨opening, hopening, hhead⟩ := opening_of_scan hscan
  have hline : line = opening ++ (value ++ line.drop n) := by
    rw [← List.append_assoc, ← hhead, List.take_append_drop]
  obtain ⟨d, tail, hvalue, hd⟩ : ∃ d tail, value = d :: tail ∧ isAsciiDigit d = true := by
    cases value with
    | nil => cases hdigit
    | cons d tail =>
      refine ⟨d, tail, rfl, ?_⟩
      by_contra hnot
      rw [List.takeWhile_cons_of_neg hnot] at hdigit
      cases hdigit
  refine ⟨opening, (value ++ line.drop n).takeWhile isAsciiDigit,
    (value ++ line.drop n).dropWhile isAsciiDigit, ⟨?_, hopening, ?_, ?_, ?_⟩, ?_⟩
  · rw [List.append_assoc, List.takeWhile_append_dropWhile]
    exact hline
  · rw [hvalue, List.cons_append, List.takeWhile_cons_of_pos hd]
    simp
  · exact fun x hx => List.mem_takeWhile_imp hx
  · intro x hx
    have hnot := List.head?_dropWhile_not isAsciiDigit (value ++ line.drop n)
    rw [show ((value ++ line.drop n).dropWhile isAsciiDigit).head? = some x from hx] at hnot
    simpa using hnot
  · have hlength := congrArg List.length hhead
    rw [List.length_take, List.length_append, hvalue, List.length_cons] at hlength
    omega

/-- What the first bytes of a line tell of its number. -/
theorem LeadingNumber.extract_take (h : LeadingNumber line opening digits rest) (n : Nat) :
    extractLeadingId (line.take n) =
      if opening.length < n then parseU64 (digits.take (n - opening.length)) else none := by
  by_cases hlt : opening.length < n
  · rw [if_pos hlt]
    have hhead : line.take n = opening ++ (digits.take (n - opening.length) ++
        rest.take (n - opening.length - digits.length)) := by
      rw [h.line, List.append_assoc, List.take_append, List.take_of_length_le (Nat.le_of_lt hlt),
        List.take_append]
    have hnonempty : digits.take (n - opening.length) ≠ [] := by
      rw [Ne, List.take_eq_nil_iff]
      rintro (hzero | hnil)
      · omega
      · exact h.nonempty hnil
    have hdigits : ∀ x ∈ digits.take (n - opening.length), isAsciiDigit x = true :=
      fun x hx => h.digits x (List.mem_of_mem_take hx)
    have hrest : ∀ x ∈ (rest.take (n - opening.length - digits.length)).head?,
        isAsciiDigit x = false := by
      intro x hx
      rw [List.head?_take] at hx
      split at hx
      · cases hx
      · exact h.rest x hx
    have hscan : scanIdValue (line.take n) = some (digits.take (n - opening.length) ++
        rest.take (n - opening.length - digits.length)) := by
      rw [hhead]
      exact scanIdValue_opening h.opening (head_of_digits hnonempty hdigits)
    unfold extractLeadingId
    rw [hscan]
    simp only [takeWhile_digits hdigits hrest, List.isEmpty_iff, hnonempty, if_false]
  · rw [if_neg hlt]
    unfold extractLeadingId
    split
    · rfl
    next value hscan =>
      split
      · rfl
      next hdigit =>
        -- The number would begin where it does in the line.
        obtain ⟨o, d, r, h', hshort⟩ := leadingNumber_of_scan hscan (by simpa using hdigit)
        obtain ⟨rfl, -, -⟩ := h.unique h'
        exact absurd hshort hlt

/-- Without a number at the start of the line there is none in its first bytes. -/
theorem extract_take_none (hnone : ∀ opening digits rest, ¬LeadingNumber line opening digits rest)
    (n : Nat) : extractLeadingId (line.take n) = none := by
  unfold extractLeadingId
  split
  · rfl
  next value hscan =>
    split
    · rfl
    next hdigit =>
      obtain ⟨o, d, r, h, -⟩ := leadingNumber_of_scan hscan (by simpa using hdigit)
      exact absurd h (hnone o d r)

end

end CampusAuth.Bridge.Process
