import Mathlib.Data.List.Basic

/- Reading a buffer at offsets.

   An access out of range is a fault of its own (`Fault.panic`), apart from the errors that the
   reader returns. `Holds data o piece` says that `piece` stands at the offset `o`, `Cut data o piece`
   that the buffer ends within it; a piece that is composed stands where its parts stand one
   behind the other (`Holds.append`), and is cut in one of them (`Cut.append`). -/
namespace CampusAuth.Lib.Wire

inductive Fault
  | io (message : String)
  | panic
  deriving DecidableEq, Repr

abbrev Read (R : Type) := Except Fault R

def fail {R : Type} (message : String) : Read R := .error (.io message)

/-- The error for a reader that returned nothing. -/
def orElse {R : Type} (message : String) : Option R → Read R
  | some r => .ok r
  | none => fail message

@[simp] theorem ok_bind {R R' : Type} (r : R) (f : R → Read R') :
    ((Except.ok r : Read R) >>= f) = f r := rfl

@[simp] theorem fail_bind {R R' : Type} (message : String) (f : R → Read R') :
    ((fail message : Read R) >>= f) = fail message := rfl

@[simp] theorem orElse_some {R : Type} (message : String) (r : R) :
    orElse message (some r) = .ok r := rfl

@[simp] theorem orElse_none {R : Type} (message : String) :
    orElse message (none : Option R) = fail message := rfl

section
variable {α : Type}

/-- `data[i]` -/
def index (data : List α) (i : Nat) : Read α :=
  match data[i]? with
  | some x => .ok x
  | none => .error .panic

/-- `data.get(start..stop)` -/
def getRange (data : List α) (start stop : Nat) : Option (List α) :=
  if start ≤ stop ∧ stop ≤ data.length then some ((data.take stop).drop start) else none

/-- `data[start..stop]` -/
def range (data : List α) (start stop : Nat) : Read (List α) :=
  match getRange data start stop with
  | some part => .ok part
  | none => .error .panic

/-- `a || b || …`, what stands behind the first true one is not looked at. -/
def firstTrue : List (Read Bool) → Read Bool
  | [] => .ok false
  | test :: rest => do
    let holds ← test
    if holds then pure true else firstTrue rest

variable {data piece a b : List α} {o start stop i : Nat}

theorem index_lt (h : i < data.length) : index data i = .ok (data[i]) := by
  rw [index, List.getElem?_eq_getElem h]

theorem getRange_some (hle : start ≤ stop) (h : stop ≤ data.length) :
    getRange data start stop = some ((data.take stop).drop start) := if_pos ⟨hle, h⟩

theorem range_ok (hle : start ≤ stop) (h : stop ≤ data.length) :
    range data start stop = .ok ((data.take stop).drop start) := by
  rw [range, getRange_some hle h]

theorem length_of_getRange {part : List α} (h : getRange data start stop = some part) :
    part.length = stop - start := by
  unfold getRange at h
  split at h
  next hle =>
    cases h
    rw [List.length_drop, List.length_take, Nat.min_eq_left hle.2]
  next => cases h

/-- Where all tests can be made. -/
theorem firstTrue_ok : ∀ tests : List Bool, firstTrue (tests.map .ok) = .ok (tests.any (·))
  | [] => rfl
  | true :: _ => rfl
  | false :: tests => firstTrue_ok tests

/-! ## Pieces -/

def Holds (data : List α) (o : Nat) (piece : List α) : Prop :=
  ∃ before behind, data = before ++ piece ++ behind ∧ before.length = o

def Cut (data : List α) (o : Nat) (piece : List α) : Prop :=
  ∃ before part missing, data = before ++ part ∧ piece = part ++ missing ∧ missing ≠ [] ∧
    before.length = o

theorem Holds.append (h : Holds data o (a ++ b)) : Holds data o a ∧ Holds data (o + a.length) b := by
  obtain ⟨before, behind, rfl, rfl⟩ := h
  refine ⟨⟨before, b ++ behind, by simp, rfl⟩, ⟨before ++ a, behind, by simp, by simp⟩⟩

theorem Cut.append (h : Cut data o (a ++ b)) :
    Cut data o a ∨ Holds data o a ∧ Cut data (o + a.length) b := by
  obtain ⟨before, part, missing, rfl, hpiece, hmissing, rfl⟩ := h
  obtain ⟨x, rfl, rfl⟩ | ⟨x, rfl, rfl⟩ := List.append_eq_append_iff.mp hpiece
  · exact Or.inr ⟨⟨before, x, by simp, rfl⟩, before ++ a, x, missing, by simp, rfl, hmissing, by simp⟩
  · by_cases hx : x = []
    · subst hx
      rw [List.append_nil]
      rw [List.nil_append] at hmissing
      exact Or.inr ⟨⟨before, [], by simp, rfl⟩, before ++ part, [], b, by simp, rfl, hmissing, by simp⟩
    · exact Or.inl ⟨before, part, x, rfl, rfl, hx, rfl⟩

theorem Holds.get {x : α} (h : Holds data o (x :: piece)) : data[o]? = some x := by
  obtain ⟨before, behind, rfl, rfl⟩ := h
  simp

theorem Holds.length (h : Holds data o piece) : o + piece.length ≤ data.length := by
  obtain ⟨before, behind, rfl, rfl⟩ := h
  simp

theorem Cut.length (h : Cut data o piece) : o ≤ data.length ∧ data.length < o + piece.length := by
  obtain ⟨before, part, missing, rfl, rfl, hmissing, rfl⟩ := h
  have hpos : 0 < missing.length := List.length_pos_iff.mpr hmissing
  simp only [List.length_append]
  omega

/-- The buffer ends before the first element of a single one that is cut. -/
theorem Cut.get {x : α} (h : Cut data o [x]) : data[o]? = none := by
  have hlength := h.length
  rw [List.length_singleton] at hlength
  exact List.getElem?_eq_none (by omega)

theorem Holds.getRange (h : Holds data o piece) (hstop : stop = o + piece.length) :
    getRange data o stop = some piece := by
  rw [getRange_some (by omega) (hstop ▸ h.length)]
  obtain ⟨before, behind, rfl, rfl⟩ := h
  rw [hstop, ← List.length_append, List.take_left', List.drop_left']
  · rfl
  · rfl

theorem Holds.range (h : Holds data o piece) (hstop : stop = o + piece.length) :
    range data o stop = .ok piece := by
  rw [Wire.range, h.getRange hstop]

theorem Holds.index {x : α} (h : Holds data o (x :: piece)) : index data o = .ok x := by
  rw [Wire.index, h.get]

theorem Cut.getRange (h : Cut data o piece) (hstop : stop = o + piece.length) :
    getRange data o stop = none := by
  have hlength := h.length
  exact if_neg fun hle => by omega

/-- A message that ends within its last piece. -/
theorem cut_take (before : List α) {m : Nat} (hm : m < piece.length) :
    Cut (before ++ piece.take m) before.length piece := by
  refine ⟨before, piece.take m, piece.drop m, rfl, (List.take_append_drop m piece).symm, ?_, rfl⟩
  intro hdrop
  have hlength := congrArg List.length hdrop
  rw [List.length_drop, List.length_nil] at hlength
  omega

end

/-! ## Numbers of 16 bits, the high byte first -/

def be16 (n : Nat) : List UInt8 := [UInt8.ofNat (n / 256), UInt8.ofNat n]

/-- `u16::from_be_bytes` -/
def fromBe16 (high low : UInt8) : Nat := high.toNat * 256 + low.toNat

theorem fromBe16_be16 {n : Nat} (h : n < 65536) :
    fromBe16 (UInt8.ofNat (n / 256)) (UInt8.ofNat n) = n := by
  have hhigh : (UInt8.ofNat (n / 256)).toNat = n / 256 :=
    UInt8.toNat_ofNat_of_lt' (Nat.div_lt_of_lt_mul h)
  have hlow : (UInt8.ofNat n).toNat = n % 256 := UInt8.toNat_ofNat'
  rw [fromBe16, hhigh, hlow]
  omega

theorem be16_injective {m n : Nat} (hm : m < 65536) (hn : n < 65536) (h : be16 m = be16 n) :
    m = n := by
  obtain ⟨hhigh, hlow⟩ : UInt8.ofNat (m / 256) = UInt8.ofNat (n / 256) ∧
      UInt8.ofNat m = UInt8.ofNat n := by
    simpa [be16] using h
  rw [← fromBe16_be16 hm, ← fromBe16_be16 hn, hhigh, hlow]

end CampusAuth.Lib.Wire
