import CampusAuth.Lib.Wire
import Mathlib.Algebra.Order.Ring.Nat

/- Readers that may find nothing. A reader of a buffer gives a result, gives nothing, or is at
   fault for an access out of range; `InBounds` readers never are, whatever the buffer. -/
namespace CampusAuth.Lib.Wire

abbrev Parse (R : Type) := OptionT Read R

namespace Parse
variable {R R' : Type}

/-- `?` -/
def ofOption (r : Option R) : Parse R := OptionT.mk (.ok r)

/-- The result as it is, nothing included. -/
def attempt (x : Parse R) : Parse (Option R) := OptionT.mk (x.run.map some)

/-- `unwrap_or` -/
def getD (x : Parse R) (default : R) : Parse R := OptionT.mk (x.run.map fun r => some (r.getD default))

/-- `or` -/
def or (x : Parse R) (other : Option R) : Parse R := OptionT.mk (x.run.map fun r => r.or other)

/-- `data[i]` -/
def elementAt (data : List R) (i : Nat) : Parse R := OptionT.lift (index data i)

/-- `data[start..stop]` -/
def sliceOf (data : List R) (start stop : Nat) : Parse (List R) := OptionT.lift (range data start stop)

/-- No access is out of range. -/
def InBounds (x : Parse R) : Prop := ∃ r, x.run = .ok r

@[simp] theorem ofOption_some (r : R) : ofOption (some r) = pure r := rfl

@[simp] theorem ofOption_none : (ofOption none : Parse R) = failure := rfl

@[simp] theorem failure_bind (f : R → Parse R') : (failure : Parse R) >>= f = failure := rfl

@[simp] theorem attempt_pure (r : R) : attempt (pure r : Parse R) = pure (some r) := rfl

@[simp] theorem getD_pure (r default : R) : getD (pure r : Parse R) default = pure r := rfl

@[simp] theorem or_pure (r : R) (other : Option R) : or (pure r : Parse R) other = pure r := rfl

@[simp] theorem or_failure (other : Option R) :
    or (failure : Parse R) other = ofOption other := by
  cases other <;> rfl

theorem elementAt_lt {data : List R} {i : Nat} (h : i < data.length) :
    elementAt data i = pure data[i] := by
  unfold elementAt
  rw [index_lt h]
  rfl

theorem sliceOf_ok {data : List R} {start stop : Nat} (hle : start ≤ stop) (h : stop ≤ data.length) :
    sliceOf data start stop = pure ((data.take stop).drop start) := by
  unfold sliceOf
  rw [range_ok hle h]
  rfl

theorem inBounds_pure (r : R) : InBounds (pure r : Parse R) := ⟨some r, rfl⟩

theorem inBounds_failure : InBounds (failure : Parse R) := ⟨none, rfl⟩

theorem inBounds_ofOption (r : Option R) : InBounds (ofOption r) := ⟨r, rfl⟩

theorem inBounds_elementAt {data : List R} {i : Nat} (h : i < data.length) :
    InBounds (elementAt data i) := by
  rw [elementAt_lt h]
  exact inBounds_pure _

theorem inBounds_sliceOf {data : List R} {start stop : Nat} (hle : start ≤ stop)
    (h : stop ≤ data.length) : InBounds (sliceOf data start stop) := by
  rw [sliceOf_ok hle h]
  exact inBounds_pure _

theorem InBounds.bind {x : Parse R} {f : R → Parse R'} (hx : InBounds x) (hf : ∀ r, InBounds (f r)) :
    InBounds (x >>= f) := by
  obtain ⟨r, hr⟩ := hx
  unfold InBounds
  rw [OptionT.run_bind, hr]
  cases r with
  | none => exact ⟨none, rfl⟩
  | some r => exact hf r

theorem InBounds.attempt {x : Parse R} (h : InBounds x) : InBounds (attempt x) := by
  obtain ⟨r, hr⟩ := h
  exact ⟨some r, by simp [Parse.attempt, hr, Except.map]⟩

theorem InBounds.getD {x : Parse R} (h : InBounds x) (default : R) : InBounds (getD x default) := by
  obtain ⟨r, hr⟩ := h
  exact ⟨some (r.getD default), by simp [Parse.getD, hr, Except.map]⟩

theorem InBounds.or {x : Parse R} (h : InBounds x) (other : Option R) : InBounds (or x other) := by
  obtain ⟨r, hr⟩ := h
  exact ⟨r.or other, by simp [Parse.or, hr, Except.map]⟩

theorem InBounds.ite {c : Prop} [Decidable c] {x y : Parse R} (hx : c → InBounds x)
    (hy : ¬c → InBounds y) :
    InBounds (if c then x else y) := by
  by_cases h : c
  · rw [if_pos h]
    exact hx h
  · rw [if_neg h]
    exact hy h

theorem InBounds.dite {c : Prop} [Decidable c] {x : c → Parse R} {y : ¬c → Parse R}
    (hx : ∀ h, InBounds (x h)) (hy : ∀ h, InBounds (y h)) : InBounds (if h : c then x h else y h) := by
  by_cases h : c
  · rw [dif_pos h]
    exact hx h
  · rw [dif_neg h]
    exact hy h

end Parse

/-! ## Numbers, the low byte first -/

def le : Nat → Nat → List UInt8
  | 0, _ => []
  | width + 1, n => UInt8.ofNat n :: le width (n / 256)

def fromLe : List UInt8 → Nat
  | [] => 0
  | b :: bs => b.toNat + 256 * fromLe bs

@[simp] theorem length_le (width n : Nat) : (le width n).length = width := by
  induction width generalizing n with
  | zero => rfl
  | succ width ih => simp [le, ih]

theorem fromLe_le (width n : Nat) : fromLe (le width n) = n % 256 ^ width := by
  induction width generalizing n with
  | zero => simp [le, fromLe, Nat.mod_one]
  | succ width ih =>
    have hlow : (UInt8.ofNat n).toNat = n % 256 := UInt8.toNat_ofNat'
    rw [le, fromLe, ih, hlow, Nat.pow_succ, Nat.mul_comm (256 ^ width), Nat.mod_mul]

theorem fromLe_lt : ∀ bytes : List UInt8, fromLe bytes < 256 ^ bytes.length
  | [] => Nat.one_pos
  | b :: bs => by
    have hb := b.toNat_lt
    have hrest := fromLe_lt bs
    rw [fromLe, List.length_cons, Nat.pow_succ]
    omega

end CampusAuth.Lib.Wire
