import CampusAuth.Lib.Json
import CampusAuth.Lib.Text

/- How derived deserializers read a JSON value: a struct takes the members of an object by
   name, or the items of an array in the order of its fields; a field that is left out has
   its default; an enumeration is the name of a variant. Nothing is what does not read. -/
namespace CampusAuth.Lib

/-! ## Checks that succeed -/

section
variable {ε α β : Type} {b : β}

theorem bind_eq_ok {x : Except ε α} {f : α → Except ε β} :
    (x >>= f) = .ok b ↔ ∃ a, x = .ok a ∧ f a = .ok b := by
  cases x with
  | ok a => simp [bind, Except.bind]
  | error e => simp [bind, Except.bind]

theorem check_eq_ok {x : Except ε Unit} {f : Unit → Except ε β} :
    (x >>= f) = .ok b ↔ x = .ok () ∧ f () = .ok b := by
  rw [bind_eq_ok]
  exact ⟨fun ⟨_, hx, hf⟩ => ⟨hx, hf⟩, fun ⟨hx, hf⟩ => ⟨(), hx, hf⟩⟩

/-- A check that is not refused goes on. -/
theorem refused_eq_ok {c : Prop} [Decidable c] {e : ε} {f : α → Except ε β} {x : Except ε β} :
    (if c then Except.error e >>= f else x) = .ok b ↔ ¬c ∧ x = .ok b := by
  split
  next hrefused => simp [hrefused, bind, Except.bind]
  next hgoes => simp [hgoes]

/-- The last check. -/
theorem refused_last_eq_ok {c : Prop} [Decidable c] {e : ε} {x : Except ε β} :
    (if c then Except.error e else x) = .ok b ↔ ¬c ∧ x = .ok b := by
  split
  next hrefused => simp [hrefused]
  next hgoes => simp [hgoes]

theorem exists_of_isOk {x : Except ε α} (h : x.isOk = true) : ∃ a, x = .ok a := by
  cases x with
  | ok a => exact ⟨a, rfl⟩
  | error e => cases h

end

namespace Json
variable {α : Type*}

def asU64 : Json → Option Nat
  | .number literal =>
    let digits := literal.toList
    if !digits.isEmpty && digits.all Char.isDigit then
      let n := digits.foldl (fun n c => 10 * n + (c.toNat - '0'.toNat)) 0
      if n < UInt64.size then some n else none
    else none
  | _ => none

def asBool : Json → Option Bool
  | .bool b => some b
  | _ => none

def isNull : Json → Bool
  | .null => true
  | _ => false

/-! ## Readers -/

def readText (j : Json) : Option Text := j.asStr.map String.toList

def readU32 (j : Json) : Option Nat := j.asU64.filter (· < UInt32.size)

def readNumber (float : String → Rat) : Json → Option Rat
  | .number literal => some (float literal)
  | _ => none

def readVec (read : Json → Option α) : Json → Option (List α)
  | .arr items => items.mapM read
  | _ => none

def readOption (read : Json → Option α) : Json → Option (Option α)
  | .null => some none
  | j => (read j).map some

/-- The name of a variant without data: alone, or with `null` in an object. -/
def readVariant : Json → Option String
  | .str s => some s
  | .obj [(s, .null)] => some s
  | _ => none

def readEnum (variants : List (String × α)) (j : Json) : Option α :=
  j.readVariant.bind fun s => variants.lookup s

/-- The fields of a struct: of an object by name, of an array by position. -/
def fields (names : List String) : Json → Option (List (String × Json))
  | .obj members => some members
  | .arr items => if items.length ≤ names.length then some (names.zip items) else none
  | _ => none

/-- A field, or what it is when it is left out. -/
def field (read : Json → Option α) (default : α) (members : List (String × Json))
    (name : String) : Option α :=
  match members.lookup name with
  | some v => read v
  | none => some default

/-! ## What is read is there -/

variable {members : List (String × Json)} {name : String}

/-- A text that is read is the one a look at the document finds. -/
theorem text_of_field {t : Text} (h : field readText [] members name = some t) :
    ((obj members).text name).toList = t := by
  unfold field at h
  show (((members.lookup name).bind asStr).getD "").toList = t
  cases hget : members.lookup name with
  | none =>
    rw [hget] at h
    cases h
    rfl
  | some v =>
    rw [hget] at h
    obtain ⟨s, hs, rfl⟩ := Option.map_eq_some_iff.mp h
    rw [Option.bind_some, hs]
    rfl

/-- A value that may be missing is one that is there and is not `null`. -/
theorem of_optional {read : Json → Option α} {value : Option α}
    (h : field (readOption read) none members name = some value) :
    match ((obj members).get name).filter (fun v => !v.isNull) with
    | some raw => ∃ a, read raw = some a ∧ value = some a
    | none => value = none := by
  unfold field at h
  show match (members.lookup name).filter (fun v => !v.isNull) with
    | some raw => ∃ a, read raw = some a ∧ value = some a
    | none => value = none
  cases hget : members.lookup name with
  | none =>
    rw [hget] at h
    cases h
    rfl
  | some v =>
    rw [hget] at h
    cases v with
    | null => cases h; rfl
    | bool | number | str | arr | obj =>
      obtain ⟨a, ha, rfl⟩ := Option.map_eq_some_iff.mp h
      exact ⟨a, ha, rfl⟩

theorem readVec_eq_nil {read : Json → Option α} {j : Json} {l : List α}
    (h : readVec read j = some l) : l = [] ↔ j.asArray.any List.isEmpty = true := by
  cases j with
  | arr items =>
    cases items with
    | nil =>
      cases h
      exact ⟨fun _ => rfl, fun _ => rfl⟩
    | cons item items =>
      simp only [readVec, List.mapM_cons, Option.bind_eq_bind, Option.bind_eq_some_iff,
        Option.pure_def, Option.some.injEq] at h
      obtain ⟨a, -, as, -, rfl⟩ := h
      simp [asArray]
  | null | bool | number | str | obj => cases h

end Json
end CampusAuth.Lib
