import CampusAuth.Lib.Serde
import Mathlib.Data.List.Forall2

/- The kinds of values that a derived deserializer with defaults reads, as data.

   `Kind.read` gives what is read in the form in which it is written again: an object has all
   its fields, in the order of the struct, and nothing else. What has been read reads as itself
   (`read_read`), and so do the defaults (`read_default`). -/
namespace CampusAuth.Lib

inductive Kind where
  | bool (d : Bool)
  /-- A number below `limit`. -/
  | uint (limit d : Nat)
  | text (d : String)
  | texts (d : List String)
  /-- From texts to texts. -/
  | textMap (d : List (String × String))
  | enum (variants : List String) (d : String)
  /-- A struct; what is left out of its object has its default. -/
  | struct (fields : List (String × Kind))

namespace Kind
open Json (asStr)

mutual

def default : Kind → Json
  | .bool d => .bool d
  | .uint _ d => .number (toString d)
  | .text d => .str d
  | .texts d => .arr (d.map .str)
  | .textMap d => .obj (d.map fun entry => (entry.1, .str entry.2))
  | .enum _ d => .str d
  | .struct fields => .obj (defaults fields)

def defaults : List (String × Kind) → List (String × Json)
  | [] => []
  | (name, k) :: fields => (name, k.default) :: defaults fields

end

mutual

def read : Kind → Json → Option Json
  | .bool _, j => if j.isBoolean then some j else none
  | .uint limit _, j => if j.asU64.any (· < limit) then some j else none
  | .text _, j => if j.asStr.isSome then some j else none
  | .texts _, j => (j.readVec asStr).map fun _ => j
  | .textMap _, .obj members =>
    if members.all fun m => m.2.asStr.isSome then some (.obj members) else none
  | .textMap _, _ => none
  | .enum variants _, j =>
    j.readVariant.bind fun s => if variants.contains s then some (.str s) else none
  | .struct fields, j =>
    (j.fields (fields.map Prod.fst)).bind fun members => (readMembers fields members).map .obj

/-- The fields of a struct from the members that are given. -/
def readMembers : List (String × Kind) → List (String × Json) → Option (List (String × Json))
  | [], _ => some []
  | (name, k) :: fields, members =>
    (match members.lookup name with
      | some j => k.read j
      | none => some k.default).bind fun v =>
        (readMembers fields members).map fun rest => (name, v) :: rest

end

/-- What is read of a member that may be missing. -/
def readFrom (k : Kind) : Option Json → Option Json
  | some j => k.read j
  | none => some k.default

theorem readMembers_cons (name : String) (k : Kind) (fields : List (String × Kind))
    (members : List (String × Json)) :
    readMembers ((name, k) :: fields) members =
      (k.readFrom (members.lookup name)).bind fun v =>
        (readMembers fields members).map fun rest => (name, v) :: rest := by
  unfold readFrom
  rw [readMembers]

theorem readMembers_cons_eq {name : String} {k : Kind} {fields : List (String × Kind)}
    {members vs : List (String × Json)} (h : readMembers ((name, k) :: fields) members = some vs) :
    ∃ v rest, k.readFrom (members.lookup name) = some v ∧ readMembers fields members = some rest ∧
      vs = (name, v) :: rest := by
  rw [readMembers_cons] at h
  obtain ⟨v, hv, h⟩ := Option.bind_eq_some_iff.mp h
  obtain ⟨rest, hrest, rfl⟩ := Option.map_eq_some_iff.mp h
  exact ⟨v, rest, hv, hrest, rfl⟩

/-- A field is what is read of its member. -/
theorem lookup_readMembers {fields : List (String × Kind)} {members vs : List (String × Json)}
    (h : readMembers fields members = some vs) (name : String) :
    vs.lookup name = (fields.lookup name).bind fun k => k.readFrom (members.lookup name) := by
  induction fields generalizing vs with
  | nil =>
    cases h
    rfl
  | cons field fields ih =>
    obtain ⟨first, k⟩ := field
    obtain ⟨v, rest, hv, hrest, rfl⟩ := readMembers_cons_eq h
    rw [lookup_cons_ite, lookup_cons_ite]
    by_cases heq : name = first
    · rw [if_pos heq, if_pos heq, Option.bind_some, heq, hv]
    · rw [if_neg heq, if_neg heq, ih hrest]

/-! ## Reading again -/

mutual

/-- The names are different and the defaults are of their kinds. -/
def sound : Kind → Bool
  | .uint limit d => decide (d < limit) && (Json.number (toString d)).asU64 == some d
  | .enum variants d => variants.contains d
  | .struct fields => decide (fields.map Prod.fst).Nodup && fieldsSound fields
  | _ => true

def fieldsSound : List (String × Kind) → Bool
  | [] => true
  | (_, k) :: fields => k.sound && fieldsSound fields

end

/-- The values read as themselves, field by field. -/
abbrev Settled : List (String × Kind) → List (String × Json) → Prop :=
  List.Forall₂ fun field v => field.1 = v.1 ∧ field.2.read v.2 = some v.2

theorem Settled.names {fields : List (String × Kind)} {vs : List (String × Json)}
    (h : Settled fields vs) : fields.map Prod.fst = vs.map Prod.fst := by
  induction h with
  | nil => rfl
  | cons hv _ ih => rw [List.map_cons, List.map_cons, ih, hv.1]

theorem Settled.readMembers {fields : List (String × Kind)} {vs members : List (String × Json)}
    (h : Settled fields vs) (hthere : ∀ m ∈ vs, members.lookup m.1 = some m.2) :
    readMembers fields members = some vs := by
  induction h with
  | nil => rfl
  | @cons field v fields vs hv _ ih =>
    obtain ⟨name, k⟩ := field
    obtain ⟨rfl, hread⟩ := hv
    rw [readMembers_cons, hthere v List.mem_cons_self]
    rw [ih fun m hm => hthere m (List.mem_cons_of_mem _ hm)]
    show ((k.read v.2).bind fun w => (some vs).map fun rest => (v.1, w) :: rest) = _
    rw [hread]
    rfl

/-- A struct whose fields are settled reads as itself. -/
theorem Settled.read {fields : List (String × Kind)} {vs : List (String × Json)}
    (h : Settled fields vs) (hnames : (fields.map Prod.fst).Nodup) :
    (Kind.struct fields).read (.obj vs) = some (.obj vs) := by
  rw [h.names] at hnames
  have hself : Kind.readMembers fields vs = some vs :=
    h.readMembers fun m hm => lookup_of_mem hnames hm
  rw [Kind.read]
  show (Kind.readMembers fields vs).map Json.obj = _
  rw [hself]
  rfl

theorem mapM_str (d : List String) : (d.map Json.str).mapM asStr = some d := by
  induction d with
  | nil => rfl
  | cons s d ih =>
    rw [List.map_cons, List.mapM_cons, ih]
    rfl

mutual

theorem read_default : ∀ {k : Kind}, k.sound = true → k.read k.default = some k.default
  | .bool _, _ => rfl
  | .uint limit d, h => by
    rw [sound, Bool.and_eq_true, decide_eq_true_eq, beq_iff_eq] at h
    rw [default, read, h.2]
    simp [h.1]
  | .text _, _ => rfl
  | .texts d, _ => by
    rw [default, read]
    show ((d.map Json.str).mapM asStr).map _ = _
    rw [mapM_str]
    rfl
  | .textMap d, _ => by
    rw [default, read, if_pos]
    simp [asStr]
  | .enum variants d, h => by
    rw [sound] at h
    rw [default, read]
    show (if variants.contains d then some (Json.str d) else none) = _
    rw [if_pos h]
  | .struct fields, h => by
    rw [sound, Bool.and_eq_true, decide_eq_true_eq] at h
    rw [default]
    exact (settled_defaults h.2).read h.1

theorem settled_defaults : ∀ {fields : List (String × Kind)}, fieldsSound fields = true →
    Settled fields (defaults fields)
  | [], _ => .nil
  | (_, _) :: fields, h => by
    rw [fieldsSound, Bool.and_eq_true] at h
    exact .cons ⟨rfl, read_default h.1⟩ (settled_defaults h.2)

end

mutual

theorem read_read : ∀ {k : Kind} {j v : Json}, k.sound = true → k.read j = some v →
    k.read v = some v
  | .bool _, j, v, _, h => by
    rw [read] at h
    split at h
    next hb =>
      cases h
      rw [read, if_pos hb]
    · cases h
  | .uint limit _, j, v, _, h => by
    rw [read] at h
    split at h
    next hb =>
      cases h
      rw [read, if_pos hb]
    · cases h
  | .text _, j, v, _, h => by
    rw [read] at h
    split at h
    next hb =>
      cases h
      rw [read, if_pos hb]
    · cases h
  | .texts _, j, v, _, h => by
    rw [read] at h
    obtain ⟨texts, htexts, rfl⟩ := Option.map_eq_some_iff.mp h
    rw [read, htexts]
    rfl
  | .textMap _, .obj members, v, _, h => by
    rw [read] at h
    split at h
    next hb =>
      cases h
      rw [read, if_pos hb]
    · cases h
  | .enum variants _, j, v, _, h => by
    rw [read] at h
    obtain ⟨s, -, h⟩ := Option.bind_eq_some_iff.mp h
    split at h
    next hb =>
      cases h
      rw [read]
      show (if variants.contains s then some (Json.str s) else none) = _
      rw [if_pos hb]
    · cases h
  | .struct fields, j, v, hsound, h => by
    rw [sound, Bool.and_eq_true, decide_eq_true_eq] at hsound
    rw [read] at h
    obtain ⟨members, -, h⟩ := Option.bind_eq_some_iff.mp h
    obtain ⟨vs, hvs, rfl⟩ := Option.map_eq_some_iff.mp h
    exact (settled_of_read hsound.2 hvs).read hsound.1

theorem settled_of_read : ∀ {fields : List (String × Kind)} {members vs : List (String × Json)},
    fieldsSound fields = true → readMembers fields members = some vs → Settled fields vs
  | [], _, _, _, h => by
    cases h
    exact .nil
  | (name, k) :: fields, members, vs, hsound, h => by
    rw [fieldsSound, Bool.and_eq_true] at hsound
    obtain ⟨v, rest, hv, hrest, rfl⟩ := readMembers_cons_eq h
    refine .cons ⟨rfl, ?_⟩ (settled_of_read hsound.2 hrest)
    unfold readFrom at hv
    split at hv
    · exact read_read hsound.1 hv
    · cases hv
      exact read_default hsound.1

end

/-! ## Fields of what is read -/

theorem read_struct_eq {fields : List (String × Kind)} {j v : Json}
    (h : (Kind.struct fields).read j = some v) :
    ∃ members vs, j.fields (fields.map Prod.fst) = some members ∧ v = .obj vs ∧
      ∀ name, vs.lookup name =
        (fields.lookup name).bind fun k => k.readFrom (members.lookup name) := by
  rw [read] at h
  obtain ⟨members, hmembers, h⟩ := Option.bind_eq_some_iff.mp h
  obtain ⟨vs, hvs, rfl⟩ := Option.map_eq_some_iff.mp h
  exact ⟨members, vs, hmembers, rfl, lookup_readMembers hvs⟩

/-- A member of a document of a struct, whichever form it has. -/
def member (fields : List (String × Kind)) (name : String) (j : Json) : Option Json :=
  (j.fields (fields.map Prod.fst)).bind (·.lookup name)

theorem lookup_defaults (fields : List (String × Kind)) (name : String) :
    (defaults fields).lookup name = (fields.lookup name).map default := by
  induction fields with
  | nil => rfl
  | cons field fields ih =>
    obtain ⟨first, k⟩ := field
    rw [defaults, lookup_cons_ite, lookup_cons_ite, ih]
    split <;> rfl

/-- A field of a struct that may be missing. -/
theorem get_of_readFrom {fields : List (String × Kind)} {o : Option Json} {v : Json}
    (h : (Kind.struct fields).readFrom o = some v) {name : String} {k : Kind}
    (hk : fields.lookup name = some k) : v.get name = k.readFrom (o.bind (member fields name)) := by
  cases o with
  | none =>
    cases h
    rw [default]
    show (defaults fields).lookup name = _
    rw [lookup_defaults, hk]
    rfl
  | some j =>
    obtain ⟨members, vs, hmembers, rfl, hlookup⟩ := read_struct_eq h
    show vs.lookup name = k.readFrom (member fields name j)
    rw [hlookup, hk, member, hmembers]
    rfl

theorem uint_readFrom {limit d : Nat} {o : Option Json} {v : Json}
    (hsound : (Kind.uint limit d).sound = true) (h : (Kind.uint limit d).readFrom o = some v) :
    ∃ n, v.asU64 = some n ∧ n < limit ∧ (o = none → n = d) ∧ ∀ j, o = some j → j.asU64 = some n := by
  rw [sound, Bool.and_eq_true, decide_eq_true_eq, beq_iff_eq] at hsound
  unfold readFrom at h
  split at h
  next j =>
    rw [read] at h
    split at h
    next hlt =>
      cases h
      obtain ⟨n, hn, hlt⟩ := (Option.any_eq_true _ _).mp hlt
      exact ⟨n, hn, of_decide_eq_true hlt, nofun, fun j' hj => by cases hj; exact hn⟩
    · cases h
  · cases h
    exact ⟨d, hsound.2, hsound.1, fun _ => rfl, nofun⟩

/-- An object that reads as itself has the fields, which read as themselves, and no others. -/
structure HasFields (fields : List (String × Kind)) (vs : List (String × Json)) : Prop where
  only : ∀ name, fields.lookup name = none → vs.lookup name = none
  field : ∀ name k, fields.lookup name = some k → ∃ v, vs.lookup name = some v ∧ k.read v = some v

/-- Reading the fields again changes none. -/
theorem HasFields.same {fields : List (String × Kind)} {vs : List (String × Json)}
    (h : HasFields fields vs) (name : String) :
    (fields.lookup name).bind (fun k => k.readFrom (vs.lookup name)) = vs.lookup name := by
  cases hfield : fields.lookup name with
  | none => exact (h.only name hfield).symm
  | some k =>
    obtain ⟨v, hv, hread⟩ := h.field name k hfield
    rw [hv]
    exact hread

theorem hasFields_of_read {fields : List (String × Kind)} {v : Json}
    (h : (Kind.struct fields).read v = some v) : ∃ vs, v = .obj vs ∧ HasFields fields vs := by
  obtain ⟨members, vs, hmembers, rfl, hlookup⟩ := read_struct_eq h
  cases hmembers
  refine ⟨members, rfl, ⟨fun name hname => ?_, fun name k hk => ?_⟩⟩
  · rw [hlookup, hname]
    rfl
  · have hself := hlookup name
    rw [hk, Option.bind_some] at hself
    cases hget : members.lookup name with
    | none =>
      rw [hget] at hself
      cases hself
    | some v =>
      rw [hget] at hself
      exact ⟨v, rfl, hself.symm⟩

end Kind
end CampusAuth.Lib
