import CampusAuth.Lib.Assoc
import Mathlib.Data.List.Nodup

/- JSON values as `serde_json` keeps them: an object is the list of its members. -/
namespace CampusAuth.Lib

inductive Json where
  | null
  | bool (b : Bool)
  | number (literal : String)
  | str (s : String)
  | arr (items : List Json)
  | obj (members : List (String × Json))

/-- The member of an object; nothing for any other value. -/
def Json.get (name : String) : Json → Option Json
  | .obj members => members.lookup name
  | _ => none

def Json.asStr : Json → Option String
  | .str s => some s
  | _ => none

def Json.asArray : Json → Option (List Json)
  | .arr items => some items
  | _ => none

/-- Writes a member of an object: in its place when it is there, else at the end. -/
def setMember (members : List (String × Json)) (name : String) (v : Json) :
    List (String × Json) :=
  if members.any (·.1 == name) then
    members.map fun m => if m.1 == name then (name, v) else m
  else members ++ [(name, v)]

/-- Takes a member out of an object. -/
def removeMember (members : List (String × Json)) (name : String) : List (String × Json) :=
  members.filter (·.1 ≠ name)

/-! ## Objects in place: any other value stays as it is -/

namespace Json

def insert (j : Json) (name : String) (v : Json) : Json :=
  match j with
  | .obj members => .obj (setMember members name v)
  | j => j

def remove (name : String) : Json → Json
  | .obj members => .obj (removeMember members name)
  | j => j

/-- Changes a member that is there. -/
def update (name : String) (f : Json → Json) : Json → Json
  | .obj members => .obj (members.map fun m => (m.1, if m.1 = name then f m.2 else m.2))
  | j => j

def isObject : Json → Bool
  | .obj _ => true
  | _ => false

def isBoolean : Json → Bool
  | .bool _ => true
  | _ => false

/-- A text member; empty when it is missing or no text. -/
def text (j : Json) (name : String) : String := ((j.get name).bind asStr).getD ""

theorem lookup_setMember (members : List (String × Json)) (name key : String) (v : Json) :
    (setMember members name v).lookup key = if key = name then some v else members.lookup key := by
  unfold setMember
  split
  next hthere =>
    have hmap : (members.map fun m => if m.1 == name then (name, v) else m) =
        members.map fun m => (m.1, if m.1 = name then v else m.2) := by
      refine List.map_congr_left fun m _ => ?_
      by_cases heq : m.1 = name
      · simp [heq]
      · simp [heq]
    rw [hmap, lookup_map_key members (fun k x => if k = name then v else x)]
    by_cases hkey : key = name
    · subst hkey
      obtain ⟨x, hx⟩ := Option.isSome_iff_exists.mp (lookup_isSome_of_any hthere)
      rw [hx, if_pos rfl, Option.map_some, if_pos rfl]
    · rw [if_neg hkey]
      simp [hkey]
  next hmissing =>
    rw [lookup_append_ite]
    by_cases hkey : key = name
    · rw [hkey, lookup_eq_none_of_not_any (Bool.eq_false_iff.mpr hmissing), if_pos rfl,
        Option.none_or]
    · rw [if_neg hkey, Option.or_none, if_neg hkey]

theorem nodup_setMember {members : List (String × Json)} (name : String) (v : Json)
    (h : (members.map Prod.fst).Nodup) : ((setMember members name v).map Prod.fst).Nodup := by
  unfold setMember
  split
  · have hsame : (members.map fun m => if m.1 == name then (name, v) else m).map Prod.fst =
        members.map Prod.fst := by
      rw [List.map_map]
      refine List.map_congr_left fun m _ => ?_
      show (if m.1 == name then (name, v) else m).1 = m.1
      split
      next heq => exact (eq_of_beq heq).symm
      · rfl
    rw [hsame]
    exact h
  next hnew =>
    rw [List.map_append, List.nodup_append]
    refine ⟨h, List.nodup_singleton _, fun a ha b hb heq => hnew ?_⟩
    cases List.mem_singleton.mp hb
    obtain ⟨m, hm, rfl⟩ := List.mem_map.mp ha
    exact List.any_eq_true.mpr ⟨m, hm, beq_iff_eq.mpr heq⟩

theorem get_insert (j : Json) (name key : String) (v : Json) :
    (j.insert name v).get key = if j.isObject ∧ key = name then some v else j.get key := by
  cases j with
  | obj members =>
    show (setMember members name v).lookup key = _
    rw [lookup_setMember]
    simp [isObject, get]
  | null | bool | number | str | arr => simp [insert, isObject]

theorem get_insert_ne (j : Json) {name key : String} (v : Json) (h : key ≠ name) :
    (j.insert name v).get key = j.get key := by
  rw [get_insert, if_neg (fun hand => h hand.2)]

theorem get_remove (j : Json) (name key : String) :
    (j.remove name).get key = if key = name then none else j.get key := by
  cases j with
  | obj members => exact lookup_filter_ne members key name
  | null | bool | number | str | arr => exact (ite_self none).symm

theorem text_cons (members : List (String × Json)) (name key : String) (v : Json) :
    (Json.obj ((name, v) :: members)).text key =
      if key = name then v.asStr.getD "" else (Json.obj members).text key := by
  show (((((name, v) :: members).lookup key)).bind asStr).getD "" = _
  rw [lookup_cons_ite]
  split <;> rfl

theorem get_foldl_remove (names : List String) (j : Json) (key : String) :
    (names.foldl (fun j name => j.remove name) j).get key =
      if key ∈ names then none else j.get key := by
  induction names generalizing j with
  | nil => simp
  | cons name names ih =>
    rw [List.foldl_cons, ih, get_remove]
    by_cases hkey : key = name
    · subst hkey
      simp
    · simp [hkey]

end Json
end CampusAuth.Lib
