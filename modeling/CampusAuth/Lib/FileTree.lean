import CampusAuth.Lib.Paths

/- A tree of files with links: how a path leads to a place, and what can be removed.

   A link is kept with the place it leads to in the end. What a name is compared by depends on
   the file system: the names in a directory are found as they are written, or by their lower
   case. `removed` is what is left out of a tree where some places cannot be removed: a
   directory stays with what stays in it. -/
namespace CampusAuth.Lib

inductive Node where
  | file (text : String)
  | dir
  | link (target : Place)
  deriving DecidableEq

/-- The files, directories and links by their places; the root is a directory. -/
structure FileTree where
  nodes : List (Place × Node)
  /-- Names are compared without their case. -/
  caseless : Bool
  parents : ∀ e ∈ nodes, e.1 ≠ [] ∧ (e.1.dropLast = [] ∨ nodes.lookup e.1.dropLast = some .dir)

namespace FileTree
variable (t : FileTree)

def node (place : Place) : Option Node :=
  if place = [] then some .dir else t.nodes.lookup place

/-- What of a name is compared. -/
def fold (name : String) : String :=
  if t.caseless then String.ofList (name.toList.map Char.toLower) else name

/-- The names in a directory. -/
def names (place : Place) : List String :=
  t.nodes.filterMap fun e => if e.1.dropLast = place then e.1.getLast? else none

/-- The name in the directory that `name` finds. -/
def find (place : Place) (name : String) : Option String :=
  (t.names place).find? fun own => t.fold own = t.fold name

/-- Where an entry leads: a link to its target, when something is there. -/
def follow (place : Place) : Option Place :=
  match t.node place with
  | some (.link target) => if (t.node target).isSome then some target else none
  | some _ => some place
  | none => none

def enter (place : Place) : Component → Option Place
  | .drive name => (t.find place name).bind fun own => t.follow (place ++ [own])
  | .rootDir => some place
  | .curDir => if t.node place = some .dir then some place else none
  | .parentDir => if t.node place = some .dir then some place.dropLast else none
  | .normal name => (t.find place name).bind fun own => t.follow (place ++ [own])

/-- The place of what the path leads to, links followed. -/
def canonicalize (path : Path) : Option Place := path.foldlM t.enter []

/-- The entry the path names, a link at its end not followed. -/
def locate (path : Path) : Option Place :=
  match path.getLast? with
  | some (.normal name) =>
    (t.canonicalize path.dropLast).bind fun place =>
      (t.find place name).map fun own => place ++ [own]
  | _ => t.canonicalize path

def at? (path : Path) : Option Node := (t.canonicalize path).bind t.node

def exists? (path : Path) : Bool := (t.canonicalize path).isSome

def isFile (path : Path) : Bool :=
  match t.at? path with
  | some (.file _) => true
  | _ => false

/-- What is at the place and below it. -/
def below (place : Place) : List Place := (t.nodes.map Prod.fst).filter (place.isPrefixOf ·)

/-- What goes when everything at the place and below is removed, but the `stuck` places. -/
def removable (stuck : Place → Bool) (place : Place) : List Place :=
  (t.below place).filter fun p => !(t.below p).any stuck

/-! ## Names and places -/

variable {t}

theorem node_of_mem {e : Place × Node} (h : e ∈ t.nodes) : (t.node e.1).isSome := by
  unfold node
  rw [if_neg (t.parents e h).1]
  refine Option.isSome_iff_ne_none.mpr fun hnone => ?_
  have := List.lookup_eq_none_iff.mp hnone e h
  simp at this

theorem mem_nodes_of_node {place : Place} {n : Node} (hne : place ≠ [])
    (h : t.node place = some n) : (place, n) ∈ t.nodes := by
  unfold node at h
  rw [if_neg hne] at h
  obtain ⟨before, after, heq, -⟩ := List.lookup_eq_some_iff.mp h
  rw [heq]
  exact List.mem_append_right _ List.mem_cons_self

theorem mem_names {place : Place} {name : String} :
    name ∈ t.names place ↔ place ++ [name] ∈ t.nodes.map Prod.fst := by
  unfold names
  rw [List.mem_filterMap]
  constructor
  · rintro ⟨e, he, hname⟩
    split at hname
    next hparent =>
      refine List.mem_map.mpr ⟨e, he, ?_⟩
      have hne := (t.parents e he).1
      rw [List.getLast?_eq_some_getLast hne] at hname
      rw [← hparent, ← Option.some.inj hname]
      exact (List.dropLast_append_getLast hne).symm
    next => cases hname
  · intro h
    obtain ⟨e, he, heq⟩ := List.mem_map.mp h
    refine ⟨e, he, ?_⟩
    rw [heq, List.dropLast_concat, if_pos rfl, List.getLast?_concat]

/-- What is above a place that is there, is a directory. -/
theorem dir_of_prefix {p : Place} : ∀ {place : Place} {n : Node}, t.node place = some n →
    p <+: place → p ≠ place → t.node p = some .dir := by
  intro place
  induction place using List.reverseRecOn with
  | nil =>
    intro n _ hpre hne
    exact absurd (List.prefix_nil.mp hpre) hne
  | append_singleton parent name ih =>
    intro n hnode hpre hne
    have hmem := mem_nodes_of_node (by simp) hnode
    have hparent : t.node parent = some .dir := by
      have := (t.parents _ hmem).2
      rw [List.dropLast_concat] at this
      unfold node
      split
      · rfl
      next hroot => exact this.resolve_left hroot
    rcases List.prefix_concat_iff.mp hpre with heq | hpre
    · exact absurd heq hne
    · by_cases heq : p = parent
      · rw [heq, hparent]
      · exact ih hparent hpre heq

theorem mem_below {place p : Place} :
    p ∈ t.below place ↔ p ∈ t.nodes.map Prod.fst ∧ place <+: p := by
  unfold below
  rw [List.mem_filter, List.isPrefixOf_iff_prefix]

theorem removable_below {stuck : Place → Bool} {place p : Place}
    (h : p ∈ t.removable stuck place) : place <+: p :=
  (mem_below.mp (List.mem_filter.mp h).1).2

/-- Where nothing is stuck, everything goes. -/
theorem mem_removable_of_below {place p : Place} (h : p ∈ t.below place) :
    p ∈ t.removable (fun _ => false) place :=
  List.mem_filter.mpr ⟨h, by simp⟩

end FileTree
end CampusAuth.Lib
