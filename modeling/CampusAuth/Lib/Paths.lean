import Mathlib.Data.List.Infix

/- Paths as their components, and the places they name where nothing on the way is a link. -/
namespace CampusAuth.Lib

inductive Component where
  /-- The name of a drive or a share. -/
  | drive (name : String)
  | rootDir
  | curDir
  | parentDir
  | normal (name : String)
  deriving DecidableEq, Repr

abbrev Path := List Component

/-- A place of the tree: the directories on the way from its root. -/
abbrev Place := List String

def Component.move (place : Place) : Component → Place
  | .drive _ | .rootDir => []
  | .curDir => place
  | .parentDir => place.dropLast
  | .normal name => place ++ [name]

def placeFrom (start : Place) (path : Path) : Place := path.foldl Component.move start

def place (path : Path) : Place := placeFrom [] path

/-- A path put behind another one; one that has a root of its own stands alone. -/
def join (base path : Path) : Path :=
  match path with
  | .drive _ :: _ | .rootDir :: _ => path
  | _ => base ++ path

def startsWith (path base : Path) : Bool := base.isPrefixOf path

/-- The path has no root and never leaves the directory it starts in, `depth` directories
    being open. -/
def staysInside : Nat → Path → Bool
  | _, [] => true
  | depth, .normal _ :: path => staysInside (depth + 1) path
  | depth, .curDir :: path => staysInside depth path
  | 0, .parentDir :: _ => false
  | depth + 1, .parentDir :: path => staysInside depth path
  | _, .drive _ :: _ => false
  | _, .rootDir :: _ => false

/-- A path that is safe to put behind a directory. -/
structure EnclosedPath where
  path : Path
  inside : staysInside 0 path = true

theorem placeFrom_append (start : Place) (base path : Path) :
    placeFrom start (base ++ path) = placeFrom (placeFrom start base) path := List.foldl_append

theorem place_append (base path : Path) : place (base ++ path) = placeFrom (place base) path :=
  placeFrom_append [] base path

/-- By induction on the path: the directories that are open lie below `root`. -/
theorem prefix_placeFrom {root : Place} : ∀ (path : Path) (depth : Nat) (start : Place),
    staysInside depth path = true → root <+: start → root.length + depth ≤ start.length →
      root <+: placeFrom start path
  | [], _, _, _, hroot, _ => hroot
  | .normal name :: path, depth, start, h, hroot, hlen => by
    refine prefix_placeFrom path (depth + 1) (start ++ [name]) h
      (hroot.trans (List.prefix_append ..)) ?_
    rw [List.length_append, List.length_singleton]
    omega
  | .curDir :: path, depth, start, h, hroot, hlen => prefix_placeFrom path depth start h hroot hlen
  | .parentDir :: path, 0, start, h, _, _ => by cases h
  | .parentDir :: path, depth + 1, start, h, hroot, hlen => by
    have hkept : root <+: start.dropLast := by
      rw [List.dropLast_eq_take]
      exact List.prefix_take_iff.mpr ⟨hroot, by omega⟩
    refine prefix_placeFrom path depth start.dropLast h hkept ?_
    rw [List.length_dropLast]
    omega
  | .drive _ :: path, _, _, h, _, _ => by simp [staysInside] at h
  | .rootDir :: path, _, _, h, _, _ => by simp [staysInside] at h

/-- Where an enclosed path leads is below the directory it is put behind. -/
theorem prefix_place {path : Path} (h : staysInside 0 path = true) (base : Path) :
    place base <+: place (base ++ path) := by
  rw [place_append]
  exact prefix_placeFrom path 0 _ h (List.prefix_refl _) (Nat.le_refl _)

/-- The start of an enclosed path is enclosed. -/
theorem staysInside_append : ∀ (path rest : Path) (depth : Nat),
    staysInside depth (path ++ rest) = true → staysInside depth path = true
  | [], _, _, _ => by simp [staysInside]
  | .normal _ :: path, rest, depth, h => staysInside_append path rest (depth + 1) h
  | .curDir :: path, rest, depth, h => staysInside_append path rest depth h
  | .parentDir :: path, _, 0, h => by cases h
  | .parentDir :: path, rest, depth + 1, h => staysInside_append path rest depth h
  | .drive _ :: path, _, _, h => by simp [staysInside] at h
  | .rootDir :: path, _, _, h => by simp [staysInside] at h

/-- Without roots and without steps up, a path is enclosed. -/
theorem staysInside_of_plain : ∀ (path : Path) (depth : Nat),
    (∀ c ∈ path, c = .curDir ∨ ∃ name, c = .normal name) → staysInside depth path = true
  | [], _, _ => by simp [staysInside]
  | c :: path, depth, h => by
    have hrest := fun c hc => h c (List.mem_cons_of_mem _ hc)
    rcases h c List.mem_cons_self with rfl | ⟨name, rfl⟩
    · exact staysInside_of_plain path depth hrest
    · exact staysInside_of_plain path (depth + 1) hrest

/-- An enclosed path has no root, so it stays behind what it is put behind. -/
theorem join_of_inside {path : Path} (h : staysInside 0 path = true) (base : Path) :
    join base path = base ++ path := by
  cases path with
  | nil => rfl
  | cons c path =>
    cases c with
    | drive | rootDir => simp [staysInside] at h
    | curDir | parentDir | normal => rfl

end CampusAuth.Lib
