import CampusAuth.Lib.Machine
import CampusAuth.Lib.Pool
import CampusAuth.Lib.Text

/- The settings file with its cache (`config/service.rs`): `load_settings`, `modify_settings`,
   `modify_settings_tx`, `save_settings` and the part of `reload_inner` that reads the file.

   Each operation is a process; taking a lock, reading the file, reading its modification
   time, replacing the file and storing in the cache are steps of their own, which the
   processes take in any order. Every replacement gives the file a new modification time.
   An operation on the file may fail. -/
namespace CampusAuth.Config
open Lib

variable {D : Type*}

/-- A closure over the settings: the new ones, or the message of a refusal. -/
abbrev Change (D : Type*) := D → Except Text D

/-- The settings held in memory, with the modification time they were read under. -/
structure SettingsCache (D : Type*) where
  data : Option D := none
  mtime : Option Nat := none

/-- What an operation does with the settings lock held. -/
inductive LockedWork (D : Type*) where
  | change (f : Change D)
  | save (data : D)

/-- What settings are loaded for. -/
inductive LoadFor (D : Type*) where
  | caller
  /-- The lock is held. -/
  | change (f : Change D)

/-- Where an operation stands: what it does next. -/
inductive SettingsStage (D : Type*) where
  | locking (work : LockedWork D)
  | stating (k : LoadFor D)
  | checking (k : LoadFor D) (mtime : Option Nat)
  | reading (k : LoadFor D) (mtime : Option Nat)
  /-- The file could not be read. -/
  | recalling (k : LoadFor D)
  | storing (k : LoadFor D) (mtime : Option Nat) (data : D)
  /-- Writes what the closure made of the settings. -/
  | writing (f : Change D) (new : D)
  | statingNew (data : D)
  | storingNew (data : D) (mtime : Option Nat)
  | lockingReload
  | rereading
  | restating (data : Option D)
  | restoring (data : D) (mtime : Option Nat)
  | finishing
  | done

/-- An operation of the service. -/
inductive SettingsOp (D : Type*) where
  | load
  | modify (f : D → D)
  | modifyTx (f : Change D)
  | save (data : D)
  | reload

def SettingsOp.start : SettingsOp D → SettingsStage D
  | .load => .stating .caller
  | .modify f => .locking (.change fun d => .ok (f d))
  | .modifyTx f => .locking (.change f)
  | .save data => .locking (.save data)
  | .reload => .lockingReload

structure SettingsStore (D : Type*) where
  file : D
  mtime : Nat := 0
  cache : SettingsCache D := {}
  settingsLock : Option Nat := none
  reloadLock : Option Nat := none
  stages : Pool (SettingsStage D) := []

inductive SettingsEvent (D : Type*) where
  | start (op : SettingsOp D)
  /-- The operation takes its next step; `ok` tells whether the file could be used. -/
  | turn (id : Nat) (ok : Bool := true)

inductive SettingsEffect (D : Type*) where
  /-- The file was replaced by what the closure made of it. -/
  | committed (f : Change D)
  | loaded (data : D)

namespace SettingsStore
variable [Inhabited D] (s : SettingsStore D) (id : Nat)

def goTo (stage : SettingsStage D) : SettingsStore D := { s with stages := s.stages.set id stage }

/-- The operation ends and lets go of the settings lock. -/
def unlock : SettingsStore D := { s.goTo id .done with settingsLock := none }

/-- The settings are loaded: they are returned, or changed under the lock. -/
def finishLoad (k : LoadFor D) (data : D) : SettingsStore D × List (SettingsEffect D) :=
  match k with
  | .caller => (s.goTo id .done, [.loaded data])
  | .change f =>
    match f data with
    | .error _ => (s.unlock id, [])
    | .ok new => (s.goTo id (.writing f new), [])

/-- The modification time of the file, when it can be read. -/
def stat (ok : Bool) : Option Nat := if ok then some s.mtime else none

def turn (ok : Bool) : SettingsStage D → Option (SettingsStore D × List (SettingsEffect D))
  | .locking work =>
    if s.settingsLock.isSome then none
    else
      let s := { s with settingsLock := some id }
      match work with
      | .change f => some (s.goTo id (.stating (.change f)), [])
      | .save data => some (s.goTo id (.writing (fun _ => .ok data) data), [])
  | .stating k => some (s.goTo id (.checking k (s.stat ok)), [])
  | .checking k mtime =>
    match s.cache.data, s.cache.mtime with
    | some data, some cached =>
      if some cached = mtime then some (s.finishLoad id k data)
      else some (s.goTo id (.reading k mtime), [])
    | _, _ => some (s.goTo id (.reading k mtime), [])
  | .reading k mtime =>
    some (s.goTo id (if ok then .storing k mtime s.file else .recalling k), [])
  | .recalling k => some (s.finishLoad id k (s.cache.data.getD default))
  | .storing k mtime data =>
    some ({ s with cache := { data := some data, mtime } }.finishLoad id k data)
  | .writing f new =>
    if ok then
      some ({ s.goTo id (.statingNew new) with file := new, mtime := s.mtime + 1 }, [.committed f])
    else some (s.unlock id, [])
  | .statingNew data => some (s.goTo id (.storingNew data (s.stat ok)), [])
  | .storingNew data mtime =>
    some ({ s with cache := { data := some data, mtime } }.unlock id, [])
  | .lockingReload =>
    if s.reloadLock.isSome then none
    else some ({ s with reloadLock := some id }.goTo id .rereading, [])
  | .rereading => some (s.goTo id (.restating (if ok then some s.file else none)), [])
  | .restating none => some (s.goTo id .finishing, [])
  | .restating (some data) => some (s.goTo id (.restoring data (s.stat ok)), [])
  | .restoring data mtime =>
    some ({ s with cache := { data := some data, mtime } }.goTo id .finishing, [])
  | .finishing => some ({ s.goTo id .done with reloadLock := none }, [])
  | .done => none

def step : SettingsEvent D → Option (SettingsStore D × List (SettingsEffect D))
  | .start op => some ({ s with stages := s.stages ++ [op.start] }, [])
  | .turn id ok =>
    match s.stages[id]? with
    | none => none
    | some stage => s.turn id ok stage

end SettingsStore

def settingsMachine [Inhabited D] :
    Machine (SettingsStore D) (SettingsEvent D) (SettingsEffect D) :=
  ⟨SettingsStore.step⟩

/-- The service as it was set up: the cache holds the file. -/
def SettingsStore.init (file : D) : SettingsStore D :=
  { file, cache := { data := some file, mtime := some 0 } }

/-- Whenever the cached time is the file's, the cached settings are the file's contents. -/
def SettingsStore.Coherent (s : SettingsStore D) : Prop :=
  ∀ data, s.cache.mtime = some s.mtime → s.cache.data = some data → data = s.file

/-- The closures that were committed, in the order of their writes. -/
def commits (os : List (SettingsEffect D)) : List (Change D) :=
  os.filterMap fun
    | .committed f => some f
    | .loaded _ => none

/-- `d'` is what the closures make of `d`, one after the other. -/
inductive Composes : D → List (Change D) → D → Prop
  | nil (d : D) : Composes d [] d
  | snoc {d d₁ d₂ : D} {fs : List (Change D)} {f : Change D} :
      Composes d fs d₁ → f d₁ = .ok d₂ → Composes d (fs ++ [f]) d₂

end CampusAuth.Config
