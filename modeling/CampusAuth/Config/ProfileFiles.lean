import CampusAuth.Config.Transactions

/- The profile files and the active profile (`config/service.rs`, `config/profiles.rs`,
   `web/routes/config.rs`): creating, saving and deleting profiles, switching to one, and
   settings patches that name one.

   Each operation is a process; what it does between two waits for a lock or two looks at the
   disk is a step of its own. The settings are read and written as the file holds them: under
   the settings lock a load gives the file. A write may fail. -/
namespace CampusAuth.Config
open Lib

variable {P : Type*}

/-- What an operation does with the profiles lock held. -/
inductive ProfileWork (P : Type*) where
  | create (profile : ProfileData P)
  | save (profile : ProfileData P)
  | modify (id : String) (f : ProfileData P → Except Text (ProfileData P))
  | delete (id : String)
  /-- A patch of the profile and the settings; `activate` when it names the active profile. -/
  | both (id : String) (f : ProfileData P → Except Text (ProfileData P)) (activate : Bool)

/-- Where an operation stands: what it does next. -/
inductive ProfileStage (P : Type*) where
  | locking (work : ProfileWork P)
  | checkingFree (profile : ProfileData P)
  | creating (profile : ProfileData P)
  | saving (profile : ProfileData P)
  | loading (id : String) (f : ProfileData P → Except Text (ProfileData P))
  | modifying (profile : ProfileData P)
  | checkingThere (id : String)
  | readingActive (id : String)
  | lockingDefault (id : String)
  | settingDefault (id : String)
  | removing (id : String)
  | loadingBoth (id : String) (f : ProfileData P → Except Text (ProfileData P)) (activate : Bool)
  | lockingBoth (profile old : ProfileData P) (activate : Bool)
  | writingBoth (profile old : ProfileData P) (activate : Bool)
  | patchingBoth (profile old : ProfileData P) (activate : Bool)
  | restoringBoth (old : ProfileData P)
  /-- `switch_profile` looks for the profile. -/
  | checkingSwitch (id : String)
  /-- A settings patch loads the profile it names. -/
  | checkingPatch (id : String)
  | lockingSettings (id : String)
  | activating (id : String)
  | done

inductive ProfileOp (P : Type*) where
  | create (profile : ProfileData P)
  | save (profile : ProfileData P)
  | modify (id : String) (f : ProfileData P → Except Text (ProfileData P))
  | delete (id : String)
  | switch (id : String)
  | patch (id : String)
  | patchBoth (id : String) (f : ProfileData P → Except Text (ProfileData P)) (activate : Bool)

/-- The first step behind the checks of the arguments. -/
def ProfileOp.start : ProfileOp P → ProfileStage P
  | .create profile => if isValidProfileId profile.id then .locking (.create profile) else .done
  | .save profile => if isValidProfileId profile.id then .locking (.save profile) else .done
  | .modify id f => if isValidProfileId id then .locking (.modify id f) else .done
  | .delete id =>
    if !isValidProfileId id then .done
    else if id = "default" then .done
    else .locking (.delete id)
  | .switch id => if isValidProfileId id then .checkingSwitch id else .done
  | .patch id => if id.toList.isEmpty then .done else .checkingPatch id
  | .patchBoth id f activate =>
    if isValidProfileId id then .locking (.both id f activate) else .done

/-- The files by their names, and the active profile of the settings. -/
structure ProfileFiles (P : Type*) where
  files : List (String × ProfileData P)
  active : String
  profilesLock : Option Nat := none
  settingsLock : Option Nat := none
  stages : Pool (ProfileStage P) := []

inductive ProfileEvent (P : Type*) where
  | start (op : ProfileOp P)
  /-- The operation takes its next step; `ok` tells whether what it writes is written. -/
  | turn (id : Nat) (ok : Bool := true)

inductive ProfileEffect where
  | begun (pid : Nat)
  | removed (id : String)
  /-- The profile was saved; `back` when its file was not there. -/
  | saved (pid : Nat) (id : String) (back : Bool)
  deriving DecidableEq

namespace ProfileFiles
variable (s : ProfileFiles P) (pid : Nat)

def file (id : String) : Option (ProfileData P) := s.files.lookup id

/-- Writes the file of the profile's own id. -/
def put (profile : ProfileData P) : ProfileFiles P :=
  { s with files := (profile.id, profile) :: s.files.filter (·.1 ≠ profile.id) }

def remove (id : String) : ProfileFiles P := { s with files := s.files.filter (·.1 ≠ id) }

def goTo (stage : ProfileStage P) : ProfileFiles P := { s with stages := s.stages.set pid stage }

/-- The operation ends and lets go of the locks it holds. -/
def finish : ProfileFiles P :=
  { s.goTo pid .done with
    profilesLock := if s.profilesLock = some pid then none else s.profilesLock
    settingsLock := if s.settingsLock = some pid then none else s.settingsLock }

/-- The lock goes to the operation, when it is free. -/
def lockProfiles (stage : ProfileStage P) : Option (ProfileFiles P × List ProfileEffect) :=
  if s.profilesLock.isSome then none
  else some ({ s.goTo pid stage with profilesLock := some pid }, [])

def lockSettings (stage : ProfileStage P) : Option (ProfileFiles P × List ProfileEffect) :=
  if s.settingsLock.isSome then none
  else some ({ s.goTo pid stage with settingsLock := some pid }, [])

/-- The profile is saved, as `save_profile_locked` does it. -/
def savedBy (profile : ProfileData P) : ProfileEffect :=
  .saved pid profile.id (s.file profile.id).isNone

def turn (ok : Bool) : ProfileStage P → Option (ProfileFiles P × List ProfileEffect)
  | .locking (.create profile) => s.lockProfiles pid (.checkingFree profile)
  | .locking (.save profile) => s.lockProfiles pid (.saving profile)
  | .locking (.modify id f) => s.lockProfiles pid (.loading id f)
  | .locking (.delete id) => s.lockProfiles pid (.checkingThere id)
  | .locking (.both id f activate) => s.lockProfiles pid (.loadingBoth id f activate)
  | .checkingFree profile =>
    if (s.file profile.id).isSome then some (s.finish pid, [])
    else some (s.goTo pid (.creating profile), [])
  | .creating profile =>
    if ok then some ((s.put profile).finish pid, []) else some (s.finish pid, [])
  | .saving profile =>
    if ok then some ((s.put profile).finish pid, [s.savedBy pid profile])
    else some (s.finish pid, [])
  | .loading id f =>
    match s.file id with
    | none => some (s.finish pid, [])
    | some old =>
      match f old with
      | .error _ => some (s.finish pid, [])
      | .ok new => some (s.goTo pid (.modifying { new with id }), [])
  | .modifying profile =>
    if ok then some ((s.put profile).finish pid, [s.savedBy pid profile])
    else some (s.finish pid, [])
  | .checkingThere id =>
    if (s.file id).isSome then some (s.goTo pid (.readingActive id), [])
    else some (s.finish pid, [])
  | .readingActive id =>
    some (s.goTo pid (if s.active = id then .lockingDefault id else .removing id), [])
  | .lockingDefault id => s.lockSettings pid (.settingDefault id)
  | .settingDefault id =>
    if ok then
      some ({ s.goTo pid (.removing id) with active := "default", settingsLock := none }, [])
    else some (s.finish pid, [])
  | .removing id =>
    if ok then some ((s.remove id).finish pid, [.removed id]) else some (s.finish pid, [])
  | .loadingBoth id f activate =>
    match s.file id with
    | none => some (s.finish pid, [])
    | some old =>
      match f old with
      | .error _ => some (s.finish pid, [])
      | .ok new => some (s.goTo pid (.lockingBoth { new with id } old activate), [])
  | .lockingBoth profile old activate => s.lockSettings pid (.writingBoth profile old activate)
  | .writingBoth profile old activate =>
    if ok then
      some ((s.put profile).goTo pid (.patchingBoth profile old activate), [s.savedBy pid profile])
    else some (s.finish pid, [])
  | .patchingBoth profile old activate =>
    if ok then
      some ({ s with active := if activate then profile.id else s.active }.finish pid, [])
    else some (s.goTo pid (.restoringBoth old), [])
  | .restoringBoth old =>
    if ok then some ((s.put old).finish pid, [s.savedBy pid old]) else some (s.finish pid, [])
  | .checkingSwitch id =>
    if s.files.any (·.2.id = id) then some (s.goTo pid (.lockingSettings id), [])
    else some (s.finish pid, [])
  | .checkingPatch id =>
    if isValidProfileId id && (s.file id).isSome then some (s.goTo pid (.lockingSettings id), [])
    else some (s.finish pid, [])
  | .lockingSettings id => s.lockSettings pid (.activating id)
  | .activating id =>
    if ok then some ({ s with active := id }.finish pid, []) else some (s.finish pid, [])
  | .done => none

def step : ProfileEvent P → Option (ProfileFiles P × List ProfileEffect)
  | .start op => some ({ s with stages := s.stages ++ [op.start] }, [.begun s.stages.length])
  | .turn pid ok =>
    match s.stages[pid]? with
    | none => none
    | some stage => s.turn pid ok stage

/-- No operation is half way. -/
def Idle : Prop := s.stages.all (fun stage => stage matches .done) = true

instance : Decidable s.Idle := inferInstanceAs (Decidable (_ = true))

end ProfileFiles

def profileMachine : Machine (ProfileFiles P) (ProfileEvent P) ProfileEffect :=
  ⟨ProfileFiles.step⟩

end CampusAuth.Config
