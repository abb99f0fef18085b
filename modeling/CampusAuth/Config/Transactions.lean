import CampusAuth.Config.ProfileId
import CampusAuth.Config.SettingsStore

/- The transactions over the settings file and one profile file (`config/service.rs`):
   `modify_settings_and_profile_tx` and `modify_profile_and_settings_tx`.

   Both write the profile, then the settings, and put the old profile back when the settings
   cannot be written. Every operation on a file may fail. `Atomic` is the law for the two
   files; `commitBoth_atomic_iff` is where it turns on the id the old profile carries, for the
   way back goes to the file of that id. -/
namespace CampusAuth.Config
open Lib

variable {P D : Type*}

/-- A profile: its id and the other fields. -/
structure ProfileData (P : Type*) where
  id : String
  fields : P

/-- What a file holds, with its modification time. -/
structure FileOf (α : Type*) where
  data : α
  mtime : Nat

inductive ConfigError where
  | io (reason : Text)
  | configWriteError (reason : Text)
  | profileNotFound (id : String)
  | invalidProfileId (id : String)
  deriving DecidableEq

def ConfigError.display : ConfigError → Text
  | .io reason => "文件 IO 错误: ".toList ++ reason
  | .configWriteError reason => "配置写入失败: ".toList ++ reason
  | .profileNotFound id => "Profile 不存在: ".toList ++ id.toList
  | .invalidProfileId id => "无效的 Profile ID: ".toList ++ id.toList

/-- The configuration directory with the caches of the service. A cached profile under the
    time of its file is what the file holds. -/
structure ConfigDir (P D : Type*) where
  profiles : String → Option (FileOf (ProfileData P))
  settings : FileOf D
  profileCache : String → Option (FileOf (ProfileData P))
  settingsCache : SettingsCache D
  /-- The latest modification time given to a file. -/
  clock : Nat
  coherent : ∀ id file entry, profiles id = some file → profileCache id = some entry →
    entry.mtime = file.mtime → entry.data = file.data

/-- How the operations on files come out: the reason of a failure. -/
structure TxIo where
  readProfile : Option Text := none
  readSettings : Option Text := none
  writeProfile : Option Text := none
  writeSettings : Option Text := none
  rollback : Option Text := none

namespace ConfigDir
variable (c : ConfigDir P D)

/-- The profiles in the files. -/
def profileData (id : String) : Option (ProfileData P) := (c.profiles id).map (·.data)

/-- What is loaded when the settings file can be read. -/
def loadedSettings : D :=
  match c.settingsCache.data, c.settingsCache.mtime with
  | some data, some mtime => if mtime = c.settings.mtime then data else c.settings.data
  | _, _ => c.settings.data

/-- `load_profile` of a valid id. -/
def loadProfile (id : String) (failure : Option Text) :
    Except ConfigError (ProfileData P) × ConfigDir P D :=
  match hfile : c.profiles id with
  | none => (.error (.profileNotFound id), c)
  | some file =>
    match c.profileCache id with
    | some entry =>
      if entry.mtime = file.mtime then (.ok entry.data, c) else read file hfile
    | none => read file hfile
where
  read (file : FileOf (ProfileData P)) (hfile : c.profiles id = some file) :=
    match failure with
    | some reason => (.error (.io reason), c)
    | none =>
      (.ok file.data,
        { c with
          profileCache := Function.update c.profileCache id (some file)
          coherent := by
            intro j file' entry hfile' hentry hmtime
            by_cases hj : j = id
            · subst hj
              rw [Function.update_self] at hentry
              rw [hfile] at hfile'
              cases hentry
              cases hfile'
              rfl
            · rw [Function.update_of_ne hj] at hentry
              exact c.coherent j file' entry hfile' hentry hmtime })

def loadSettings [Inhabited D] (failure : Option Text) : D × ConfigDir P D :=
  match c.settingsCache.data, c.settingsCache.mtime with
  | some data, some mtime =>
    if mtime = c.settings.mtime then (data, c) else read
  | _, _ => read
where
  read : D × ConfigDir P D :=
    match failure with
    | some _ => (c.settingsCache.data.getD default, c)
    | none =>
      (c.settings.data,
        { c with settingsCache := { data := some c.settings.data, mtime := some c.settings.mtime } })

/-- The profile is in its file and in the cache. -/
def putProfile (profile : ProfileData P) : ConfigDir P D :=
  let file := { data := profile, mtime := c.clock + 1 }
  { c with
    profiles := Function.update c.profiles profile.id (some file)
    profileCache := Function.update c.profileCache profile.id (some file)
    clock := c.clock + 1
    coherent := by
      intro j file' entry hfile hentry hmtime
      by_cases hj : j = profile.id
      · subst hj
        rw [Function.update_self] at hfile hentry
        cases hfile
        cases hentry
        rfl
      · rw [Function.update_of_ne hj] at hfile hentry
        exact c.coherent j file' entry hfile hentry hmtime }

def saveProfileLocked (profile : ProfileData P) (failure : Option Text) :
    Except ConfigError Unit × ConfigDir P D :=
  match failure with
  | some reason => (.error (.io reason), c)
  | none => (.ok (), c.putProfile profile)

def putSettings (data : D) : ConfigDir P D :=
  { c with
    settings := { data, mtime := c.clock + 1 }
    settingsCache := { data := some data, mtime := some (c.clock + 1) }
    clock := c.clock + 1 }

def writeSettingsLocked (data : D) (failure : Option Text) :
    Except ConfigError Unit × ConfigDir P D :=
  match failure with
  | some reason => (.error (.io reason), c)
  | none => (.ok (), c.putSettings data)

/-- Both writes could not be made and the first not taken back. -/
def rollbackFailed (settingsError rollbackError : ConfigError) : ConfigError :=
  .configWriteError ("settings 写入失败（".toList ++ settingsError.display ++
    "），且 Profile 回滚失败（".toList ++ rollbackError.display ++ "）".toList)

/-- What both transactions do once everything is checked. -/
def commitBoth (profile : ProfileData P) (settings : D) (old : ProfileData P) (io : TxIo) :
    Except ConfigError (Except Text Unit) × ConfigDir P D :=
  match c.saveProfileLocked profile io.writeProfile with
  | (.error e, c) => (.error e, c)
  | (.ok (), c) =>
    match c.writeSettingsLocked settings io.writeSettings with
    | (.ok (), c) => (.ok (.ok ()), c)
    | (.error settingsError, c) =>
      -- the way back writes the file of the id that `old` carries
      match c.saveProfileLocked old io.rollback with
      | (.ok (), c) => (.error settingsError, c)
      | (.error rollbackError, c) => (.error (rollbackFailed settingsError rollbackError), c)

variable [Inhabited D]

def modifySettingsAndProfileTx (profile : ProfileData P) (f : Change D) (io : TxIo) :
    Except ConfigError (Except Text Unit) × ConfigDir P D :=
  if !isValidProfileId profile.id then (.error (.invalidProfileId profile.id), c)
  else
    match c.loadProfile profile.id io.readProfile with
    | (.error e, c) => (.error e, c)
    | (.ok old, c) =>
      match f (c.loadSettings io.readSettings).1 with
      | .error msg => (.ok (.error msg), (c.loadSettings io.readSettings).2)
      | .ok new => (c.loadSettings io.readSettings).2.commitBoth profile new old io

def modifyProfileAndSettingsTx (id : String) (profileMerge : ProfileData P → Except Text (ProfileData P))
    (settingsMerge : Option (Change D)) (io : TxIo) :
    Except ConfigError (Except Text Unit) × ConfigDir P D :=
  if !isValidProfileId id then (.error (.invalidProfileId id), c)
  else
    match c.loadProfile id io.readProfile with
    | (.error e, c) => (.error e, c)
    | (.ok old, c) =>
      match profileMerge old with
      | .error msg => (.ok (.error msg), c)
      | .ok new =>
        -- a closure that changes the id does not make the transaction write another file
        let new := { new with id }
        match settingsMerge with
        | some merge =>
          match merge (c.loadSettings io.readSettings).1 with
          | .error msg => (.ok (.error msg), (c.loadSettings io.readSettings).2)
          | .ok settings => (c.loadSettings io.readSettings).2.commitBoth new settings old io
        | none =>
          match c.saveProfileLocked new io.writeProfile with
          | (.error e, c) => (.error e, c)
          | (.ok (), c) => (.ok (.ok ()), c)

/-! ## The law for the two files -/

/-- What a transaction is to do, once everything is checked. -/
structure TxPlan (P D : Type*) where
  /-- The profile in the file. -/
  old : ProfileData P
  new : ProfileData P
  /-- The new settings, when there are any. -/
  settings : Option D

def settingsAndProfilePlan (profile : ProfileData P) (f : Change D) (io : TxIo) :
    Option (TxPlan P D) :=
  if !isValidProfileId profile.id then none
  else
    match c.loadProfile profile.id io.readProfile with
    | (.error _, _) => none
    | (.ok old, c) =>
      match f (c.loadSettings io.readSettings).1 with
      | .error _ => none
      | .ok new => some { old, new := profile, settings := some new }

def profileAndSettingsPlan (id : String)
    (profileMerge : ProfileData P → Except Text (ProfileData P)) (settingsMerge : Option (Change D))
    (io : TxIo) : Option (TxPlan P D) :=
  if !isValidProfileId id then none
  else
    match c.loadProfile id io.readProfile with
    | (.error _, _) => none
    | (.ok old, c) =>
      match profileMerge old with
      | .error _ => none
      | .ok new =>
        match settingsMerge with
        | none => some { old, new := { new with id }, settings := none }
        | some merge =>
          match merge (c.loadSettings io.readSettings).1 with
          | .error _ => none
          | .ok settings => some { old, new := { new with id }, settings := some settings }

omit [Inhabited D]

/-- The files hold the same, and the settings load the same. -/
structure SameAs (before after : ConfigDir P D) : Prop where
  profiles : ∀ id, after.profileData id = before.profileData id
  settings : after.settings.data = before.settings.data
  loaded : after.loadedSettings = before.loadedSettings

/-- The files hold the new profile and the new settings, and so do the caches. -/
structure Committed (before after : ConfigDir P D) (plan : TxPlan P D) : Prop where
  profiles : ∀ id, after.profileData id =
    if id = plan.new.id then some plan.new else before.profileData id
  settings : after.settings.data = plan.settings.getD before.settings.data
  loaded : after.loadedSettings = plan.settings.getD before.loadedSettings

/-- The ends a transaction may have: all of it and `Ok`, nothing of it and an error or a
    refusal, or the error that says that the way back failed. -/
inductive Atomic (before : ConfigDir P D) (plan : Option (TxPlan P D)) :
    Except ConfigError (Except Text Unit) × ConfigDir P D → Prop
  | committed {after : ConfigDir P D} {p : TxPlan P D} :
      plan = some p → Committed before after p → Atomic before plan (.ok (.ok ()), after)
  | unchanged {result : Except ConfigError (Except Text Unit)} {after : ConfigDir P D} :
      result ≠ .ok (.ok ()) → SameAs before after → Atomic before plan (result, after)
  | rollbackFailed {after : ConfigDir P D} (settingsError rollbackError : ConfigError) :
      Atomic before plan (.error (rollbackFailed settingsError rollbackError), after)

/-- Where the way back is taken, the old profile carries the id of the file. -/
def Restorable (plan : Option (TxPlan P D)) (io : TxIo) : Prop :=
  ∀ p, plan = some p → p.settings.isSome → io.writeProfile = none → io.writeSettings.isSome →
    io.rollback = none → p.old.id = p.new.id

/-! ## Loads -/

variable {c}

theorem SameAs.refl (c : ConfigDir P D) : SameAs c c := ⟨fun _ => rfl, rfl, rfl⟩

theorem SameAs.trans {c₁ c₂ c₃ : ConfigDir P D} (h : SameAs c₁ c₂) (h' : SameAs c₂ c₃) :
    SameAs c₁ c₃ :=
  ⟨fun id => (h'.profiles id).trans (h.profiles id), h'.settings.trans h.settings,
    h'.loaded.trans h.loaded⟩

/-- A load changes no file and returns the profile in the file. -/
theorem loadProfile_spec (c : ConfigDir P D) (id : String) (failure : Option Text) :
    SameAs c (c.loadProfile id failure).2 ∧
      ∀ old, (c.loadProfile id failure).1 = .ok old → c.profileData id = some old := by
  have hread : ∀ (file : FileOf (ProfileData P)) (hfile : c.profiles id = some file),
      SameAs c (loadProfile.read c id failure file hfile).2 ∧
        ∀ old, (loadProfile.read c id failure file hfile).1 = .ok old →
          c.profileData id = some old := by
    intro file hfile
    unfold loadProfile.read
    split
    · exact ⟨.refl c, fun _ h => nomatch h⟩
    · refine ⟨⟨fun _ => rfl, rfl, rfl⟩, fun old h => ?_⟩
      cases h
      rw [profileData, hfile]
      rfl
  unfold loadProfile
  split
  · exact ⟨.refl c, fun _ h => nomatch h⟩
  next file hfile =>
    split
    next entry hentry =>
      split
      next hmtime =>
        refine ⟨.refl c, fun old h => ?_⟩
        cases h
        rw [profileData, hfile, c.coherent id file entry hfile hentry hmtime]
        rfl
      · exact hread file hfile
    · exact hread file hfile

theorem loadSettings_same [Inhabited D] (c : ConfigDir P D) (failure : Option Text) :
    SameAs c (c.loadSettings failure).2 := by
  have hread : c.loadedSettings = c.settings.data → SameAs c (loadSettings.read c failure).2 := by
    intro hloaded
    unfold loadSettings.read
    split
    · exact .refl c
    · refine ⟨fun _ => rfl, rfl, ?_⟩
      rw [hloaded]
      exact if_pos rfl
  unfold loadSettings
  split
  next data mtime hdata hmtime =>
    split
    · exact .refl c
    next hne =>
      refine hread ?_
      unfold loadedSettings
      simp only [hdata, hmtime, if_neg hne]
  next hnone =>
    refine hread ?_
    unfold loadedSettings
    split
    next data mtime hdata hmtime => exact absurd hmtime (hnone data mtime hdata)
    · rfl

/-! ## Writes -/

theorem profileData_putProfile (c : ConfigDir P D) (profile : ProfileData P) (id : String) :
    (c.putProfile profile).profileData id =
      if id = profile.id then some profile else c.profileData id := by
  unfold profileData putProfile
  dsimp only
  by_cases h : id = profile.id
  · rw [if_pos h, h, Function.update_self]; rfl
  · rw [if_neg h, Function.update_of_ne h]

theorem loadedSettings_putSettings (c : ConfigDir P D) (data : D) :
    (c.putSettings data).loadedSettings = data := if_pos rfl

/-- The old profile goes back where it was, when it carries the id of its file. -/
theorem same_of_restored {old new : ProfileData P} (hold : c.profileData new.id = some old)
    (hid : old.id = new.id) : SameAs c ((c.putProfile new).putProfile old) := by
  refine ⟨fun id => ?_, rfl, rfl⟩
  rw [profileData_putProfile, profileData_putProfile, hid]
  split
  next h => rw [h, hold]
  · rfl

theorem rollback_ne (e e' : ConfigError) (reason : Text) :
    rollbackFailed e e' ≠ ConfigError.io reason := nofun

/-- **Where the law turns**: on the way back the old profile goes to the file of its own id. -/
theorem commitBoth_atomic_iff {before : ConfigDir P D} {old new : ProfileData P} {settings : D}
    (io : TxIo) (hsame : SameAs before c) (hold : before.profileData new.id = some old) :
    Atomic before (some { old, new, settings := some settings })
        (c.commitBoth new settings old io) ↔
      Restorable (some { old, new, settings := some settings }) io := by
  have hold' : c.profileData new.id = some old := (hsame.profiles new.id).trans hold
  unfold commitBoth saveProfileLocked
  cases hprofile : io.writeProfile with
  | some reason =>
    refine iff_of_true (.unchanged nofun hsame) fun p _ _ hwrite => ?_
    rw [hprofile] at hwrite
    cases hwrite
  | none =>
    unfold writeSettingsLocked
    cases hsettings : io.writeSettings with
    | none =>
      refine iff_of_true (.committed rfl ⟨fun id => ?_, rfl, loadedSettings_putSettings _ _⟩)
        fun p _ _ _ hwrite => ?_
      · rw [← hsame.profiles id]
        exact profileData_putProfile c new id
      · rw [hsettings] at hwrite
        cases hwrite
    | some reason =>
      cases hrollback : io.rollback with
      | some reason' =>
        refine iff_of_true (.rollbackFailed _ _) fun p _ _ _ _ hback => ?_
        rw [hrollback] at hback
        cases hback
      | none =>
        dsimp only
        constructor
        · intro hatomic p hp _ _ _ _
          cases hp
          by_contra hid
          -- the file of the profile keeps the new one
          generalize hafter : (c.putProfile new).putProfile old = after at hatomic
          generalize hresult : (Except.error (ConfigError.io reason) :
            Except ConfigError (Except Text Unit)) = result at hatomic
          cases hatomic with
          | committed => cases hresult
          | rollbackFailed e e' =>
            exact rollback_ne e e' reason (Except.error.inj hresult).symm
          | unchanged _ hunchanged =>
            have hnew := hunchanged.profiles new.id
            rw [← hafter, profileData_putProfile, if_neg (Ne.symm hid), profileData_putProfile,
              if_pos rfl, hold] at hnew
            exact hid (congrArg ProfileData.id (Option.some.inj hnew)).symm
        · intro hrestorable
          have hid : old.id = new.id :=
            hrestorable _ rfl rfl hprofile (by rw [hsettings]; rfl) hrollback
          exact .unchanged nofun (hsame.trans (same_of_restored hold' hid))

/-- A transaction that comes to nothing. -/
theorem atomic_of_refused {before after : ConfigDir P D} {io : TxIo}
    {result : Except ConfigError (Except Text Unit)} (hresult : result ≠ .ok (.ok ()))
    (hsame : SameAs before after) :
    Atomic before none (result, after) ↔ Restorable (none : Option (TxPlan P D)) io :=
  iff_of_true (.unchanged hresult hsame) fun _ h => by cases h

section
variable [Inhabited D]

theorem modifySettingsAndProfileTx_atomic_iff (c : ConfigDir P D) (profile : ProfileData P)
    (f : Change D) (io : TxIo) :
    Atomic c (c.settingsAndProfilePlan profile f io) (c.modifySettingsAndProfileTx profile f io) ↔
      Restorable (c.settingsAndProfilePlan profile f io) io := by
  unfold settingsAndProfilePlan modifySettingsAndProfileTx
  split
  · exact atomic_of_refused nofun (.refl c)
  · obtain ⟨hsame, hloaded⟩ := loadProfile_spec c profile.id io.readProfile
    split
    next heq => rw [heq] at hsame; exact atomic_of_refused nofun hsame
    next old c' heq =>
      rw [heq] at hsame hloaded
      have hsettings : SameAs c (c'.loadSettings io.readSettings).2 :=
        hsame.trans (loadSettings_same c' io.readSettings)
      split
      · exact atomic_of_refused nofun hsettings
      · exact commitBoth_atomic_iff io hsettings (hloaded old rfl)

theorem modifyProfileAndSettingsTx_atomic_iff (c : ConfigDir P D) (id : String)
    (profileMerge : ProfileData P → Except Text (ProfileData P)) (settingsMerge : Option (Change D))
    (io : TxIo) :
    Atomic c (c.profileAndSettingsPlan id profileMerge settingsMerge io)
        (c.modifyProfileAndSettingsTx id profileMerge settingsMerge io) ↔
      Restorable (c.profileAndSettingsPlan id profileMerge settingsMerge io) io := by
  unfold profileAndSettingsPlan modifyProfileAndSettingsTx
  split
  · exact atomic_of_refused nofun (.refl c)
  · obtain ⟨hsame, hloaded⟩ := loadProfile_spec c id io.readProfile
    split
    next heq => rw [heq] at hsame; exact atomic_of_refused nofun hsame
    next old c' heq =>
      rw [heq] at hsame hloaded
      split
      · exact atomic_of_refused nofun hsame
      next new _ =>
        cases settingsMerge with
        | none =>
          -- only the profile is written
          unfold saveProfileLocked
          cases io.writeProfile with
          | some reason =>
            exact iff_of_true (.unchanged nofun hsame) fun p hp hsome => by cases hp; cases hsome
          | none =>
            refine iff_of_true (.committed rfl ⟨fun j => ?_, hsame.settings, hsame.loaded⟩)
              fun p hp hsome => by cases hp; cases hsome
            rw [← hsame.profiles j]
            exact profileData_putProfile c' _ j
        | some merge =>
          have hsettings : SameAs c (c'.loadSettings io.readSettings).2 :=
            hsame.trans (loadSettings_same c' io.readSettings)
          dsimp only
          split
          · exact atomic_of_refused nofun hsettings
          · exact commitBoth_atomic_iff io hsettings (hloaded old rfl)

/-- **Two-file transactions**: both are atomic exactly where the way back, if it is taken, goes
    to the file the old profile came from. -/
theorem transactions_atomic_iff (c : ConfigDir P D) (io : TxIo) :
    (∀ profile f,
      Atomic c (c.settingsAndProfilePlan profile f io)
          (c.modifySettingsAndProfileTx profile f io) ↔
        Restorable (c.settingsAndProfilePlan profile f io) io) ∧
    ∀ id profileMerge settingsMerge,
      Atomic c (c.profileAndSettingsPlan id profileMerge settingsMerge io)
          (c.modifyProfileAndSettingsTx id profileMerge settingsMerge io) ↔
        Restorable (c.profileAndSettingsPlan id profileMerge settingsMerge io) io :=
  ⟨fun profile f => modifySettingsAndProfileTx_atomic_iff c profile f io,
    fun id profileMerge settingsMerge =>
      modifyProfileAndSettingsTx_atomic_iff c id profileMerge settingsMerge io⟩

end

/-- `profiles/dorm.json` holds a profile without an id of its own, which reads as `default`. -/
def sampleDir : ConfigDir Nat Nat :=
  { profiles := fun id => if id = "dorm" then some ⟨⟨"default", 1⟩, 1⟩ else none
    settings := ⟨0, 1⟩
    profileCache := fun _ => none
    settingsCache := {}
    clock := 1
    coherent := by intro _ _ _ _ h; cases h }

/-- The settings cannot be written, and the old profile goes to another file. -/
theorem rollback_misses :
    ¬∀ (c : ConfigDir Nat Nat) (profile : ProfileData Nat) (f : Change Nat) (io : TxIo),
      Atomic c (c.settingsAndProfilePlan profile f io)
        (c.modifySettingsAndProfileTx profile f io) := by
  intro hall
  let io : TxIo := { writeSettings := some [] }
  have hatomic := hall sampleDir ⟨"dorm", 2⟩ .ok io
  rw [modifySettingsAndProfileTx_atomic_iff] at hatomic
  have hplan : sampleDir.settingsAndProfilePlan ⟨"dorm", 2⟩ .ok io =
      some { old := ⟨"default", 1⟩, new := ⟨"dorm", 2⟩, settings := some 0 } := rfl
  have hid : "default" = "dorm" := hatomic _ hplan rfl rfl rfl rfl
  exact absurd hid (by decide)

end ConfigDir
end CampusAuth.Config
