import Mathlib.Data.List.TakeWhile
import CampusAuth.Config.ProfileFiles
import CampusAuth.Lib.Pool
import CampusAuth.Lib.Assoc

/- The active profile has its file, and a deleted profile stays deleted, over whole runs.

   The locks keep apart what the operations do with the profile files: an operation with the
   profiles lock may rely on the files it looked at (`StageOk`). Two things are decided outside of
   it: a switch has looked for the profile before it takes the settings lock, and a save has
   begun before it takes the profiles lock. `Undeleted` says of a step that no deletion falls in
   between; the runs at the end are those in which one does. -/
namespace CampusAuth.Config
open Lib

variable {P : Type*}

/-! ## The files -/

namespace ProfileFiles
variable {s t : ProfileFiles P} {pid : Nat}

theorem file_put (s : ProfileFiles P) (profile : ProfileData P) (id : String) :
    (s.put profile).file id = if id = profile.id then some profile else s.file id := by
  show List.lookup id ((profile.id, profile) :: s.files.filter (·.1 ≠ profile.id)) = _
  rw [lookup_cons_ite, lookup_filter_ne]
  split <;> rfl

theorem file_remove (s : ProfileFiles P) (key id : String) :
    (s.remove key).file id = if id = key then none else s.file id :=
  lookup_filter_ne s.files id key

/-- The files every start of the program leaves: the default profile's and the active profile's are
    there, and a file holds the profile of its name. -/
structure Stored (s : ProfileFiles P) : Prop where
  named : ∀ id profile, s.file id = some profile → profile.id = id
  default : (s.file "default").isSome
  active : (s.file s.active).isSome

/-- Before any operation. -/
structure Sound (s : ProfileFiles P) : Prop where
  stored : s.Stored
  unlocked : s.profilesLock = none ∧ s.settingsLock = none
  stages : s.stages = []

theorem Stored.put (hs : s.Stored) (profile : ProfileData P) : (s.put profile).Stored := by
  have hkeep : ∀ id, (s.file id).isSome → ((s.put profile).file id).isSome := by
    intro id hid
    rw [file_put]
    split
    · rfl
    · exact hid
  refine ⟨fun id p hp => ?_, hkeep _ hs.default, hkeep _ hs.active⟩
  rw [file_put] at hp
  split at hp
  next heq => exact Option.some.inj hp ▸ heq.symm
  next => exact hs.named id p hp

theorem Stored.remove (hs : s.Stored) {id : String} (hdefault : id ≠ "default")
    (hactive : s.active ≠ id) : (s.remove id).Stored := by
  refine ⟨fun id' p hp => ?_, ?_, ?_⟩
  · rw [file_remove] at hp
    split at hp
    · cases hp
    · exact hs.named id' p hp
  · rw [file_remove, if_neg (Ne.symm hdefault)]
    exact hs.default
  · show ((s.remove id).file s.active).isSome
    rw [file_remove, if_neg hactive]
    exact hs.active

/-- The active profile becomes one whose file is there. -/
theorem Stored.activate (hs : s.Stored) {id : String} (hid : (s.file id).isSome)
    (hfiles : t.files = s.files) (hactive : t.active = id) : t.Stored := by
  have hfile : ∀ id, t.file id = s.file id := fun id => by unfold file; rw [hfiles]
  refine ⟨fun id' p hp => hs.named id' p (hfile id' ▸ hp), ?_, ?_⟩
  · rw [hfile]
    exact hs.default
  · rw [hactive, hfile]
    exact hid

end ProfileFiles

/-! ## What an operation may rely on -/

/-- Stages with the profiles lock. -/
def ProfileStage.inProfiles : ProfileStage P → Bool
  | .locking _ | .checkingSwitch _ | .checkingPatch _ | .lockingSettings _ | .activating _ | .done =>
    false
  | _ => true

/-- Stages with the settings lock. -/
def ProfileStage.inSettings : ProfileStage P → Bool
  | .settingDefault _ | .writingBoth .. | .patchingBoth .. | .restoringBoth _ | .activating _ => true
  | _ => false

/-- What is known of the profile where the operation stands. -/
def ProfileStage.Relies (s : ProfileFiles P) : ProfileStage P → Prop
  | .locking (.delete id) | .checkingThere id | .readingActive id | .lockingDefault id
  | .settingDefault id => id ≠ "default"
  | .removing id => id ≠ "default" ∧ s.active ≠ id
  | .modifying profile => (s.file profile.id).isSome
  | .lockingBoth profile old _ | .writingBoth profile old _ | .patchingBoth profile old _ =>
    profile.id = old.id ∧ (s.file old.id).isSome
  | .restoringBoth old => (s.file old.id).isSome
  | _ => True

structure ProfileOk (s : ProfileFiles P) (pid : Nat) (stage : ProfileStage P) : Prop where
  profiles : stage.inProfiles = true → s.profilesLock = some pid
  settings : stage.inSettings = true → s.settingsLock = some pid
  relies : stage.Relies s

structure ProfileInv (s : ProfileFiles P) : Prop where
  stored : s.Stored
  stages : s.stages.All (ProfileOk s)

/-- What another operation relies on stays when its locks do, and when without the profiles lock
    nothing happens to the files and the active profile. -/
theorem ProfileOk.frame {s t : ProfileFiles P} {pid : Nat} {stage : ProfileStage P}
    (hok : ProfileOk s pid stage)
    (hprofiles : s.profilesLock = some pid → t.profilesLock = some pid)
    (hsettings : s.settingsLock = some pid → t.settingsLock = some pid)
    (hfiles : s.profilesLock = some pid → t.files = s.files)
    (hactive : ∀ id, stage = .removing id → s.profilesLock = some pid → s.active ≠ id →
      t.active ≠ id) : ProfileOk t pid stage := by
  refine ⟨fun hin => hprofiles (hok.profiles hin), fun hin => hsettings (hok.settings hin), ?_⟩
  have hfile : stage.inProfiles = true → ∀ {id}, (s.file id).isSome → (t.file id).isSome := by
    intro hin id hid
    unfold ProfileFiles.file
    rw [hfiles (hok.profiles hin)]
    exact hid
  have hrelies := hok.relies
  cases stage with
  | locking work => cases work <;> exact hrelies
  | removing id => exact ⟨hrelies.1, hactive id rfl (hok.profiles rfl) hrelies.2⟩
  | modifying profile => exact hfile rfl hrelies
  | restoringBoth old => exact hfile rfl hrelies
  | lockingBoth profile old activate => exact ⟨hrelies.1, hfile rfl hrelies.2⟩
  | writingBoth profile old activate => exact ⟨hrelies.1, hfile rfl hrelies.2⟩
  | patchingBoth profile old activate => exact ⟨hrelies.1, hfile rfl hrelies.2⟩
  | checkingThere | readingActive | lockingDefault | settingDefault => exact hrelies
  | checkingFree | creating | saving | loading | loadingBoth | checkingSwitch | checkingPatch
  | lockingSettings | activating | done => trivial

/-! ## Conditions on a step -/

/-- The profile a save that has begun is going to write. -/
def ProfileStage.saves : ProfileStage P → Option String
  | .locking (.save profile) | .saving profile => some profile.id
  | _ => none

/-- The profile a deletion past its look at the active profile is going to remove. -/
def ProfileStage.removes : ProfileStage P → Option String
  | .removing id => some id
  | _ => none

/-- A profile becomes the active one only while its file is there and no deletion is about to remove
    it, and a profile is not removed while a save of it is under way. -/
def ProfileStage.Undeleted (s : ProfileFiles P) : ProfileStage P → Prop
  | .activating id => (s.file id).isSome ∧ s.stages.all (fun stage => stage.removes ≠ some id) = true
  | .removing id => s.stages.all (fun stage => stage.saves ≠ some id) = true
  | _ => True

def Undeleted (s : ProfileFiles P) : ProfileEvent P → Prop
  | .turn pid true => ∀ stage ∈ s.stages[pid]?, stage.Undeleted s
  | _ => True

instance (s : ProfileFiles P) : ∀ stage : ProfileStage P, Decidable (stage.Undeleted s)
  | .activating _ => inferInstanceAs (Decidable (_ ∧ _))
  | .removing _ => inferInstanceAs (Decidable (_ = _))
  | .locking _ | .checkingFree _ | .creating _ | .saving _ | .loading .. | .modifying _
  | .checkingThere _ | .readingActive _ | .lockingDefault _ | .settingDefault _ | .loadingBoth ..
  | .lockingBoth .. | .writingBoth .. | .patchingBoth .. | .restoringBoth _ | .checkingSwitch _
  | .checkingPatch _ | .lockingSettings _ | .done => .isTrue trivial

instance (s : ProfileFiles P) : ∀ e, Decidable (Undeleted s e)
  | .turn _ true => inferInstanceAs (Decidable (∀ stage ∈ _, _))
  | .turn _ false => .isTrue trivial
  | .start _ => .isTrue trivial

/-! ## What a step keeps -/

/-- The files and what the operations but `pid` rely on. -/
structure OthersOk (pid : Nat) (s : ProfileFiles P) : Prop where
  stored : s.Stored
  others : s.stages.All fun j stage => j ≠ pid → ProfileOk s j stage

section
variable {s t : ProfileFiles P} {pid : Nat} {stage b : ProfileStage P}

theorem ProfileInv.others (hI : ProfileInv s) : OthersOk pid s :=
  ⟨hI.stored, hI.stages.imp fun _ _ hok _ => hok⟩

theorem ProfileOk.others {j : Nat} (hlock : s.profilesLock = some pid) (hj : j ≠ pid) :
    s.profilesLock ≠ some j := by
  rw [hlock]
  exact fun heq => hj (Option.some.inj heq).symm

theorem OthersOk.put (ho : OthersOk pid s) (hlock : s.profilesLock = some pid)
    (profile : ProfileData P) : OthersOk pid (s.put profile) := by
  refine ⟨ho.stored.put profile, ho.others.imp fun j a hok hj => ?_⟩
  have hnot : s.profilesLock ≠ some j := ProfileOk.others hlock hj
  exact (hok hj).frame (fun h => h) (fun h => h) (fun h => absurd h hnot)
    (fun _ _ h => absurd h hnot)

theorem OthersOk.remove (ho : OthersOk pid s) (hlock : s.profilesLock = some pid) {id : String}
    (hdefault : id ≠ "default") (hactive : s.active ≠ id) : OthersOk pid (s.remove id) := by
  refine ⟨ho.stored.remove hdefault hactive, ho.others.imp fun j a hok hj => ?_⟩
  have hnot : s.profilesLock ≠ some j := ProfileOk.others hlock hj
  exact (hok hj).frame (fun h => h) (fun h => h) (fun h => absurd h hnot)
    (fun _ _ h => absurd h hnot)

/-- A profile with its file becomes the active one; a deletion by another operation removes a
    different one. -/
theorem OthersOk.activate (ho : OthersOk pid s) {id : String} (hid : (s.file id).isSome)
    (hother : s.profilesLock = some pid ∨ ∀ stage ∈ s.stages, stage.removes ≠ some id) :
    OthersOk pid { s with active := id } := by
  refine ⟨ho.stored.activate hid rfl rfl, fun j a ha hj => ?_⟩
  refine (ho.others j a ha hj).frame (fun h => h) (fun h => h) (fun _ => rfl) ?_
  rintro id' rfl hlock hne heq
  rcases hother with hmine | hnone
  · exact ProfileOk.others hmine hj hlock
  · exact hnone _ (List.mem_of_getElem? ha) (congrArg some heq.symm)

/-- Operation `pid` moves to `b`; the others keep their locks. -/
theorem OthersOk.moves (ho : OthersOk pid s) (hstages : t.stages = s.stages.set pid b)
    (hfiles : t.files = s.files) (hactive : t.active = s.active)
    (hprofiles : ∀ j, j ≠ pid → s.profilesLock = some j → t.profilesLock = some j)
    (hsettings : ∀ j, j ≠ pid → s.settingsLock = some j → t.settingsLock = some j)
    (hb : ProfileOk t pid b) : ProfileInv t := by
  refine ⟨ho.stored.activate ho.stored.active hfiles hactive, ?_⟩
  rw [hstages]
  refine ho.others.set (fun j a hj hok => ?_) hb
  exact (hok hj).frame (hprofiles j hj) (hsettings j hj) (fun _ => hfiles)
    (fun id _ _ hne => hactive ▸ hne)

theorem OthersOk.goTo (ho : OthersOk pid s) (hb : ProfileOk (s.goTo pid b) pid b) :
    ProfileInv (s.goTo pid b) :=
  ho.moves rfl rfl rfl (fun _ _ h => h) (fun _ _ h => h) hb

theorem OthersOk.finish (ho : OthersOk pid s) : ProfileInv (s.finish pid) := by
  have hkeep : ∀ (lock : Option Nat) (j : Nat), j ≠ pid → lock = some j →
      (if lock = some pid then none else lock) = some j := by
    intro lock j hj hlock
    rw [hlock, if_neg (fun heq => hj (Option.some.inj heq))]
  exact ho.moves rfl rfl rfl (hkeep _) (hkeep _)
    ⟨fun hin => (by cases hin), fun hin => (by cases hin), trivial⟩

/-- Nothing, or a removal while no save of the profile is under way, or a profile saved: one
    whose file was not there only by `save_profile`. -/
def Tells (s : ProfileFiles P) (pid : Nat) (stage : ProfileStage P) (os : List ProfileEffect) :
    Prop :=
  os = [] ∨ (∃ id, os = [.removed id] ∧ ∀ stage ∈ s.stages, stage.saves ≠ some id) ∨
    ∃ id back, os = [.saved pid id back] ∧ (back = true → stage.saves = some id)

/-- What one step of operation `pid` comes to: where it goes and what it tells. -/
structure Proceeds (s t : ProfileFiles P) (pid : Nat) (stage : ProfileStage P)
    (os : List ProfileEffect) : Prop where
  inv : ProfileInv t
  moves : ∃ b, t.stages = s.stages.set pid b ∧ ∀ id, b.saves = some id → stage.saves = some id
  tells : Tells s pid stage os

theorem OthersOk.proceeds {s' : ProfileFiles P} (s : ProfileFiles P) (ho : OthersOk pid s')
    (hstages : s'.stages = s.stages)
    (hb : ProfileOk (s'.goTo pid b) pid b) (hsaves : b.saves = none) :
    Proceeds s (s'.goTo pid b) pid stage [] := by
  refine ⟨ho.goTo hb, ⟨b, ?_, fun id hid => ?_⟩, .inl rfl⟩
  · rw [← hstages]
    rfl
  · rw [hsaves] at hid
    cases hid

theorem OthersOk.ends {s' : ProfileFiles P} (s : ProfileFiles P) (ho : OthersOk pid s')
    (hstages : s'.stages = s.stages)
    {os : List ProfileEffect} (htells : Tells s pid stage os) :
    Proceeds s (s'.finish pid) pid stage os := by
  refine ⟨ho.finish, ⟨.done, ?_, fun id hid => by cases hid⟩, htells⟩
  rw [← hstages]
  rfl

theorem proceeds_lockProfiles {os : List ProfileEffect} (hI : ProfileInv s)
    (hlock : s.lockProfiles pid b = some (t, os)) (hsettings : b.inSettings = false)
    (hrelies : ∀ t : ProfileFiles P, b.Relies t)
    (hsaves : ∀ id, b.saves = some id → stage.saves = some id) :
    Proceeds s t pid stage os := by
  unfold ProfileFiles.lockProfiles at hlock
  split at hlock
  · cases hlock
  next hfree =>
    have hnone : s.profilesLock = none := by simpa using hfree
    cases hlock
    refine ⟨(hI.others : OthersOk pid s).moves rfl rfl rfl (fun j _ hj => ?_) (fun _ _ h => h)
      ⟨fun _ => rfl, fun hin => ?_, hrelies _⟩, ⟨b, rfl, hsaves⟩, .inl rfl⟩
    · rw [hnone] at hj
      cases hj
    · rw [hsettings] at hin
      cases hin

theorem proceeds_lockSettings {os : List ProfileEffect} (hI : ProfileInv s)
    (hlock : s.lockSettings pid b = some (t, os))
    (hprofiles : b.inProfiles = true → s.profilesLock = some pid)
    (hrelies : ∀ t : ProfileFiles P, t.files = s.files → b.Relies t) (hsaves : b.saves = none) :
    Proceeds s t pid stage os := by
  unfold ProfileFiles.lockSettings at hlock
  split at hlock
  · cases hlock
  next hfree =>
    have hnone : s.settingsLock = none := by simpa using hfree
    cases hlock
    refine ⟨(hI.others : OthersOk pid s).moves rfl rfl rfl (fun _ _ h => h) (fun j _ hj => ?_)
      ⟨hprofiles, fun _ => rfl, hrelies _ rfl⟩, ⟨b, rfl, fun id hid => ?_⟩, .inl rfl⟩
    · rw [hnone] at hj
      cases hj
    · rw [hsaves] at hid
      cases hid

theorem tells_saved {profile : ProfileData P} (hthere : (s.file profile.id).isSome) :
    Tells s pid stage [s.savedBy pid profile] := by
  refine .inr (.inr ⟨_, _, rfl, fun hback => ?_⟩)
  rw [Option.isNone_iff_eq_none] at hback
  rw [hback] at hthere
  cases hthere

theorem proceeds_turn {ok : Bool} {os : List ProfileEffect} (hI : ProfileInv s)
    (hat : s.stages[pid]? = some stage) (hcond : ok = true → stage.Undeleted s)
    (hturn : s.turn pid ok stage = some (t, os)) : Proceeds s t pid stage os := by
  have hok : ProfileOk s pid stage := hI.stages pid stage hat
  have hrelies : stage.Relies s := hok.relies
  have ho : OthersOk pid s := hI.others
  have hquit : ∀ stage : ProfileStage P, Proceeds s (s.finish pid) pid stage [] :=
    fun _ => ho.ends s rfl (.inl rfl)
  cases stage with
  | locking work =>
    cases work with
    | create profile => exact proceeds_lockProfiles hI hturn rfl (fun _ => trivial) (fun id h => by cases h)
    | save profile => exact proceeds_lockProfiles hI hturn rfl (fun _ => trivial) (fun id h => h)
    | modify id f => exact proceeds_lockProfiles hI hturn rfl (fun _ => trivial) (fun id h => by cases h)
    | delete id => exact proceeds_lockProfiles hI hturn rfl (fun _ => hrelies) (fun id h => by cases h)
    | both id f activate =>
      exact proceeds_lockProfiles hI hturn rfl (fun _ => trivial) (fun id h => by cases h)
  | checkingFree profile =>
    simp only [ProfileFiles.turn] at hturn
    split at hturn
    · cases hturn
      exact hquit _
    · cases hturn
      exact ho.proceeds s rfl ⟨hok.profiles, hok.settings, trivial⟩ rfl
  | creating profile =>
    cases ok with
    | false =>
      cases hturn
      exact hquit _
    | true =>
      cases hturn
      exact (ho.put (hok.profiles rfl) profile).ends s rfl (.inl rfl)
  | saving profile =>
    cases ok with
    | false =>
      cases hturn
      exact hquit _
    | true =>
      cases hturn
      exact (ho.put (hok.profiles rfl) profile).ends s rfl (.inr (.inr ⟨_, _, rfl, fun _ => rfl⟩))
  | loading id f =>
    simp only [ProfileFiles.turn] at hturn
    split at hturn
    · cases hturn
      exact hquit _
    next old hold =>
      split at hturn
      · cases hturn
        exact hquit _
      · cases hturn
        have hthere : (s.file id).isSome := by
          rw [hold]
          rfl
        exact ho.proceeds s rfl ⟨hok.profiles, hok.settings, hthere⟩ rfl
  | modifying profile =>
    cases ok with
    | false =>
      cases hturn
      exact hquit _
    | true =>
      cases hturn
      exact (ho.put (hok.profiles rfl) profile).ends s rfl (tells_saved hrelies)
  | checkingThere id =>
    simp only [ProfileFiles.turn] at hturn
    split at hturn
    · cases hturn
      exact ho.proceeds s rfl ⟨hok.profiles, hok.settings, hrelies⟩ rfl
    · cases hturn
      exact hquit _
  | readingActive id =>
    cases hturn
    by_cases hactive : s.active = id
    · rw [if_pos hactive]
      exact ho.proceeds s rfl ⟨hok.profiles, hok.settings, hrelies⟩ rfl
    · rw [if_neg hactive]
      exact ho.proceeds s rfl ⟨hok.profiles, hok.settings, hrelies, hactive⟩ rfl
  | lockingDefault id =>
    exact proceeds_lockSettings hI hturn hok.profiles (fun _ _ => hrelies) rfl
  | settingDefault id =>
    cases ok with
    | false =>
      cases hturn
      exact hquit _
    | true =>
      cases hturn
      have hdefault : OthersOk pid { s with active := "default" } :=
        ho.activate ho.stored.default (.inl (hok.profiles rfl))
      refine ⟨hdefault.moves rfl rfl rfl (fun _ _ h => h) (fun j hj hlock => ?_)
        ⟨hok.profiles, fun hin => (by cases hin), hrelies, Ne.symm hrelies⟩,
        ⟨_, rfl, fun id hid => by cases hid⟩, .inl rfl⟩
      have hmine : s.settingsLock = some pid := hok.settings rfl
      exact absurd (Option.some.inj (hmine.symm.trans hlock)).symm hj
  | removing id =>
    cases ok with
    | false =>
      cases hturn
      exact hquit _
    | true =>
      cases hturn
      have hnone : ∀ stage ∈ s.stages, stage.saves ≠ some id := fun stage hstage => by
        simpa using List.all_eq_true.mp (hcond rfl) stage hstage
      exact (ho.remove (hok.profiles rfl) hrelies.1 hrelies.2).ends s rfl
        (.inr (.inl ⟨id, rfl, hnone⟩))
  | loadingBoth id f activate =>
    simp only [ProfileFiles.turn] at hturn
    split at hturn
    · cases hturn
      exact hquit _
    next old hold =>
      split at hturn
      · cases hturn
        exact hquit _
      · cases hturn
        -- the file holds the profile of its name, so a rollback writes the same file
        have hname : old.id = id := ho.stored.named id old hold
        have hthere : (s.file old.id).isSome := by
          rw [hname, hold]
          rfl
        exact ho.proceeds s rfl ⟨hok.profiles, hok.settings, hname.symm, hthere⟩ rfl
  | lockingBoth profile old activate =>
    refine proceeds_lockSettings hI hturn hok.profiles (fun t hfiles => ⟨hrelies.1, ?_⟩) rfl
    unfold ProfileFiles.file
    rw [hfiles]
    exact hrelies.2
  | writingBoth profile old activate =>
    cases ok with
    | false =>
      cases hturn
      exact hquit _
    | true =>
      cases hturn
      have hthere : ((s.put profile).file old.id).isSome := by
        rw [ProfileFiles.file_put, if_pos hrelies.1.symm]
        rfl
      have hold : (s.file profile.id).isSome := by
        rw [hrelies.1]
        exact hrelies.2
      exact ⟨(ho.put (hok.profiles rfl) profile).goTo ⟨hok.profiles, hok.settings, hrelies.1, hthere⟩,
        ⟨_, rfl, fun id hid => by cases hid⟩, tells_saved hold⟩
  | patchingBoth profile old activate =>
    cases ok with
    | false =>
      cases hturn
      exact ho.proceeds s rfl ⟨hok.profiles, hok.settings, hrelies.2⟩ rfl
    | true =>
      cases hturn
      have hthere : (s.file (if activate then profile.id else s.active)).isSome := by
        split
        · rw [hrelies.1]
          exact hrelies.2
        · exact ho.stored.active
      exact (ho.activate hthere (.inl (hok.profiles rfl))).ends s rfl (.inl rfl)
  | restoringBoth old =>
    cases ok with
    | false =>
      cases hturn
      exact hquit _
    | true =>
      cases hturn
      exact (ho.put (hok.profiles rfl) old).ends s rfl (tells_saved hrelies)
  | checkingSwitch id =>
    simp only [ProfileFiles.turn] at hturn
    split at hturn
    · cases hturn
      exact ho.proceeds s rfl ⟨hok.profiles, hok.settings, trivial⟩ rfl
    · cases hturn
      exact hquit _
  | checkingPatch id =>
    simp only [ProfileFiles.turn] at hturn
    split at hturn
    · cases hturn
      exact ho.proceeds s rfl ⟨hok.profiles, hok.settings, trivial⟩ rfl
    · cases hturn
      exact hquit _
  | lockingSettings id =>
    exact proceeds_lockSettings hI hturn hok.profiles (fun _ _ => trivial) rfl
  | activating id =>
    cases ok with
    | false =>
      cases hturn
      exact hquit _
    | true =>
      cases hturn
      obtain ⟨hthere, hnone⟩ := hcond rfl
      have hother : ∀ stage ∈ s.stages, stage.removes ≠ some id := fun stage hstage => by
        simpa using List.all_eq_true.mp hnone stage hstage
      exact (ho.activate hthere (.inr hother)).ends s rfl (.inl rfl)
  | done => cases hturn

end

/-! ## What was told -/

/-- What was told since operation `pid` began. -/
def sinceBegun (pid : Nat) (os : List ProfileEffect) : List ProfileEffect :=
  os.dropWhile (· ≠ .begun pid)

/-- No save has brought back a file that was removed while the save was under way. -/
def NoReturn (os : List ProfileEffect) : Prop :=
  ∀ before after pid id, os = before ++ .saved pid id true :: after →
    .removed id ∉ sinceBegun pid before

theorem mem_sinceBegun_append {pid : Nat} {os os' : List ProfileEffect} {o : ProfileEffect}
    (h : o ∈ sinceBegun pid (os ++ os')) : o ∈ sinceBegun pid os ∨ o ∈ os' := by
  unfold sinceBegun at h
  rw [List.dropWhile_append] at h
  split at h
  · exact .inr ((List.dropWhile_sublist _).subset h)
  · exact List.mem_append.mp h

theorem sinceBegun_of_not_begun {pid : Nat} {os : List ProfileEffect} (h : .begun pid ∉ os) :
    sinceBegun pid os = [] := by
  refine List.dropWhile_eq_nil_iff.mpr fun o ho => ?_
  have hne : o ≠ .begun pid := fun heq => h (heq ▸ ho)
  exact decide_eq_true hne

theorem NoReturn.nil : NoReturn [] := by
  intro before after pid id h
  cases before <;> cases h

theorem NoReturn.snoc {os : List ProfileEffect} {o : ProfileEffect} (h : NoReturn os)
    (ho : ∀ pid id, o = .saved pid id true → .removed id ∉ sinceBegun pid os) :
    NoReturn (os ++ [o]) := by
  intro before after pid id heq
  rcases List.eq_nil_or_concat after with rfl | ⟨after, o', rfl⟩
  · obtain ⟨rfl, hlast⟩ := List.append_inj' heq rfl
    exact ho pid id (List.head_eq_of_cons_eq hlast)
  · have hsplit : os ++ [o] = (before ++ .saved pid id true :: after) ++ [o'] := by
      rw [heq, List.concat_eq_append, List.append_assoc, List.cons_append]
    exact h before after pid id (List.append_inj' hsplit rfl).1

/-- What a save that is under way may rely on: its profile was not removed since it began. -/
def SaveOk (os : List ProfileEffect) (pid : Nat) (stage : ProfileStage P) : Prop :=
  ∀ id, stage.saves = some id → .removed id ∉ sinceBegun pid os

structure ProfileTrace (s : ProfileFiles P) (os : List ProfileEffect) : Prop where
  inv : ProfileInv s
  begun : ∀ pid, .begun pid ∈ os → pid < s.stages.length
  saves : s.stages.All (SaveOk os)
  noReturn : NoReturn os

section
variable {s t : ProfileFiles P} {os os' : List ProfileEffect}

theorem SaveOk.append {pid : Nat} {stage : ProfileStage P} (h : SaveOk os pid stage)
    (hos : ∀ id, stage.saves = some id → .removed id ∉ os') : SaveOk (os ++ os') pid stage :=
  fun id hid hmem => (mem_sinceBegun_append hmem).elim (h id hid) (hos id hid)

/-- Whatever its arguments are, an operation starts without a lock. -/
theorem ProfileOp.start_ok (s : ProfileFiles P) (pid : Nat) (op : ProfileOp P) :
    ProfileOk s pid op.start := by
  have hdone : ProfileOk s pid .done := ⟨fun hin => (by cases hin), fun hin => (by cases hin), trivial⟩
  have hlocking : ∀ work : ProfileWork P, (ProfileStage.locking work).Relies s →
      ProfileOk s pid (.locking work) :=
    fun _ hrelies => ⟨fun hin => (by cases hin), fun hin => (by cases hin), hrelies⟩
  cases op <;> simp only [ProfileOp.start] <;> split
  case create.isTrue | save.isTrue | modify.isTrue | patchBoth.isTrue => exact hlocking _ trivial
  case delete.isFalse =>
    split
    · exact hdone
    next hne => exact hlocking _ hne
  case switch.isTrue | patch.isFalse =>
    exact ⟨fun hin => (by cases hin), fun hin => (by cases hin), trivial⟩
  all_goals exact hdone

theorem ProfileTrace.start (h : ProfileTrace s os) (op : ProfileOp P) :
    ProfileTrace { s with stages := s.stages ++ [op.start] } (os ++ [.begun s.stages.length]) := by
  -- the number of the new operation has not been given out
  have hnot : .begun s.stages.length ∉ os := fun hmem => Nat.lt_irrefl _ (h.begun _ hmem)
  have hquiet : ∀ id, ProfileEffect.removed id ∉ [ProfileEffect.begun s.stages.length] := by simp
  refine ⟨⟨h.inv.stored.activate h.inv.stored.active rfl rfl, ?_⟩, fun pid hpid => ?_, ?_,
    h.noReturn.snoc fun pid id heq => by cases heq⟩
  · exact h.inv.stages.spawn
      (fun j a ha => ha.frame (fun h => h) (fun h => h) (fun _ => rfl) (fun _ _ _ h => h))
      (ProfileOp.start_ok _ _ op)
  · rw [List.length_append, List.length_singleton]
    rcases List.mem_append.mp hpid with hold | hnew
    · exact Nat.lt_succ_of_lt (h.begun pid hold)
    · cases List.mem_singleton.mp hnew
      exact Nat.lt_succ_self _
  · refine h.saves.spawn (fun j a ha => ha.append fun id _ => hquiet id) fun id _ hmem => ?_
    rcases mem_sinceBegun_append hmem with hold | hnew
    · rw [sinceBegun_of_not_begun hnot] at hold
      cases hold
    · exact hquiet id hnew

theorem ProfileTrace.turn {pid : Nat} {ok : Bool} {stage : ProfileStage P} (h : ProfileTrace s os)
    (hat : s.stages[pid]? = some stage) (hcond : ok = true → stage.Undeleted s)
    (hturn : s.turn pid ok stage = some (t, os')) : ProfileTrace t (os ++ os') := by
  have hadv : Proceeds s t pid stage os' := proceeds_turn h.inv hat hcond hturn
  obtain ⟨b, hstages, hsaves⟩ := hadv.moves
  -- a removal finds no save of its profile under way
  have hquiet : ∀ stage' ∈ s.stages, ∀ id, stage'.saves = some id → .removed id ∉ os' := by
    intro stage' hstage' id hid hmem
    rcases hadv.tells with rfl | ⟨id', rfl, hnone⟩ | ⟨id', back, rfl, -⟩
    · cases hmem
    · cases List.mem_singleton.mp hmem
      exact hnone stage' hstage' hid
    · cases List.mem_singleton.mp hmem
  -- the save of this operation is under way on both sides of the step
  have hown : SaveOk (os ++ os') pid b :=
    SaveOk.append (fun id hid => h.saves pid stage hat id (hsaves id hid))
      fun id hid => hquiet stage (List.mem_of_getElem? hat) id (hsaves id hid)
  refine ⟨hadv.inv, fun j hj => ?_, ?_, ?_⟩
  · rw [hstages, List.length_set]
    rcases List.mem_append.mp hj with hold | hnew
    · exact h.begun j hold
    · rcases hadv.tells with rfl | ⟨id', rfl, -⟩ | ⟨id', back, rfl, -⟩
      · cases hnew
      · cases List.mem_singleton.mp hnew
      · cases List.mem_singleton.mp hnew
  · rw [hstages]
    have hall : s.stages.All fun j a => SaveOk (os ++ os') j a := fun j a ha =>
      (h.saves j a ha).append (hquiet a (List.mem_of_getElem? ha))
    exact hall.set (fun _ _ _ ha => ha) hown
  · rcases hadv.tells with rfl | ⟨id', rfl, -⟩ | ⟨id', back, rfl, hback⟩
    · rw [List.append_nil]
      exact h.noReturn
    · exact h.noReturn.snoc fun pid id heq => by cases heq
    · refine h.noReturn.snoc fun pid' id heq => ?_
      cases heq
      exact h.saves pid stage hat _ (hback rfl)

theorem ProfileTrace.step {e : ProfileEvent P} (h : ProfileTrace s os) (hcond : Undeleted s e)
    (hstep : profileMachine.step s e = some (t, os')) : ProfileTrace t (os ++ os') := by
  cases e with
  | start op =>
    cases hstep
    exact h.start op
  | turn pid ok =>
    simp only [profileMachine, ProfileFiles.step] at hstep
    split at hstep
    · cases hstep
    next stage hat =>
      refine h.turn hat (fun hok => ?_) hstep
      subst hok
      exact hcond stage hat

end

/-! ## Whole runs -/

/-- The active profile has its file whenever no operation is half way, and no save has brought a
    removed file back. -/
structure ProfilesKept (s : ProfileFiles P) (os : List ProfileEffect) : Prop where
  active : s.Idle → (s.file s.active).isSome
  noReturn : NoReturn os

/-- **The active profile has its file and deleted profiles stay deleted** in a run in which no
    deletion falls between the two steps of a switch or of a save. -/
theorem profiles_are_kept {s₀ s : ProfileFiles P} {es : List (ProfileEvent P)}
    {os : List ProfileEffect} (hsound : s₀.Sound) (h : profileMachine.Steps s₀ es os s)
    (hcond : profileMachine.Along Undeleted s₀ es) : ProfilesKept s os := by
  have hinit : ProfileTrace s₀ [] := by
    refine ⟨⟨hsound.stored, ?_⟩, fun _ hmem => (by cases hmem), ?_, .nil⟩
    · rw [hsound.stages]
      exact .nil
    · rw [hsound.stages]
      exact .nil
  have htrace : ProfileTrace s os := h.tracing (fun hI hC hs => hI.step hC hs) hcond hinit
  exact ⟨fun _ => htrace.inv.stored.active, htrace.noReturn⟩

/-- The default profile, which is the active one, and another. -/
def twoProfiles : ProfileFiles Unit where
  files := [("dorm", ⟨"dorm", ()⟩), ("default", ⟨"default", ()⟩)]
  active := "default"

theorem twoProfiles_sound : twoProfiles.Sound := by
  refine ⟨⟨fun id profile h => ?_, rfl, rfl⟩, ⟨rfl, rfl⟩, rfl⟩
  have hcases : id = "dorm" ∧ profile.id = "dorm" ∨ id = "default" ∧ profile.id = "default" := by
    simp only [ProfileFiles.file, twoProfiles, lookup_cons_ite, List.lookup_nil] at h
    split at h
    next hid =>
      cases h
      exact .inl ⟨hid, rfl⟩
    next =>
      split at h
      next hid =>
        cases h
        exact .inr ⟨hid, rfl⟩
      next => cases h
  rcases hcases with ⟨rfl, hid⟩ | ⟨rfl, hid⟩
  · exact hid
  · exact hid

/-- Operation `pid` takes `n` steps. -/
def profileTurns (pid n : Nat) : List (ProfileEvent Unit) := List.replicate n (.turn pid)

/-- A switch to the profile, a save of it, and its deletion while it is active. -/
def keptRun : List (ProfileEvent Unit) :=
  .start (.switch "dorm") :: profileTurns 0 3 ++ .start (.save ⟨"dorm", ()⟩) :: profileTurns 1 2 ++
    .start (.delete "dorm") :: profileTurns 2 6

theorem profiles_are_kept_sample : ∃ os s, profileMachine.Steps twoProfiles keptRun os s ∧
    s.active = "default" ∧ ProfilesKept s os := by
  have hrun : (profileMachine.exec twoProfiles keptRun).any
      (fun r => decide (r.1.active = "default")) = true := by decide
  obtain ⟨s, os, hs, hactive⟩ := Machine.steps_of_any hrun
  exact ⟨os, s, hs, of_decide_eq_true hactive, profiles_are_kept twoProfiles_sound hs (by decide)⟩

/-- The profile is deleted after a switch has found it. -/
def danglingRun : List (ProfileEvent Unit) :=
  .start (.switch "dorm") :: profileTurns 0 1 ++ .start (.delete "dorm") :: profileTurns 1 4 ++
    profileTurns 0 2

/-- The profile is deleted while a save of it waits for the lock. -/
def returningRun : List (ProfileEvent Unit) :=
  .start (.delete "dorm") :: profileTurns 0 3 ++ .start (.save ⟨"dorm", ()⟩) :: profileTurns 0 1 ++
    profileTurns 1 2

/-- Neither half holds of every run: the settings come to name a profile without a file, and a
    deleted profile comes back. -/
theorem deletion_in_between :
    (¬∀ (s₀ s : ProfileFiles Unit) (es : List (ProfileEvent Unit)) (os : List ProfileEffect),
      s₀.Sound → profileMachine.Steps s₀ es os s → s.Idle → (s.file s.active).isSome) ∧
    ¬∀ (s₀ s : ProfileFiles Unit) (es : List (ProfileEvent Unit)) (os : List ProfileEffect),
      s₀.Sound → profileMachine.Steps s₀ es os s → NoReturn os := by
  constructor
  · intro hall
    have hrun : (profileMachine.exec twoProfiles danglingRun).any (fun r =>
        decide (r.1.Idle ∧ (r.1.file r.1.active).isNone)) = true := by decide
    obtain ⟨s, os, hs, hend⟩ := Machine.steps_of_any hrun
    obtain ⟨hidle, hnone⟩ := of_decide_eq_true hend
    have hthere : (s.file s.active).isSome := hall _ s danglingRun os twoProfiles_sound hs hidle
    rw [Option.isNone_iff_eq_none.mp hnone] at hthere
    cases hthere
  · intro hall
    have hrun : (profileMachine.exec twoProfiles returningRun).any (fun r =>
        decide (r.2 = [.begun 0, .begun 1, .removed "dorm", .saved 1 "dorm" true])) = true := by
      decide
    obtain ⟨s, os, hs, hend⟩ := Machine.steps_of_any hrun
    have hos : os = [.begun 0, .begun 1, .removed "dorm"] ++ .saved 1 "dorm" true :: [] :=
      of_decide_eq_true hend
    exact hall _ s returningRun os twoProfiles_sound hs _ _ _ _ hos (by decide)

end CampusAuth.Config
