import CampusAuth.Lib.Machine
import CampusAuth.Lib.Pool
import CampusAuth.Config.ProfileId

/- The published configuration against the files (`config/service.rs`, `reload_inner` and the
   transactions, `delete_profile`; `config/profiles.rs`): every operation writes its files and
   then reloads.

   What an operation writes is a parameter, so the runs in which it writes what it made of the
   files and caches it loaded are among the runs here; the locks of the writers only take runs
   away and are left out. The reload lock is kept: a reload reads the settings and the profile
   at two moments, and under the lock the last one to read reads what every operation wrote
   (`config_converges`). A write is atomic and may fail. -/
namespace CampusAuth.Config
open Lib

variable {S P R : Type}

/-- A change of one file. -/
inductive FileWrite (S P : Type) where
  | settings (s : S)
  | profile (id : String) (p : P)
  | trash (id : String)

inductive ConfigOp (S P : Type) where
  /-- A settings patch, with what it changes in a profile. -/
  | patch (settings : Option S)
  | patchProfile (id : String) (p old : P) (settings : Option S)
  | create (id : String) (p : P)
  | update (id : String) (p : P)
  /-- `fallback` are the settings without the profile, when it is the active one. -/
  | delete (id : String) (fallback : Option S)
  | switchProfile (s : S)
  | setAutoSwitch (s : S)

/-- What the operation writes before it reloads. -/
def ConfigOp.writes : ConfigOp S P → List (FileWrite S P)
  | .patch settings => (settings.map .settings).toList
  | .patchProfile id p _ settings => .profile id p :: (settings.map .settings).toList
  | .create id p | .update id p => [.profile id p]
  | .delete id fallback => (fallback.map .settings).toList ++ [.trash id]
  | .switchProfile s | .setAutoSwitch s => [.settings s]

/-- What it writes back when a later write fails. -/
def ConfigOp.undo : ConfigOp S P → Option (FileWrite S P)
  | .patchProfile id _ old _ => some (.profile id old)
  | _ => none

/-- Where an operation stands: what it does next. -/
inductive ReloadStage (S P : Type) where
  | writing (todo : List (FileWrite S P)) (undo : Option (FileWrite S P)) (begun : Bool)
  | restoring (old : FileWrite S P)
  /-- It waits for the reload lock. -/
  | waiting
  | readingSettings
  | readingProfile (s : S)
  | fallingBack (s : S)
  | publishing (s : S) (p : P)
  /-- The lock is let go; the version is still to be raised. -/
  | announcing
  /-- It is completed, whatever came of its reload, or it has failed without a write. -/
  | done
  /-- It has failed behind a write and does not reload. -/
  | brokenOff

structure ConfigState (S P R : Type) where
  settings : S
  /-- The profile files that can be read. -/
  profiles : String → Option P
  runtime : R
  version : Nat := 0
  reloadLock : Option Nat := none
  stages : Pool (ReloadStage S P) := []

inductive ConfigEvent (S P : Type) where
  | start (op : ConfigOp S P)
  /-- The operation takes its next step; `ok` tells whether what it writes is written. -/
  | turn (pid : Nat) (ok : Bool := true)

/-- A reload has published. -/
inductive ConfigEffect where
  | reloaded (pid : Nat)

/-- The profile file the settings name. -/
def activeFile (activeId : S → String) (s : S) : String :=
  if isValidProfileId (activeId s) then activeId s else "default"

section
variable (activeId : S → String) (build : S → P → Option R)

/-- What a reload of these files publishes. -/
def configOf (s : S) (profiles : String → Option P) : Option R :=
  ((profiles (activeFile activeId s)).or (profiles "default")).bind (build s)

namespace ConfigState
variable (s : ConfigState S P R) (pid : Nat)

def write : FileWrite S P → ConfigState S P R
  | .settings new => { s with settings := new }
  | .profile id p => { s with profiles := fun i => if i = id then some p else s.profiles i }
  | .trash id => { s with profiles := fun i => if i = id then none else s.profiles i }

def goTo (stage : ReloadStage S P) : ConfigState S P R :=
  { s with stages := s.stages.set pid stage }

/-- The reload fails: nothing is published, the operation ends. -/
def failReload : ConfigState S P R := { s.goTo pid .done with reloadLock := none }

def turn (ok : Bool) : ReloadStage S P → Option (ConfigState S P R × List ConfigEffect)
  | .writing [] _ _ => some (s.goTo pid .waiting, [])
  | .writing (w :: todo) undo begun =>
    if ok then some ((s.write w).goTo pid (.writing todo undo true), [])
    else if !begun then some (s.goTo pid .done, [])
    else
      match undo with
      | some old => some (s.goTo pid (.restoring old), [])
      | none => some (s.goTo pid .brokenOff, [])
  | .restoring old =>
    if ok then some ((s.write old).goTo pid .brokenOff, []) else some (s.goTo pid .brokenOff, [])
  | .waiting =>
    if s.reloadLock.isSome then none
    else some ({ s.goTo pid .readingSettings with reloadLock := some pid }, [])
  | .readingSettings => some (s.goTo pid (.readingProfile s.settings), [])
  | .readingProfile read =>
    match s.profiles (activeFile activeId read) with
    | some p => some (s.goTo pid (.publishing read p), [])
    | none =>
      if activeFile activeId read = "default" then some (s.failReload pid, [])
      else some (s.goTo pid (.fallingBack read), [])
  | .fallingBack read =>
    match s.profiles "default" with
    | some p => some (s.goTo pid (.publishing read p), [])
    | none => some (s.failReload pid, [])
  | .publishing read p =>
    match build read p with
    | some r =>
      some ({ s.goTo pid .announcing with runtime := r, reloadLock := none }, [.reloaded pid])
    | none => some (s.failReload pid, [])
  | .announcing => some ({ s.goTo pid .done with version := s.version + 1 }, [])
  | .done => none
  | .brokenOff => none

def step : ConfigEvent S P → Option (ConfigState S P R × List ConfigEffect)
  | .start op => some ({ s with stages := s.stages ++ [.writing op.writes op.undo false] }, [])
  | .turn pid ok =>
    match s.stages[pid]? with
    | none => none
    | some stage => s.turn activeId build pid ok stage

end ConfigState

def configMachine : Machine (ConfigState S P R) (ConfigEvent S P) ConfigEffect :=
  ⟨ConfigState.step activeId build⟩

end

/-! ## What the published configuration may be behind -/

namespace ReloadStage

/-- It has written and is still to read, if it reads at all. -/
def owes : ReloadStage S P → Bool
  | .writing _ _ begun => begun
  | .restoring _ | .waiting | .readingSettings | .brokenOff => true
  | _ => false

/-- It has read something. -/
def reads : ReloadStage S P → Bool
  | .readingProfile _ | .fallingBack _ | .publishing _ _ => true
  | _ => false

def holds : ReloadStage S P → Bool
  | .readingSettings => true
  | stage => stage.reads

/-- The version of what it published is still to be raised. -/
def announces : ReloadStage S P → Bool
  | .announcing => true
  | _ => false

end ReloadStage

section
variable {activeId : S → String} {build : S → P → Option R} {s t : ConfigState S P R} {pid : Nat}
  {a b : ReloadStage S P}

/-- What the reload has read is in the files. -/
def Sees (activeId : S → String) (s : ConfigState S P R) : ReloadStage S P → Prop
  | .readingProfile read => read = s.settings
  | .fallingBack read => read = s.settings ∧ s.profiles (activeFile activeId read) = none
  | .publishing read p =>
    read = s.settings ∧ (s.profiles (activeFile activeId read)).or (s.profiles "default") = some p
  | _ => False

/-- The published configuration is what a reload would publish, if it would publish. -/
def Current (activeId : S → String) (build : S → P → Option R) (s : ConfigState S P R) : Prop :=
  ∀ r, configOf activeId build s.settings s.profiles = some r → s.runtime = r

/-- An operation is still to read what it wrote, or nobody works with what is outdated: the
    reload under way has read the files as they are, or what is published is current. -/
def Fresh (activeId : S → String) (build : S → P → Option R) (s : ConfigState S P R) : Prop :=
  s.stages.any ReloadStage.owes = true ∨
    Pool.All (fun _ stage => stage.reads = true → Sees activeId s stage) s.stages ∧
      (s.stages.any ReloadStage.reads = true ∨ Current activeId build s)

structure ConvergeInv (activeId : S → String) (build : S → P → Option R)
    (s : ConfigState S P R) : Prop where
  lock : Pool.Owned ReloadStage.holds s.reloadLock s.stages
  fresh : Fresh activeId build s

theorem sees_congr (hsettings : t.settings = s.settings) (hprofiles : t.profiles = s.profiles) :
    ∀ stage, Sees activeId s stage → Sees activeId t stage := by
  intro stage h
  cases stage with
  | readingProfile | fallingBack | publishing =>
    unfold Sees at h ⊢
    rwa [hsettings, hprofiles]
  | _ => exact h

theorem current_congr (hsettings : t.settings = s.settings) (hprofiles : t.profiles = s.profiles)
    (hruntime : t.runtime = s.runtime) (h : Current activeId build s) :
    Current activeId build t := by
  intro r hr
  rw [hsettings, hprofiles] at hr
  rw [hruntime]
  exact h r hr

/-- An operation that owes a read is reason enough. -/
theorem fresh_of_owes (hat : s.stages[pid]? = some a) (hstages : t.stages = s.stages.set pid b)
    (hb : b.owes = true) : Fresh activeId build t := by
  refine .inl ?_
  rw [hstages]
  exact Pool.any_set_self hat hb

/-- An operation that owes nothing moves, and the files stay as they are: it keeps to what it has
    read, and it leaves a reading only for what is current. -/
theorem Fresh.move (hs : Fresh activeId build s) (hat : s.stages[pid]? = some a)
    (hstages : t.stages = s.stages.set pid b) (hsettings : t.settings = s.settings)
    (hprofiles : t.profiles = s.profiles) (ha : a.owes = false)
    (hsees : (a.reads = true → Sees activeId s a) → b.reads = true → Sees activeId s b)
    (hcurrent : (a.reads = true → Sees activeId s a) →
      b.reads = true ∨ a.reads = false ∧ t.runtime = s.runtime ∨ Current activeId build t) :
    Fresh activeId build t := by
  unfold Fresh
  rw [hstages]
  rcases hs with howes | ⟨hall, hrest⟩
  · exact .inl (Pool.any_set hat ha howes)
  · have hself := hall pid a hat
    refine .inr ⟨hall.set (fun j c _ hc hreads => ?_) fun hreads => ?_, ?_⟩
    · exact sees_congr hsettings hprofiles c (hc hreads)
    · exact sees_congr hsettings hprofiles b (hsees hself hreads)
    · rcases hcurrent hself with hb | ⟨hidle, hruntime⟩ | hnow
      · exact .inl (Pool.any_set_self hat hb)
      · rcases hrest with hreading | hcur
        · exact .inl (Pool.any_set hat hidle hreading)
        · exact .inr (current_congr hsettings hprofiles hruntime hcur)
      · exact .inr hnow

/-- The reload that reads the settings now is the only one that has read anything. -/
theorem ConvergeInv.fresh_reading (hI : ConvergeInv activeId build s)
    (hat : s.stages[pid]? = some .readingSettings) :
    Fresh activeId build (s.goTo pid (.readingProfile s.settings)) := by
  refine .inr ⟨?_, .inl (Pool.any_set_self hat rfl)⟩
  intro j c hj hreads
  rcases Pool.of_set hj with ⟨-, rfl⟩ | ⟨hne, hc⟩
  · exact rfl
  · have hholds : c.holds = true := by
      cases c with
      | readingProfile | fallingBack | publishing => rfl
      | _ => cases hreads
    exact absurd (hI.lock.unique hc hat hholds rfl) hne

@[simp] theorem write_stages (w : FileWrite S P) : (s.write w).stages = s.stages := by
  cases w <;> rfl

@[simp] theorem write_reloadLock (w : FileWrite S P) :
    (s.write w).reloadLock = s.reloadLock := by
  cases w <;> rfl

/-! ## Every step keeps it -/

theorem ConvergeInv.write (hI : ConvergeInv activeId build s) (hat : s.stages[pid]? = some a)
    (w : FileWrite S P) (hb : b.owes = true) (hholds : b.holds = a.holds) :
    ConvergeInv activeId build ((s.write w).goTo pid b) := by
  have hstages : ((s.write w).goTo pid b).stages = s.stages.set pid b := by
    rw [ConfigState.goTo, write_stages]
  refine ⟨?_, fresh_of_owes hat hstages hb⟩
  rw [hstages, show ((s.write w).goTo pid b).reloadLock = s.reloadLock from write_reloadLock w]
  exact hI.lock.set hat (.inl ⟨rfl, hholds⟩)

/-- A reload that fails has found nothing that could be published. -/
theorem ConvergeInv.fail (hI : ConvergeInv activeId build s) (hat : s.stages[pid]? = some a)
    (hreads : a.reads = true) (hholds : a.holds = true) (howes : a.owes = false)
    (hnone : Sees activeId s a → configOf activeId build s.settings s.profiles = none) :
    ConvergeInv activeId build (s.failReload pid) := by
  refine ⟨hI.lock.set hat (.inr (.inr ⟨hholds, rfl, rfl⟩)), ?_⟩
  refine hI.fresh.move hat rfl rfl rfl howes (fun _ hreads' => by cases hreads') fun hsees => ?_
  refine .inr (.inr fun r hr => ?_)
  cases (hnone (hsees hreads)).symm.trans hr

theorem ConvergeInv.turn (hI : ConvergeInv activeId build s) (hat : s.stages[pid]? = some a)
    {ok : Bool} {os : List ConfigEffect} (h : s.turn activeId build pid ok a = some (t, os)) :
    ConvergeInv activeId build t := by
  cases a with
  | writing todo undo begun =>
    cases todo with
    | nil =>
      cases h
      exact ⟨hI.lock.set hat (.inl ⟨rfl, rfl⟩), fresh_of_owes hat rfl rfl⟩
    | cons w todo =>
      unfold ConfigState.turn at h
      dsimp only at h
      split at h
      · cases h
        exact hI.write hat w rfl rfl
      · split at h
        next hbegun =>
          cases h
          rw [Bool.not_eq_true'] at hbegun
          refine ⟨hI.lock.set hat (.inl ⟨rfl, rfl⟩), ?_⟩
          exact hI.fresh.move hat rfl rfl rfl hbegun (fun _ hreads => by cases hreads)
            fun _ => .inr (.inl ⟨rfl, rfl⟩)
        next =>
          split at h
          · cases h
            exact ⟨hI.lock.set hat (.inl ⟨rfl, rfl⟩), fresh_of_owes hat rfl rfl⟩
          · cases h
            exact ⟨hI.lock.set hat (.inl ⟨rfl, rfl⟩), fresh_of_owes hat rfl rfl⟩
  | restoring old =>
    unfold ConfigState.turn at h
    dsimp only at h
    split at h
    · cases h
      exact hI.write hat old rfl rfl
    · cases h
      exact ⟨hI.lock.set hat (.inl ⟨rfl, rfl⟩), fresh_of_owes hat rfl rfl⟩
  | waiting =>
    unfold ConfigState.turn at h
    dsimp only at h
    split at h
    · cases h
    next hfree =>
      cases h
      have hlock : s.reloadLock = none := by simpa using hfree
      refine ⟨hI.lock.set hat (.inr (.inl ⟨hlock, rfl, rfl⟩)), fresh_of_owes hat rfl rfl⟩
  | readingSettings =>
    cases h
    exact ⟨hI.lock.set hat (.inl ⟨rfl, rfl⟩), hI.fresh_reading hat⟩
  | readingProfile read =>
    unfold ConfigState.turn at h
    dsimp only at h
    split at h
    next p hp =>
      cases h
      refine ⟨hI.lock.set hat (.inl ⟨rfl, rfl⟩), ?_⟩
      refine hI.fresh.move hat rfl rfl rfl rfl (fun hsees _ => ?_) fun _ => .inl rfl
      exact ⟨hsees rfl, by rw [hp, Option.some_or]⟩
    next hp =>
      split at h
      next hdefault =>
        cases h
        refine hI.fail hat rfl rfl rfl fun hsees => ?_
        rw [← show read = s.settings from hsees]
        unfold configOf
        rw [← hdefault, hp]
        rfl
      next =>
        cases h
        refine ⟨hI.lock.set hat (.inl ⟨rfl, rfl⟩), ?_⟩
        exact hI.fresh.move hat rfl rfl rfl rfl (fun hsees _ => ⟨hsees rfl, hp⟩) fun _ => .inl rfl
  | fallingBack read =>
    unfold ConfigState.turn at h
    dsimp only at h
    split at h
    next p hp =>
      cases h
      refine ⟨hI.lock.set hat (.inl ⟨rfl, rfl⟩), ?_⟩
      refine hI.fresh.move hat rfl rfl rfl rfl (fun hsees _ => ?_) fun _ => .inl rfl
      exact ⟨(hsees rfl).1, by rw [(hsees rfl).2, Option.none_or, hp]⟩
    next hp =>
      cases h
      refine hI.fail hat rfl rfl rfl fun hsees => ?_
      unfold configOf
      rw [← hsees.1, hsees.2, hp]
      rfl
  | publishing read p =>
    have hconfig : Sees activeId s (.publishing read p) →
        configOf activeId build s.settings s.profiles = build read p := by
      rintro ⟨hread, hprofile⟩
      unfold configOf
      rw [← hread, hprofile]
      rfl
    unfold ConfigState.turn at h
    dsimp only at h
    split at h
    next r hr =>
      cases h
      refine ⟨hI.lock.set hat (.inr (.inr ⟨rfl, rfl, rfl⟩)), ?_⟩
      refine hI.fresh.move hat rfl rfl rfl rfl (fun _ hreads => by cases hreads) fun hsees => ?_
      refine .inr (.inr fun r' hr' => ?_)
      have hbuilt := (hconfig (hsees rfl)).symm.trans hr'
      exact Option.some.inj (hr.symm.trans hbuilt)
    next hnone =>
      cases h
      exact hI.fail hat rfl rfl rfl fun hsees => (hconfig hsees).trans hnone
  | announcing =>
    cases h
    refine ⟨hI.lock.set hat (.inl ⟨rfl, rfl⟩), ?_⟩
    exact hI.fresh.move hat rfl rfl rfl rfl (fun _ hreads => by cases hreads)
      fun _ => .inr (.inl ⟨rfl, rfl⟩)
  | done => cases h
  | brokenOff => cases h

theorem ConvergeInv.step (hI : ConvergeInv activeId build s) {e : ConfigEvent S P}
    {os : List ConfigEffect} (h : (configMachine activeId build).step s e = some (t, os)) :
    ConvergeInv activeId build t := by
  cases e with
  | start op =>
    cases h
    refine ⟨hI.lock.spawn rfl, ?_⟩
    rcases hI.fresh with howes | ⟨hall, hrest⟩
    · exact .inl (by rw [List.any_append, howes, Bool.true_or])
    · refine .inr ⟨hall.spawn (fun _ _ hc hreads => hc hreads) (absurd · Bool.false_ne_true), ?_⟩
      exact hrest.imp_left fun hreading => by rw [List.any_append, hreading, Bool.true_or]
  | turn pid ok =>
    have hturn : (match s.stages[pid]? with
      | none => none
      | some stage => s.turn activeId build pid ok stage) = some (t, os) := h
    split at hturn
    · cases hturn
    next hat => exact hI.turn hat hturn

/-! ## The version counts the reloads -/

/-- How far the version is, with what is still to be raised. -/
def announced (s : ConfigState S P R) : Nat :=
  s.version + s.stages.countP ReloadStage.announces

theorem announced_of_move (hat : s.stages[pid]? = some a)
    (hstages : t.stages = s.stages.set pid b) (hversion : t.version = s.version)
    (ha : a.announces = false) (hb : b.announces = false) : announced t = announced s := by
  have hcount := Pool.countP_set_add (p := ReloadStage.announces) (b := b) hat
  rw [ha, hb] at hcount
  unfold announced
  rw [hstages, hversion]
  simpa using hcount

theorem announced_turn (hat : s.stages[pid]? = some a) {ok : Bool} {os : List ConfigEffect}
    (h : s.turn activeId build pid ok a = some (t, os)) :
    announced t = announced s + os.length := by
  have hwrite : ∀ (w : FileWrite S P) b, ((s.write w).goTo pid b).stages = s.stages.set pid b ∧
      ((s.write w).goTo pid b).version = s.version := fun w b => by cases w <;> exact ⟨rfl, rfl⟩
  cases a with
  | writing todo undo begun =>
    cases todo with
    | nil =>
      cases h
      exact announced_of_move hat rfl rfl rfl rfl
    | cons w todo =>
      unfold ConfigState.turn at h
      dsimp only at h
      split at h
      · cases h
        exact announced_of_move hat (hwrite w _).1 (hwrite w (.writing todo undo true)).2 rfl rfl
      · split at h
        · cases h
          exact announced_of_move hat rfl rfl rfl rfl
        · split at h <;> cases h <;> exact announced_of_move hat rfl rfl rfl rfl
  | restoring old =>
    unfold ConfigState.turn at h
    dsimp only at h
    split at h
    · cases h
      exact announced_of_move hat (hwrite old _).1 (hwrite old .brokenOff).2 rfl rfl
    · cases h
      exact announced_of_move hat rfl rfl rfl rfl
  | waiting =>
    unfold ConfigState.turn at h
    dsimp only at h
    split at h <;> cases h
    exact announced_of_move hat rfl rfl rfl rfl
  | readingSettings =>
    cases h
    exact announced_of_move hat rfl rfl rfl rfl
  | readingProfile read =>
    unfold ConfigState.turn at h
    dsimp only at h
    split at h
    · cases h
      exact announced_of_move hat rfl rfl rfl rfl
    · split at h <;> cases h <;> exact announced_of_move hat rfl rfl rfl rfl
  | fallingBack read =>
    unfold ConfigState.turn at h
    dsimp only at h
    split at h <;> cases h <;> exact announced_of_move hat rfl rfl rfl rfl
  | publishing read p =>
    unfold ConfigState.turn at h
    dsimp only at h
    split at h
    · cases h
      have hcount := Pool.countP_set_add (p := ReloadStage.announces) (b := .announcing) hat
      show s.version + _ = s.version + _ + 1
      rw [Nat.add_assoc]
      exact congrArg (s.version + ·) hcount
    · cases h
      exact announced_of_move hat rfl rfl rfl rfl
  | announcing =>
    cases h
    have hcount := Pool.countP_set_add (p := ReloadStage.announces) (b := .done) hat
    show s.version + 1 + _ = s.version + _
    rw [Nat.add_right_comm, Nat.add_assoc]
    exact congrArg (s.version + ·) hcount
  | done => cases h
  | brokenOff => cases h

theorem announced_run {es : List (ConfigEvent S P)} {os : List ConfigEffect}
    (h : (configMachine activeId build).Steps s es os t) :
    announced t = announced s + os.length := by
  induction h with
  | nil => rfl
  | @cons s u t e es os os' hstep _ ih =>
    have hone : announced u = announced s + os.length := by
      cases e with
      | start op =>
        cases hstep
        unfold announced
        rw [List.countP_append]
        rfl
      | turn pid ok =>
        have hturn : (match s.stages[pid]? with
          | none => none
          | some stage => s.turn activeId build pid ok stage) = some (u, os) := hstep
        split at hturn
        · cases hturn
        next hat => exact announced_turn hat hturn
    rw [ih, hone, List.length_append, Nat.add_assoc]

/-! ## Convergence -/

/-- The service as it starts: it has built its configuration from the files. -/
def ConfigState.started (settings : S) (profiles : String → Option P) (runtime : R)
    (version : Nat) : ConfigState S P R :=
  { settings, profiles, runtime, version }

end

/-- Once every operation is completed, what is published is built from the settings and the file
    of the active profile as they are then, and the version has risen by the reloads. -/
theorem config_converges (activeId : S → String) (build : S → P → Option R) {settings : S}
    {profiles : String → Option P} {runtime : R} {version : Nat} {t : ConfigState S P R}
    {es : List (ConfigEvent S P)} {os : List ConfigEffect}
    (hstarted : configOf activeId build settings profiles = some runtime)
    (h : (configMachine activeId build).Steps (.started settings profiles runtime version) es os t)
    (hdone : ∀ stage ∈ t.stages, stage = .done) :
    (∀ p r, t.profiles (activeFile activeId t.settings) = some p →
      build t.settings p = some r → t.runtime = r) ∧
    t.version = version + os.length := by
  have hinit : ConvergeInv activeId build (.started settings profiles runtime version) := by
    refine ⟨.nil, .inr ⟨.nil, .inr fun r hr => ?_⟩⟩
    exact Option.some.inj (hstarted.symm.trans hr)
  have hI : ConvergeInv activeId build t :=
    Machine.Reach.invariant hinit (fun hs hstep => hs.step hstep) ⟨es, os, h⟩
  have hidle : ∀ p : ReloadStage S P → Bool, p .done = false → t.stages.any p = false := by
    intro p hp
    refine List.any_eq_false.mpr fun stage hstage => ?_
    rw [hdone stage hstage, hp]
    exact Bool.false_ne_true
  constructor
  · intro p r hp hr
    have hcurrent : Current activeId build t := by
      rcases hI.fresh with howes | ⟨-, hreads | hcurrent⟩
      · rw [hidle _ rfl] at howes
        cases howes
      · rw [hidle _ rfl] at hreads
        cases hreads
      · exact hcurrent
    refine hcurrent r ?_
    unfold configOf
    rw [hp, Option.some_or, Option.bind_some, hr]
  · have hrun := announced_run h
    have hnone : t.stages.countP ReloadStage.announces = 0 := by
      refine List.countP_eq_zero.mpr fun stage hstage => ?_
      rw [hdone stage hstage]
      exact Bool.false_ne_true
    unfold announced at hrun
    rw [hnone] at hrun
    exact hrun

/-- A profile is saved and another is switched to; the switch is written while the reload of the
    first stands between the settings and the profile. -/
def savedAndSwitched : List (ConfigEvent String Nat) :=
  [.start (.update "default" 7), .start (.switchProfile "dorm"),
    .turn 0, .turn 0, .turn 0, .turn 0, .turn 1, .turn 1, .turn 0, .turn 0, .turn 1, .turn 0,
    .turn 1, .turn 1, .turn 1, .turn 1]

def defaultAndDorm (id : String) : Option Nat :=
  if id = "default" then some 1 else if id = "dorm" then some 2 else none

theorem config_converges_sample : ∃ (t : ConfigState String Nat (String × Nat))
    (os : List ConfigEffect),
    (configMachine id fun s p => some (s, p)).Steps
      (.started "default" defaultAndDorm ("default", 1) 0) savedAndSwitched os t ∧
    t.runtime = ("dorm", 2) ∧ t.version = 2 := by
  have hrun : (configMachine id fun s p => some (s, p)).Steps
      (.started "default" defaultAndDorm ("default", 1) 0) savedAndSwitched _ _ :=
    Machine.steps_of_exec rfl
  have hconverged := config_converges id (fun s p => some (s, p)) rfl hrun fun stage hstage => by
    rcases List.mem_cons.mp hstage with rfl | hstage
    · rfl
    · exact List.mem_singleton.mp hstage
  exact ⟨_, _, hrun, hconverged.1 2 ("dorm", 2) rfl rfl, hconverged.2⟩

end CampusAuth.Config
