import CampusAuth.Config.SettingsStore

/- What the cache of the settings holds, over whole runs.

   `SettingsInv h` compares what every process and the cache hold with `h`, the contents the file had
   under each modification time: contents held together with a time are those of that time or
   of a later one. A process with the lock holds the file itself. A reload reads the contents
   first and the time after, so it keeps it only when the file is not replaced in between
   (`Undisturbed`); `stale_under_fresh_time` is a run in which it is. -/
namespace CampusAuth.Config
open Lib

variable {D : Type*}

/-! ## What the processes hold -/

/-- The contents of some time that is no older than `mtime`. -/
def Known (h : Nat → D) (now : Nat) (mtime : Option Nat) (data : D) : Prop :=
  ∃ v, v ≤ now ∧ h v = data ∧ ∀ w, mtime = some w → w ≤ v

/-- A time the file had; the file has it still when it was read under the lock. -/
def Seen (now : Nat) (locked : Bool) (mtime : Option Nat) : Prop :=
  ∀ w, mtime = some w → w ≤ now ∧ (locked = true → w = now)

def LoadFor.locked : LoadFor D → Bool
  | .caller => false
  | .change _ => true

/-- Under the lock where the load has to be. -/
def LoadFor.Held (k : LoadFor D) (s : SettingsStore D) (id : Nat) : Prop :=
  k.locked = true → s.settingsLock = some id

/-- What process `id` may rely on where it stands. -/
def StageOk (h : Nat → D) (s : SettingsStore D) (id : Nat) : SettingsStage D → Prop
  | .stating k => k.Held s id
  | .checking k mtime | .reading k mtime => k.Held s id ∧ Seen s.mtime k.locked mtime
  | .recalling _ => False
  | .storing k mtime data =>
    k.Held s id ∧ Known h s.mtime mtime data ∧ (k.locked = true → data = s.file)
  | .writing f new => s.settingsLock = some id ∧ f s.file = .ok new
  | .statingNew data => s.settingsLock = some id ∧ data = s.file
  | .storingNew data mtime =>
    s.settingsLock = some id ∧ data = s.file ∧ ∀ w, mtime = some w → w = s.mtime
  | .restating (some data) => data = s.file
  | .restating none => False
  | .restoring data mtime => Known h s.mtime mtime data
  | .locking _ | .lockingReload | .rereading | .finishing | .done => True

structure SettingsInv (h : Nat → D) (s : SettingsStore D) : Prop where
  now : h s.mtime = s.file
  cached : ∃ data, s.cache.data = some data ∧ Known h s.mtime s.cache.mtime data
  stages : s.stages.All (StageOk h s)

theorem Known.file {h : Nat → D} {s : SettingsStore D} (hnow : h s.mtime = s.file)
    {mtime : Option Nat} (hle : ∀ w, mtime = some w → w ≤ s.mtime) :
    Known h s.mtime mtime s.file :=
  ⟨s.mtime, Nat.le_refl _, hnow, hle⟩

/-- Contents held under the time of the file are the file. -/
theorem Known.eq_file {h : Nat → D} {s : SettingsStore D} {data : D}
    (hk : Known h s.mtime (some s.mtime) data) (hnow : h s.mtime = s.file) : data = s.file := by
  obtain ⟨v, hle, hv, hge⟩ := hk
  -- the contents are no older than their time, and nothing is newer than the file
  have heq : v = s.mtime := Nat.le_antisymm hle (hge _ rfl)
  rw [← hv, heq, hnow]

theorem SettingsInv.coherent {h : Nat → D} {s : SettingsStore D} (hI : SettingsInv h s) : s.Coherent := by
  intro data hmtime hdata
  obtain ⟨data', hdata', hk⟩ := hI.cached
  rw [hdata] at hdata'
  cases hdata'
  rw [hmtime] at hk
  exact hk.eq_file hI.now

/-- A step that neither touches the file nor takes the lock from `id`. -/
theorem StageOk.frame {h : Nat → D} {s t : SettingsStore D} {id : Nat} {stage : SettingsStage D}
    (hfile : t.file = s.file) (hmtime : t.mtime = s.mtime)
    (hlock : s.settingsLock = some id → t.settingsLock = some id) (hs : StageOk h s id stage) :
    StageOk h t id stage := by
  have hheld : ∀ k : LoadFor D, k.Held s id → k.Held t id := fun k hk hl => hlock (hk hl)
  cases stage with
  | stating k => exact hheld k hs
  | checking k mtime => exact ⟨hheld k hs.1, hmtime ▸ hs.2⟩
  | reading k mtime => exact ⟨hheld k hs.1, hmtime ▸ hs.2⟩
  | recalling k => exact hs
  | storing k mtime data => exact ⟨hheld k hs.1, hmtime ▸ hs.2.1, hfile ▸ hs.2.2⟩
  | writing f new => exact ⟨hlock hs.1, hfile ▸ hs.2⟩
  | statingNew data => exact ⟨hlock hs.1, hfile ▸ hs.2⟩
  | storingNew data mtime => exact ⟨hlock hs.1, hfile ▸ hs.2.1, hmtime ▸ hs.2.2⟩
  | restating data =>
    cases data with
    | none => exact hs
    | some data => exact Eq.trans hs hfile.symm
  | restoring data mtime =>
    show Known h t.mtime mtime data
    rw [hmtime]
    exact hs
  | locking | lockingReload | rereading | finishing | done => exact trivial

/-! ## One step -/

section
variable {h : Nat → D} {s t : SettingsStore D} {id : Nat}

/-- Process `id` moves to `stage` and the cache is `cache`; the file stays. -/
theorem SettingsInv.moves (hI : SettingsInv h s) {stage : SettingsStage D} (hfile : t.file = s.file)
    (hmtime : t.mtime = s.mtime)
    (hlock : ∀ j, j ≠ id → s.settingsLock = some j → t.settingsLock = some j)
    (hcache : t.cache = s.cache ∨
      ∃ data, t.cache.data = some data ∧ Known h s.mtime t.cache.mtime data)
    (hstages : t.stages = s.stages.set id stage) (hstage : StageOk h t id stage) : SettingsInv h t := by
  refine ⟨by rw [hfile, hmtime]; exact hI.now, ?_, ?_⟩
  · rw [hmtime]
    rcases hcache with hc | hc
    · rw [hc]; exact hI.cached
    · exact hc
  · rw [hstages]
    exact hI.stages.set (fun j a hj ha => ha.frame hfile hmtime (hlock j hj)) hstage

/-- A step keeps the lock of every other process. -/
theorem others_of_free {lock : Option Nat} {j : Nat} (hfree : s.settingsLock = none) :
    s.settingsLock = some j → lock = some j := by
  rw [hfree]
  exact fun hj => nomatch hj

theorem others_of_held {lock : Option Nat} {j : Nat} (hheld : s.settingsLock = some id)
    (hj : j ≠ id) : s.settingsLock = some j → lock = some j := by
  rw [hheld]
  exact fun heq => absurd (Option.some.inj heq).symm hj

theorem SettingsInv.finishLoad (hI : SettingsInv h s) (k : LoadFor D) {data : D} (hheld : k.Held s id)
    (hdata : k.locked = true → data = s.file) : SettingsInv h (s.finishLoad id k data).1 := by
  cases k with
  | caller => exact hI.moves rfl rfl (fun _ _ hj => hj) (.inl rfl) rfl trivial
  | change f =>
    have hlock : s.settingsLock = some id := hheld rfl
    cases hf : f data with
    | error e =>
      simp only [SettingsStore.finishLoad, hf]
      exact hI.moves rfl rfl (fun j hj => others_of_held hlock hj) (.inl rfl) rfl trivial
    | ok new =>
      simp only [SettingsStore.finishLoad, hf]
      -- what the change is computed from is the file, for it was loaded under the lock
      rw [hdata rfl] at hf
      exact hI.moves rfl rfl (fun _ _ hj => hj) (.inl rfl) rfl ⟨hlock, hf⟩

/-- Storing contents in the cache. -/
theorem SettingsInv.stores (hI : SettingsInv h s) {mtime : Option Nat} {data : D}
    (hk : Known h s.mtime mtime data) :
    SettingsInv h { s with cache := { data := some data, mtime } } :=
  ⟨hI.now, ⟨data, rfl, hk⟩, hI.stages.imp fun _ _ ha => ha.frame rfl rfl fun hl => hl⟩

end

/-! ## Conditions on a step -/

/-- The process has read the file for a reload and not yet its modification time. -/
def SettingsStage.rereads : SettingsStage D → Bool
  | .restating _ => true
  | _ => false

def SettingsStage.writes : SettingsStage D → Bool
  | .writing _ _ => true
  | _ => false

def SettingsStage.reads : SettingsStage D → Bool
  | .reading _ _ | .rereading => true
  | _ => false

/-- The file is not replaced while a reload stands between its two steps on it. -/
def Undisturbed (s : SettingsStore D) : SettingsEvent D → Prop
  | .turn id true => s.stages[id]?.any (·.writes) = true → s.stages.any (·.rereads) = false
  | _ => True

/-- The file is read whenever it is opened. -/
def ReadsFile (s : SettingsStore D) : SettingsEvent D → Prop
  | .turn id false => s.stages[id]?.any (·.reads) = false
  | _ => True

instance (s : SettingsStore D) : ∀ e, Decidable (Undisturbed s e)
  | .turn _ true => inferInstanceAs (Decidable (_ → _))
  | .turn _ false => .isTrue trivial
  | .start _ => .isTrue trivial

instance (s : SettingsStore D) : ∀ e, Decidable (ReadsFile s e)
  | .turn _ false => inferInstanceAs (Decidable (_ = _))
  | .turn _ true => .isTrue trivial
  | .start _ => .isTrue trivial

/-! ## What a step keeps -/

section
variable {h : Nat → D} {s t : SettingsStore D} {id : Nat} {ok : Bool}

theorem seen_stat (locked : Bool) : Seen s.mtime locked (s.stat ok) := by
  intro w hw
  unfold SettingsStore.stat at hw
  split at hw
  · cases hw; exact ⟨Nat.le_refl _, fun _ => rfl⟩
  · cases hw

/-- The file is replaced under the lock; the contents so far keep their times. -/
theorem SettingsInv.writes (hI : SettingsInv h s) {new : D}
    (hlock : s.settingsLock = some id) (hnone : s.stages.any (·.rereads) = false) :
    SettingsInv (fun v => if v ≤ s.mtime then h v else new)
      { s.goTo id (.statingNew new) with file := new, mtime := s.mtime + 1 } := by
  have hknown : ∀ {mtime : Option Nat} {data : D}, Known h s.mtime mtime data →
      Known (fun v => if v ≤ s.mtime then h v else new) (s.mtime + 1) mtime data := by
    rintro mtime data ⟨v, hle, hv, hge⟩
    exact ⟨v, Nat.le_succ_of_le hle, (if_pos hle).trans hv, hge⟩
  refine ⟨if_neg (by show ¬s.mtime + 1 ≤ s.mtime; omega), ?_, ?_⟩
  · obtain ⟨data, hdata, hk⟩ := hI.cached
    exact ⟨data, hdata, hknown hk⟩
  · have hrest : s.stages.All fun j a => StageOk h s j a ∧ a.rereads = false :=
      fun j a ha => ⟨hI.stages j a ha, by
        simpa using List.any_eq_false.mp hnone a (List.mem_of_getElem? ha)⟩
    refine hrest.set (fun j a hj hja => ?_) ⟨hlock, rfl⟩
    obtain ⟨ha, hreread⟩ := hja
    -- another process does not hold the lock, so nothing it relies on is the file itself
    have hfree : s.settingsLock = some j → False := by
      rw [hlock]
      exact fun heq => hj (Option.some.inj heq).symm
    have hcaller : ∀ k : LoadFor D, k.Held s j → k.locked = false := by
      intro k hk
      cases k with
      | caller => rfl
      | change f => exact False.elim (hfree (hk rfl))
    have hheld : ∀ k : LoadFor D, k.Held s j →
        k.Held { s.goTo id (.statingNew new) with file := new, mtime := s.mtime + 1 } j :=
      fun k hk hl => hk hl
    have hseen : ∀ (k : LoadFor D) (mtime : Option Nat), k.Held s j → Seen s.mtime k.locked mtime →
        Seen (s.mtime + 1) k.locked mtime := by
      intro k mtime hk hm w hw
      refine ⟨Nat.le_succ_of_le (hm w hw).1, fun hl => ?_⟩
      rw [hcaller k hk] at hl
      cases hl
    cases a with
    | stating k => exact hheld k ha
    | checking k mtime => exact ⟨hheld k ha.1, hseen k mtime ha.1 ha.2⟩
    | reading k mtime => exact ⟨hheld k ha.1, hseen k mtime ha.1 ha.2⟩
    | recalling k => exact ha
    | storing k mtime data =>
      refine ⟨hheld k ha.1, hknown ha.2.1, fun hl => ?_⟩
      rw [hcaller k ha.1] at hl
      cases hl
    | writing f new => exact False.elim (hfree ha.1)
    | statingNew data => exact False.elim (hfree ha.1)
    | storingNew data mtime => exact False.elim (hfree ha.1)
    | restating data => cases hreread
    | restoring data mtime => exact hknown ha
    | locking | lockingReload | rereading | finishing | done => exact trivial

variable {os : List (SettingsEffect D)}

/-- What a step comes to: it keeps the invariant, and the file is what its closure makes of
    it. -/
structure Advances (s t : SettingsStore D) (os : List (SettingsEffect D)) : Prop where
  inv : ∃ h, SettingsInv h t
  file : (commits os = [] ∧ t.file = s.file) ∨ ∃ f, commits os = [f] ∧ f s.file = .ok t.file

theorem Advances.quiet (hI : SettingsInv h t) (hfile : t.file = s.file) (hos : commits os = []) :
    Advances s t os := ⟨⟨h, hI⟩, .inl ⟨hos, hfile⟩⟩

theorem advances_finishLoad {s' : SettingsStore D} {k : LoadFor D} {data : D}
    (hI : SettingsInv h s') (hfile : s'.file = s.file) (hheld : k.Held s' id)
    (hdata : k.locked = true → data = s'.file) (hend : s'.finishLoad id k data = (t, os)) :
    Advances s t os := by
  have hkeep := hI.finishLoad k hheld hdata
  rw [hend] at hkeep
  have hquiet : commits (s'.finishLoad id k data).2 = [] ∧
      (s'.finishLoad id k data).1.file = s'.file := by
    cases k with
    | caller => exact ⟨rfl, rfl⟩
    | change f => cases hf : f data <;> simp only [SettingsStore.finishLoad, hf] <;> exact ⟨rfl, rfl⟩
  rw [hend] at hquiet
  exact .quiet hkeep (hquiet.2.trans hfile) hquiet.1

variable [Inhabited D]

theorem advances_turn {stage : SettingsStage D} (hI : SettingsInv h s)
    (hat : s.stages[id]? = some stage) (hdis : Undisturbed s (.turn id ok))
    (hread : ReadsFile s (.turn id ok)) (hturn : s.turn id ok stage = some (t, os)) :
    Advances s t os := by
  have hstage : StageOk h s id stage := hI.stages id stage hat
  have hstay : ∀ {t : SettingsStore D}, SettingsInv h t → t.file = s.file → Advances s t [] :=
    fun hI' hfile => .quiet hI' hfile rfl
  cases stage with
  | locking work =>
    simp only [SettingsStore.turn] at hturn
    split at hturn
    · cases hturn
    next hfree =>
      have hnone : s.settingsLock = none := by simpa using hfree
      cases work with
      | change f =>
        cases hturn
        exact hstay (hI.moves rfl rfl (fun _ _ => others_of_free hnone) (.inl rfl) rfl
          fun _ => rfl) rfl
      | save data =>
        cases hturn
        exact hstay (hI.moves rfl rfl (fun _ _ => others_of_free hnone) (.inl rfl) rfl
          ⟨rfl, rfl⟩) rfl
  | stating k =>
    cases hturn
    exact hstay (hI.moves rfl rfl (fun _ _ hj => hj) (.inl rfl) rfl ⟨hstage, seen_stat k.locked⟩) rfl
  | checking k mtime =>
    have hmove : SettingsInv h (s.goTo id (.reading k mtime)) :=
      hI.moves rfl rfl (fun _ _ hj => hj) (.inl rfl) rfl hstage
    simp only [SettingsStore.turn] at hturn
    split at hturn
    next data cached hdata hcached =>
      split at hturn
      next hhit =>
        refine advances_finishLoad hI rfl hstage.1 (fun hl => ?_) (Option.some.inj hturn)
        -- under the lock the time is the file's, and so are the cached contents
        have hw : cached = s.mtime := (hstage.2 cached hhit.symm).2 hl
        exact hI.coherent data (by rw [hcached, hw]) hdata
      · cases hturn
        exact hstay hmove rfl
    · cases hturn
      exact hstay hmove rfl
  | reading k mtime =>
    cases ok with
    | false =>
      have : s.stages[id]?.any (·.reads) = false := hread
      rw [hat] at this
      cases this
    | true =>
      cases hturn
      refine hstay (hI.moves rfl rfl (fun _ _ hj => hj) (.inl rfl) rfl
        ⟨hstage.1, Known.file hI.now fun w hw => (hstage.2 w hw).1, fun _ => rfl⟩) rfl
  | recalling k => exact False.elim hstage
  | storing k mtime data =>
    exact advances_finishLoad (hI.stores hstage.2.1) rfl hstage.1 hstage.2.2 (Option.some.inj hturn)
  | writing f new =>
    cases ok with
    | false =>
      cases hturn
      exact hstay (hI.moves rfl rfl (fun j hj => others_of_held hstage.1 hj) (.inl rfl) rfl
        trivial) rfl
    | true =>
      cases hturn
      have hnone : s.stages.any (·.rereads) = false := hdis (by rw [hat]; rfl)
      exact ⟨⟨_, hI.writes hstage.1 hnone⟩, .inr ⟨f, rfl, hstage.2⟩⟩
  | statingNew data =>
    cases hturn
    exact hstay (hI.moves rfl rfl (fun _ _ hj => hj) (.inl rfl) rfl
      ⟨hstage.1, hstage.2, fun w hw => (seen_stat true w hw).2 rfl⟩) rfl
  | storingNew data mtime =>
    cases hturn
    have hk : Known h s.mtime mtime data :=
      hstage.2.1 ▸ Known.file hI.now fun w hw => Nat.le_of_eq (hstage.2.2 w hw)
    exact hstay ((hI.stores hk).moves rfl rfl (fun j hj => others_of_held hstage.1 hj) (.inl rfl)
      rfl trivial) rfl
  | lockingReload =>
    simp only [SettingsStore.turn] at hturn
    split at hturn
    · cases hturn
    · cases hturn
      exact hstay (hI.moves rfl rfl (fun _ _ hj => hj) (.inl rfl) rfl trivial) rfl
  | rereading =>
    cases ok with
    | false =>
      have : s.stages[id]?.any (·.reads) = false := hread
      rw [hat] at this
      cases this
    | true =>
      cases hturn
      exact hstay (hI.moves rfl rfl (fun _ _ hj => hj) (.inl rfl) rfl rfl) rfl
  | restating data =>
    cases data with
    | none => exact False.elim hstage
    | some data =>
      cases hturn
      have hk : Known h s.mtime (s.stat ok) data :=
        (show data = s.file from hstage) ▸
          Known.file hI.now fun w hw => (seen_stat false w hw).1
      exact hstay (hI.moves rfl rfl (fun _ _ hj => hj) (.inl rfl) rfl hk) rfl
  | restoring data mtime =>
    cases hturn
    exact hstay ((hI.stores hstage).moves rfl rfl (fun _ _ hj => hj) (.inl rfl) rfl trivial) rfl
  | finishing =>
    cases hturn
    exact hstay (hI.moves rfl rfl (fun _ _ hj => hj) (.inl rfl) rfl trivial) rfl
  | done => cases hturn

theorem advances_step {e : SettingsEvent D} (hI : SettingsInv h s) (hdis : Undisturbed s e)
    (hread : ReadsFile s e) (hstep : settingsMachine.step s e = some (t, os)) :
    Advances s t os := by
  cases e with
  | start op =>
    cases hstep
    refine .quiet ⟨hI.now, hI.cached, hI.stages.spawn (fun _ _ ha => ha.frame rfl rfl fun hl => hl) ?_⟩
      rfl rfl
    cases op with
    | load => exact fun hl => nomatch hl
    | modify | modifyTx | save | reload => exact trivial
  | turn id ok =>
    simp only [settingsMachine, SettingsStore.step] at hstep
    split at hstep
    · cases hstep
    next stage hat => exact advances_turn hI hat hdis hread hstep

end

/-! ## Whole runs -/

theorem settingsInv_init (file : D) : SettingsInv (fun _ => file) (SettingsStore.init file) :=
  ⟨rfl, ⟨file, rfl, 0, Nat.le_refl _, rfl, fun w hw => by cases hw; exact Nat.le_refl 0⟩, .nil⟩

theorem commits_append (os os' : List (SettingsEffect D)) :
    commits (os ++ os') = commits os ++ commits os' := List.filterMap_append

/-- Settings are never lost: the cache is coherent and the file is the composition of the
    committed closures in some order. -/
structure SettingsKept (file : D) (os : List (SettingsEffect D)) (s : SettingsStore D) : Prop where
  coherent : s.Coherent
  composed : ∃ fs, fs.Perm (commits os) ∧ Composes file fs s.file

/-- **Settings are never lost** in a run in which no reload has the file replaced between its
    two steps on it. -/
theorem settings_are_kept [Inhabited D] {file : D} {s : SettingsStore D}
    {es : List (SettingsEvent D)} {os : List (SettingsEffect D)}
    (h : settingsMachine.Steps (.init file) es os s)
    (hreads : settingsMachine.Along ReadsFile (.init file) es)
    (hdis : settingsMachine.Along Undisturbed (.init file) es) : SettingsKept file os s := by
  have hrun : (∃ h, SettingsInv h s) ∧ Composes file (commits os) s.file := by
    refine h.tracing (C := fun s e => Undisturbed s e ∧ ReadsFile s e)
      (I := fun s os => (∃ h, SettingsInv h s) ∧ Composes file (commits os) s.file) ?_
      (hdis.and hreads) ⟨⟨_, settingsInv_init file⟩, .nil file⟩
    rintro s e t os₀ os ⟨⟨h, hI⟩, hcomposed⟩ ⟨hdis, hread⟩ hstep
    have hadv : Advances s t os := advances_step hI hdis hread hstep
    refine ⟨hadv.inv, ?_⟩
    rw [commits_append]
    rcases hadv.file with ⟨hnone, hfile⟩ | ⟨f, hone, hf⟩
    · rw [hnone, List.append_nil, hfile]
      exact hcomposed
    · rw [hone]
      exact hcomposed.snoc hf
  obtain ⟨⟨h, hI⟩, hcomposed⟩ := hrun
  exact ⟨hI.coherent, commits os, List.Perm.refl _, hcomposed⟩

/-- Process `id` takes `n` steps. -/
def turns (id n : Nat) : List (SettingsEvent D) := List.replicate n (.turn id)

/-- A reload, then an update of the settings. -/
def calmRun : List (SettingsEvent Nat) :=
  .start .reload :: turns 0 5 ++ .start (.modify (· + 10)) :: turns 1 6

theorem settings_are_kept_sample :
    ∃ os s, settingsMachine.Steps (.init 1) calmRun os s ∧ s.file = 11 ∧ SettingsKept 1 os s := by
  have hrun : (settingsMachine.exec (.init 1) calmRun).any (·.1.file = 11) = true := by decide
  obtain ⟨s, os, hs, hfile⟩ := Machine.steps_of_any hrun
  refine ⟨os, s, hs, of_decide_eq_true hfile, settings_are_kept hs ?_ ?_⟩
  · decide
  · decide

/-- A save replaces the file between the read of a reload and its look at the time. -/
def staleRun : List (SettingsEvent Nat) :=
  .start .reload :: turns 0 2 ++ .start (.save 1) :: turns 1 4 ++ turns 0 2

/-- The cache holds the old settings under the time of the new ones. -/
theorem stale_under_fresh_time :
    ¬∀ (file : Nat) (s : SettingsStore Nat) (es : List (SettingsEvent Nat))
      (os : List (SettingsEffect Nat)), settingsMachine.Steps (.init file) es os s →
      settingsMachine.Along ReadsFile (.init file) es → SettingsKept file os s := by
  intro hall
  have hrun : (settingsMachine.exec (.init 0) staleRun).any (fun r =>
      decide (r.1.cache.mtime = some r.1.mtime ∧ r.1.cache.data = some 0 ∧ r.1.file = 1)) =
        true := by decide
  obtain ⟨s, os, hs, hend⟩ := Machine.steps_of_any hrun
  obtain ⟨hmtime, hdata, hfile⟩ := of_decide_eq_true hend
  have hkept : SettingsKept 0 os s := hall 0 s staleRun os hs (by decide)
  have heq : 0 = s.file := hkept.coherent 0 hmtime hdata
  rw [hfile] at heq
  cases heq

end CampusAuth.Config
