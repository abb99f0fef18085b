import CampusAuth.Engine.AutoLogin
import CampusAuth.Lib.Publication

/- Reload, probe and engine loop, interleaved.

   `reload_inner` (`config/service.rs`) stores the new configuration and raises the version
   later, out of its lock. A probe task is spawned under the version the loop has read,
   reads the configuration afterwards, and reports. The loop reads the current version
   when the message comes, and decides a little later. `ConfigWorld` cuts the three
   parties at these points; the other turns of the loop are those of `engineStep`.

   `stale_decision` is the run the version check misses: the store has happened, the
   version is not yet raised, and a report gathered under the old configuration submits a
   login. `fresh_decision` says that nothing else goes wrong: as long as no report that
   advises a login is compared while a later store waits for its version, and none is
   overtaken between comparison and decision, every automatic login rests on the
   configuration published at that moment. -/
namespace CampusAuth.Engine
open Status Monitor Config Login Lib

/-- A report whose version has been compared. -/
structure Decision where
  msg : ProbeMessage
  /-- The current version the loop has read. -/
  current : Nat
  /-- The reading behind the message. -/
  reading : Reading RuntimeConfig

structure ConfigWorld where
  world : World
  stored : Nat := 0
  /-- The reloads that have stored and not yet raised the version. -/
  unbumped : List Nat := []
  tasks : List (Reading RuntimeConfig) := []
  deciding : Option Decision := none

def ConfigWorld.init (deps : EngineDeps) : ConfigWorld := { world := .init deps }

/-- What the configuration service has published. -/
def ConfigWorld.published (s : ConfigWorld) : Publication RuntimeConfig where
  value := s.world.deps.runtime
  stored := s.stored
  version := s.world.deps.configVersion
  unbumped := s.unbumped

/-- The surroundings with the publication replaced. -/
def ConfigWorld.publish (s : ConfigWorld) (p : Publication RuntimeConfig) : ConfigWorld :=
  { s with
    world := { s.world with
      deps := { s.world.deps with runtime := p.value, configVersion := p.version } }
    stored := p.stored
    unbumped := p.unbumped }

inductive ConfigEvent where
  /-- A reload stores a new configuration. -/
  | store (rt : RuntimeConfig)
  /-- The reload that made the store `i` raises the version. -/
  | bump (i : Nat)
  /-- The probe task `i` reads the configuration. -/
  | read (i : Nat)
  /-- Another turn of the loop, or the clocks; the publication stands still. -/
  | engine (e : EngineEvent)
  /-- The loop takes the message of the task `i` and reads the current version. -/
  | compare (i : Nat) (msg : ProbeMessage)
  | decide

def ProbeMessage.isReport : ProbeMessage → Bool
  | .report _ _ => true
  | .failed _ _ => false

/-- The readings the probes just spawned will make. -/
def newReadings (os : List Effect) : List (Reading RuntimeConfig) :=
  (spawned os).map fun v => { version := v }

def configStep (s : ConfigWorld) : ConfigEvent → Option (ConfigWorld × List Effect)
  | .store rt => some (s.publish (s.published.store rt), [])
  | .bump i =>
    if i ∈ s.unbumped then some (s.publish (s.published.bump i), []) else none
  | .read i =>
    match s.tasks[i]? with
    | some r =>
      if r.seen.isNone then some ({ s with tasks := s.tasks.set i (s.published.read r) }, [])
      else none
    | none => none
  | .engine e =>
    match engineStep s.world e with
    | some (w, os) =>
      if e.isProbeMessage = false ∧ (s.deciding.isNone ∨ e.isSurroundings) ∧
          w.deps.runtime = s.world.deps.runtime ∧
          w.deps.configVersion = s.world.deps.configVersion then
        some ({ s with world := w, tasks := s.tasks ++ newReadings os }, os)
      else none
    | none => none
  | .compare i msg =>
    match s.tasks[i]? with
    | some r =>
      if s.world.running ∧ s.deciding.isNone ∧ msg.configVersion = r.version ∧
          (msg.isReport → r.seen.isSome) then
        some ({ s with
          tasks := s.tasks.eraseIdx i
          deciding := some { msg, current := s.world.deps.configVersion, reading := r } }, [])
      else none
    | none => none
  | .decide =>
    match s.deciding with
    | some d =>
      let r := handleProbeMessageWith d.msg d.current s.world.inner s.world.deps
      let world := { s.world with probes := s.world.probes.erase d.msg.configVersion }
      some ({ s with
        world := world.settle r s.world.deps
        tasks := s.tasks ++ newReadings r.2
        deciding := none }, r.2)
    | none => none

def configMachine : Machine ConfigWorld ConfigEvent Effect := ⟨configStep⟩

/-- A decision that nothing has overtaken since the comparison is the turn of the loop. -/
theorem decide_engineStep {s : ConfigWorld} {d : Decision} (hd : s.deciding = some d)
    (hcur : d.current = s.world.deps.configVersion) (hrun : s.world.running = true)
    (hout : d.msg.configVersion ∈ s.world.probes) :
    (configStep s .decide).map (fun r => (r.1.world, r.2)) =
      engineStep s.world (.probeMessage d.msg) := by
  have hguard : (s.world.running && s.world.probes.contains d.msg.configVersion) = true := by
    simp [hrun, hout]
  simp only [configStep, hd, engineStep, if_pos hguard, Option.map_some, handleProbeMessage, hcur]

/-- Every login submitted rests on the configuration published at that moment. -/
def DecidesFresh (s : ConfigWorld) : Prop :=
  ∀ e t os, configStep s e = some (t, os) → 0 < submissions os →
    ∃ d i, e = .decide ∧ s.deciding = some d ∧ d.reading.seen = some (i, s.world.deps.runtime)

def EvidenceFresh : Prop :=
  ∀ deps s, configMachine.Reach (.init deps) s → DecidesFresh s

/-! ## A decision on the old configuration -/

/-- Another portal. -/
def otherRuntime : RuntimeConfig :=
  { sampleRuntime with
    profile :=
      { id := "dorm", loginChannel := .browser, authUrl := "http://10.9.9.9/login", triggerUrl := "" } }

/-- The new configuration is stored while the report is on its way. -/
def overtakenRun : List ConfigEvent :=
  [.engine (.command .start sampleWait), .read 0, .store otherRuntime,
    .compare 0 (.report (sampleReport portalMeasurements) 0)]

theorem stale_decision : ¬ EvidenceFresh := by
  intro h
  have hsome : (configMachine.exec (.init sampleDeps) overtakenRun).isSome = true := by decide
  have hfresh := h sampleDeps _ ⟨_, _, Machine.steps_get hsome⟩ .decide _ _ rfl (of_decide_eq_true rfl)
  obtain ⟨d, i, _, hd, hseen⟩ := hfresh
  cases hd
  have hid : some "default" = some "dorm" :=
    congrArg (Option.map fun seen : Nat × RuntimeConfig => seen.2.profile.id) hseen
  exact absurd hid (by decide)

/-! ## Where no store waits -/

def ProbeMessage.advisesLogin : ProbeMessage → Bool
  | .report r _ =>
    decide (r.assessment.recoveryAdvice = .attemptLogin ∨
      r.assessment.recoveryAdvice = .attemptLoginOnce)
  | .failed _ _ => false

/-- The message passed the comparison and advises a login. -/
def Decision.atStake (d : Decision) : Bool :=
  d.msg.advisesLogin && d.msg.configVersion == d.current

/-- A report at stake is not compared while a store later than its reading waits for its
version, and no store overtakes it. -/
def disciplined (s : ConfigWorld) (e : ConfigEvent) : Bool :=
  match e with
  | .compare i msg =>
    match s.tasks[i]? with
    | some r =>
      !(msg.advisesLogin && msg.configVersion == s.world.deps.configVersion) ||
        r.seen.all fun seen => s.unbumped.all (· ≤ seen.1)
    | none => true
  | .store _ => s.deciding.all fun d => !d.atStake
  | _ => true

structure ConfigInv (s : ConfigWorld) : Prop where
  tasks : ∀ r ∈ s.tasks, s.published.Covered r
  deciding : ∀ d, s.deciding = some d → d.atStake = true →
    ∃ i, d.reading.seen = some (i, s.world.deps.runtime)

theorem configInv_init (deps : EngineDeps) : ConfigInv (.init deps) where
  tasks := by intro r hr; cases hr
  deciding := by intro d hd; cases hd

theorem covered_newReadings {p : Publication RuntimeConfig} {os : List Effect}
    (h : ∀ v ∈ spawned os, v ≤ p.version) : ∀ r ∈ newReadings os, p.Covered r := by
  intro r hr
  obtain ⟨v, hv, rfl⟩ := List.mem_map.mp hr
  exact Publication.covered_new (h v hv)

/-- The version of every probe a turn spawns is not ahead of the current one. -/
theorem spawned_le {w t : World} {e : EngineEvent} {os : List Effect}
    (h : engineStep w e = some (t, os)) (he : e.isProbeMessage = false) :
    ∀ v ∈ spawned os, v ≤ t.deps.configVersion := by
  cases step_kind h with
  | quiet _ hq _ _ => exact hq.versions
  | @result result _ _ _ hr _ _ _ =>
    obtain ⟨notifier, warnings, hw, heq⟩ := handleLoginResult_eq result w.inner w.deps
    rw [heq] at hr
    obtain ⟨_, rfl⟩ := Prod.mk.inj hr
    rcases hw with rfl | ⟨p, n, m, f, rfl⟩ <;> (intro v hv; cases hv)
  | message _ _ _ _ _ => cases he

theorem covered_tasks_append {s : ConfigWorld} {p : Publication RuntimeConfig} {os : List Effect}
    (htasks : ∀ r ∈ s.tasks, p.Covered r) (hnew : ∀ v ∈ spawned os, v ≤ p.version) :
    ∀ r ∈ s.tasks ++ newReadings os, p.Covered r := by
  intro r hr
  rcases List.mem_append.mp hr with hr | hr
  · exact htasks r hr
  · exact covered_newReadings hnew r hr

/-- What the comparison is worth under the discipline. -/
theorem compare_current {s : ConfigWorld} {i : Nat} {msg : ProbeMessage}
    {r : Reading RuntimeConfig} (hI : ConfigInv s) (hr : s.tasks[i]? = some r)
    (hv : msg.configVersion = r.version) (hseen : msg.isReport → r.seen.isSome)
    (hC : disciplined s (.compare i msg) = true)
    (hstake : msg.advisesLogin = true) (hcur : msg.configVersion = s.world.deps.configVersion) :
    ∃ n, r.seen = some (n, s.world.deps.runtime) := by
  have hreport : msg.isReport = true := by
    cases msg with
    | report r v => rfl
    | failed e v => cases hstake
  obtain ⟨⟨n, rt⟩, hs⟩ := Option.isSome_iff_exists.mp (hseen hreport)
  have hwait : ∀ j ∈ s.published.unbumped, j ≤ n := by
    simp only [disciplined, hr, hstake, hcur, beq_self_eq_true, Bool.and_self, Bool.not_true,
      Bool.false_or, hs, Option.all_some, List.all_eq_true, decide_eq_true_eq] at hC
    exact hC
  have hcov := hI.tasks r (List.mem_of_getElem? hr)
  obtain ⟨rfl, rfl⟩ := hcov.current hs (hv.symm.trans hcur) hwait
  exact ⟨_, hs⟩

theorem configInv_step {s t : ConfigWorld} {e : ConfigEvent} {os : List Effect}
    (hI : ConfigInv s) (hC : disciplined s e = true) (h : configStep s e = some (t, os)) :
    ConfigInv t := by
  cases e with
  | store rt =>
    cases h
    refine ⟨fun r hr => (hI.tasks r hr).store rt, fun d hd hstake => ?_⟩
    simp only [disciplined] at hC
    rw [show s.deciding = some d from hd] at hC
    simp [hstake] at hC
  | bump i =>
    simp only [configStep] at h
    split at h
    · cases h
      exact ⟨fun r hr => (hI.tasks r hr).bump i, hI.deciding⟩
    · cases h
  | read i =>
    simp only [configStep] at h
    split at h
    · next r hr =>
      split at h
      · cases h
        refine ⟨fun r' hr' => ?_, hI.deciding⟩
        rcases List.mem_or_eq_of_mem_set hr' with hmem | rfl
        · exact hI.tasks r' hmem
        · exact (hI.tasks r (List.mem_of_getElem? hr)).read
      · cases h
    · cases h
  | engine e =>
    simp only [configStep] at h
    split at h
    · next w os' hw =>
      split at h
      · next hg =>
        obtain ⟨hmsg, _, hrt, hver⟩ := hg
        cases h
        have hpub : ∀ tasks, ({ s with world := w, tasks } : ConfigWorld).published = s.published := by
          intro tasks
          simp only [ConfigWorld.published, hrt, hver]
        refine ⟨?_, ?_⟩
        · rw [hpub]
          refine covered_tasks_append hI.tasks ?_
          have hle := spawned_le hw hmsg
          rw [hver] at hle
          exact hle
        · intro d hd hstake
          obtain ⟨i, hseen⟩ := hI.deciding d hd hstake
          exact ⟨i, hseen.trans (by rw [hrt])⟩
      · cases h
    · cases h
  | compare i msg =>
    simp only [configStep] at h
    split at h
    · next r hr =>
      split at h
      · next hg =>
        obtain ⟨_, _, hv, hseen⟩ := hg
        cases h
        refine ⟨fun r' hr' => hI.tasks r' (List.mem_of_mem_eraseIdx hr'), ?_⟩
        intro d hd hstake
        cases hd
        simp only [Decision.atStake, Bool.and_eq_true, beq_iff_eq] at hstake
        exact compare_current (s := s) hI hr hv hseen hC hstake.1 hstake.2
      · cases h
    · cases h
  | decide =>
    simp only [configStep] at h
    split at h
    · next d hd =>
      cases h
      refine ⟨?_, by intro d hd; cases hd⟩
      have hspec := handleProbeMessageWith_spec d.msg d.current s.world.inner s.world.deps
      refine covered_tasks_append hI.tasks ?_
      intro v hv
      rw [hspec.spawns] at hv
      split at hv
      · rw [List.mem_singleton.mp hv]
        exact Nat.le_refl _
      · cases hv
    · cases h

/-- A login is submitted by a decision only, on a report at stake. -/
theorem decides_of_submission {s t : ConfigWorld} {e : ConfigEvent} {os : List Effect}
    (h : configStep s e = some (t, os)) (hs : 0 < submissions os) :
    ∃ d, e = .decide ∧ s.deciding = some d ∧ d.atStake = true := by
  cases e with
  | store rt => cases h; cases hs
  | bump i =>
    simp only [configStep] at h
    split at h <;> cases h
    cases hs
  | read i =>
    simp only [configStep] at h
    split at h
    · split at h <;> cases h
      cases hs
    · cases h
  | engine e =>
    simp only [configStep] at h
    split at h
    · next w os' hw =>
      split at h
      · next hg =>
        cases h
        obtain ⟨_, _, rfl, _⟩ := submission_step hw hs
        cases hg.1
      · cases h
    · cases h
  | compare i msg =>
    simp only [configStep] at h
    split at h
    · split at h <;> cases h
      cases hs
    · cases h
  | decide =>
    simp only [configStep] at h
    split at h
    · next d hd =>
      cases h
      have hspec := handleProbeMessageWith_spec d.msg d.current s.world.inner s.world.deps
      refine ⟨d, rfl, hd, ?_⟩
      cases hgo : submitsLogin d.msg d.current s.world.inner s.world.deps with
      | false =>
        rw [hspec.submits, hgo] at hs
        cases hs
      | true =>
        obtain ⟨report, v, hmsg, hadv, _, _, hv, _⟩ := submitsLogin_iff.mp hgo
        simp [Decision.atStake, hmsg, ProbeMessage.advisesLogin, ProbeMessage.configVersion, hadv, hv]
    · cases h

/-- In a disciplined run every login rests on the configuration published when it is
submitted. -/
theorem fresh_decision {deps : EngineDeps} {es : List ConfigEvent} {os : List Effect}
    {s : ConfigWorld} (hrun : configMachine.Steps (.init deps) es os s)
    (hC : configMachine.Along (fun s e => disciplined s e = true) (.init deps) es) :
    DecidesFresh s := by
  have hI : ConfigInv s := hrun.invariant configInv_step hC (configInv_init deps)
  intro e t os' hstep hsub
  obtain ⟨d, he, hd, hstake⟩ := decides_of_submission hstep hsub
  obtain ⟨i, hseen⟩ := hI.deciding d hd hstake
  exact ⟨d, i, he, hd, hseen⟩

/-- A reload that is complete before the report comes: the report of the next probe, read
under the new configuration, submits a login. -/
def orderlyRun : List ConfigEvent :=
  [.store otherRuntime, .bump 1, .engine (.surroundings
      { sampleDeps with runtime := otherRuntime, configVersion := 1, now := 5 }),
    .engine (.command .start { sampleWait with
      after := { sampleDeps with runtime := otherRuntime, configVersion := 1, now := 5 } }),
    .read 0, .compare 0 (.report (sampleReport portalMeasurements) 1)]

theorem fresh_decision_sample :
    ∃ s t os, configMachine.Reach (.init sampleDeps) s ∧ configStep s .decide = some (t, os) ∧
      submissions os = 1 ∧ DecidesFresh s := by
  have hsome : (configMachine.exec (.init sampleDeps) orderlyRun).isSome = true := by decide
  exact ⟨_, _, _, ⟨_, _, Machine.steps_get hsome⟩, rfl, rfl,
    fresh_decision (Machine.steps_get hsome) (by decide)⟩

end CampusAuth.Engine
