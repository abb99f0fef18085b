import CampusAuth.Engine.System

/- What each handler of the engine loop can do.

   Most handlers are `Quiet`: they leave the login bookkeeping alone, submit nothing and
   start at most one probe, only when none is in flight. The two that are not, the login
   result and the probe message, get an exact account. `step_kind` lifts the three kinds
   to a step of the machine; every invariant below is read off it. -/
namespace CampusAuth.Engine
open Status Monitor Config Login Lib

/-- A handler that consumes no message, at a time when the version is at most `bound`. -/
structure Quiet (bound : Nat) (inner : EngineInner) (r : Handled) : Prop where
  cautious : r.1.cautiousAttemptedConfigVersion = inner.cautiousAttemptedConfigVersion
  retryAfter : r.1.cautiousRetryAfter = inner.cautiousRetryAfter
  failures : r.1.consecutiveFailures = inner.consecutiveFailures
  coolingDown : r.1.coolingDownUntil = inner.coolingDownUntil
  loginInFlight : r.1.autoLoginInFlight = inner.autoLoginInFlight
  submits : submissions r.2 = 0
  probing : inner.probeInFlight = true → r.1.probeInFlight = true
  spawns : (spawned r.2).length = (r.1.probeInFlight && !inner.probeInFlight).toNat
  versions : ∀ v ∈ spawned r.2, v ≤ bound
  pending : r.1.probePending = (inner.probePending || asked r.2)

theorem Quiet.andThen {bound : Nat} {inner : EngineInner} {r : Handled} {f : EngineInner → Handled}
    (h : Quiet bound inner r) (hf : Quiet bound r.1 (f r.1)) : Quiet bound inner (r.andThen f) where
  cautious := hf.cautious.trans h.cautious
  retryAfter := hf.retryAfter.trans h.retryAfter
  failures := hf.failures.trans h.failures
  coolingDown := hf.coolingDown.trans h.coolingDown
  loginInFlight := hf.loginInFlight.trans h.loginInFlight
  submits := by simp [h.submits, hf.submits]
  probing := fun hp => hf.probing (h.probing hp)
  spawns := by
    have h₁ := h.spawns
    have h₂ := hf.spawns
    have p₁ := h.probing
    have p₂ := hf.probing
    simp only [Handled.andThen_fst, Handled.andThen_snd, spawned_append, List.length_append, h₁, h₂]
    revert p₁ p₂
    cases inner.probeInFlight <;> cases r.1.probeInFlight <;> cases (f r.1).1.probeInFlight <;> simp
  versions := by
    intro v hv
    rw [Handled.andThen_snd, spawned_append, List.mem_append] at hv
    exact hv.elim (h.versions v) (hf.versions v)
  pending := by
    rw [Handled.andThen_fst, Handled.andThen_snd, hf.pending, h.pending, asked_append,
      Bool.or_assoc]

/-- A handler that only touches other fields and merges snapshots. -/
theorem Quiet.of_frame {bound : Nat} {inner inner' : EngineInner} {os : List Effect}
    (hi : ∃ monitoring manualPaused lastCheckTime lastProfileCheck checkTimer notifier,
      inner' = { inner with
        monitoring, manualPaused, lastCheckTime, lastProfileCheck, checkTimer, notifier })
    (hs : submissions os = 0) (hp : spawned os = []) (ha : asked os = false) :
    Quiet bound inner (inner', os) := by
  obtain ⟨_, _, _, _, _, _, rfl⟩ := hi
  refine ⟨rfl, rfl, rfl, rfl, rfl, hs, id, ?_, ?_, ?_⟩
  · simp [hp]
  · simp [hp]
  · simp [ha]

variable {bound : Nat}

theorem quiet_merge (inner : EngineInner) (u : PartialSnapshot) :
    Quiet bound inner (inner, [.merge u]) :=
  .of_frame ⟨_, _, _, _, _, _, rfl⟩ rfl rfl rfl

theorem quiet_refl (inner : EngineInner) : Quiet bound inner (inner, []) :=
  .of_frame ⟨_, _, _, _, _, _, rfl⟩ rfl rfl rfl

theorem quiet_resetCheckTimer (inner : EngineInner) (deps : EngineDeps) :
    Quiet bound inner (resetCheckTimer inner deps, []) :=
  .of_frame ⟨_, _, _, _, _, _, rfl⟩ rfl rfl rfl

/-- Starting from a state that differs in the other fields only is as good. -/
theorem Quiet.after_frame {inner : EngineInner} (inner' : EngineInner) {r : Handled}
    (hi : ∃ monitoring manualPaused lastCheckTime lastProfileCheck checkTimer notifier,
      inner' = { inner with
        monitoring, manualPaused, lastCheckTime, lastProfileCheck, checkTimer, notifier })
    (h : Quiet bound inner' r) : Quiet bound inner r := by
  obtain ⟨_, _, _, _, _, _, rfl⟩ := hi
  exact ⟨h.cautious, h.retryAfter, h.failures, h.coolingDown, h.loginInFlight, h.submits,
    h.probing, h.spawns, h.versions, h.pending⟩

/-! ## Quiet handlers -/

theorem quiet_handleNetworkCheckWithPriority (priority : Bool) (inner : EngineInner)
    (deps : EngineDeps) (hb : deps.configVersion ≤ bound) :
    Quiet bound inner (handleNetworkCheckWithPriority priority inner deps) := by
  unfold handleNetworkCheckWithPriority
  split
  · next h =>
    refine ⟨rfl, rfl, rfl, rfl, rfl, rfl, id, ?_, ?_, ?_⟩
    · simp [h, spawned, Effect.spawn?]
    · simp [spawned, Effect.spawn?]
    · cases priority <;> simp [asked]
  · next h =>
    refine ⟨rfl, rfl, rfl, rfl, rfl, rfl, fun _ => rfl, ?_, ?_, ?_⟩
    · simp [h, spawned, Effect.spawn?]
    · simpa [spawned, Effect.spawn?] using hb
    · simp [asked]

theorem quiet_immediateCheck (inner : EngineInner) (deps : EngineDeps)
    (hb : deps.configVersion ≤ bound) :
    Quiet bound inner (immediateCheck inner deps) := by
  unfold immediateCheck
  split
  · exact quiet_refl inner
  · exact quiet_handleNetworkCheckWithPriority _ _ _ hb

theorem quiet_immediateCheckAndReset (inner : EngineInner) (deps : EngineDeps)
    (hb : deps.configVersion ≤ bound) :
    Quiet bound inner (immediateCheckAndReset inner deps) := by
  unfold immediateCheckAndReset
  split
  · exact (quiet_handleNetworkCheckWithPriority _ _ _ hb).andThen (quiet_resetCheckTimer ..)
  · exact quiet_refl inner

theorem quiet_handleStart (inner : EngineInner) (deps : EngineDeps)
    (hb : deps.configVersion ≤ bound) :
    Quiet bound inner (handleStart inner deps) := by
  unfold handleStart
  split
  · exact quiet_refl inner
  · refine .after_frame { inner with monitoring := true } ⟨_, _, _, _, _, _, rfl⟩ ?_
    exact ((quiet_merge ..).andThen (quiet_immediateCheck _ _ hb)).andThen (quiet_resetCheckTimer ..)

theorem quiet_handleStop (inner : EngineInner) (deps : EngineDeps) :
    Quiet bound inner (handleStop inner deps) := by
  unfold handleStop
  split
  · exact quiet_refl inner
  · exact .of_frame ⟨_, _, _, _, _, _, rfl⟩ rfl rfl rfl

theorem quiet_finishApplyProfile (profileId : String) (inner : EngineInner) (deps : EngineDeps)
    (hb : deps.configVersion ≤ bound) :
    Quiet bound inner (finishApplyProfile profileId inner deps) := by
  unfold finishApplyProfile
  exact Quiet.andThen (quiet_merge ..) (quiet_immediateCheckAndReset _ _ hb)

theorem quiet_handleApplyProfile (profileId : String) (aw : Awaited) (inner : EngineInner)
    (deps : EngineDeps)
    (hb : deps.configVersion ≤ bound) (hb' : aw.after.configVersion ≤ bound) :
    Quiet bound inner (handleApplyProfile profileId aw inner deps) := by
  unfold handleApplyProfile
  split
  · exact quiet_finishApplyProfile _ _ _ hb
  · split
    · exact quiet_refl inner
    · exact quiet_finishApplyProfile _ _ _ hb'

theorem quiet_handlePause (inner : EngineInner) (deps : EngineDeps) :
    Quiet bound inner (handlePause inner deps) :=
  .of_frame ⟨_, _, _, _, _, _, rfl⟩ rfl rfl rfl

theorem quiet_handleResume (inner : EngineInner) (deps : EngineDeps)
    (hb : deps.configVersion ≤ bound) :
    Quiet bound inner (handleResume inner deps) := by
  unfold handleResume
  refine .after_frame { inner with manualPaused := false } ⟨_, _, _, _, _, _, rfl⟩ ?_
  exact Quiet.andThen (quiet_merge ..) (quiet_immediateCheckAndReset _ _ hb)

theorem quiet_handleCommand (cmd : EngineCommand) (aw : Awaited) (inner : EngineInner)
    (deps : EngineDeps)
    (hb : deps.configVersion ≤ bound) (hb' : aw.after.configVersion ≤ bound) :
    Quiet bound inner (handleCommand cmd aw inner deps).1 := by
  cases cmd with
  | start => exact quiet_handleStart _ _ hb
  | stop => exact quiet_handleStop ..
  | reload => exact quiet_resetCheckTimer ..
  | applyProfile id source => exact quiet_handleApplyProfile _ _ _ _ hb hb'
  | testNetwork => exact .of_frame ⟨_, _, _, _, _, _, rfl⟩ rfl rfl rfl
  | pause => exact quiet_handlePause ..
  | resume => exact quiet_handleResume _ _ hb
  | shutdown => exact quiet_merge ..

theorem quiet_handleTick (inner : EngineInner) (deps : EngineDeps)
    (hb : deps.configVersion ≤ bound) :
    Quiet bound inner (handleTick inner deps) := by
  unfold handleTick
  refine .after_frame { inner with checkTimer := inner.checkTimer.tick deps.now }
    ⟨_, _, _, _, _, _, rfl⟩ ?_
  dsimp only
  split
  · exact quiet_handleNetworkCheckWithPriority _ _ _ hb
  · exact quiet_refl _

theorem quiet_checkProfileSwitch (gateways : Except String (List String))
    (ssid : Except String (Option String)) (aw : Awaited) (inner : EngineInner)
    (deps : EngineDeps)
    (hb : deps.configVersion ≤ bound) (hb' : aw.after.configVersion ≤ bound) :
    Quiet bound inner (checkProfileSwitch gateways ssid aw inner deps) := by
  unfold checkProfileSwitch
  split
  · split
    · split
      · refine .after_frame
          { inner with notifier := inner.notifier.onProfileSwitch }
          ⟨_, _, _, _, _, _, rfl⟩ ?_
        exact quiet_handleApplyProfile _ _ _ _ hb hb'
      · exact quiet_refl inner
    · exact quiet_refl inner
  · exact quiet_refl inner

/-! ## The login result -/

/-- The cautious retry deadline after a result. -/
def retryAfterResult (result : LoginResult) (now : Nat) (inner : EngineInner) : Option Nat :=
  if result.source = .auto ∧ inner.cautiousAttemptedConfigVersion.isSome then
    if result.terminal = .failed ∧ result.networkRetryable then
      some (now + secs coolingDownDurationSecs)
    else none
  else inner.cautiousRetryAfter

/-- The failure count and the cooling-down after a result. -/
def budgetAfter (result : LoginResult) (now : Nat) (inner : EngineInner) : Nat × Option Nat :=
  match loginFailureBudgetAction result.terminal result.source with
  | .reset => (0, none)
  | .increment =>
    (inner.consecutiveFailures + 1,
      if coolingDownThreshold ≤ inner.consecutiveFailures + 1 ∧ inner.coolingDownUntil.isNone then
        some (now + secs coolingDownDurationSecs)
      else inner.coolingDownUntil)
  | .preserve => (inner.consecutiveFailures, inner.coolingDownUntil)

theorem observeCautiousResult_eq (result : LoginResult) (now : Nat) (inner : EngineInner) :
    observeCautiousResult result now inner =
      { inner with cautiousRetryAfter := retryAfterResult result now inner } := by
  unfold observeCautiousResult retryAfterResult
  by_cases h : result.source = .auto ∧ inner.cautiousAttemptedConfigVersion.isSome
  · rw [if_pos h, if_pos h]
  · rw [if_neg h, if_neg h]

theorem countFailure_eq (now : Nat) (inner : EngineInner) :
    countFailure now inner =
      { inner with
        consecutiveFailures := inner.consecutiveFailures + 1
        coolingDownUntil :=
          if coolingDownThreshold ≤ inner.consecutiveFailures + 1 ∧
              inner.coolingDownUntil.isNone then
            some (now + secs coolingDownDurationSecs)
          else inner.coolingDownUntil } := by
  unfold countFailure
  dsimp only
  split <;> rfl

/-- The warnings of a result, and the state it leaves but for the notifier. -/
theorem handleLoginResult_eq (result : LoginResult) (inner : EngineInner) (deps : EngineDeps) :
    ∃ notifier warnings, (warnings = [] ∨ ∃ p n m f, warnings = [.warnLoginFailure p n m f]) ∧
      let inner' :=
        { inner with
          autoLoginInFlight := false
          cautiousRetryAfter := retryAfterResult result deps.now inner
          consecutiveFailures := (budgetAfter result deps.now inner).1
          coolingDownUntil := (budgetAfter result deps.now inner).2
          notifier }
      handleLoginResult result inner deps =
        (inner', warnings ++ [mergeEngineState inner' deps (engineStateFor inner)]) := by
  unfold handleLoginResult budgetAfter
  simp only [observeCautiousResult_eq, countFailure_eq]
  cases loginFailureBudgetAction result.terminal result.source with
  | reset => exact ⟨_, [], .inl rfl, rfl⟩
  | increment => exact ⟨_, _, .inr ⟨_, _, _, _, rfl⟩, rfl⟩
  | preserve => exact ⟨_, [], .inl rfl, rfl⟩

/-! ## The probe message -/

/-- Whether the queued check is run once the message is handled. -/
def reissues (inner : EngineInner) (deps : EngineDeps) : Bool :=
  inner.probePending && inner.monitoring && !isAnyPauseActive inner deps

/-- The failure count and the cooling-down once an expired one is cleared. -/
def budgetCleared (now : Nat) (inner : EngineInner) : Nat × Option Nat :=
  if inner.coolingDownUntil.any (· ≤ now) then (0, none)
  else (inner.consecutiveFailures, inner.coolingDownUntil)

/-- The cautious mark after a report, before the decision. -/
def markAfter (report : ProbeReport) (inner : EngineInner) : Option Nat × Option Nat :=
  if report.assessment.status ≠ .captivePortal then (none, none)
  else (inner.cautiousAttemptedConfigVersion, inner.cautiousRetryAfter)

/-- The state in which the two branches of a message start. -/
def received (now : Nat) (inner : EngineInner) : EngineInner :=
  { inner with
    probeInFlight := false
    probePending := false
    consecutiveFailures := (budgetCleared now inner).1
    coolingDownUntil := (budgetCleared now inner).2 }

/-- Whether the message leads to an automatic login. -/
def submitsLogin (msg : ProbeMessage) (current : Nat) (inner : EngineInner) (deps : EngineDeps) :
    Bool :=
  match msg with
  | .failed _ _ => false
  | .report report v =>
    let advice := report.assessment.recoveryAdvice
    decide ((advice = .attemptLogin ∨ advice = .attemptLoginOnce) ∧
      loginGate advice v (v != current) (observeReport report (received deps.now inner) deps) deps =
        .pass)

theorem clearExpiredCoolingDown_eq (now : Nat) (inner : EngineInner) :
    clearExpiredCoolingDown now inner =
      { inner with
        consecutiveFailures := (budgetCleared now inner).1
        coolingDownUntil := (budgetCleared now inner).2 } := by
  unfold clearExpiredCoolingDown budgetCleared
  split <;> rfl

theorem observeReport_eq (report : ProbeReport) (inner : EngineInner) (deps : EngineDeps) :
    ∃ lastCheckTime onlineStreak checkTimer, observeReport report inner deps =
      { inner with
        lastCheckTime, onlineStreak, checkTimer
        lastAssessment := report.assessment
        lastEvidence := some report.evidence
        cautiousAttemptedConfigVersion := (markAfter report inner).1
        cautiousRetryAfter := (markAfter report inner).2 } := by
  by_cases h : report.assessment.status ≠ .captivePortal
  · simp only [observeReport, markAfter, if_pos h]
    exact ⟨_, _, _, rfl⟩
  · simp only [observeReport, markAfter, if_neg h]
    exact ⟨_, _, _, rfl⟩

theorem decideLogin_eq (advice : RecoveryAdvice) (v : Nat) (stale : Bool) (inner : EngineInner)
    (deps : EngineDeps) :
    decideLogin advice v stale inner deps =
      if (advice = .attemptLogin ∨ advice = .attemptLoginOnce) ∧
          loginGate advice v stale inner deps = .pass then
        ({ inner with
            autoLoginInFlight := true
            cautiousAttemptedConfigVersion :=
              if advice = .attemptLoginOnce then some v else inner.cautiousAttemptedConfigVersion
            cautiousRetryAfter :=
              if advice = .attemptLoginOnce then none else inner.cautiousRetryAfter },
          [.submitLogin .auto])
      else (inner, []) := by
  unfold decideLogin
  by_cases h : advice = .attemptLoginOnce
  · simp only [if_pos h]
  · simp only [if_neg h]

theorem isAnyPauseActive_congr {inner inner' : EngineInner} (deps : EngineDeps)
    (h : inner.manualPaused = inner'.manualPaused) :
    isAnyPauseActive inner deps = isAnyPauseActive inner' deps := by
  simp [isAnyPauseActive, h]

/-- With no probe in flight the queued check starts one. -/
theorem runPendingCheck_eq {pending : Bool} {inner : EngineInner} (deps : EngineDeps)
    (h : inner.probeInFlight = false) :
    runPendingCheck pending inner deps =
      let run := pending && inner.monitoring && !isAnyPauseActive inner deps
      ({ inner with probeInFlight := run },
        if run then [.spawnProbe deps.configVersion] else []) := by
  unfold runPendingCheck handleNetworkCheck handleNetworkCheckWithPriority
  by_cases hrun : (pending && inner.monitoring && !isAnyPauseActive inner deps) = true
  · simp [hrun, h]
  · have hsame : { inner with probeInFlight := false } = inner := by rw [← h]
    simp [hrun, hsame]

/-- What a probe message does to the loop. -/
structure ProbeSpec (msg : ProbeMessage) (current : Nat) (inner : EngineInner) (deps : EngineDeps)
    (r : Handled) : Prop where
  monitoring : r.1.monitoring = inner.monitoring
  failures : r.1.consecutiveFailures = (budgetCleared deps.now inner).1
  coolingDown : r.1.coolingDownUntil = (budgetCleared deps.now inner).2
  probing : r.1.probeInFlight = reissues inner deps
  pending : r.1.probePending = false
  spawns : spawned r.2 = if reissues inner deps then [deps.configVersion] else []
  submits : submissions r.2 = (submitsLogin msg current inner deps).toNat
  auto : ∀ source, .submitLogin source ∈ r.2 → source = .auto
  loginInFlight : r.1.autoLoginInFlight =
    (inner.autoLoginInFlight || submitsLogin msg current inner deps)
  cautious : (r.1.cautiousAttemptedConfigVersion, r.1.cautiousRetryAfter) =
    match msg with
    | .failed _ _ => (inner.cautiousAttemptedConfigVersion, inner.cautiousRetryAfter)
    | .report report v =>
      if submitsLogin msg current inner deps ∧
          report.assessment.recoveryAdvice = .attemptLoginOnce then (some v, none)
      else markAfter report inner

@[simp] theorem spawned_reissue (run : Bool) (v : Nat) :
    spawned (if run then [.spawnProbe v] else []) = if run then [v] else [] := by
  cases run <;> rfl

@[simp] theorem submissions_reissue (run : Bool) (v : Nat) :
    submissions (if run then [.spawnProbe v] else []) = 0 := by
  cases run <;> rfl

theorem not_mem_reissue (run : Bool) (v : Nat) (source : LoginSource) :
    .submitLogin source ∉
      (if run then [.spawnProbe v] else [] : List Effect) := by
  cases run <;> simp

theorem not_mem_totalsUpdate (deps : EngineDeps) (source : LoginSource) :
    .submitLogin source ∉ totalsUpdate deps := by
  unfold totalsUpdate
  split <;> simp

@[simp] theorem spawned_totalsUpdate (deps : EngineDeps) : spawned (totalsUpdate deps) = [] := by
  unfold totalsUpdate
  split <;> rfl

@[simp] theorem submissions_totalsUpdate (deps : EngineDeps) :
    submissions (totalsUpdate deps) = 0 := by
  unfold totalsUpdate
  split <;> rfl

theorem handleProbeMessageWith_failed (error : String) (v current : Nat) (inner : EngineInner)
    (deps : EngineDeps) : handleProbeMessageWith (.failed error v) current inner deps =
      handleProbeFailed inner.probePending (received deps.now inner) deps := by
  simp only [handleProbeMessageWith, clearExpiredCoolingDown_eq]
  rfl

theorem handleProbeMessageWith_report (report : ProbeReport) (v current : Nat)
    (inner : EngineInner) (deps : EngineDeps) :
    handleProbeMessageWith (.report report v) current inner deps =
      handleProbeReport report v (v != current) inner.probePending (received deps.now inner) deps := by
  simp only [handleProbeMessageWith, clearExpiredCoolingDown_eq]
  rfl

theorem probeSpec_failed (error : String) (v current : Nat) (inner : EngineInner)
    (deps : EngineDeps) : ProbeSpec (.failed error v) current inner deps
      (handleProbeMessageWith (.failed error v) current inner deps) := by
  rw [handleProbeMessageWith_failed, handleProbeFailed, runPendingCheck_eq deps rfl]
  refine ⟨rfl, rfl, rfl, rfl, rfl, ?_, ?_, ?_, ?_, rfl⟩
  · simp only [Handled.andThen_snd, spawned_append, spawned_reissue, spawned_merge, spawned_nil,
      List.append_nil]
    rfl
  · simp only [Handled.andThen_snd, submissions_append, submissions_reissue, submissions_merge]
    rfl
  · intro source hs
    simp only [Handled.andThen_snd, List.mem_append] at hs
    rcases hs with hs | hs
    · exact absurd hs (not_mem_reissue _ _ source)
    · simp at hs
  · simp [submitsLogin, received]

theorem probeSpec_report (report : ProbeReport) (v current : Nat) (inner : EngineInner)
    (deps : EngineDeps) : ProbeSpec (.report report v) current inner deps
      (handleProbeMessageWith (.report report v) current inner deps) := by
  obtain ⟨lc, os, ct, ho⟩ := observeReport_eq report (received deps.now inner) deps
  rw [handleProbeMessageWith_report, handleProbeReport]
  by_cases hgo : (report.assessment.recoveryAdvice = .attemptLogin ∨
      report.assessment.recoveryAdvice = .attemptLoginOnce) ∧
      loginGate report.assessment.recoveryAdvice v (v != current)
        (observeReport report (received deps.now inner) deps) deps = .pass
  · have hs : submitsLogin (.report report v) current inner deps = true := decide_eq_true hgo
    simp only [Handled.andThen, decideLogin_eq, if_pos hgo]
    rw [ho, runPendingCheck_eq deps rfl]
    refine ⟨rfl, rfl, rfl, rfl, rfl, ?_, ?_, ?_, ?_, ?_⟩
    · simp only [spawned_append, spawned_reissue, spawned_merge, spawned_totalsUpdate]
      rfl
    · simp only [submissions_append, submissions_reissue, submissions_merge,
        submissions_totalsUpdate, submissions_submitLogin, submissions_nil, hs]
      rfl
    · intro source hmem
      simp only [List.mem_append, List.mem_cons, List.not_mem_nil, or_false, reduceCtorEq,
        not_mem_totalsUpdate, not_mem_reissue, false_or, Effect.submitLogin.injEq] at hmem
      exact hmem
    · simp [hs]
    · by_cases honce : report.assessment.recoveryAdvice = .attemptLoginOnce
      · simp [hs, honce]
      · simp [hs, honce, markAfter, received]
  · have hs : submitsLogin (.report report v) current inner deps = false := decide_eq_false hgo
    simp only [Handled.andThen, decideLogin_eq, if_neg hgo]
    rw [ho, runPendingCheck_eq deps rfl]
    refine ⟨rfl, rfl, rfl, rfl, rfl, ?_, ?_, ?_, ?_, ?_⟩
    · simp only [spawned_append, spawned_reissue, spawned_merge, spawned_totalsUpdate]
      rfl
    · simp only [submissions_append, submissions_reissue, submissions_merge,
        submissions_totalsUpdate, submissions_nil, hs]
      rfl
    · intro source hmem
      simp only [List.mem_append, List.mem_cons, List.not_mem_nil, or_false, reduceCtorEq,
        not_mem_totalsUpdate, not_mem_reissue] at hmem
    · simp [hs, received]
    · simp [hs, markAfter, received]

theorem handleProbeMessageWith_spec (msg : ProbeMessage) (current : Nat) (inner : EngineInner)
    (deps : EngineDeps) :
    ProbeSpec msg current inner deps (handleProbeMessageWith msg current inner deps) := by
  cases msg with
  | report report v => exact probeSpec_report ..
  | failed error v => exact probeSpec_failed ..

theorem loginGate_pass {advice : RecoveryAdvice} {v : Nat} {stale : Bool} {inner : EngineInner}
    {deps : EngineDeps} : loginGate advice v stale inner deps = .pass ↔
      inner.monitoring = true ∧ isAnyPauseActive inner deps = false ∧ stale = false ∧
        inner.coolingDownUntil = none ∧ inner.autoLoginInFlight = false ∧
        (advice = .attemptLoginOnce → cautiousBlocked inner deps.now v = false) := by
  rw [← Option.not_isSome_iff_eq_none]
  unfold loginGate
  split_ifs <;> simp_all

/-- Every gate the message passes when it leads to a login. -/
theorem submitsLogin_iff {msg : ProbeMessage} {current : Nat} {inner : EngineInner}
    {deps : EngineDeps} : submitsLogin msg current inner deps = true ↔
      ∃ report v, msg = .report report v ∧
        (report.assessment.recoveryAdvice = .attemptLogin ∨
          report.assessment.recoveryAdvice = .attemptLoginOnce) ∧
        inner.monitoring = true ∧ isAnyPauseActive inner deps = false ∧ v = current ∧
        (budgetCleared deps.now inner).2 = none ∧ inner.autoLoginInFlight = false ∧
        (report.assessment.recoveryAdvice = .attemptLoginOnce →
          cautiousBlocked (observeReport report (received deps.now inner) deps) deps.now v = false) := by
  cases msg with
  | failed error v => simp [submitsLogin]
  | report report v =>
    obtain ⟨lc, os, ct, ho⟩ := observeReport_eq report (received deps.now inner) deps
    have hp : isAnyPauseActive (observeReport report (received deps.now inner) deps) deps =
        isAnyPauseActive inner deps := isAnyPauseActive_congr deps (by rw [ho]; rfl)
    simp only [submitsLogin, decide_eq_true_eq, loginGate_pass, hp]
    constructor
    · rintro ⟨hadv, hmon, hpause, hstale, hcool, hfly, honce⟩
      refine ⟨report, v, rfl, hadv, ?_, hpause, by simpa using hstale, ?_, ?_, honce⟩
      · rw [ho] at hmon; exact hmon
      · rw [ho] at hcool; exact hcool
      · rw [ho] at hfly; exact hfly
    · rintro ⟨report', v', heq, hadv, hmon, hpause, hv, hcool, hfly, honce⟩
      cases heq
      refine ⟨hadv, ?_, hpause, by simpa using hv, ?_, ?_, honce⟩
      · rw [ho]; exact hmon
      · rw [ho]; exact hcool
      · rw [ho]; exact hfly

end CampusAuth.Engine
