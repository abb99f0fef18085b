import CampusAuth.Engine.Invariant

/- When the engine submits an automatic login, and how failures stop it.

   `auto_login_gate` is the gate: a login is submitted on a fresh report only, while
   monitoring, not paused, out of every cooling-down and with no automatic login out; the
   in-flight flag is exact. `failure_budget` is the budget: three failures of automatic
   logins start a cooling-down, nothing is submitted until it has expired, and after that
   it takes three failures again. -/
namespace CampusAuth.Engine
open Status Monitor Config Login Lib

/-! ## The gate -/

/-- The state in which a login may be submitted on a report spawned under version `v`. -/
structure GateOpen (w : World) (v : Nat) : Prop where
  monitoring : w.inner.monitoring = true
  unpaused : isAnyPauseActive w.inner w.deps = false
  fresh : v = w.deps.configVersion
  rested : ∀ deadline, w.inner.coolingDownUntil = some deadline → deadline ≤ w.deps.now
  idle : w.inner.autoLoginInFlight = false

/-- A cooling-down is in force. -/
def CoolingDown (w : World) : Prop :=
  ∃ deadline, w.inner.coolingDownUntil = some deadline ∧ w.deps.now < deadline

theorem budgetCleared_none {now : Nat} {inner : EngineInner}
    (h : (budgetCleared now inner).2 = none) {deadline : Nat}
    (hd : inner.coolingDownUntil = some deadline) : deadline ≤ now := by
  unfold budgetCleared at h
  split at h
  · next hexp => simpa [hd] using hexp
  · rw [hd] at h; cases h

theorem submitsLogin_gateOpen {w : World} {msg : ProbeMessage}
    (h : submitsLogin msg w.deps.configVersion w.inner w.deps = true) :
    ∃ report v, msg = .report report v ∧ GateOpen w v := by
  obtain ⟨report, v, rfl, _, hmon, hpause, hv, hcool, hfly, _⟩ := submitsLogin_iff.mp h
  exact ⟨report, v, rfl, hmon, hpause, hv, fun _ => budgetCleared_none hcool, hfly⟩

/-- A login is submitted by a probe report only, through the open gate. -/
theorem submission_step {w t : World} {e : EngineEvent} {os : List Effect}
    (h : engineStep w e = some (t, os)) (hs : 0 < submissions os) :
    ∃ report v, e = .probeMessage (.report report v) ∧ GateOpen w v ∧ submissions os = 1 ∧
      ∀ source, .submitLogin source ∈ os → source = .auto := by
  cases step_kind h with
  | quiet he hq _ _ =>
    have hzero : submissions os = 0 := hq.submits
    omega
  | @result result _ _ hout hr _ _ _ =>
    obtain ⟨notifier, warnings, hw, heq⟩ := handleLoginResult_eq result w.inner w.deps
    rw [heq] at hr
    obtain ⟨_, rfl⟩ := Prod.mk.inj hr
    rcases hw with rfl | ⟨p, n, m, f, rfl⟩ <;> cases hs
  | @message msg _ _ hout hr _ _ _ =>
    have hspec := handleProbeMessageWith_spec msg w.deps.configVersion w.inner w.deps
    rw [← handleProbeMessage, ← hr] at hspec
    have hsub := hspec.submits
    cases hgo : submitsLogin msg w.deps.configVersion w.inner w.deps with
    | false => rw [hsub, hgo] at hs; cases hs
    | true =>
      obtain ⟨report, v, rfl, hgate⟩ := submitsLogin_gateOpen hgo
      exact ⟨report, v, rfl, hgate, by rw [hsub, hgo]; rfl, hspec.auto⟩

/-- What a result does once monitoring is off. -/
theorem result_after_stop {w t : World} {result : LoginResult} {os : List Effect}
    (hoff : w.inner.monitoring = false)
    (h : engineStep w (.loginResult result) = some (t, os)) :
    t.inner.monitoring = false ∧ submissions os = 0 ∧ shown os = [.stopped] := by
  cases step_kind h with
  | quiet he _ _ _ => cases he
  | result hout hr _ _ _ =>
    obtain ⟨notifier, warnings, hw, heq⟩ := handleLoginResult_eq result w.inner w.deps
    rw [heq] at hr
    obtain ⟨hi, rfl⟩ := Prod.mk.inj hr
    have hstate : engineStateFor w.inner = .stopped := by simp [engineStateFor, hoff]
    refine ⟨by rw [hi]; exact hoff, ?_, ?_⟩
    · rcases hw with rfl | ⟨p, n, m, f, rfl⟩ <;> rfl
    · rw [hstate]
      rcases hw with rfl | ⟨p, n, m, f, rfl⟩ <;> rfl

/-- The results that use up the budget. -/
def failedAuto : EngineEvent → Nat
  | .loginResult result =>
    if result.terminal = .failed ∧ result.source = .auto then 1 else 0
  | _ => 0

theorem loginFailureBudgetAction_increment {terminal : LoginTerminal} {source : LoginSource} :
    loginFailureBudgetAction terminal source = .increment ↔ terminal = .failed ∧ source = .auto := by
  cases terminal <;> cases source <;> simp [loginFailureBudgetAction]

theorem budgetAfter_le (result : LoginResult) (now : Nat) (inner : EngineInner) :
    (budgetAfter result now inner).1 ≤
      inner.consecutiveFailures + failedAuto (.loginResult result) := by
  cases haction : loginFailureBudgetAction result.terminal result.source with
  | reset =>
    simp only [budgetAfter, haction]
    exact Nat.zero_le _
  | increment =>
    have hauto := loginFailureBudgetAction_increment.mp haction
    simp only [budgetAfter, haction, failedAuto, if_pos hauto]
    exact Nat.le_refl _
  | preserve =>
    simp only [budgetAfter, haction]
    exact Nat.le_add_right _ _

theorem budgetCleared_le (now : Nat) (inner : EngineInner) :
    (budgetCleared now inner).1 ≤ inner.consecutiveFailures := by
  unfold budgetCleared
  split
  · exact Nat.zero_le _
  · exact Nat.le_refl _

/-- No step raises the failure count but a failed automatic login. -/
theorem failures_le {w t : World} {e : EngineEvent} {os : List Effect}
    (h : engineStep w e = some (t, os)) :
    t.inner.consecutiveFailures ≤ w.inner.consecutiveFailures + failedAuto e := by
  cases step_kind h with
  | quiet _ hq _ _ =>
    rw [hq.failures]
    exact Nat.le_add_right _ _
  | @result result _ _ _ hr _ _ _ =>
    obtain ⟨notifier, warnings, _, heq⟩ := handleLoginResult_eq result w.inner w.deps
    rw [heq] at hr
    rw [(Prod.mk.inj hr).1]
    exact budgetAfter_le ..
  | @message msg _ _ _ hr _ _ _ =>
    have hspec := handleProbeMessageWith_spec msg w.deps.configVersion w.inner w.deps
    rw [← handleProbeMessage, ← hr] at hspec
    rw [hspec.failures]
    exact Nat.le_trans (budgetCleared_le ..) (Nat.le_add_right _ _)

/-- After `k` failures since `expired` ran out: still that deadline, or none and at most `k`
failures counted, or a new cooling-down that took three. -/
def Recovering (expired : Nat) (w : World) (k : Nat) : Prop :=
  (w.inner.coolingDownUntil = some expired ∧ expired ≤ w.deps.now) ∨
  (w.inner.coolingDownUntil = none ∧ w.inner.consecutiveFailures ≤ k) ∨
  coolingDownThreshold ≤ k

theorem recovering_step {expired k : Nat} {w t : World} {e : EngineEvent} {os : List Effect}
    (hI : Inv w) (hR : Recovering expired w k) (h : engineStep w e = some (t, os)) :
    Recovering expired t (k + failedAuto e) := by
  have hnow := step_now_le h
  have hle := failures_le h
  have hI' := inv_step hI h
  rcases hR with ⟨hc, hexp⟩ | ⟨hc, hk⟩ | hk
  · -- the old deadline stays until a probe message clears it
    cases step_kind h with
    | quiet _ hq _ _ =>
      exact .inl ⟨hq.coolingDown.trans hc, Nat.le_trans hexp hnow⟩
    | result hout _ _ _ _ =>
      have := (hI.below_budget hout).1
      rw [hc] at this
      cases this
    | @message msg _ _ _ hr _ _ _ =>
      have hspec := handleProbeMessageWith_spec msg w.deps.configVersion w.inner w.deps
      rw [← handleProbeMessage, ← hr] at hspec
      have hcl : budgetCleared w.deps.now w.inner = (0, none) := by
        unfold budgetCleared
        rw [if_pos (by simp [hc, hexp])]
      refine .inr (.inl ⟨by rw [hspec.coolingDown, hcl], ?_⟩)
      rw [hspec.failures, hcl]
      exact Nat.zero_le _
  · cases hct : t.inner.coolingDownUntil with
    | none => exact .inr (.inl ⟨hct, by omega⟩)
    | some deadline =>
      have := hI'.cooling.mp (by rw [hct]; rfl)
      exact .inr (.inr (by omega))
  · exact .inr (.inr (by omega))

/-- What a reachable state promises about failures and cooling-down. -/
structure FailureBudget (w : World) : Prop where
  bounded : w.inner.consecutiveFailures ≤ coolingDownThreshold
  exact : w.inner.coolingDownUntil.isSome ↔ w.inner.consecutiveFailures = coolingDownThreshold
  /-- Nothing is submitted while a cooling-down is in force. -/
  silent : CoolingDown w → ∀ e t os, engineStep w e = some (t, os) → submissions os = 0
  /-- An expired cooling-down is cleared before the next report is judged, so it closes no
  gate, -/
  cleared : ∀ deadline, w.inner.coolingDownUntil = some deadline → deadline ≤ w.deps.now →
    ∀ msg t os, engineStep w (.probeMessage msg) = some (t, os) →
      t.inner.consecutiveFailures = 0 ∧ t.inner.coolingDownUntil = none ∧
      ∀ report v, msg = .report report v → report.assessment.recoveryAdvice = .attemptLogin →
        w.inner.monitoring = true → isAnyPauseActive w.inner w.deps = false →
        v = w.deps.configVersion → submissions os = 1
  /-- and the next cooling-down takes the whole budget. -/
  renewed : ∀ deadline, w.inner.coolingDownUntil = some deadline → deadline ≤ w.deps.now →
    ∀ es os t, engineMachine.Steps w es os t → CoolingDown t →
      coolingDownThreshold ≤ Machine.weigh failedAuto es
  /-- Only a failed automatic login counts. -/
  counted : ∀ e t os, engineStep w e = some (t, os) →
    w.inner.consecutiveFailures < t.inner.consecutiveFailures →
      ∃ result, e = .loginResult result ∧ result.terminal = .failed ∧ result.source = .auto

theorem failure_budget {w : World} (hw : Reachable w) : FailureBudget w where
  bounded := (reachable_inv hw).budget
  exact := (reachable_inv hw).cooling
  silent := by
    rintro ⟨deadline, hd, hlt⟩ e t os h
    by_contra hne
    obtain ⟨_, _, _, hgate, _⟩ := submission_step h (by omega)
    have := hgate.rested deadline hd
    omega
  cleared := by
    intro deadline hd hexp msg t os h
    cases step_kind h with
    | quiet he _ _ _ => cases he
    | message _ hr _ _ _ =>
      have hspec := handleProbeMessageWith_spec msg w.deps.configVersion w.inner w.deps
      rw [← handleProbeMessage, ← hr] at hspec
      have hcl : budgetCleared w.deps.now w.inner = (0, none) := by
        unfold budgetCleared
        rw [if_pos (by simp [hd, hexp])]
      refine ⟨by rw [hspec.failures, hcl], by rw [hspec.coolingDown, hcl], ?_⟩
      rintro report v rfl hadv hmon hpause hv
      have hgo : submitsLogin (.report report v) w.deps.configVersion w.inner w.deps = true := by
        refine submitsLogin_iff.mpr ⟨report, v, rfl, .inl hadv, hmon, hpause, hv, by rw [hcl], ?_, ?_⟩
        · exact (reachable_inv hw).rested (by rw [hd]; rfl)
        · intro honce
          rw [hadv] at honce
          cases honce
      rw [hspec.submits, hgo]
      rfl
  renewed := by
    rintro deadline hd hexp es os t hrun ⟨deadline', hd', hlt⟩
    have hrec : Inv t ∧ Recovering deadline t (Machine.weigh failedAuto es) :=
      hrun.counting (I := fun s n => Inv s ∧ Recovering deadline s n)
        (fun hI hs => ⟨inv_step hI.1 hs, recovering_step hI.1 hI.2 hs⟩)
        ⟨reachable_inv hw, .inl ⟨hd, hexp⟩⟩
    rcases hrec.2 with ⟨hc, hle⟩ | ⟨hc, _⟩ | hk
    · rw [hc] at hd'
      cases hd'
      omega
    · rw [hc] at hd'
      cases hd'
    · omega
  counted := by
    intro e t os h hlt
    have hle := failures_le h
    cases e with
    | loginResult result =>
      refine ⟨result, rfl, ?_⟩
      by_contra hno
      simp only [failedAuto, if_neg hno] at hle
      omega
    | _ =>
      simp only [failedAuto] at hle
      omega

/-- The `n`th automatic login fails, and the timer starts the next probe. -/
def failingRound (n : Nat) : List EngineEvent :=
  [.probeMessage (.report (sampleReport portalMeasurements) 0),
    .loginResult
      { terminal := .failed, message := "bad password", source := .auto, duration := 900,
        attempts := 1 },
    .surroundings { sampleDeps with now := 30000 * (n + 1) },
    .checkTimer]

/-- Three failed rounds, and five minutes. -/
theorem failure_budget_sample :
    let w := sampleWorld (.command .start sampleWait ::
      failingRound 0 ++ failingRound 1 ++ failingRound 2 ++
        [.surroundings { sampleDeps with now := 400000 }])
    w.inner.coolingDownUntil = some 360000 ∧ w.deps.now = 400000 ∧ FailureBudget w :=
  ⟨by decide, by decide, failure_budget (reachable_sampleWorld _)⟩

end CampusAuth.Engine
