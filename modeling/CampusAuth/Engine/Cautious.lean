import CampusAuth.Engine.Invariant

/- The cautious advice, at most once.

   A report that advises `AttemptLoginOnce` marks the configuration version it was made
   under, and the mark closes the gate for the next one. But a report whose status is not
   `CaptivePortal` takes the mark away before the gate is asked, and the decision table
   gives the cautious advice to inconclusive evidence too, whose status is `Unknown`.
   `cautious_repeats` is that run: the same report twice, two logins.

   `cautious_at_most_once` is what the loop does guarantee: where every report that meets
   the mark has the portal status, one login at most. The induction carries a potential
   that is spent by the one submission. -/
namespace CampusAuth.Engine
open Status Monitor Config Login Lib

/-- A step of a sub-run under the version `v` in which every report gives the cautious advice
and no result is retryable. -/
def onceStep (v : Nat) (w : World) (e : EngineEvent) : Bool :=
  w.deps.configVersion == v &&
    match e with
    | .command .start _ | .command .stop _ => false
    | .loginResult result => !result.networkRetryable
    | .probeMessage (.report report _) => report.assessment.recoveryAdvice == .attemptLoginOnce
    | _ => true

/-- A report that meets the mark has the portal status. -/
def sparesMark (v : Nat) (w : World) (e : EngineEvent) : Bool :=
  match e with
  | .probeMessage (.report report _) =>
    !cautiousBlocked w.inner w.deps.now v || report.assessment.status == .captivePortal
  | _ => true

/-- In every such sub-run at most one login is submitted. -/
def OnceAtMost : Prop :=
  ∀ v w es os t, Reachable w → engineMachine.Steps w es os t →
    engineMachine.Along (fun w e => onceStep v w e = true) w es → submissions os ≤ 1

/-! ## A run that submits twice -/

/-- An unexpected status code from the probe target, while the endpoint answers. -/
def inconclusiveMeasurements : Measurements where
  tcp := .fail
  http := .inconclusive
  url := .fail
  authEndpoint := .reachable
  localLink := .available

/-- Report, failed login, next probe. -/
def cautiousRound (m : Measurements) : List EngineEvent :=
  [.probeMessage (.report (sampleReport m) 0),
    .loginResult
      { terminal := .failed, message := "bad password", source := .auto, duration := 900,
        attempts := 1 },
    .surroundings { sampleDeps with now := 30000 },
    .checkTimer]

theorem cautious_repeats : ¬ OnceAtMost := by
  intro h
  have hsome : (engineMachine.exec (sampleWorld [.command .start sampleWait])
      (cautiousRound inconclusiveMeasurements ++
        [.probeMessage (.report (sampleReport inconclusiveMeasurements) 0)])).isSome = true := by
    decide
  have hle := h 0 _ _ _ _ (reachable_sampleWorld _) (Machine.steps_get hsome) (by decide)
  exact absurd (show 2 ≤ 1 from hle) (by decide)

/-! ## Where the mark is spared -/

/-- The mark is set for `v` and nothing gives the attempt back. -/
def markedForGood (v : Nat) (w : World) : Prop :=
  w.inner.cautiousAttemptedConfigVersion = some v ∧ w.inner.cautiousRetryAfter = none

instance (v : Nat) (w : World) : Decidable (markedForGood v w) :=
  inferInstanceAs (Decidable (_ ∧ _))

/-- The submissions still to come. -/
def credit (v : Nat) (w : World) : Nat := if markedForGood v w then 0 else 1

theorem credit_le_one (v : Nat) (w : World) : credit v w ≤ 1 := by
  unfold credit
  split <;> omega

theorem credit_mono {v : Nat} {w t : World} (h : markedForGood v w → markedForGood v t) :
    credit v t ≤ credit v w := by
  unfold credit
  by_cases hw : markedForGood v w
  · simp [hw, h hw]
  · rw [if_neg hw]
    split <;> omega

theorem markedForGood.blocked {v : Nat} {w : World} (h : markedForGood v w) (now : Nat) :
    cautiousBlocked w.inner now v = true := by
  simp [cautiousBlocked, h.1, h.2]

theorem retryAfterResult_none {result : LoginResult} {now : Nat} {inner : EngineInner}
    (hr : result.networkRetryable = false) (h : inner.cautiousRetryAfter = none) :
    retryAfterResult result now inner = none := by
  simp [retryAfterResult, hr, h]

/-- A report under the mark: with the portal status the mark stays and the gate is closed. -/
theorem report_under_mark {v current : Nat} (pv : Nat) {w : World} {report : ProbeReport}
    (hmark : markedForGood v w) (hstatus : report.assessment.status = .captivePortal)
    (hadv : report.assessment.recoveryAdvice = .attemptLoginOnce) (hv : current = v) :
    submitsLogin (.report report pv) current w.inner w.deps = false ∧
      markAfter report w.inner = (some v, none) := by
  refine ⟨?_, by simp [markAfter, hstatus, hmark.1, hmark.2]⟩
  cases hgo : submitsLogin (.report report pv) current w.inner w.deps with
  | false => rfl
  | true =>
    obtain ⟨_, _, heq, _, _, _, hpv, _, _, honce⟩ := submitsLogin_iff.mp hgo
    cases heq
    obtain ⟨lc, os, ct, ho⟩ := observeReport_eq report (received w.deps.now w.inner) w.deps
    have hopen := honce hadv
    rw [ho] at hopen
    simp [cautiousBlocked, markAfter, hstatus, received, hmark.1, hmark.2, hpv, hv] at hopen

/-- One step spends what it submits. -/
theorem credit_step {v : Nat} {w t : World} {e : EngineEvent} {os : List Effect}
    (honce : onceStep v w e = true) (hspare : sparesMark v w e = true)
    (h : engineStep w e = some (t, os)) : credit v t + submissions os ≤ credit v w := by
  simp only [onceStep, Bool.and_eq_true, beq_iff_eq] at honce
  obtain ⟨hversion, honce⟩ := honce
  cases step_kind h with
  | quiet _ hq _ _ =>
    have hzero : submissions os = 0 := hq.submits
    have := credit_mono (v := v) (w := w) (t := t)
      fun hm => ⟨hq.cautious.trans hm.1, hq.retryAfter.trans hm.2⟩
    omega
  | @result result _ _ _ hr _ _ _ =>
    obtain ⟨notifier, warnings, hw, heq⟩ := handleLoginResult_eq result w.inner w.deps
    rw [heq] at hr
    obtain ⟨hi, rfl⟩ := Prod.mk.inj hr
    have hzero : submissions (warnings ++
        [mergeEngineState t.inner w.deps (engineStateFor w.inner)]) = 0 := by
      rcases hw with rfl | ⟨p, n, m, f, rfl⟩ <;> rfl
    rw [← hi, hzero]
    have hret : result.networkRetryable = false := by simpa using honce
    refine credit_mono fun hm => ?_
    unfold markedForGood
    rw [hi]
    exact ⟨hm.1, retryAfterResult_none hret hm.2⟩
  | @message msg _ _ _ hr _ _ _ =>
    have hspec := handleProbeMessageWith_spec msg w.deps.configVersion w.inner w.deps
    rw [← handleProbeMessage, ← hr] at hspec
    have hsub : submissions os = _ := hspec.submits
    rw [hsub]
    cases msg with
    | failed error pv =>
      obtain ⟨hc, hra⟩ := Prod.mk.inj hspec.cautious
      exact credit_mono fun hm => ⟨hc.trans hm.1, hra.trans hm.2⟩
    | report report pv =>
      have hadv : report.assessment.recoveryAdvice = .attemptLoginOnce := by simpa using honce
      by_cases hmark : markedForGood v w
      · have hstatus : report.assessment.status = .captivePortal := by
          simpa [sparesMark, hmark.blocked w.deps.now] using hspare
        obtain ⟨hno, hafter⟩ := report_under_mark pv hmark hstatus hadv hversion
        have hcaut := hspec.cautious
        simp only [hno, Bool.false_eq_true, false_and, if_false, hafter] at hcaut
        obtain ⟨hc, hra⟩ := Prod.mk.inj hcaut
        rw [hno]
        exact credit_mono fun _ => ⟨hc, hra⟩
      · have hw : credit v w = 1 := if_neg hmark
        cases hgo : submitsLogin (.report report pv) w.deps.configVersion w.inner w.deps with
        | false =>
          have := credit_le_one v t
          rw [hw]
          simpa using this
        | true =>
          obtain ⟨_, _, heq, _, _, _, hpv, _⟩ := submitsLogin_iff.mp hgo
          cases heq
          have hcaut := hspec.cautious
          simp only [hgo, hadv, and_self, if_true] at hcaut
          obtain ⟨hc, hra⟩ := Prod.mk.inj hcaut
          have ht : credit v t = 0 := if_pos ⟨hc.trans (by rw [hpv, hversion]), hra⟩
          simp [ht, hw]

/-- Along a sub-run that spares the mark at most one login is submitted. -/
theorem cautious_at_most_once {v : Nat} {w t : World} {es : List EngineEvent} {os : List Effect}
    (_ : Reachable w) (hrun : engineMachine.Steps w es os t)
    (honce : engineMachine.Along (fun w e => onceStep v w e = true) w es)
    (hspare : engineMachine.Along (fun w e => sparesMark v w e = true) w es) :
    submissions os ≤ 1 := by
  have hle := hrun.budget (I := fun _ => True) (φ := credit v) (w := Effect.submits)
    (fun _ hC hs => ⟨trivial, credit_step hC.1 hC.2 hs⟩) (honce.and hspare) trivial
  have := credit_le_one v w
  unfold submissions
  omega

/-- A portal whose endpoint does not answer. -/
def deadEndpointMeasurements : Measurements where
  tcp := .fail
  http := .captive
  url := .fail
  authEndpoint := .unreachable
  localLink := .available

/-- Two reports of that portal, one login. -/
theorem cautious_at_most_once_sample :
    ∃ os t, engineMachine.Steps (sampleWorld [.command .start sampleWait])
        (cautiousRound deadEndpointMeasurements ++
          [.probeMessage (.report (sampleReport deadEndpointMeasurements) 0)]) os t ∧
      .submitLogin .auto ∈ os ∧ submissions os ≤ 1 := by
  have hsome : (engineMachine.exec (sampleWorld [.command .start sampleWait])
      (cautiousRound deadEndpointMeasurements ++
        [.probeMessage (.report (sampleReport deadEndpointMeasurements) 0)])).isSome = true := by
    decide
  exact ⟨_, _, Machine.steps_get hsome, of_decide_eq_true rfl, cautious_at_most_once (v := 0)
    (reachable_sampleWorld _) (Machine.steps_get hsome) (by decide) (by decide)⟩

end CampusAuth.Engine
