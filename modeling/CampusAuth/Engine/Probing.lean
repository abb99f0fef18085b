import CampusAuth.Engine.Invariant

/- Probes: one at a time, and one more for the checks that came meanwhile.

   A priority check that finds a probe in flight is remembered in one flag. The next
   probe message takes the flag and starts one probe for all of them, if the engine is
   still monitoring and not paused; the probe so started leaves the flag clear, so it
   does not start another. `probe_discipline` says this for every reachable state and
   every run up to the next message. -/
namespace CampusAuth.Engine
open Status Monitor Config Login Lib

/-- Between two messages the flag collects the checks asked for meanwhile, and a probe in
flight stays the only one. -/
theorem between_messages {w t : World} {e : EngineEvent} {os : List Effect}
    (he : e.isProbeMessage = false) (h : engineStep w e = some (t, os)) :
    t.inner.probePending = (w.inner.probePending || asked os) ∧
      (w.inner.probeInFlight = true → t.inner.probeInFlight = true ∧ spawned os = []) := by
  cases step_kind h with
  | quiet _ hq _ _ =>
    refine ⟨hq.pending, fun hp => ⟨hq.probing hp, ?_⟩⟩
    have hs := hq.spawns
    simp only [hp, Bool.not_true, Bool.and_false, Bool.toNat_false, List.length_eq_zero_iff] at hs
    exact hs
  | @result result _ _ _ hr _ _ _ =>
    obtain ⟨notifier, warnings, hw, heq⟩ := handleLoginResult_eq result w.inner w.deps
    rw [heq] at hr
    obtain ⟨hi, rfl⟩ := Prod.mk.inj hr
    rw [hi]
    refine ⟨?_, fun hp => ⟨hp, ?_⟩⟩
    · rcases hw with rfl | ⟨p, n, m, f, rfl⟩ <;> simp [asked, mergeEngineState]
    · rcases hw with rfl | ⟨p, n, m, f, rfl⟩ <;> rfl
  | message _ _ _ _ _ => cases he

/-- The same for a run without probe messages. -/
theorem run_between_messages {w t : World} {es : List EngineEvent} {os : List Effect} (hI : Inv w)
    (h : engineMachine.Steps w es os t) (hes : ∀ e ∈ es, e.isProbeMessage = false) :
    Inv t ∧ t.inner.probePending = (w.inner.probePending || asked os) ∧
      (w.inner.probeInFlight = true → t.inner.probeInFlight = true ∧ spawned os = []) := by
  have hrun := h.tracing
    (I := fun s os => Inv s ∧ s.inner.probePending = (w.inner.probePending || asked os) ∧
      (w.inner.probeInFlight = true → s.inner.probeInFlight = true ∧ spawned os = []))
    (C := fun _ e => e.isProbeMessage = false) ?_ (Machine.along_of_forall hes) ?_
  · exact hrun
  · intro s e t os₀ os hs he hst
    obtain ⟨hpend, hfly⟩ := between_messages he hst
    refine ⟨inv_step hs.1 hst, ?_, fun hp => ?_⟩
    · rw [hpend, hs.2.1, asked_append, Bool.or_assoc]
    · obtain ⟨hp', hnone⟩ := hs.2.2 hp
      obtain ⟨hp'', hnone'⟩ := hfly hp'
      exact ⟨hp'', by rw [spawned_append, hnone, hnone', List.append_nil]⟩
  · exact ⟨hI, by simp, fun hp => ⟨hp, rfl⟩⟩

/-- The message takes the flag. -/
theorem message_step {w t : World} {msg : ProbeMessage} {os : List Effect}
    (h : engineStep w (.probeMessage msg) = some (t, os)) :
    spawned os = (if reissues w.inner w.deps then [w.deps.configVersion] else []) ∧
      t.inner.probeInFlight = reissues w.inner w.deps ∧ t.inner.probePending = false := by
  cases step_kind h with
  | quiet he _ _ _ => cases he
  | message _ hr _ _ _ =>
    have hspec := handleProbeMessageWith_spec msg w.deps.configVersion w.inner w.deps
    rw [← handleProbeMessage, ← hr] at hspec
    exact ⟨hspec.spawns, hspec.probing, hspec.pending⟩

/-- What a reachable state promises about probes. -/
structure ProbeDiscipline (w : World) : Prop where
  single : w.probes.length ≤ 1
  exact : w.inner.probeInFlight = true ↔ w.probes.length = 1
  /-- While a probe is in flight no other is started, up to its message, -/
  alone : w.inner.probeInFlight = true → ∀ es os t, engineMachine.Steps w es os t →
    (∀ e ∈ es, e.isProbeMessage = false) → spawned os = []
  /-- and its message, report or failure, starts one for all the checks of the meantime, -/
  answered : ∀ es os t msg t' os', engineMachine.Steps w es os t →
    (∀ e ∈ es, e.isProbeMessage = false) → engineStep t (.probeMessage msg) = some (t', os') →
      (spawned os').length =
        ((w.inner.probePending || asked os) && t.inner.monitoring &&
          !isAnyPauseActive t.inner t.deps).toNat
  /-- after which nothing is left to answer: without another check the next message starts
  none. -/
  noEcho : ∀ msg t os, engineStep w (.probeMessage msg) = some (t, os) →
    t.inner.probePending = false ∧
    ∀ es os t' msg' t'' os', engineMachine.Steps t es os t' →
      (∀ e ∈ es, e.isProbeMessage = false) → asked os = false →
      engineStep t' (.probeMessage msg') = some (t'', os') → spawned os' = []

theorem probe_discipline {w : World} (hw : Reachable w) : ProbeDiscipline w := by
  have hI := reachable_inv hw
  have hanswered : ∀ {w : World}, Inv w → ∀ es os t msg t' os', engineMachine.Steps w es os t →
      (∀ e ∈ es, e.isProbeMessage = false) → engineStep t (.probeMessage msg) = some (t', os') →
      (spawned os').length =
        ((w.inner.probePending || asked os) && t.inner.monitoring &&
          !isAnyPauseActive t.inner t.deps).toNat := by
    intro w hI es os t msg t' os' hrun hes hmsg
    rw [(message_step hmsg).1, reissues, (run_between_messages hI hrun hes).2.1]
    split
    · next hc => rw [hc]; rfl
    · next hc =>
      rw [Bool.not_eq_true] at hc
      rw [hc]; rfl
  refine ⟨?_, ?_, ?_, hanswered hI, ?_⟩
  · rw [hI.probes]
    cases w.inner.probeInFlight <;> simp
  · rw [hI.probes]
    cases w.inner.probeInFlight <;> simp
  · intro hp es os t hrun hes
    exact ((run_between_messages hI hrun hes).2.2 hp).2
  · intro msg t os hmsg
    refine ⟨(message_step hmsg).2.2, ?_⟩
    intro es os t' msg' t'' os' hrun hes hasked hmsg'
    have hlen := hanswered (inv_step hI hmsg) es os t' msg' t'' os' hrun hes hmsg'
    rw [(message_step hmsg).2.2, hasked] at hlen
    exact List.length_eq_zero_iff.mp hlen

def pauseAndResume : List EngineEvent :=
  [.command .pause sampleWait, .command .resume sampleWait]

/-- Two resumes while the first probe is out: its failure starts one more probe. -/
theorem probe_discipline_sample :
    ∃ os t t' os', engineMachine.Steps (sampleWorld [.command .start sampleWait])
        (pauseAndResume ++ pauseAndResume) os t ∧
      engineStep t (.probeMessage (.failed "timeout" 0)) = some (t', os') ∧ asked os = true ∧
      (spawned os').length = 1 := by
  have hsome : (engineMachine.exec (sampleWorld [.command .start sampleWait])
      (pauseAndResume ++ pauseAndResume)).isSome = true := by decide
  have hmsg : (engineStep ((engineMachine.exec (sampleWorld [.command .start sampleWait])
      (pauseAndResume ++ pauseAndResume)).get hsome).1
        (.probeMessage (.failed "timeout" 0))).isSome = true := rfl
  obtain ⟨⟨t', os'⟩, hstep⟩ := Option.isSome_iff_exists.mp hmsg
  refine ⟨_, _, t', os', Machine.steps_get hsome, hstep, rfl, ?_⟩
  exact (probe_discipline (reachable_sampleWorld [.command .start sampleWait])).answered
    _ _ _ _ _ _ (Machine.steps_get hsome) (by decide) hstep

end CampusAuth.Engine
