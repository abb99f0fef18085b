import CampusAuth.Engine.Handlers

/- The invariant of the engine loop.

   `step_kind` sorts the steps of the machine: one that consumes no message, one that
   consumes a login result, one that consumes a probe message. `Inv` ties the loop's
   flags to what is outstanding and the cooling-down to the failure count;
   `reachable_inv` says it holds in every state the loop reaches. -/
namespace CampusAuth.Engine
open Status Monitor Config Login Lib

/-- Whether the event hands the loop a message of a task. -/
def EngineEvent.consumes : EngineEvent → Bool
  | .loginResult _ | .probeMessage _ => true
  | _ => false

/-- The three kinds of steps. -/
inductive StepKind (w : World) : EngineEvent → World → List Effect → Prop
  | quiet {e : EngineEvent} {t : World} {os : List Effect} (he : e.consumes = false)
      (hq : Quiet t.deps.configVersion w.inner (t.inner, os))
      (hprobes : t.probes = w.probes ++ spawned os) (hlogins : t.autoLogins = w.autoLogins) :
      StepKind w e t os
  | result {result : LoginResult} {t : World} {os : List Effect} (hout : 0 < w.autoLogins)
      (hr : (t.inner, os) = handleLoginResult result w.inner w.deps)
      (hprobes : t.probes = w.probes ++ spawned os)
      (hlogins : t.autoLogins = w.autoLogins - 1 + submissions os) (hdeps : t.deps = w.deps) :
      StepKind w (.loginResult result) t os
  | message {msg : ProbeMessage} {t : World} {os : List Effect}
      (hout : msg.configVersion ∈ w.probes)
      (hr : (t.inner, os) = handleProbeMessage msg w.inner w.deps)
      (hprobes : t.probes = w.probes.erase msg.configVersion ++ spawned os)
      (hlogins : t.autoLogins = w.autoLogins + submissions os) (hdeps : t.deps = w.deps) :
      StepKind w (.probeMessage msg) t os

theorem EngineDeps.precedes_iff {d d' : EngineDeps} :
    d.precedes d' = true ↔ d.now ≤ d'.now ∧ d.configVersion ≤ d'.configVersion := by
  simp [EngineDeps.precedes]

/-- A world settled after a quiet handler. -/
theorem stepKind_settle {w : World} {r : Handled} {deps : EngineDeps} {e : EngineEvent}
    (running : Bool) (he : e.consumes = false) (hq : Quiet deps.configVersion w.inner r) :
    StepKind w e { w.settle r deps with running } r.2 :=
  .quiet he hq rfl (by simp [World.settle, hq.submits])

theorem step_kind {w t : World} {e : EngineEvent} {os : List Effect}
    (h : engineStep w e = some (t, os)) : StepKind w e t os := by
  unfold engineStep at h
  split at h
  · next cmd aw =>
    split at h
    · next hg =>
      cases h
      simp only [Bool.and_eq_true, EngineDeps.precedes_iff] at hg
      exact stepKind_settle _ rfl (quiet_handleCommand _ _ _ _ hg.2.2 (Nat.le_refl _))
    · cases h
  · next result =>
    split at h
    · next hg =>
      cases h
      simp only [Bool.and_eq_true, decide_eq_true_eq] at hg
      exact .result hg.2 rfl rfl rfl rfl
    · cases h
  · next msg =>
    split at h
    · next hg =>
      cases h
      simp only [Bool.and_eq_true, List.contains_iff_mem] at hg
      exact .message hg.2 rfl rfl rfl rfl
    · cases h
  · split at h
    · cases h
      exact stepKind_settle w.running rfl (quiet_resetCheckTimer ..)
    · cases h
  · split at h
    · cases h
      exact stepKind_settle w.running rfl (quiet_handleTick _ _ (Nat.le_refl _))
    · cases h
  · next gateways ssid found aw =>
    split at h
    · next hg =>
      cases h
      simp only [Bool.and_eq_true, EngineDeps.precedes_iff] at hg
      have hq := quiet_checkProfileSwitch gateways ssid aw w.inner found hg.2.2 (Nat.le_refl _)
      refine stepKind_settle w.running
        (r := ({ (checkProfileSwitch gateways ssid aw w.inner found).1 with
          lastProfileCheck := aw.after.now }, (checkProfileSwitch gateways ssid aw w.inner found).2))
        rfl ?_
      exact ⟨hq.cautious, hq.retryAfter, hq.failures, hq.coolingDown, hq.loginInFlight, hq.submits,
        hq.probing, hq.spawns, hq.versions, hq.pending⟩
    · cases h
  · split at h
    · cases h
      exact .quiet rfl (quiet_refl w.inner) (by simp) rfl
    · cases h

/-- The clock only moves forward. -/
theorem step_now_le {w t : World} {e : EngineEvent} {os : List Effect}
    (h : engineStep w e = some (t, os)) : w.deps.now ≤ t.deps.now := by
  unfold engineStep at h
  split at h <;> split at h <;> cases h
  · next hg =>
    simp only [Bool.and_eq_true, EngineDeps.precedes_iff] at hg
    exact hg.2.1
  · exact Nat.le_refl _
  · exact Nat.le_refl _
  · exact Nat.le_refl _
  · exact Nat.le_refl _
  · next hg =>
    simp only [Bool.and_eq_true, EngineDeps.precedes_iff] at hg
    exact Nat.le_trans hg.1.2.1 hg.2.1
  · next hg => exact (EngineDeps.precedes_iff.mp hg).1

/-! ## The invariant -/

structure Inv (w : World) : Prop where
  probes : w.probes.length = w.inner.probeInFlight.toNat
  logins : w.autoLogins = w.inner.autoLoginInFlight.toNat
  budget : w.inner.consecutiveFailures ≤ coolingDownThreshold
  cooling : w.inner.coolingDownUntil.isSome ↔ w.inner.consecutiveFailures = coolingDownThreshold
  /-- No automatic login is out during a cooling-down. -/
  rested : w.inner.coolingDownUntil.isSome → w.inner.autoLoginInFlight = false

theorem inv_init (deps : EngineDeps) : Inv (.init deps) where
  probes := rfl
  logins := rfl
  budget := Nat.zero_le _
  cooling := by simp [World.init, EngineInner.new, coolingDownThreshold]
  rested := fun _ => rfl

/-- A quiet step only moves the probes. -/
theorem Inv.quiet {w t : World} {bound : Nat} {os : List Effect} (hI : Inv w)
    (hq : Quiet bound w.inner (t.inner, os))
    (hprobes : t.probes = w.probes ++ spawned os) (hlogins : t.autoLogins = w.autoLogins) :
    Inv t where
  probes := by
    have hs := hq.spawns
    have hp := hq.probing
    rw [hprobes, List.length_append, hI.probes, hs]
    revert hp
    cases w.inner.probeInFlight <;> cases t.inner.probeInFlight <;> simp
  logins := by rw [hlogins, hI.logins, ← hq.loginInFlight]
  budget := by rw [hq.failures]; exact hI.budget
  cooling := by rw [hq.coolingDown, hq.failures]; exact hI.cooling
  rested := by rw [hq.coolingDown, hq.loginInFlight]; exact hI.rested

/-- While a login is out there is no cooling-down and the budget is not used up. -/
theorem Inv.below_budget {w : World} (hI : Inv w) (h : 0 < w.autoLogins) :
    w.inner.coolingDownUntil = none ∧ w.inner.consecutiveFailures < coolingDownThreshold := by
  have hfly : w.inner.autoLoginInFlight = true := by
    rw [hI.logins] at h
    cases hb : w.inner.autoLoginInFlight
    · rw [hb] at h; cases h
    · rfl
  have hnone : w.inner.coolingDownUntil.isSome = false := by
    cases hc : w.inner.coolingDownUntil.isSome
    · rfl
    · have := hI.rested hc
      rw [hfly] at this
      cases this
  refine ⟨by simpa using hnone, ?_⟩
  have hne : w.inner.consecutiveFailures ≠ coolingDownThreshold := by
    intro heq
    have := hI.cooling.mpr heq
    rw [hnone] at this
    cases this
  have := hI.budget
  omega

/-- The budget after a result: still bounded, and a cooling-down exactly at the bound. -/
theorem budgetAfter_ok (result : LoginResult) (now : Nat) {inner : EngineInner}
    (hc : inner.coolingDownUntil = none)
    (hf : inner.consecutiveFailures < coolingDownThreshold) :
    (budgetAfter result now inner).1 ≤ coolingDownThreshold ∧
      ((budgetAfter result now inner).2.isSome ↔
        (budgetAfter result now inner).1 = coolingDownThreshold) := by
  unfold budgetAfter
  cases loginFailureBudgetAction result.terminal result.source with
  | reset => simp [coolingDownThreshold]
  | increment =>
    simp only [hc, Option.isNone_none, and_true]
    split
    · simp; omega
    · simp; omega
  | preserve =>
    simp [hc]; omega

theorem Inv.result {w t : World} {result : LoginResult} {os : List Effect} (hI : Inv w)
    (hout : 0 < w.autoLogins) (hr : (t.inner, os) = handleLoginResult result w.inner w.deps)
    (hprobes : t.probes = w.probes ++ spawned os)
    (hlogins : t.autoLogins = w.autoLogins - 1 + submissions os) : Inv t := by
  obtain ⟨hc, hf⟩ := hI.below_budget hout
  obtain ⟨notifier, warnings, hw, heq⟩ := handleLoginResult_eq result w.inner w.deps
  rw [heq] at hr
  simp only [Prod.mk.injEq] at hr
  obtain ⟨hi, rfl⟩ := hr
  have hsp : spawned (warnings ++
      [mergeEngineState t.inner w.deps (engineStateFor w.inner)]) = [] := by
    rcases hw with rfl | ⟨p, n, m, f, rfl⟩ <;> rfl
  have hsub : submissions (warnings ++
      [mergeEngineState t.inner w.deps (engineStateFor w.inner)]) = 0 := by
    rcases hw with rfl | ⟨p, n, m, f, rfl⟩ <;> rfl
  rw [← hi, hsp] at hprobes
  rw [← hi, hsub] at hlogins
  have hone : w.autoLogins ≤ 1 := by
    rw [hI.logins]; cases w.inner.autoLoginInFlight <;> simp
  obtain ⟨hle, hiff⟩ := budgetAfter_ok result w.deps.now hc hf
  constructor
  · rw [hprobes, List.append_nil, hI.probes, hi]
  · rw [hlogins, hi]
    have h0 : w.autoLogins - 1 + 0 = 0 := by omega
    rw [h0]
    rfl
  · rw [hi]; exact hle
  · rw [hi]; exact hiff
  · intro _
    rw [hi]

/-- Clearing an expired cooling-down keeps bound and equivalence. -/
theorem budgetCleared_ok (now : Nat) {inner : EngineInner}
    (hb : inner.consecutiveFailures ≤ coolingDownThreshold)
    (hc : inner.coolingDownUntil.isSome ↔ inner.consecutiveFailures = coolingDownThreshold) :
    (budgetCleared now inner).1 ≤ coolingDownThreshold ∧
      ((budgetCleared now inner).2.isSome ↔
        (budgetCleared now inner).1 = coolingDownThreshold) := by
  unfold budgetCleared
  split
  · simp [coolingDownThreshold]
  · exact ⟨hb, hc⟩

theorem budgetCleared_isSome {now : Nat} {inner : EngineInner}
    (h : (budgetCleared now inner).2.isSome) : inner.coolingDownUntil.isSome := by
  unfold budgetCleared at h
  split at h
  · cases h
  · exact h

theorem Inv.message {w t : World} {msg : ProbeMessage} {os : List Effect} (hI : Inv w)
    (hout : msg.configVersion ∈ w.probes)
    (hr : (t.inner, os) = handleProbeMessage msg w.inner w.deps)
    (hprobes : t.probes = w.probes.erase msg.configVersion ++ spawned os)
    (hlogins : t.autoLogins = w.autoLogins + submissions os) : Inv t := by
  have hs := handleProbeMessageWith_spec msg w.deps.configVersion w.inner w.deps
  rw [← handleProbeMessage, ← hr] at hs
  obtain ⟨hle, hiff⟩ := budgetCleared_ok w.deps.now hI.budget hI.cooling
  constructor
  · have hlen : (w.probes.erase msg.configVersion).length = 0 := by
      rw [List.length_erase_of_mem hout, hI.probes]
      cases w.inner.probeInFlight <;> rfl
    rw [hprobes, List.length_append, hlen, hs.spawns, hs.probing]
    cases reissues w.inner w.deps <;> rfl
  · rw [hlogins, hI.logins, hs.submits, hs.loginInFlight]
    cases hgo : submitsLogin msg w.deps.configVersion w.inner w.deps with
    | false => simp
    | true =>
      obtain ⟨_, _, _, _, _, _, _, _, hfly, _⟩ := submitsLogin_iff.mp hgo
      simp [hfly]
  · rw [hs.failures]; exact hle
  · rw [hs.failures, hs.coolingDown]; exact hiff
  · intro hc
    rw [hs.coolingDown] at hc
    rw [hs.loginInFlight, hI.rested (budgetCleared_isSome hc), Bool.false_or]
    cases hgo : submitsLogin msg w.deps.configVersion w.inner w.deps with
    | false => rfl
    | true =>
      obtain ⟨_, _, _, _, _, _, _, hcool, _⟩ := submitsLogin_iff.mp hgo
      rw [hcool] at hc
      cases hc

theorem inv_step {w t : World} {e : EngineEvent} {os : List Effect} (hI : Inv w)
    (h : engineStep w e = some (t, os)) : Inv t := by
  cases step_kind h with
  | quiet he hq hprobes hlogins => exact hI.quiet hq hprobes hlogins
  | result hout hr hprobes hlogins hdeps => exact hI.result hout hr hprobes hlogins
  | message hout hr hprobes hlogins hdeps => exact hI.message hout hr hprobes hlogins

theorem reachable_inv {w : World} (h : Reachable w) : Inv w := by
  obtain ⟨deps, h⟩ := h
  exact h.invariant (inv_init deps) inv_step

end CampusAuth.Engine
