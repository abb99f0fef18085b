import CampusAuth.Login.SessionOutcome

/- What a session's result says of its attempts (`login/session.rs`, `make_result`).

   The number of attempts is right as long as the session does not stop between two of them
   (`attempts_counted_iff`): the counter is raised before the back-off, and every result adds
   one for an attempt that is taken to be under way. `network_retryable` is read off the last
   outcome, which an attempt without one leaves standing: it is right as long as no attempt
   behind a network failure ends in a timeout or an error of the bridge
   (`retryable_honest_iff`). -/
namespace CampusAuth.Login
open Lib Status Bridge

/-- A network-class outcome, or a verification that failed behind a success. -/
def AttemptNote.onNetwork (n : AttemptNote) : Bool :=
  n.verified == some .retryableFailure || n.reported == some .networkError ||
    n.reported == some .navigationTimeout

/-- What `make_result` takes for the failure that ends the session. -/
def LoginSession.lastOnNetwork (s : LoginSession) : Bool :=
  s.lastOutcome == some .networkError || s.lastOutcome == some .navigationTimeout

/-- The work of the attempt was polled. -/
def SessionPhase.inFlight : SessionPhase → Bool
  | .attempting _ true _ => true
  | _ => false

/-- The bridge comes back with an error that ends the session. -/
def WorkResult.fails (w : WorkResult) : Bool :=
  match w.result with
  | .error _ => true
  | .ok _ => false

/-- The session is stopped while no attempt is under way. -/
def StopsEarly (s : LoginSession) : SessionEvent → Prop
  | .poll p =>
    match s.phase with
    | .loopTop => s.cancelToken = true ∨ s.elapsed p > s.totalTimeout
    | .attempting _ false deadline =>
      s.cancelToken = true ∨ s.shutdownToken = true ∨ deadline ≤ p.now
    | .backingOff _ => s.cancelToken = true ∨ s.shutdownToken = true
    | _ => False
  | _ => False

/-- An attempt behind a network failure ends without an outcome of its own. -/
def EndsUnheard (s : LoginSession) : SessionEvent → Prop
  | .poll p =>
    match s.phase with
    | .attempting _ started deadline => s.Free ∧ s.lastOnNetwork = true ∧
        if deadline ≤ p.now then started = true else p.work.any WorkResult.fails = true
    | _ => False
  | _ => False

/-- A running session: `n` is what was noted of it, `k` how many attempts it executed. -/
structure Account (s : LoginSession) (n : AttemptNote) (k : Nat) : Prop where
  count : k + s.phase.unsent = s.attemptsUsed.toNat + s.phase.attempted
  note : if s.phase.inFlight then n = {} else n.onNetwork = s.lastOnNetwork

/-- A poll of a running session goes on with the account, or closes it with a result. -/
inductive Turn (s : LoginSession) (p : SessionPoll) (n : AttemptNote) (k : Nat) :
    LoginSession → List SessionEffect → Prop
  | runs {t : LoginSession} {os : List SessionEffect} : t.phase.running = true → results os = [] →
      ¬StopsEarly s (.poll p) → ¬EndsUnheard s (.poll p) →
      Account t (noted n os) (k + executed os) → Turn s p n k t os
  | ends {t : LoginSession} {os : List SessionEffect} {r : LoginResult} :
      t.phase.running = false → results os = [r] →
      r.attempts = (s.attemptsUsed + 1).toNat → t.attemptsUsed = s.attemptsUsed →
      (StopsEarly s (.poll p) ∧ k + executed os = s.attemptsUsed.toNat ∨
        ¬StopsEarly s (.poll p) ∧ k + executed os = s.attemptsUsed.toNat + 1) →
      ((r.networkRetryable = true → (noted n os).onNetwork = true) ↔ ¬EndsUnheard s (.poll p)) →
      Turn s p n k t os

theorem account_init (params : SessionParams) : Account { params := params } {} 0 :=
  ⟨rfl, rfl⟩

namespace LoginSession
variable {s s' : LoginSession} {p : SessionPoll} {n : AttemptNote} {k : Nat}
  {pre : List SessionEffect}

theorem noted_after_emit (r : LoginResult) : noted n (after pre (s'.emit r)).2 = noted n pre := by
  rw [after, noted, List.foldl_append]
  exact noted_emit s' r _

theorem executed_after_emit (r : LoginResult) : executed (after pre (s'.emit r)).2 = executed pre := by
  rw [after, executed, Machine.weigh_append]
  exact Nat.add_zero _

/-- The session ends through `emit`, after the effects `pre`. -/
theorem turn_emit {r : LoginResult} (hres : results pre = [])
    (hused : s'.attemptsUsed = s.attemptsUsed) (hr : r.attempts = (s'.attemptsUsed + 1).toNat)
    (hcount : StopsEarly s (.poll p) ∧ k + executed pre = s.attemptsUsed.toNat ∨
      ¬StopsEarly s (.poll p) ∧ k + executed pre = s.attemptsUsed.toNat + 1)
    (hflag : (r.networkRetryable = true → (noted n pre).onNetwork = true) ↔
      ¬EndsUnheard s (.poll p)) :
    Turn s p n k (after pre (s'.emit r)).1 (after pre (s'.emit r)).2 := by
  refine .ends rfl ?_ (hused ▸ hr) hused ?_ ?_
  · rw [after, results_append, hres, results_emit, List.nil_append]
  · rw [executed_after_emit]
    exact hcount
  · rw [noted_after_emit]
    exact hflag

/-- Nothing is flagged unless the session failed. -/
theorem turn_unflagged {r : LoginResult} (hres : results pre = [])
    (hused : s'.attemptsUsed = s.attemptsUsed) (hr : r.attempts = (s'.attemptsUsed + 1).toNat)
    (hcount : StopsEarly s (.poll p) ∧ k + executed pre = s.attemptsUsed.toNat ∨
      ¬StopsEarly s (.poll p) ∧ k + executed pre = s.attemptsUsed.toNat + 1)
    (hflag : r.networkRetryable = false) (hheard : ¬EndsUnheard s (.poll p)) :
    Turn s p n k (after pre (s'.emit r)).1 (after pre (s'.emit r)).2 :=
  turn_emit hres hused hr hcount ⟨fun _ => hheard, fun _ h => Bool.noConfusion (hflag.symm.trans h)⟩

/-- The flag of a failure is that of the last outcome. -/
theorem makeResult_failed_flag (message : String) :
    (s.makeResult p .failed message).networkRetryable = s.lastOnNetwork := rfl

/-- The session fails with an account that agrees with its last outcome. -/
theorem turn_failed (message : String) (hres : results pre = [])
    (hused : s'.attemptsUsed = s.attemptsUsed)
    (hcount : StopsEarly s (.poll p) ∧ k + executed pre = s.attemptsUsed.toNat ∨
      ¬StopsEarly s (.poll p) ∧ k + executed pre = s.attemptsUsed.toNat + 1)
    (hnote : (noted n pre).onNetwork = s'.lastOnNetwork) (hheard : ¬EndsUnheard s (.poll p)) :
    Turn s p n k (after pre (s'.finishWithFailure p message)).1
      (after pre (s'.finishWithFailure p message)).2 := by
  refine turn_emit hres hused rfl hcount ⟨fun _ => hheard, fun _ h => ?_⟩
  rw [hnote, ← makeResult_failed_flag (p := p) message]
  exact h

/-- Another retry is counted, or the session fails. -/
theorem turn_tryRetry (structured : StructuredResult) (force : Bool) (owner : Option String)
    (hres : results pre = []) (hused : s'.attemptsUsed = s.attemptsUsed)
    (hearly : ¬StopsEarly s (.poll p)) (hheard : ¬EndsUnheard s (.poll p))
    (hcount : k + executed pre = s.attemptsUsed.toNat + 1)
    (hnote : (noted n pre).onNetwork = s'.lastOnNetwork) :
    Turn s p n k (after pre (s'.tryRetry p structured force owner)).1
      (after pre (s'.tryRetry p structured force owner)).2 := by
  unfold tryRetry
  split
  · exact turn_failed _ hres hused (.inr ⟨hearly, hcount⟩) hnote hheard
  next hbelow =>
    have hnext : (s'.attemptsUsed + 1).toNat = s.attemptsUsed.toNat + 1 := by
      rw [UInt32.toNat_succ_of_lt (UInt32.not_le.mp hbelow), hused]
    split
    · refine .runs rfl ?_ hearly hheard ⟨?_, ?_⟩
      · rw [after, results_append, hres]; rfl
      · rw [after, executed_append, ← Nat.add_assoc, hcount]
        exact hnext.symm
      · rw [after, noted_append]
        exact hnote
    · refine .runs rfl ?_ hearly hheard ⟨?_, ?_⟩
      · rw [after, results_append, hres]; rfl
      · rw [after, executed_append, ← Nat.add_assoc, hcount]
        exact hnext.symm
      · rw [after, noted_append]
        exact hnote

/-- The attempt of a session comes back, with nothing known of it so far. -/
theorem turn_attemptDone {id : String} {started : Bool} {deadline : Nat} {work : WorkResult}
    (hphase : s.phase = .attempting id started deadline) (hres : results pre = [])
    (hfree : s.Free) (hwork : p.work = some work) (htime : ¬deadline ≤ p.now)
    (hcount : k + executed pre = s.attemptsUsed.toNat + 1) (hnote : noted n pre = {}) :
    Turn s p n k (after pre (s.attemptDone p work.result)).1
      (after pre (s.attemptDone p work.result)).2 := by
  have hearly : ¬StopsEarly s (.poll p) := by
    cases started <;> simp [StopsEarly, hphase, hfree.1, hfree.2, htime]
  have hunheard : EndsUnheard s (.poll p) ↔ s.lastOnNetwork = true ∧ work.fails = true := by
    simp [EndsUnheard, hphase, hwork, htime, hfree]
  cases hresult : work.result with
  | error e =>
    have hfails : work.fails = true := by simp [WorkResult.fails, hresult]
    refine turn_emit hres rfl rfl (.inr ⟨hearly, hcount⟩) ?_
    rw [makeResult_failed_flag, hnote, hunheard]
    simp [hfails, AttemptNote.onNetwork]
  | ok structured =>
    have hheard : ¬EndsUnheard s (.poll p) := by simp [hunheard, WorkResult.fails, hresult]
    have hres' : results (pre ++ [.attempted structured.outcome]) = [] := by
      rw [results_append, hres]; rfl
    have hcount' : k + executed (pre ++ [.attempted structured.outcome]) =
        s.attemptsUsed.toNat + 1 := by
      rw [executed_append, ← Nat.add_assoc, hcount]; rfl
    have hsaid : noted n (pre ++ [.attempted structured.outcome]) =
        { reported := some structured.outcome } := by
      rw [noted_append, hnote]; rfl
    have hnote' : (noted n (pre ++ [.attempted structured.outcome])).onNetwork =
        LoginSession.lastOnNetwork
          { s with lastOutcome := some structured.outcome, attemptCancelId := none } := by
      rw [hsaid]
      simp [AttemptNote.onNetwork, lastOnNetwork]
    have hboth : StopsEarly s (.poll p) ∧
        k + executed (pre ++ [.attempted structured.outcome]) = s.attemptsUsed.toNat ∨
        ¬StopsEarly s (.poll p) ∧ k + executed (pre ++ [.attempted structured.outcome]) =
          s.attemptsUsed.toNat + 1 := .inr ⟨hearly, hcount'⟩
    simp only [attemptDone, after_after]
    by_cases hx : classify structured.outcome = .retry ∧ s.attemptsUsed ≥ s.params.maxRetries
    · rw [if_pos hx]
      exact turn_failed _ hres' rfl hboth hnote' hheard
    · rw [if_neg hx]
      cases hc : classify structured.outcome with
      | terminal kind =>
        cases kind with
        | success =>
          have hsucc : structured.outcome = .success := classify_success hc
          by_cases hexp : s.params.plan.hasExplicitSuccessCondition = true
          · simp only [hexp, if_true]
            exact turn_unflagged hres' rfl rfl hboth rfl hheard
          · simp only [hexp]
            by_cases hrem : s.params.loginTimeout - s.elapsed p = 0
            · -- no time is left for the verification: that counts as one that failed
              simp only [elapsed] at hrem
              simp only [elapsed, hrem, if_true, Bool.false_eq_true, if_false, retryUnverified,
                after_after]
              refine turn_tryRetry _ _ _ ?_ rfl hearly hheard ?_ ?_
              · rw [results_append, hres']; rfl
              · rw [executed_append, ← Nat.add_assoc, hcount']; rfl
              · rw [noted_append, hsaid]; rfl
            · simp only [elapsed] at hrem
              simp only [elapsed, hrem, Bool.false_eq_true, if_false]
              refine .runs rfl ?_ hearly hheard ⟨?_, ?_⟩
              · simpa [after] using hres'
              · simpa [after, SessionPhase.unsent, SessionPhase.attempted] using hcount'
              · rw [after, List.append_nil]
                exact hnote'
        | cancelled => exact turn_unflagged hres' rfl rfl hboth rfl hheard
        | failed => exact turn_failed _ hres' rfl hboth hnote' hheard
      | retry => exact turn_tryRetry _ _ _ hres' rfl hearly hheard hcount' hnote'
      | exhausted => exact turn_failed _ hres' rfl hboth hnote' hheard

end LoginSession

/-! ## One lemma for each phase -/

open LoginSession

variable {s : LoginSession} {p : SessionPoll} {n : AttemptNote} {k : Nat}

theorem Account.loopTop (h : Account s n k) (hphase : s.phase = .loopTop) :
    Turn s p n k (s.pollLoopTop p).1 (s.pollLoopTop p).2 := by
  have hcount : k = s.attemptsUsed.toNat := by simpa [hphase, SessionPhase.unsent,
    SessionPhase.attempted] using h.count
  have hnote : n.onNetwork = s.lastOnNetwork := by simpa [hphase, SessionPhase.inFlight] using h.note
  have hheard : ¬EndsUnheard s (.poll p) := by simp [EndsUnheard, hphase]
  unfold pollLoopTop
  split
  next hc =>
    have hearly : StopsEarly s (.poll p) := by simp [StopsEarly, hphase, hc]
    exact @turn_unflagged s s p n k [] _ rfl rfl rfl (.inl ⟨hearly, hcount⟩) rfl hheard
  next hc =>
    split
    next ht =>
      have hearly : StopsEarly s (.poll p) := by simp [StopsEarly, hphase, ht]
      cases s.attemptCancelId with
      | none => exact @turn_failed s s p n k [] _ rfl rfl (.inl ⟨hearly, hcount⟩) hnote hheard
      | some cid =>
        dsimp only
        split
        · exact turn_failed _ rfl rfl (.inl ⟨hearly, hcount⟩) hnote hheard
        · exact @turn_failed s s p n k [] _ rfl rfl (.inl ⟨hearly, hcount⟩) hnote hheard
    next ht =>
      have hearly : ¬StopsEarly s (.poll p) := by simp [StopsEarly, hphase, hc, ht]
      refine .runs rfl rfl hearly hheard ⟨?_, ?_⟩
      · split <;> simp [hcount, SessionPhase.unsent, SessionPhase.attempted, executed,
          SessionEffect.executes]
      · split <;> exact hnote

theorem Account.attempting {id : String} {started : Bool} {deadline : Nat} (h : Account s n k)
    (hphase : s.phase = .attempting id started deadline) :
    Turn s p n k (s.pollAttempt p id started deadline).1
      (s.pollAttempt p id started deadline).2 := by
  have hcount : k + s.phase.unsent = s.attemptsUsed.toNat + 1 := by
    rw [h.count, hphase]; rfl
  -- what a token ends was under way if its work had been polled
  have hstopped : ∀ pre, executed pre = 0 → (StopsEarly s (.poll p) ↔ started = false) →
      StopsEarly s (.poll p) ∧ k + executed pre = s.attemptsUsed.toNat ∨
        ¬StopsEarly s (.poll p) ∧ k + executed pre = s.attemptsUsed.toNat + 1 := by
    intro pre hpre hiff
    rw [hpre, Nat.add_zero]
    cases started with
    | false =>
      rw [hphase] at hcount
      exact .inl ⟨hiff.mpr rfl, Nat.succ.inj hcount⟩
    | true =>
      rw [hphase] at hcount
      exact .inr ⟨fun hs => Bool.noConfusion (hiff.mp hs), hcount⟩
  unfold pollAttempt
  by_cases hc : s.cancelToken = true
  · have hheard : ¬EndsUnheard s (.poll p) := by simp [EndsUnheard, hphase, Free, hc]
    have hearly : StopsEarly s (.poll p) ↔ started = false := by
      cases started <;> simp [StopsEarly, hphase, hc]
    rw [if_pos hc]
    refine turn_unflagged ?_ rfl rfl (hstopped _ ?_ hearly) rfl hheard <;> split <;> rfl
  by_cases hs : s.shutdownToken = true
  · have hheard : ¬EndsUnheard s (.poll p) := by simp [EndsUnheard, hphase, Free, hs]
    have hearly : StopsEarly s (.poll p) ↔ started = false := by
      cases started <;> simp [StopsEarly, hphase, hs]
    rw [if_neg hc, if_pos hs]
    refine turn_unflagged ?_ rfl rfl (hstopped _ ?_ hearly) rfl hheard <;> split <;> rfl
  have hfree : s.Free := ⟨by simpa using hc, by simpa using hs⟩
  rw [if_neg hc, if_neg hs]
  by_cases ht : deadline ≤ p.now
  · have hearly : StopsEarly s (.poll p) ↔ started = false := by
      cases started <;> simp [StopsEarly, hphase, hc, hs, ht]
    have hnoted : ∀ cancels, noted n (if s.params.plan.usesBridge
        then [SessionEffect.cancelAttempt cancels] else []) = n := by intro c; split <;> rfl
    rw [if_pos ht]
    refine turn_emit ?_ rfl rfl (hstopped _ ?_ hearly) ?_
    · split <;> rfl
    · split <;> rfl
    · rw [makeResult_failed_flag, hnoted]
      have hnote := h.note
      cases started with
      | false =>
        have hheard : ¬EndsUnheard s (.poll p) := by simp [EndsUnheard, hphase, ht]
        simp only [hphase, SessionPhase.inFlight, Bool.false_eq_true, if_false] at hnote
        rw [hnote]
        exact ⟨fun _ => hheard, fun _ h => h⟩
      | true =>
        simp only [hphase, SessionPhase.inFlight, if_true] at hnote
        rw [hnote]
        simp [EndsUnheard, hphase, ht, hfree, AttemptNote.onNetwork]
  rw [if_neg ht]
  have hsends : executed (if started then [] else
      [SessionEffect.execute (s.params.attemptCall id)]) = s.phase.unsent := by
    rw [hphase]; cases started <;> rfl
  have hnoted : noted n (if started then [] else
      [SessionEffect.execute (s.params.attemptCall id)]) = {} := by
    cases started with
    | false => rfl
    | true => simpa [hphase, SessionPhase.inFlight] using h.note
  cases hw : p.work with
  | none =>
    refine .runs rfl ?_ ?_ ?_ ⟨?_, ?_⟩
    · cases started <;> rfl
    · cases started <;> simp [StopsEarly, hphase, hfree.1, hfree.2, ht]
    · simp [EndsUnheard, hphase, ht, hw]
    · rw [hsends, hcount]; rfl
    · exact hnoted
  | some work =>
    refine turn_attemptDone hphase ?_ hfree hw ht ?_ hnoted
    · cases started <;> rfl
    · rw [hsends]
      exact hcount

theorem Account.verifying {structured : StructuredResult} {owner : Option String}
    {wakeAt deadline : Nat} (h : Account s n k)
    (hphase : s.phase = .verifying structured owner wakeAt deadline) :
    Turn s p n k (s.pollVerification p structured owner wakeAt deadline).1
      (s.pollVerification p structured owner wakeAt deadline).2 := by
  have hcount : k = s.attemptsUsed.toNat + 1 := by
    simpa [hphase, SessionPhase.unsent, SessionPhase.attempted] using h.count
  have hearly : ¬StopsEarly s (.poll p) := by simp [StopsEarly, hphase]
  have hheard : ¬EndsUnheard s (.poll p) := by simp [EndsUnheard, hphase]
  have hretry : Turn s p n k (s.retryUnverified p structured owner).1
      (s.retryUnverified p structured owner).2 :=
    turn_tryRetry _ _ _ rfl rfl hearly hheard hcount rfl
  unfold pollVerification
  split
  · exact turn_unflagged rfl rfl rfl (.inr ⟨hearly, hcount⟩) rfl hheard
  split
  · exact turn_unflagged rfl rfl rfl (.inr ⟨hearly, hcount⟩) rfl hheard
  split
  · exact turn_unflagged rfl rfl rfl (.inr ⟨hearly, hcount⟩) rfl hheard
  · exact hretry
  · split
    · exact hretry
    · exact .runs (by rw [hphase]; rfl) rfl hearly hheard h

theorem Account.backingOff {wakeAt : Nat} (h : Account s n k) (hphase : s.phase = .backingOff wakeAt) :
    Turn s p n k (s.pollBackoff p wakeAt).1 (s.pollBackoff p wakeAt).2 := by
  have hcount : k = s.attemptsUsed.toNat := by
    simpa [hphase, SessionPhase.unsent, SessionPhase.attempted] using h.count
  have hnote : n.onNetwork = s.lastOnNetwork := by simpa [hphase, SessionPhase.inFlight] using h.note
  have hheard : ¬EndsUnheard s (.poll p) := by simp [EndsUnheard, hphase]
  unfold pollBackoff
  split
  next hc =>
    have hearly : StopsEarly s (.poll p) := by simp [StopsEarly, hphase, hc]
    exact @turn_unflagged s s p n k [] _ rfl rfl rfl (.inl ⟨hearly, hcount⟩) rfl hheard
  next hc =>
    split
    next hs =>
      have hearly : StopsEarly s (.poll p) := by simp [StopsEarly, hphase, hs]
      exact @turn_unflagged s _ p n k [] _ rfl rfl rfl (.inl ⟨hearly, hcount⟩) rfl hheard
    next hs =>
      have hearly : ¬StopsEarly s (.poll p) := by simp [StopsEarly, hphase, hc, hs]
      split
      · exact .runs rfl rfl hearly hheard ⟨hcount, hnote⟩
      · exact .runs (by rw [hphase]; rfl) rfl hearly hheard h

theorem Account.poll {t : LoginSession} {os : List SessionEffect} (h : Account s n k)
    (hrun : s.phase.running = true) (hstep : s.poll p = some (t, os)) : Turn s p n k t os := by
  unfold LoginSession.poll at hstep
  split at hstep
  next hphase =>
    cases hstep
    have hcount := h.count
    have hnote := h.note
    rw [hphase] at hcount hnote
    exact .runs rfl rfl (by simp [StopsEarly, hphase]) (by simp [EndsUnheard, hphase])
      ⟨hcount, hnote⟩
  next hphase =>
    have hturn : Turn s p n k (s.pollLoopTop p).1 (s.pollLoopTop p).2 := h.loopTop hphase
    rwa [Option.some.inj hstep] at hturn
  next id started deadline hphase =>
    have hturn : Turn s p n k (s.pollAttempt p id started deadline).1
        (s.pollAttempt p id started deadline).2 := h.attempting hphase
    rwa [Option.some.inj hstep] at hturn
  next structured owner wakeAt deadline hphase =>
    have hturn : Turn s p n k (s.pollVerification p structured owner wakeAt deadline).1
        (s.pollVerification p structured owner wakeAt deadline).2 := h.verifying hphase
    rwa [Option.some.inj hstep] at hturn
  next backoff hphase =>
    have hcount := h.count
    have hnote := h.note
    have hearly : ¬StopsEarly s (.poll p) := by simp [StopsEarly, hphase]
    have hheard : ¬EndsUnheard s (.poll p) := by simp [EndsUnheard, hphase]
    rw [hphase] at hcount hnote
    split at hstep
    · cases hstep
      exact .runs rfl rfl hearly hheard ⟨hcount, hnote⟩
    · cases hstep
      exact .runs hrun rfl hearly hheard h
  next wakeAt hphase =>
    have hturn : Turn s p n k (s.pollBackoff p wakeAt).1 (s.pollBackoff p wakeAt).2 :=
      h.backingOff hphase
    rwa [Option.some.inj hstep] at hturn
  next hphase => rw [hphase] at hrun; cases hrun
  next hphase => rw [hphase] at hrun; cases hrun
  next => cases hstep

/-! ## Whole runs -/

/-- The steps at which no session is stopped between two attempts. -/
abbrev StaysOn (s : LoginSession) (e : SessionEvent) : Prop := ¬StopsEarly s e

/-- The steps at which no attempt behind a network failure ends without an outcome. -/
abbrev Heard (s : LoginSession) (e : SessionEvent) : Prop := ¬EndsUnheard s e

/-- Once the result is out, nothing more is executed or written. -/
structure Over (s : LoginSession) (es : List SessionEvent) (os : List SessionEffect)
    (t : LoginSession) : Prop where
  stays : t.phase.running = false
  results : results os = []
  executed : executed os = 0
  noted : ∀ n, noted n os = n
  used : t.attemptsUsed = s.attemptsUsed
  staysOn : sessionMachine.Along StaysOn s es
  heard : sessionMachine.Along Heard s es

theorem over_step {s t : LoginSession} {e : SessionEvent} {os : List SessionEffect}
    (hover : s.phase.running = false) (h : sessionMachine.step s e = some (t, os)) :
    t.phase.running = false ∧ Silent os ∧ t.attemptsUsed = s.attemptsUsed := by
  have hrunning : ∀ {P : Prop}, s.phase.running = true → P :=
    fun hr => absurd (hr.symm.trans hover) Bool.noConfusion
  rcases session_step_kind h with ⟨p, -, hkind⟩ | ⟨-, rfl, ht⟩
  · cases hkind with
    | waits => exact ⟨hover, silent_nil, rfl⟩
    | sends hphase => exact hrunning (by rw [hphase]; rfl)
    | moves _ hsilent hused hnext => exact ⟨hnext.running.trans hover, hsilent, hused⟩
    | verifies hv =>
      obtain ⟨id, started, deadline, hphase⟩ := hv.attempt
      exact hrunning (by rw [hphase]; rfl)
    | retries hr => exact hrunning (SessionPhase.isTrying_facts hr.source).1
    | ends he => exact hrunning he.running
  · exact ⟨ht.phase ▸ hover, silent_nil, ht.used⟩

theorem staysOn_of_over {s : LoginSession} (hover : s.phase.running = false) (e : SessionEvent) :
    StaysOn s e ∧ Heard s e := by
  cases e with
  | poll p =>
    unfold StaysOn Heard StopsEarly EndsUnheard
    cases hphase : s.phase <;> first | exact ⟨id, id⟩ | (rw [hphase] at hover; cases hover)
  | _ => exact ⟨id, id⟩

theorem over_run {s t : LoginSession} {es : List SessionEvent} {os : List SessionEffect}
    (h : sessionMachine.Steps s es os t) (hover : s.phase.running = false) : Over s es os t := by
  induction h with
  | nil s => exact ⟨hover, rfl, rfl, fun _ => rfl, rfl, trivial, trivial⟩
  | @cons s u t e es os os' hs _ ih =>
    obtain ⟨hover', hsilent, hused⟩ := over_step hover hs
    have hrest := ih hover'
    have hmeets := staysOn_of_over hover e
    refine ⟨hrest.stays, ?_, ?_, fun n => ?_, hrest.used.trans hused, ?_, ?_⟩
    · rw [results_append, hsilent.results, hrest.results]; rfl
    · rw [executed_append, hsilent.executed, hrest.executed]
    · rw [noted_append, hsilent.noted, hrest.noted]
    · exact (Machine.along_cons hs).mpr ⟨hmeets.1, hrest.staysOn⟩
    · exact (Machine.along_cons hs).mpr ⟨hmeets.2, hrest.heard⟩

/-- A run from a running session with the account `n`, `k`. -/
inductive Tale (s : LoginSession) (n : AttemptNote) (k : Nat) (es : List SessionEvent)
    (os : List SessionEffect) (t : LoginSession) : Prop
  | runs : t.phase.running = true → results os = [] → sessionMachine.Along StaysOn s es →
      sessionMachine.Along Heard s es → Tale s n k es os t
  | ends (r : LoginResult) : t.phase.running = false → results os = [r] →
      r.attempts = (t.attemptsUsed + 1).toNat →
      (¬sessionMachine.Along StaysOn s es ∧ k + executed os = t.attemptsUsed.toNat ∨
        sessionMachine.Along StaysOn s es ∧ k + executed os = t.attemptsUsed.toNat + 1) →
      ((r.networkRetryable = true → (noted n os).onNetwork = true) ↔
        sessionMachine.Along Heard s es) → Tale s n k es os t

theorem tale_run {s t : LoginSession} {n : AttemptNote} {k : Nat} {es : List SessionEvent}
    {os : List SessionEffect} (h : sessionMachine.Steps s es os t) (hacc : Account s n k)
    (hrun : s.phase.running = true) : Tale s n k es os t := by
  induction h generalizing n k with
  | nil s => exact .runs hrun rfl trivial trivial
  | @cons s u t e es os os' hs ht ih =>
    have hstays : sessionMachine.Along StaysOn s (e :: es) ↔ _ := Machine.along_cons hs
    have hheard : sessionMachine.Along Heard s (e :: es) ↔ _ := Machine.along_cons hs
    -- a step that stays in the running phases leaves the rest to the induction
    have hgo : ∀ {n' k'}, noted n os = n' → k + executed os = k' → results os = [] →
        StaysOn s e → Heard s e → Account u n' k' → u.phase.running = true →
        Tale s n k (e :: es) (os ++ os') t := by
      rintro n' k' rfl rfl hres hearly hunheard hacc' hrun'
      cases ih hacc' hrun' with
      | runs hover hres' halong halong' =>
        refine .runs hover ?_ (hstays.mpr ⟨hearly, halong⟩) (hheard.mpr ⟨hunheard, halong'⟩)
        rw [results_append, hres, hres']; rfl
      | ends r hover hres' hattempts hcount hflag =>
        refine .ends r hover ?_ hattempts ?_ ?_
        · rw [results_append, hres, hres']; rfl
        · rw [executed_append, ← Nat.add_assoc, hstays]
          exact hcount.imp (fun h => ⟨fun hall => h.1 hall.2, h.2⟩) fun h => ⟨⟨hearly, h.1⟩, h.2⟩
        · rw [noted_append, hheard, hflag]
          exact ⟨fun h => ⟨hunheard, h⟩, fun h => h.2⟩
    cases e with
    | poll p =>
      cases hacc.poll hrun hs with
      | runs hrun' hres hearly hunheard hacc' =>
        exact hgo rfl rfl hres hearly hunheard hacc' hrun'
      | @ends r hover hres hattempts hused hcount hflag =>
        have hrest := over_run ht hover
        have hused' : t.attemptsUsed = s.attemptsUsed := hrest.used.trans hused
        refine .ends r hrest.stays ?_ (hused' ▸ hattempts) ?_ ?_
        · rw [results_append, hres, hrest.results]; rfl
        · rw [executed_append, hrest.executed, Nat.add_zero, hused', hstays]
          exact hcount.imp (fun h => ⟨fun hall => hall.1 h.1, h.2⟩)
            fun h => ⟨⟨h.1, hrest.staysOn⟩, h.2⟩
        · rw [noted_append, hrest.noted, hheard, hflag]
          exact ⟨fun h => ⟨h, hrest.heard⟩, fun h => h.1⟩
    | cancel => cases hs; exact hgo rfl rfl rfl id id ⟨hacc.count, hacc.note⟩ hrun
    | setCancelReason reason => cases hs; exact hgo rfl rfl rfl id id ⟨hacc.count, hacc.note⟩ hrun
    | shutdown => cases hs; exact hgo rfl rfl rfl id id ⟨hacc.count, hacc.note⟩ hrun

/-- The result counts the attempts executed exactly when the session was not stopped while none
    of them was under way, and its counter has not come to the end of `u32`. -/
theorem attempts_counted_iff {params : SessionParams} {s : LoginSession} {es : List SessionEvent}
    {os : List SessionEffect} (h : sessionMachine.Steps { params := params } es os s) :
    (∀ r ∈ results os, r.attempts = executed os) ↔
      sessionMachine.Along StaysOn { params := params } es ∧
        (s.phase.running = true ∨ s.attemptsUsed.toNat + 1 < 2 ^ 32) := by
  cases tale_run h (account_init params) rfl with
  | runs hrun hres halong =>
    rw [hres]
    exact ⟨fun _ => ⟨halong, .inl hrun⟩, fun _ _ hr => absurd hr List.not_mem_nil⟩
  | ends r hover hres hattempts hcount =>
    have hnext : (s.attemptsUsed + 1).toNat = (s.attemptsUsed.toNat + 1) % 2 ^ 32 :=
      UInt32.toNat_add ..
    have hlt := s.attemptsUsed.toNat_lt
    rw [Nat.zero_add] at hcount
    rw [hnext] at hattempts
    rw [hres]
    constructor
    · intro hall
      have heq := hall r List.mem_cons_self
      rw [hattempts] at heq
      rcases hcount with ⟨-, hcount⟩ | ⟨halong, hcount⟩
      · rw [hcount] at heq
        have := Nat.mod_lt (s.attemptsUsed.toNat + 1) (Nat.two_pow_pos 32)
        rcases Nat.lt_or_ge (s.attemptsUsed.toNat + 1) (2 ^ 32) with hroom | hroom
        · rw [Nat.mod_eq_of_lt hroom] at heq
          omega
        · rw [show s.attemptsUsed.toNat + 1 = 2 ^ 32 by omega] at heq
          omega
      · refine ⟨halong, .inr ?_⟩
        rw [hcount] at heq
        omega
    · rintro ⟨halong, hroom⟩ r' hr'
      rw [List.mem_singleton.mp hr', hattempts]
      have hroom' := hroom.resolve_left fun hrun => Bool.noConfusion (hover.symm.trans hrun)
      rcases hcount with ⟨hnot, -⟩ | ⟨-, hcount⟩
      · exact absurd halong hnot
      · rw [hcount, Nat.mod_eq_of_lt hroom']

/-- The first attempt of a browser login finds the worker busy; the back-off begins. -/
def busyThenWaiting : List SessionEvent :=
  [.poll { now := 0 }, .poll { now := 0 }, .poll { now := 0 },
   .poll { now := 900, work := some (.bridge (.error .workerBusy)) },
   .poll { now := 1000, ioReady := true }]

/-- The second attempt comes back with the error `e`. -/
def busyThen (e : BridgeError) : List SessionEvent :=
  busyThenWaiting ++ [.poll { now := 6000 }, .poll { now := 6000 }, .poll { now := 6000 },
    .poll { now := 7000, work := some (.bridge (.error e)) }]

def browserParams : SessionParams := { sampleParams with plan := .browser [] }

/-- The second attempt fails as well, and the result counts both. -/
theorem attempts_counted_sample : ∃ s os,
    sessionMachine.Steps { params := browserParams } (busyThen .timeout) os s ∧
    sessionMachine.Along StaysOn { params := browserParams } (busyThen .timeout) := by
  have hends : (sessionMachine.exec { params := browserParams } (busyThen .timeout)).any
      (fun r => (results r.2).all fun x => x.attempts == executed r.2) = true := by
    decide +kernel
  obtain ⟨s, os, hrun, hend⟩ := Machine.steps_of_any hends
  refine ⟨s, os, hrun, ((attempts_counted_iff hrun).mp fun r hr => ?_).1⟩
  exact beq_iff_eq.mp (List.all_eq_true.mp hend r hr)

/-- Cancelled in the back-off behind the first attempt, a session reports two. -/
theorem cancelled_backoff_counts_two : ¬∀ (params : SessionParams) (es : List SessionEvent)
    (os : List SessionEffect) (s : LoginSession),
    sessionMachine.Steps { params := params } es os s →
      ∀ r ∈ results os, r.attempts = executed os := by
  intro hall
  have hends : (sessionMachine.exec { params := browserParams } (busyThenWaiting ++
      [.cancel, .poll { now := 2000 }])).any
      (fun r => (results r.2).any fun x => x.attempts == 2 && executed r.2 == 1) = true := by
    decide +kernel
  obtain ⟨s, os, hrun, hend⟩ := Machine.steps_of_any hends
  obtain ⟨r, hr, hcount⟩ := List.any_eq_true.mp hend
  rw [Bool.and_eq_true, beq_iff_eq, beq_iff_eq] at hcount
  have := hall _ _ _ _ hrun r hr
  rw [hcount.1, hcount.2] at this
  cases this

/-- The result is flagged for the network only by a network failure of the last attempt exactly
    when no attempt behind a network failure ended without an outcome. -/
theorem retryable_honest_iff {params : SessionParams} {s : LoginSession} {es : List SessionEvent}
    {os : List SessionEffect} (h : sessionMachine.Steps { params := params } es os s) :
    (∀ r ∈ results os, r.networkRetryable = true → (noted {} os).onNetwork = true) ↔
      sessionMachine.Along Heard { params := params } es := by
  cases tale_run h (account_init params) rfl with
  | runs hrun hres _ halong =>
    rw [hres]
    exact ⟨fun _ => halong, fun _ _ hr => absurd hr List.not_mem_nil⟩
  | ends r _ hres _ _ hflag =>
    rw [hres, ← hflag]
    exact ⟨fun hall => hall r List.mem_cons_self, fun hone r' hr' => List.mem_singleton.mp hr' ▸ hone⟩

/-- Both attempts find the worker busy: the flag is set for the second. -/
theorem retryable_honest_sample : ∃ s os,
    sessionMachine.Steps { params := browserParams } (busyThen .workerBusy) os s ∧
    sessionMachine.Along Heard { params := browserParams } (busyThen .workerBusy) := by
  have hends : (sessionMachine.exec { params := browserParams } (busyThen .workerBusy)).any
      (fun r => (results r.2).all fun x => x.networkRetryable && (noted {} r.2).onNetwork) = true := by
    decide +kernel
  obtain ⟨s, os, hrun, hend⟩ := Machine.steps_of_any hends
  refine ⟨s, os, hrun, (retryable_honest_iff hrun).mp fun r hr _ => ?_⟩
  exact (Bool.and_eq_true_iff.mp (List.all_eq_true.mp hend r hr)).2

/-- A busy worker, then a timeout of the bridge: the session ends flagged for the network. -/
theorem timeout_flagged_retryable : ¬∀ (params : SessionParams) (es : List SessionEvent)
    (os : List SessionEffect) (s : LoginSession),
    sessionMachine.Steps { params := params } es os s →
      ∀ r ∈ results os, r.networkRetryable = true → (noted {} os).onNetwork = true := by
  intro hall
  have hends : (sessionMachine.exec { params := browserParams } (busyThen .timeout)).any
      (fun r => (results r.2).any fun x => x.networkRetryable && !(noted {} r.2).onNetwork) = true := by
    decide +kernel
  obtain ⟨s, os, hrun, hend⟩ := Machine.steps_of_any hends
  obtain ⟨r, hr, hflag⟩ := List.any_eq_true.mp hend
  rw [Bool.and_eq_true, Bool.not_eq_true'] at hflag
  exact Bool.noConfusion (hflag.2.symm.trans (hall _ _ _ _ hrun r hr hflag.1))

end CampusAuth.Login
