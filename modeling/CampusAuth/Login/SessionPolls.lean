import CampusAuth.Login.Session

/- What one poll of a login session can do.

   `poll_kind` sorts the polls: the session goes on waiting, it moves on to its next
   attempt or its verification, it counts a retry, it ends with a result, or it clears up
   behind the result. The statements about whole sessions are read off these kinds. -/
namespace CampusAuth.Login
open Lib Status Bridge

/-! ## What is seen of a session -/

/-- An attempt is executed once its work is first polled. -/
def SessionEffect.executes : SessionEffect → Nat
  | .execute _ => 1
  | _ => 0

/-- The results written by the effects. -/
def results (os : List SessionEffect) : List LoginResult := os.filterMap SessionEffect.result?

abbrev executed (os : List SessionEffect) : Nat := Machine.weigh SessionEffect.executes os

@[simp] theorem results_append (os os' : List SessionEffect) :
    results (os ++ os') = results os ++ results os' := List.filterMap_append

/-- What is known of the last executed attempt. -/
structure AttemptNote where
  reported : Option Outcome := none
  verified : Option NetworkVerification := none
  deriving DecidableEq, Repr

def AttemptNote.see (n : AttemptNote) : SessionEffect → AttemptNote
  | .execute _ => {}
  | .attempted outcome => { n with reported := some outcome }
  | .verified v => { n with verified := some v }
  | _ => n

/-- What the effects `os`, after the note `n`, say of the last executed attempt. -/
abbrev noted (n : AttemptNote) (os : List SessionEffect) : AttemptNote := os.foldl .see n

/-- The awaited thing is there: the poll moves the session on. -/
def LoginSession.due (s : LoginSession) (p : SessionPoll) : Bool :=
  match s.phase with
  | .starting | .loopTop => true
  | .attempting _ _ deadline =>
    s.cancelToken || s.shutdownToken || decide (deadline ≤ p.now) || p.work.isSome
  | .verifying _ _ wakeAt deadline =>
    s.cancelToken || s.shutdownToken || (decide (wakeAt ≤ p.now) && p.report.isSome) ||
      decide (deadline ≤ p.now)
  | .backingOff wakeAt => s.cancelToken || s.shutdownToken || decide (wakeAt ≤ p.now)
  | .recycling _ | .recording _ | .closingBrowser => p.ioReady
  | .finished => false

/-- Neither token is set. -/
def LoginSession.Free (s : LoginSession) : Prop := s.cancelToken = false ∧ s.shutdownToken = false

/-- Nothing is executed, written or learnt. -/
structure Silent (os : List SessionEffect) : Prop where
  results : results os = []
  executed : executed os = 0
  noted : ∀ n, noted n os = n

theorem silent_nil : Silent [] := ⟨rfl, rfl, fun _ => rfl⟩

theorem silent_merge (m : PartialSnapshot) : Silent [.merge m] := ⟨rfl, rfl, fun _ => rfl⟩

/-- What a session keeps through every poll. -/
structure Keeps (s t : LoginSession) : Prop where
  params : t.params = s.params
  cancelToken : t.cancelToken = s.cancelToken
  shutdownToken : t.shutdownToken = s.shutdownToken

theorem Keeps.refl (s : LoginSession) : Keeps s s := ⟨rfl, rfl, rfl⟩

/-- The attempts a poll in this phase may execute. -/
def SessionPhase.unsent : SessionPhase → Nat
  | .attempting _ false _ => 1
  | _ => 0

/-- The attempt a session in this phase has executed beyond its retries. -/
def SessionPhase.attempted : SessionPhase → Nat
  | .attempting _ _ _ | .verifying _ _ _ _ => 1
  | .recording _ | .closingBrowser | .finished => 1
  | .starting | .loopTop | .recycling _ | .backingOff _ => 0

/-- The phases from which an attempt's result or the probe can call for a retry. -/
def SessionPhase.isTrying : SessionPhase → Prop
  | .attempting _ _ _ | .verifying _ _ _ _ => True
  | _ => False

def SessionPhase.isVerifying : SessionPhase → Prop
  | .verifying _ _ _ _ => True
  | _ => False

def SessionPhase.isRetrying : SessionPhase → Prop
  | .recycling _ | .backingOff _ => True
  | _ => False

/-- The phases in which the result is not out. -/
def SessionPhase.running : SessionPhase → Bool
  | .recording _ | .closingBrowser | .finished => false
  | _ => true

/-- A success that the last attempt and, without an explicit condition, the probe bear out. -/
def Backed (params : SessionParams) (n : AttemptNote) (r : LoginResult) : Prop :=
  r.terminal = .success → n.reported = some .success ∧
    (params.plan.hasExplicitSuccessCondition = true ∨ n.verified = some .online)

/-- The total timeout was over when the result was made. -/
def TimedOut (params : SessionParams) (r : LoginResult) : Prop :=
  r.terminal = .failed ∧ r.message = "登录超时" ∧ max params.loginTimeout 1000 < r.duration

/-- The session stops with the result `r`; `n` is what was noted before. -/
structure Ends (s t : LoginSession) (os : List SessionEffect) (r : LoginResult) : Prop where
  keeps : Keeps s t
  running : s.phase.running = true
  phase : t.phase = .recording r
  used : t.attemptsUsed = s.attemptsUsed
  results : results os = [r]
  executed : executed os ≤ s.phase.unsent
  backed : ∀ n, (s.phase.isVerifying → n.reported = some .success) → Backed s.params (noted n os) r
  heard : ∀ n, n.reported ≠ some .cancelled → (noted n os).reported = some .cancelled →
    r.terminal = .cancelled
  cancelled : s.cancelToken = true → r.terminal = .cancelled ∧ Login.executed os = 0
  shutdown : s.shutdownToken = true → r.terminal = .cancelled ∨ TimedOut s.params r

/-- The session counts a retry. -/
structure Retries (s t : LoginSession) (os : List SessionEffect) : Prop where
  keeps : Keeps s t
  free : s.Free
  source : s.phase.isTrying
  below : s.attemptsUsed < s.params.maxRetries
  phase : t.phase.isRetrying
  used : t.attemptsUsed = s.attemptsUsed + 1
  results : results os = []
  executed : executed os = s.phase.unsent
  heard : ∀ n, n.reported ≠ some .cancelled → (noted n os).reported ≠ some .cancelled

/-- The attempt succeeded and the network is probed. -/
structure Verifies (s t : LoginSession) (os : List SessionEffect) : Prop where
  keeps : Keeps s t
  free : s.Free
  attempt : ∃ id started deadline, s.phase = .attempting id started deadline
  phase : t.phase.isVerifying
  used : t.attemptsUsed = s.attemptsUsed
  results : results os = []
  executed : executed os = s.phase.unsent
  reported : ∀ n, (noted n os).reported = some .success

/-- The phase after which this one is reached without an attempt or a result. -/
inductive SessionPhase.Next (free cancel : Prop) : SessionPhase → SessionPhase → Prop
  | begins : Next free cancel .starting .loopTop
  | tries (id : String) (deadline : Nat) :
      ¬cancel → Next free cancel .loopTop (.attempting id false deadline)
  | recycled (backoff wakeAt : Nat) : Next free cancel (.recycling backoff) (.backingOff wakeAt)
  | waited (wakeAt : Nat) : free → Next free cancel (.backingOff wakeAt) .loopTop
  | recorded (r : LoginResult) : Next free cancel (.recording r) .finished
  | closes (r : LoginResult) : Next free cancel (.recording r) .closingBrowser
  | closed : Next free cancel .closingBrowser .finished

namespace SessionPhase
variable {a b : SessionPhase} {free cancel : Prop}

theorem Next.running (h : Next free cancel a b) : b.running = a.running := by
  cases h <;> rfl

theorem Next.not_verifying (h : Next free cancel a b) : ¬b.isVerifying := by
  cases h <;> exact id

theorem Next.unsent_attempted (h : Next free cancel a b) :
    b.unsent + a.attempted = a.unsent + b.attempted := by
  cases h <;> rfl

theorem isVerifying_facts (h : a.isVerifying) :
    a.running = true ∧ a.unsent = 0 ∧ a.attempted = 1 := by
  cases a <;> first | exact ⟨rfl, rfl, rfl⟩ | exact h.elim

theorem isTrying_facts (h : a.isTrying) : a.running = true ∧ a.attempted = 1 := by
  cases a <;> first | exact ⟨rfl, rfl⟩ | exact h.elim

theorem isRetrying_facts (h : a.isRetrying) :
    a.running = true ∧ a.unsent = 0 ∧ a.attempted = 0 := by
  cases a <;> first | exact ⟨rfl, rfl, rfl⟩ | exact h.elim

theorem attempted_le (a : SessionPhase) : a.attempted ≤ 1 := by
  cases a <;> simp [attempted]

theorem not_verifying_of_retrying (h : a.isRetrying) : ¬a.isVerifying := by
  cases a <;> first | exact id | exact h.elim

end SessionPhase

/-- The kinds of polls. -/
inductive PollKind (s : LoginSession) (p : SessionPoll) : LoginSession → List SessionEffect → Prop
  | waits : s.due p = false → PollKind s p s []
  | sends {id : String} {started : Bool} {deadline : Nat} {os : List SessionEffect} :
      s.phase = .attempting id started deadline → s.due p = false → results os = [] →
      executed os = s.phase.unsent →
      (∀ n, (noted n os).reported = if started then n.reported else none) →
      PollKind s p { s with phase := .attempting id true deadline } os
  | moves {t : LoginSession} {os : List SessionEffect} : Keeps s t → Silent os →
      t.attemptsUsed = s.attemptsUsed → s.phase.Next s.Free (s.cancelToken = true) t.phase →
      PollKind s p t os
  | verifies {t : LoginSession} {os : List SessionEffect} : Verifies s t os → PollKind s p t os
  | retries {t : LoginSession} {os : List SessionEffect} : Retries s t os → PollKind s p t os
  | ends {t : LoginSession} {os : List SessionEffect} {r : LoginResult} : Ends s t os r →
      PollKind s p t os

/-! ## The pieces of a poll -/
namespace LoginSession

theorem results_emit (s : LoginSession) (r : LoginResult) : results (s.emit r).2 = [r] := rfl

theorem noted_emit (s : LoginSession) (r : LoginResult) (n : AttemptNote) :
    noted n (s.emit r).2 = n := rfl

/-- Every end of a session goes through `emit`, after the effects `pre`. -/
theorem ends_emit {s s' : LoginSession} {pre : List SessionEffect} {r : LoginResult}
    (hrun : s.phase.running = true) (hk : Keeps s s') (hused : s'.attemptsUsed = s.attemptsUsed)
    (hres : results pre = [])
    (hexec : executed pre ≤ s.phase.unsent)
    (hbacked : ∀ n, (s.phase.isVerifying → n.reported = some .success) →
      Backed s.params (noted n pre) r)
    (hheard : ∀ n, n.reported ≠ some .cancelled → (noted n pre).reported = some .cancelled →
      r.terminal = .cancelled)
    (hcancel : s.cancelToken = true → r.terminal = .cancelled ∧ executed pre = 0)
    (hshutdown : s.shutdownToken = true → r.terminal = .cancelled ∨ TimedOut s.params r) :
    Ends s (after pre (s'.emit r)).1 (after pre (s'.emit r)).2 r := by
  have hnoted : ∀ n, noted n (after pre (s'.emit r)).2 = noted n pre := fun n => by
    rw [after, noted, List.foldl_append]
    exact noted_emit s' r _
  have hexec' : executed (after pre (s'.emit r)).2 = executed pre := by
    rw [after, executed, Machine.weigh_append]
    exact Nat.add_zero _
  exact {
    keeps := ⟨hk.params, hk.cancelToken, hk.shutdownToken⟩
    running := hrun
    phase := rfl
    used := hused
    results := by rw [after, results_append, hres, results_emit, List.nil_append]
    executed := hexec' ▸ hexec
    backed := fun n hn => hnoted n ▸ hbacked n hn
    heard := fun n hn => hnoted n ▸ hheard n hn
    cancelled := fun h => ⟨(hcancel h).1, hexec' ▸ (hcancel h).2⟩
    shutdown := hshutdown }

/-- The result is `Cancelled`; under a set token nothing was executed. -/
theorem ends_cancelled {s s' : LoginSession} {pre : List SessionEffect} (p : SessionPoll)
    (hrun : s.phase.running = true) (hk : Keeps s s') (hused : s'.attemptsUsed = s.attemptsUsed)
    (hres : results pre = [])
    (hexec : executed pre ≤ s.phase.unsent) (hcancel : s.cancelToken = true → executed pre = 0) :
    Ends s (after pre (s'.emit (s'.makeCancelledResult p))).1
      (after pre (s'.emit (s'.makeCancelledResult p))).2 (s'.makeCancelledResult p) := by
  apply ends_emit hrun hk hused hres hexec
  · intro n _ h; cases h
  · exact fun _ _ _ => rfl
  · exact fun h => ⟨rfl, hcancel h⟩
  · exact fun _ => .inl rfl

/-- Failed while neither token is set. -/
theorem ends_failed {s s' : LoginSession} {pre : List SessionEffect} (p : SessionPoll)
    (message : String) (hrun : s.phase.running = true) (hfree : s.Free) (hk : Keeps s s')
    (hused : s'.attemptsUsed = s.attemptsUsed)
    (hres : results pre = [])
    (hexec : executed pre ≤ s.phase.unsent)
    (hheard : ∀ n, n.reported ≠ some .cancelled → (noted n pre).reported ≠ some .cancelled) :
    Ends s (after pre (s'.emit (s'.makeResult p .failed message))).1
      (after pre (s'.emit (s'.makeResult p .failed message))).2
      (s'.makeResult p .failed message) := by
  apply ends_emit hrun hk hused hres hexec
  · intro n _ h; cases h
  · exact fun n hn h => absurd h (hheard n hn)
  · intro h; rw [hfree.1] at h; cases h
  · intro h; rw [hfree.2] at h; cases h

/-- Succeeded while neither token is set. -/
theorem ends_success {s s' : LoginSession} {pre : List SessionEffect} (p : SessionPoll)
    (message : String) (hrun : s.phase.running = true) (hfree : s.Free) (hk : Keeps s s')
    (hused : s'.attemptsUsed = s.attemptsUsed)
    (hres : results pre = [])
    (hexec : executed pre ≤ s.phase.unsent)
    (hsucc : ∀ n, (s.phase.isVerifying → n.reported = some .success) →
      (noted n pre).reported = some .success)
    (hwhy : s.params.plan.hasExplicitSuccessCondition = true ∨
      ∀ n, (noted n pre).verified = some .online)
    (hheard : ∀ n, n.reported ≠ some .cancelled → (noted n pre).reported ≠ some .cancelled) :
    Ends s (after pre (s'.emit (s'.makeResult p .success message))).1
      (after pre (s'.emit (s'.makeResult p .success message))).2
      (s'.makeResult p .success message) := by
  apply ends_emit hrun hk hused hres hexec
  · exact fun n hn _ => ⟨hsucc n hn, hwhy.imp id fun h => h n⟩
  · exact fun n hn h => absurd h (hheard n hn)
  · intro h; rw [hfree.1] at h; cases h
  · intro h; rw [hfree.2] at h; cases h

theorem after_after (os os' : List SessionEffect) (r : LoginSession × List SessionEffect) :
    after os (after os' r) = after (os ++ os') r := by
  simp [after]

/-- Another attempt is counted, or the session fails. -/
theorem tryRetry_kind {s s' : LoginSession} {pre : List SessionEffect} (p : SessionPoll)
    (structured : StructuredResult) (force : Bool) (owner : Option String)
    (htry : s.phase.isTrying) (hfree : s.Free) (hk : Keeps s s') (hused : s'.attemptsUsed = s.attemptsUsed)
    (hres : results pre = [])
    (hexec : executed pre = s.phase.unsent)
    (hheard : ∀ n, n.reported ≠ some .cancelled → (noted n pre).reported ≠ some .cancelled) :
    PollKind s p (after pre (s'.tryRetry p structured force owner)).1
      (after pre (s'.tryRetry p structured force owner)).2 := by
  have hrun := (SessionPhase.isTrying_facts htry).1
  unfold tryRetry
  split
  · exact .ends (ends_failed p _ hrun hfree hk hused hres (Nat.le_of_eq hexec) hheard)
  · next h =>
    have hbelow : s.attemptsUsed < s.params.maxRetries := by
      rw [hused, hk.params] at h
      exact UInt32.not_le.mp h
    split
    · refine .retries ⟨⟨hk.params, hk.cancelToken, hk.shutdownToken⟩, hfree, htry, hbelow, trivial,
        congrArg (· + 1) hused, ?_, ?_, ?_⟩
      · rw [after, results_append, hres]; rfl
      · rw [after, executed, Machine.weigh_append, ← hexec]; rfl
      · intro n hn
        rw [after, noted, List.foldl_append]
        exact hheard n hn
    · refine .retries ⟨⟨hk.params, hk.cancelToken, hk.shutdownToken⟩, hfree, htry, hbelow, trivial,
        congrArg (· + 1) hused, ?_, ?_, ?_⟩
      · rw [after, results_append, hres]; rfl
      · rw [after, executed, Machine.weigh_append, ← hexec]; rfl
      · intro n hn
        rw [after, noted, List.foldl_append]
        exact hheard n hn

/-- The verification is given up: the login is tried again or fails. -/
theorem retryUnverified_kind {s s' : LoginSession} {pre : List SessionEffect} (p : SessionPoll)
    (structured : StructuredResult) (owner : Option String) (htry : s.phase.isTrying)
    (hfree : s.Free) (hk : Keeps s s')
    (hused : s'.attemptsUsed = s.attemptsUsed)
    (hres : results pre = [])
    (hexec : executed pre = s.phase.unsent)
    (hheard : ∀ n, n.reported ≠ some .cancelled → (noted n pre).reported ≠ some .cancelled) :
    PollKind s p (after pre (s'.retryUnverified p structured owner)).1
      (after pre (s'.retryUnverified p structured owner)).2 := by
  rw [retryUnverified, after_after]
  refine tryRetry_kind p _ _ _ htry hfree ⟨hk.params, hk.cancelToken, hk.shutdownToken⟩ hused ?_ ?_ ?_
  · rw [results_append, hres]; rfl
  · rw [executed, Machine.weigh_append, ← hexec]; rfl
  · intro n hn
    rw [noted, List.foldl_append]
    exact hheard n hn

theorem not_cancelled_of_classify {o : Outcome} (h : classify o ≠ .terminal .cancelled) :
    some o ≠ some Outcome.cancelled := by
  rintro ⟨⟩
  exact h rfl

theorem classify_success {o : Outcome} (h : classify o = .terminal .success) : o = .success := by
  cases o <;> first | rfl | cases h

/-- The attempt came back; `pre` sent it if it had not been sent. -/
theorem attemptDone_kind {s : LoginSession} {pre : List SessionEffect} {id : String}
    {started : Bool} {deadline : Nat} (p : SessionPoll) (res : Except String StructuredResult)
    (hphase : s.phase = .attempting id started deadline) (hfree : s.Free)
    (hres : results pre = []) (hexec : executed pre = s.phase.unsent)
    (hheard : ∀ n, n.reported ≠ some .cancelled → (noted n pre).reported ≠ some .cancelled) :
    PollKind s p (after pre (s.attemptDone p res)).1 (after pre (s.attemptDone p res)).2 := by
  have hle : executed pre ≤ s.phase.unsent := Nat.le_of_eq hexec
  have hrun : s.phase.running = true := hphase ▸ rfl
  have htry : s.phase.isTrying := hphase ▸ trivial
  cases res with
  | error e => exact .ends (ends_failed p e hrun hfree (.refl s) rfl hres hle hheard)
  | ok structured =>
    -- from here on the outcome is noted
    have hres' : results (pre ++ [.attempted structured.outcome]) = [] := by
      rw [results_append, hres]; rfl
    have hexec' : executed (pre ++ [.attempted structured.outcome]) = s.phase.unsent := by
      rw [executed, Machine.weigh_append, ← hexec]; rfl
    have hreported : ∀ n, (noted n (pre ++ [.attempted structured.outcome])).reported =
        some structured.outcome := fun n => by rw [noted, List.foldl_append]; rfl
    have hheard' : ∀ {action}, classify structured.outcome = action →
        action ≠ .terminal .cancelled → ∀ n : AttemptNote, n.reported ≠ some .cancelled →
        (noted n (pre ++ [.attempted structured.outcome])).reported ≠ some .cancelled :=
      fun h hne n _ => hreported n ▸ not_cancelled_of_classify (h ▸ hne)
    have hk : Keeps s { s with lastOutcome := some structured.outcome, attemptCancelId := none } :=
      ⟨rfl, rfl, rfl⟩
    have hle' := Nat.le_of_eq hexec'
    simp only [attemptDone, after_after]
    by_cases hx : classify structured.outcome = .retry ∧ s.attemptsUsed ≥ s.params.maxRetries
    · rw [if_pos hx]
      exact .ends (ends_failed p _ hrun hfree hk rfl hres' hle' (hheard' hx.1 nofun))
    · rw [if_neg hx]
      cases hc : classify structured.outcome with
      | terminal kind =>
        cases kind with
        | success =>
          have hsucc : structured.outcome = .success := classify_success hc
          have hheard := hheard' hc nofun
          by_cases hexp : s.params.plan.hasExplicitSuccessCondition = true
          · simp only [hexp, if_true]
            exact .ends (ends_success p _ hrun hfree hk rfl hres' hle'
              (fun n _ => hsucc ▸ hreported n) (.inl hexp) hheard)
          · simp only [hexp]
            by_cases hrem : s.params.loginTimeout - s.elapsed p = 0
            · simp only [elapsed] at hrem
              simp only [elapsed, hrem, if_true, Bool.false_eq_true, if_false]
              exact retryUnverified_kind p _ _ htry hfree hk rfl hres' hexec' hheard
            · simp only [elapsed] at hrem
              simp only [elapsed, hrem, Bool.false_eq_true, if_false]
              refine .verifies ⟨⟨rfl, rfl, rfl⟩, hfree, ⟨id, started, deadline, hphase⟩, trivial, rfl,
                ?_, ?_, ?_⟩
              · simpa [after] using hres'
              · simpa [after] using hexec'
              · intro n
                simpa [after, hsucc] using hreported n
        | cancelled =>
          exact .ends (ends_cancelled p hrun hk rfl hres' hle' fun h => absurd h (by rw [hfree.1]; nofun))
        | failed => exact .ends (ends_failed p _ hrun hfree hk rfl hres' hle' (hheard' hc nofun))
      | retry => exact tryRetry_kind p _ _ _ htry hfree hk rfl hres' hexec' (hheard' hc nofun)
      | exhausted => exact .ends (ends_failed p _ hrun hfree hk rfl hres' hle' (hheard' hc nofun))

/-! ## One lemma for each phase -/

/-- The total timeout is found over at the top of the loop. -/
theorem ends_timedOut {s : LoginSession} {pre : List SessionEffect} (p : SessionPoll)
    (hrun : s.phase.running = true) (hpre : Silent pre) (hc : s.cancelToken = false)
    (ht : s.elapsed p > s.totalTimeout) :
    Ends s (after pre (s.finishWithFailure p "登录超时")).1
      (after pre (s.finishWithFailure p "登录超时")).2 (s.makeResult p .failed "登录超时") := by
  refine ends_emit hrun (.refl s) rfl hpre.results (hpre.executed ▸ Nat.zero_le _) ?_ ?_ ?_ ?_
  · intro n _ h; cases h
  · intro n hn h
    rw [hpre.noted n] at h
    exact absurd h hn
  · intro h; rw [hc] at h; cases h
  · exact fun _ => .inr ⟨rfl, rfl, ht⟩

theorem pollLoopTop_kind {s : LoginSession} (p : SessionPoll) (hphase : s.phase = .loopTop) :
    PollKind s p (s.pollLoopTop p).1 (s.pollLoopTop p).2 := by
  have hrun : s.phase.running = true := hphase ▸ rfl
  by_cases hc : s.cancelToken = true
  · rw [pollLoopTop, if_pos hc]
    exact .ends (@ends_cancelled s s [] p hrun (.refl s) rfl rfl (Nat.zero_le _) fun _ => rfl)
  · rw [pollLoopTop, if_neg hc]
    by_cases ht : s.elapsed p > s.totalTimeout
    · rw [if_pos ht]
      refine .ends (ends_timedOut p hrun ?_ (Bool.not_eq_true _ ▸ hc) ht)
      split
      · split
        · exact ⟨rfl, rfl, fun _ => rfl⟩
        · exact silent_nil
      · exact silent_nil
    · rw [if_neg ht]
      refine .moves ?_ (silent_merge _) ?_ ?_
      · split <;> exact ⟨rfl, rfl, rfl⟩
      · split <;> rfl
      · rw [hphase]; exact .tries _ _ hc

/-- The tokens are examined first: a set one ends the session as `Cancelled`. -/
theorem ends_stopped {s s' : LoginSession} {pre : List SessionEffect} (p : SessionPoll)
    (hrun : s.phase.running = true) (hk : Keeps s s') (hused : s'.attemptsUsed = s.attemptsUsed)
    (hres : results pre = [])
    (hexec : executed pre = 0) :
    Ends s (after pre (s'.emit (s'.makeCancelledResult p))).1
      (after pre (s'.emit (s'.makeCancelledResult p))).2 (s'.makeCancelledResult p) :=
  ends_cancelled p hrun hk hused hres (hexec ▸ Nat.zero_le _) fun _ => hexec

theorem pollAttempt_kind {s : LoginSession} {id : String} {started : Bool} {deadline : Nat}
    (p : SessionPoll) (hphase : s.phase = .attempting id started deadline) :
    PollKind s p (s.pollAttempt p id started deadline).1
      (s.pollAttempt p id started deadline).2 := by
  have hrun : s.phase.running = true := hphase ▸ rfl
  by_cases hc : s.cancelToken = true
  · rw [pollAttempt, if_pos hc]
    refine .ends (ends_stopped p hrun (.refl s) rfl ?_ ?_) <;> split <;> rfl
  by_cases hs : s.shutdownToken = true
  · rw [pollAttempt, if_neg hc, if_pos hs]
    refine .ends (ends_stopped p hrun ⟨rfl, rfl, rfl⟩ rfl ?_ ?_) <;> split <;> rfl
  have hfree : s.Free := ⟨by simpa using hc, by simpa using hs⟩
  rw [pollAttempt, if_neg hc, if_neg hs]
  by_cases ht : deadline ≤ p.now
  · rw [if_pos ht]
    refine .ends (ends_failed p _ hrun hfree (.refl s) rfl ?_ ?_ ?_)
    · split <;> rfl
    · split <;> exact Nat.zero_le _
    · split <;> exact fun n hn => hn
  rw [if_neg ht]
  have hsends : executed (if started then [] else
      [SessionEffect.execute (s.params.attemptCall id)]) = s.phase.unsent := by
    rw [hphase]; cases started <;> rfl
  cases hw : p.work with
  | none =>
    refine .sends hphase ?_ ?_ hsends ?_
    · simp [due, hphase, hfree.1, hfree.2, hw]
      omega
    · cases started <;> rfl
    · intro n; cases started <;> rfl
  | some work =>
    refine attemptDone_kind p _ hphase hfree ?_ hsends ?_
    · cases started <;> rfl
    · intro n hn
      cases started
      · exact nofun
      · exact hn

theorem pollVerification_kind {s : LoginSession} {structured : StructuredResult}
    {owner : Option String} {wakeAt deadline : Nat} (p : SessionPoll)
    (hphase : s.phase = .verifying structured owner wakeAt deadline) :
    PollKind s p (s.pollVerification p structured owner wakeAt deadline).1
      (s.pollVerification p structured owner wakeAt deadline).2 := by
  have hrun : s.phase.running = true := hphase ▸ rfl
  by_cases hc : s.cancelToken = true
  · rw [pollVerification, if_pos hc]
    exact .ends (ends_stopped p hrun (.refl s) rfl rfl rfl)
  by_cases hs : s.shutdownToken = true
  · rw [pollVerification, if_neg hc, if_pos hs]
    exact .ends (ends_stopped p hrun ⟨rfl, rfl, rfl⟩ rfl rfl rfl)
  have hfree : s.Free := ⟨by simpa using hc, by simpa using hs⟩
  have hunsent : s.phase.unsent = 0 := by rw [hphase]; rfl
  have hretry : PollKind s p (s.retryUnverified p structured owner).1
      (s.retryUnverified p structured owner).2 :=
    @retryUnverified_kind s s [] p structured owner (hphase ▸ trivial) hfree (.refl s) rfl rfl hunsent.symm
      fun _ hn => hn
  rw [pollVerification, if_neg hc, if_neg hs]
  split
  · refine .ends (ends_success p _ hrun hfree (.refl s) rfl rfl (Nat.zero_le _) ?_ (.inr fun n => rfl) ?_)
    · intro n hn; exact hn (hphase ▸ trivial)
    · exact fun n hn => hn
  · exact hretry
  · next hnone =>
    split
    · exact hretry
    · next ht =>
      refine .waits ?_
      simp [due, hphase, hfree.1, hfree.2]
      refine ⟨fun hw => ?_, by omega⟩
      simpa [hw] using hnone

theorem pollBackoff_kind {s : LoginSession} {wakeAt : Nat} (p : SessionPoll)
    (hphase : s.phase = .backingOff wakeAt) :
    PollKind s p (s.pollBackoff p wakeAt).1 (s.pollBackoff p wakeAt).2 := by
  have hrun : s.phase.running = true := hphase ▸ rfl
  by_cases hc : s.cancelToken = true
  · rw [pollBackoff, if_pos hc]
    exact .ends (@ends_stopped s s [] p hrun (.refl s) rfl rfl rfl)
  by_cases hs : s.shutdownToken = true
  · rw [pollBackoff, if_neg hc, if_pos hs]
    exact .ends (@ends_stopped s _ [] p hrun ⟨rfl, rfl, rfl⟩ rfl rfl rfl)
  have hfree : s.Free := ⟨by simpa using hc, by simpa using hs⟩
  rw [pollBackoff, if_neg hc, if_neg hs]
  by_cases hw : wakeAt ≤ p.now
  · rw [if_pos hw]
    exact .moves ⟨rfl, rfl, rfl⟩ silent_nil rfl (hphase ▸ .waited wakeAt hfree)
  · rw [if_neg hw]
    exact .waits (by simp [due, hphase, hfree.1, hfree.2, hw])

theorem pollRecording_kind {s : LoginSession} {r : LoginResult} (p : SessionPoll)
    (hphase : s.phase = .recording r) :
    PollKind s p (s.pollRecording p r).1 (s.pollRecording p r).2 := by
  rw [pollRecording]
  by_cases hio : p.ioReady = true
  · rw [if_pos hio]
    split
    · exact .moves ⟨rfl, rfl, rfl⟩ ⟨rfl, rfl, fun _ => rfl⟩ rfl (hphase ▸ .closes r)
    · exact .moves ⟨rfl, rfl, rfl⟩ silent_nil rfl (hphase ▸ .recorded r)
  · rw [if_neg hio]
    exact .waits (by simpa [due, hphase] using hio)

/-- Every poll is of one of the kinds. -/
theorem poll_kind {s t : LoginSession} {p : SessionPoll} {os : List SessionEffect}
    (h : s.poll p = some (t, os)) : PollKind s p t os := by
  unfold poll at h
  split at h
  · next hphase =>
    cases h
    exact .moves ⟨rfl, rfl, rfl⟩ (silent_merge _) rfl (hphase ▸ .begins)
  · next hphase =>
    have hkind := pollLoopTop_kind p hphase
    rwa [Option.some.inj h] at hkind
  · next id started deadline hphase =>
    have hkind := pollAttempt_kind p hphase
    rwa [Option.some.inj h] at hkind
  · next structured owner wakeAt deadline hphase =>
    have hkind := pollVerification_kind p hphase
    rwa [Option.some.inj h] at hkind
  · next backoff hphase =>
    by_cases hio : p.ioReady = true
    · rw [if_pos hio] at h
      cases h
      exact .moves ⟨rfl, rfl, rfl⟩ silent_nil rfl (hphase ▸ .recycled backoff _)
    · rw [if_neg hio] at h
      cases h
      exact .waits (by simpa [due, hphase] using hio)
  · next wakeAt hphase =>
    have hkind := pollBackoff_kind p hphase
    rwa [Option.some.inj h] at hkind
  · next r hphase =>
    have hkind := pollRecording_kind p hphase
    rwa [Option.some.inj h] at hkind
  · next hphase =>
    by_cases hio : p.ioReady = true
    · rw [if_pos hio] at h
      cases h
      exact .moves ⟨rfl, rfl, rfl⟩ silent_nil rfl (hphase ▸ .closed)
    · rw [if_neg hio] at h
      cases h
      exact .waits (by simpa [due, hphase] using hio)
  · cases h

end LoginSession
end CampusAuth.Login
