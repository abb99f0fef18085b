import CampusAuth.Login.SessionPolls

/- How a login session ends.

   `Told` is the account of a run: how many attempts it executed for the retries counted,
   and that its one result is out exactly in the phases behind `emit`. `left` bounds the
   polls that still move the session on. -/
namespace CampusAuth.Login
open Lib Status Bridge

/-! ## Steps -/

/-- One for a poll that moves the session on. -/
def SessionEvent.dueIn (s : LoginSession) : SessionEvent → Nat
  | .poll p => (s.due p).toNat
  | .cancel | .setCancelReason _ | .shutdown => 0

/-- Someone else set a token or the reason. -/
structure Touched (s t : LoginSession) : Prop where
  params : t.params = s.params
  phase : t.phase = s.phase
  used : t.attemptsUsed = s.attemptsUsed
  cancelToken : s.cancelToken = true → t.cancelToken = true
  shutdownToken : s.shutdownToken = true → t.shutdownToken = true

/-- A step is a poll of one of the kinds, or it sets a token or the reason. -/
theorem session_step_kind {s t : LoginSession} {e : SessionEvent} {os : List SessionEffect}
    (h : sessionMachine.step s e = some (t, os)) :
    (∃ p, e = .poll p ∧ PollKind s p t os) ∨ (e.dueIn s = 0 ∧ os = [] ∧ Touched s t) := by
  cases e with
  | poll p => exact .inl ⟨p, rfl, LoginSession.poll_kind h⟩
  | cancel => cases h; exact .inr ⟨rfl, rfl, rfl, rfl, rfl, fun _ => rfl, id⟩
  | setCancelReason reason => cases h; exact .inr ⟨rfl, rfl, rfl, rfl, rfl, id, id⟩
  | shutdown => cases h; exact .inr ⟨rfl, rfl, rfl, rfl, rfl, id, fun _ => rfl⟩

/-- A poll keeps the parameters and the tokens. -/
theorem PollKind.keeps {s t : LoginSession} {p : SessionPoll} {os : List SessionEffect}
    (h : PollKind s p t os) : Keeps s t := by
  cases h with
  | waits => exact .refl s
  | sends => exact ⟨rfl, rfl, rfl⟩
  | moves hk => exact hk
  | verifies hv => exact hv.keeps
  | retries hr => exact hr.keeps
  | ends he => exact he.keeps

/-! ## The account of a run -/

theorem UInt32.toNat_succ_of_lt {a b : UInt32} (h : a < b) : (a + 1).toNat = a.toNat + 1 := by
  have hb := b.toNat_lt
  have hab : a.toNat < b.toNat := UInt32.lt_iff_toNat_lt.mp h
  rw [UInt32.toNat_add]
  simp
  omega

structure Told (params : SessionParams) (s : LoginSession) (os : List SessionEffect) : Prop where
  same : s.params = params
  used : s.attemptsUsed.toNat ≤ params.maxRetries.toNat
  budget : executed os + s.phase.unsent ≤ s.attemptsUsed.toNat + s.phase.attempted
  silent : s.phase.running = true → results os = [] ∧ (noted {} os).reported ≠ some .cancelled
  verifying : s.phase.isVerifying → (noted {} os).reported = some .success
  spoken : s.phase.running = false → ∃ r, results os = [r] ∧ Backed params (noted {} os) r ∧
    ((noted {} os).reported = some .cancelled → r.terminal = .cancelled)

theorem told_init (params : SessionParams) : Told params { params := params } [] where
  same := rfl
  used := by simp
  budget := by simp [SessionPhase.unsent, SessionPhase.attempted]
  silent := fun _ => ⟨rfl, nofun⟩
  verifying := nofun
  spoken := nofun

theorem noted_append (n : AttemptNote) (os os' : List SessionEffect) :
    noted n (os ++ os') = noted (noted n os) os' := List.foldl_append

theorem executed_append (os os' : List SessionEffect) :
    executed (os ++ os') = executed os + executed os' := Machine.weigh_append _ os os'

theorem Told.touched {params : SessionParams} {s t : LoginSession} {os : List SessionEffect}
    (hI : Told params s os) (h : Touched s t) : Told params t os where
  same := h.params.trans hI.same
  used := h.used ▸ hI.used
  budget := by rw [h.phase, h.used]; exact hI.budget
  silent := h.phase ▸ hI.silent
  verifying := h.phase ▸ hI.verifying
  spoken := h.phase ▸ hI.spoken

theorem Told.poll {params : SessionParams} {s t : LoginSession} {p : SessionPoll}
    {os₀ os : List SessionEffect} (hI : Told params s os₀) (h : PollKind s p t os) :
    Told params t (os₀ ++ os) := by
  have hexec := hI.budget
  cases h with
  | waits => rwa [List.append_nil]
  | @sends id started deadline os hphase _ hres hsent hnoted =>
    have hopen := hI.silent (by rw [hphase]; rfl)
    refine ⟨hI.same, hI.used, ?_, fun _ => ⟨?_, ?_⟩, False.elim,
      fun h => Bool.noConfusion (show true = false from h)⟩
    · rw [executed_append, hsent]
      simpa [hphase, SessionPhase.attempted, SessionPhase.unsent] using hexec
    · rw [results_append, hopen.1, hres, List.append_nil]
    · rw [noted_append, hnoted]
      cases started with
      | false => intro hcancelled; cases hcancelled
      | true => exact hopen.2
  | moves hk hsilent hused hnext =>
    have hresults : results (os₀ ++ os) = results os₀ := by
      rw [results_append, hsilent.results, List.append_nil]
    have hnoted : noted {} (os₀ ++ os) = noted {} os₀ := by rw [noted_append, hsilent.noted]
    have hexec' : executed (os₀ ++ os) = executed os₀ := by
      rw [executed_append, hsilent.executed, Nat.add_zero]
    refine ⟨hk.params.trans hI.same, hused ▸ hI.used, ?_, ?_, ?_, ?_⟩
    · rw [hexec', hused]
      have hle : t.phase.unsent + s.phase.attempted = s.phase.unsent + t.phase.attempted :=
        hnext.unsent_attempted
      omega
    · intro hrun
      rw [hresults, hnoted]
      exact hI.silent (hnext.running ▸ hrun)
    · exact fun hv => absurd hv hnext.not_verifying
    · intro hrun
      rw [hresults, hnoted]
      exact hI.spoken (hnext.running ▸ hrun)
  | verifies hv =>
    obtain ⟨id, started, deadline, hphase⟩ := hv.attempt
    have hopen := hI.silent (by rw [hphase]; rfl)
    have hreported : (noted {} (os₀ ++ os)).reported = some .success := by
      rw [noted_append]; exact hv.reported _
    obtain ⟨hrun, hunsent, hattempted⟩ := SessionPhase.isVerifying_facts hv.phase
    refine ⟨hv.keeps.params.trans hI.same, hv.used ▸ hI.used, ?_, fun _ => ⟨?_, ?_⟩, fun _ => hreported,
      fun h => absurd (hrun.symm.trans h) Bool.noConfusion⟩
    · rw [executed_append, hv.executed, hv.used, hunsent, hattempted]
      rw [hphase] at hexec ⊢
      exact hexec
    · rw [results_append, hopen.1, hv.results]; rfl
    · rw [hreported]; intro hcancelled; cases hcancelled
  | retries hr =>
    obtain ⟨hrun, hunsent, hattempted⟩ := SessionPhase.isRetrying_facts hr.phase
    obtain ⟨hsrc, hone⟩ := SessionPhase.isTrying_facts hr.source
    have hopen := hI.silent hsrc
    have hcount : t.attemptsUsed.toNat = s.attemptsUsed.toNat + 1 := by
      rw [hr.used]; exact UInt32.toNat_succ_of_lt hr.below
    have hbelow : s.attemptsUsed.toNat < params.maxRetries.toNat := by
      rw [← hI.same]; exact UInt32.lt_iff_toNat_lt.mp hr.below
    refine ⟨hr.keeps.params.trans hI.same, by omega, ?_, fun _ => ⟨?_, ?_⟩, ?_,
      fun h => absurd (hrun.symm.trans h) Bool.noConfusion⟩
    · rw [executed_append, hr.executed, hunsent, hattempted]
      omega
    · rw [results_append, hopen.1, hr.results]; rfl
    · rw [noted_append]; exact hr.heard _ hopen.2
    · exact fun h => absurd h (SessionPhase.not_verifying_of_retrying hr.phase)
  | @ends t os r he =>
    have hopen := hI.silent he.running
    have hended : t.phase.running = false ∧ t.phase.unsent = 0 ∧ t.phase.attempted = 1 := by
      rw [he.phase]; exact ⟨rfl, rfl, rfl⟩
    refine ⟨he.keeps.params.trans hI.same, he.used ▸ hI.used, ?_,
      fun h => absurd (hended.1.symm.trans h) Bool.noConfusion, by rw [he.phase]; exact False.elim,
      fun _ => ⟨r, ?_, ?_, ?_⟩⟩
    · have := he.executed
      have := s.phase.attempted_le
      rw [executed_append, he.used, hended.2.1, hended.2.2]
      omega
    · rw [results_append, hopen.1, he.results]; rfl
    · rw [noted_append, ← hI.same]; exact he.backed _ hI.verifying
    · rw [noted_append]; exact he.heard _ hopen.2

theorem told_run {params : SessionParams} {s : LoginSession} {es : List SessionEvent}
    {os : List SessionEffect} (h : sessionMachine.Steps { params := params } es os s) :
    Told params s os := by
  refine h.tracing (C := fun _ _ => True) (I := Told params) ?_
    (Machine.along_of_forall fun _ _ => trivial) (told_init params)
  intro s e t os₀ os hI _ hs
  rcases session_step_kind hs with ⟨p, -, hkind⟩ | ⟨-, rfl, ht⟩
  · exact hI.poll hkind
  · rw [List.append_nil]; exact hI.touched ht

/-! ## After a token is set -/

/-- Under a set cancellation token a step executes nothing and writes only `Cancelled`. -/
theorem cancelled_step {s t : LoginSession} {e : SessionEvent} {os : List SessionEffect}
    (hc : s.cancelToken = true) (h : sessionMachine.step s e = some (t, os)) :
    t.cancelToken = true ∧ executed os = 0 ∧ ∀ r ∈ results os, r.terminal = .cancelled := by
  have hnotfree : ¬s.Free := fun hf => absurd (hf.1.symm.trans hc) Bool.noConfusion
  rcases session_step_kind h with ⟨p, -, hkind⟩ | ⟨-, rfl, ht⟩
  · refine ⟨hkind.keeps.cancelToken.trans hc, ?_⟩
    cases hkind with
    | waits => exact ⟨rfl, fun _ hr => absurd hr List.not_mem_nil⟩
    | sends hphase hdue => simp [LoginSession.due, hphase, hc] at hdue
    | moves _ hsilent =>
      refine ⟨hsilent.executed, fun _ hr => ?_⟩
      rw [hsilent.results] at hr
      exact absurd hr List.not_mem_nil
    | verifies hv => exact absurd hv.free hnotfree
    | retries hr => exact absurd hr.free hnotfree
    | ends he =>
      obtain ⟨hr, hexec⟩ := he.cancelled hc
      refine ⟨hexec, fun r' hr' => ?_⟩
      rw [he.results, List.mem_singleton] at hr'
      exact hr' ▸ hr
  · exact ⟨ht.cancelToken hc, rfl, fun _ hr => absurd hr List.not_mem_nil⟩

/-- Once the cancellation token is set no attempt is begun and the result is `Cancelled`. -/
theorem cancelled_run {s t : LoginSession} {es : List SessionEvent} {os : List SessionEffect}
    (hc : s.cancelToken = true) (h : sessionMachine.Steps s es os t) :
    executed os = 0 ∧ ∀ r ∈ results os, r.terminal = .cancelled := by
  refine (h.tracing (C := fun _ _ => True) (I := fun s os => s.cancelToken = true ∧
    executed os = 0 ∧ ∀ r ∈ results os, r.terminal = .cancelled) ?_
    (Machine.along_of_forall fun _ _ => trivial) ⟨hc, rfl, nofun⟩).2
  intro s e t os₀ os hI _ hs
  obtain ⟨hc', hexec, hres⟩ := cancelled_step hI.1 hs
  refine ⟨hc', by rw [executed_append, hI.2.1, hexec], fun r hr => ?_⟩
  rw [results_append, List.mem_append] at hr
  exact hr.elim (hI.2.2 r) (hres r)

/-- Under a set shutdown token a step writes `Cancelled`, or the total timeout was over. -/
theorem shutdown_step {s t : LoginSession} {e : SessionEvent} {os : List SessionEffect}
    (hs : s.shutdownToken = true) (h : sessionMachine.step s e = some (t, os)) :
    t.shutdownToken = true ∧ t.params = s.params ∧
      ∀ r ∈ results os, r.terminal = .cancelled ∨ TimedOut s.params r := by
  have hnotfree : ¬s.Free := fun hf => absurd hs (by rw [hf.2]; nofun)
  rcases session_step_kind h with ⟨p, -, hkind⟩ | ⟨-, rfl, ht⟩
  · refine ⟨hkind.keeps.shutdownToken.trans hs, hkind.keeps.params, ?_⟩
    cases hkind with
    | waits => nofun
    | sends hphase hdue hres => rw [hres]; nofun
    | moves _ hsilent => rw [hsilent.results]; nofun
    | verifies hv => exact absurd hv.free hnotfree
    | retries hr => exact absurd hr.free hnotfree
    | ends he =>
      intro r hr
      rw [he.results, List.mem_singleton] at hr
      exact hr ▸ he.shutdown hs
  · exact ⟨ht.shutdownToken hs, ht.params, nofun⟩

theorem shutdown_run {s t : LoginSession} {es : List SessionEvent} {os : List SessionEffect}
    (hs : s.shutdownToken = true) (h : sessionMachine.Steps s es os t) :
    ∀ r ∈ results os, r.terminal = .cancelled ∨ TimedOut s.params r := by
  refine (h.tracing (C := fun _ _ => True) (I := fun u os => u.shutdownToken = true ∧
    u.params = s.params ∧ ∀ r ∈ results os, r.terminal = .cancelled ∨ TimedOut s.params r) ?_
    (Machine.along_of_forall fun _ _ => trivial) ⟨hs, rfl, nofun⟩).2.2
  intro u e v os₀ os hI _ hstep
  obtain ⟨hs', hparams, hres⟩ := shutdown_step hI.1 hstep
  rw [hI.2.1] at hparams hres
  refine ⟨hs', hparams, fun r hr => ?_⟩
  rw [results_append, List.mem_append] at hr
  exact hr.elim (hI.2.2 r) (hres r)

/-! ## Termination -/

/-- The polls that can still move a session on in this phase, with `retries` for those it
    can count. -/
def SessionPhase.left (retries : Nat) : SessionPhase → Nat
  | .starting => retries + 6
  | .loopTop => retries + 5
  | .attempting _ _ _ => retries + 4
  | .verifying _ _ _ _ => retries + 3
  | .recycling _ => retries + 7
  | .backingOff _ => retries + 6
  | .recording _ => 2
  | .closingBrowser => 1
  | .finished => 0

/-- A retry is worth the five phases it can go through. -/
def LoginSession.left (s : LoginSession) : Nat :=
  s.phase.left (5 * (s.params.maxRetries.toNat - s.attemptsUsed.toNat))

namespace SessionPhase
variable {a b : SessionPhase} {free cancel : Prop} {n : Nat}

theorem Next.left (h : Next free cancel a b) : b.left n + 1 ≤ a.left n := by
  cases h <;> simp only [SessionPhase.left] <;> omega

theorem left_of_running (h : a.running = true) : 3 ≤ a.left n := by
  cases a <;> first | (simp only [SessionPhase.left]; omega) | cases h

theorem left_of_verifying (h : a.isVerifying) : a.left n = n + 3 := by
  cases a <;> first | rfl | exact h.elim

theorem left_of_trying (h : a.isTrying) : n + 3 ≤ a.left n := by
  cases a <;> first | exact h.elim | (simp only [SessionPhase.left]; omega)

theorem left_of_retrying (h : a.isRetrying) : a.left n ≤ n + 7 := by
  cases a <;> first | exact h.elim | (simp only [SessionPhase.left]; omega)

end SessionPhase

/-- A poll of a session for which the awaited thing is there is paid for. -/
theorem left_step {s t : LoginSession} {e : SessionEvent} {os : List SessionEffect}
    (h : sessionMachine.step s e = some (t, os)) : t.left + e.dueIn s ≤ s.left := by
  rcases session_step_kind h with ⟨p, rfl, hkind⟩ | ⟨hdue, -, ht⟩
  · have hone : SessionEvent.dueIn s (.poll p) ≤ 1 := Bool.toNat_le _
    have hnone (hdue : s.due p = false) : SessionEvent.dueIn s (.poll p) = 0 := by
      simp [SessionEvent.dueIn, hdue]
    cases hkind with
    | waits hdue => rw [hnone hdue]; exact Nat.le_refl _
    | sends hphase hdue =>
      rw [hnone hdue, LoginSession.left, LoginSession.left, hphase]
      exact Nat.le_refl _
    | moves hk _ hused hnext =>
      rw [LoginSession.left, hk.params, hused]
      exact Nat.le_trans (Nat.add_le_add_left hone _) hnext.left
    | verifies hv =>
      obtain ⟨id, started, deadline, hphase⟩ := hv.attempt
      have hverifying : ∀ n, t.phase.left n = n + 3 :=
        fun _ => SessionPhase.left_of_verifying hv.phase
      rw [LoginSession.left, LoginSession.left, hv.keeps.params, hv.used, hverifying, hphase]
      show _ + _ ≤ _ + 4
      omega
    | retries hr =>
      -- a retry pays for the way back to the top of the loop
      have hcount : t.attemptsUsed.toNat = s.attemptsUsed.toNat + 1 := by
        rw [hr.used]; exact UInt32.toNat_succ_of_lt hr.below
      have hbelow := UInt32.lt_iff_toNat_lt.mp hr.below
      rw [LoginSession.left, LoginSession.left, hr.keeps.params, hcount]
      have hto := SessionPhase.left_of_retrying
        (n := 5 * (s.params.maxRetries.toNat - (s.attemptsUsed.toNat + 1))) hr.phase
      have hfrom := SessionPhase.left_of_trying
        (n := 5 * (s.params.maxRetries.toNat - s.attemptsUsed.toNat)) hr.source
      omega
    | ends he =>
      have hfrom := SessionPhase.left_of_running
        (n := 5 * (s.params.maxRetries.toNat - s.attemptsUsed.toNat)) he.running
      have hto : t.left = 2 := by rw [LoginSession.left, he.phase]; rfl
      rw [hto, LoginSession.left]
      omega
  · rw [hdue, LoginSession.left, LoginSession.left, ht.params, ht.phase, ht.used]
    exact Nat.le_refl _

/-- A session whose task has not returned is moved on by every poll late enough to find
    its I/O done: it waits for nothing else without a deadline. -/
theorem due_eventually {s : LoginSession} (h : s.phase ≠ .finished) :
    ∃ deadline, ∀ p : SessionPoll, deadline ≤ p.now → p.ioReady = true →
      s.due p = true ∧ (s.poll p).isSome := by
  cases hphase : s.phase with
  | attempting _ _ deadline =>
    exact ⟨deadline, fun p hp _ => by simp [LoginSession.due, LoginSession.poll, hphase, hp]⟩
  | verifying _ _ _ deadline =>
    exact ⟨deadline, fun p hp _ => by simp [LoginSession.due, LoginSession.poll, hphase, hp]⟩
  | backingOff wakeAt =>
    exact ⟨wakeAt, fun p hp _ => by simp [LoginSession.due, LoginSession.poll, hphase, hp]⟩
  | finished => exact absurd hphase h
  | starting | loopTop | recycling | recording | closingBrowser =>
    exact ⟨0, fun p _ hio => by simp [LoginSession.due, LoginSession.poll, hphase, hio]⟩

/-- A run in which enough polls found what they awaited has come to its end. -/
theorem finished_of_tally {params : SessionParams} {s : LoginSession} {es : List SessionEvent}
    {os : List SessionEffect} (h : sessionMachine.Steps { params := params } es os s)
    (henough : 5 * params.maxRetries.toNat + 6 ≤
      sessionMachine.tally (fun s e => e.dueIn s) { params := params } es) :
    s.phase = .finished := by
  have hpays := h.pays (I := fun _ => True) (φ := LoginSession.left)
    (c := fun s e => e.dueIn s) (fun _ hs => ⟨trivial, left_step hs⟩) trivial
  have hstart : LoginSession.left { params := params } = 5 * params.maxRetries.toNat + 6 := by
    simp [LoginSession.left, SessionPhase.left]
  have hzero : s.left = 0 := by omega
  revert hzero
  rw [LoginSession.left]
  cases s.phase <;> simp [SessionPhase.left]

/-! ## The outcome -/

/-- What a session with `params` comes to: `es` is the whole run, `os ++ os'` what it did,
    `s` the state after `os`, `t` the last one. -/
structure SoundOutcome (params : SessionParams) (es : List SessionEvent)
    (os os' : List SessionEffect) (s t : LoginSession) : Prop where
  attempts : executed (os ++ os') ≤ params.maxRetries.toNat + 1
  /-- One result, written when the session leaves its running phases. -/
  one : (results (os ++ os')).length = if t.phase.running then 0 else 1
  /-- So many polls that find what they await end the task, -/
  terminates : 5 * params.maxRetries.toNat + 6 ≤
    sessionMachine.tally (fun s e => e.dueIn s) { params := params } es → t.phase = .finished
  /-- and every poll late enough, with its I/O done, is such a poll. -/
  progress : t.phase ≠ .finished → ∃ deadline, ∀ p : SessionPoll, deadline ≤ p.now →
    p.ioReady = true → t.due p = true ∧ (t.poll p).isSome
  success : ∀ r ∈ results (os ++ os'), r.terminal = .success →
    (noted {} (os ++ os')).reported = some .success ∧
      (params.plan.hasExplicitSuccessCondition = true ∨
        (noted {} (os ++ os')).verified = some .online)
  /-- The last attempt was itself cancelled. -/
  heard : ∀ r ∈ results (os ++ os'), (noted {} (os ++ os')).reported = some .cancelled →
    r.terminal = .cancelled
  /-- A token set at `s` decides the result written later, -/
  cancelled : s.cancelToken = true → ∀ r ∈ results os', r.terminal = .cancelled
  /-- the shutdown token unless the total timeout was over. -/
  shutdown : s.shutdownToken = true → ∀ r ∈ results os', r.terminal = .cancelled ∨ TimedOut params r

theorem session_outcome {params : SessionParams} {s t : LoginSession} {es es' : List SessionEvent}
    {os os' : List SessionEffect} (h : sessionMachine.Steps { params := params } es os s)
    (h' : sessionMachine.Steps s es' os' t) :
    SoundOutcome params (es ++ es') os os' s t := by
  have hall := h.append h'
  have hI := told_run hall
  have hspoken : ∀ r ∈ results (os ++ os'), Backed params (noted {} (os ++ os')) r ∧
      ((noted {} (os ++ os')).reported = some .cancelled → r.terminal = .cancelled) := by
    intro r hr
    cases hrun : t.phase.running with
    | true => rw [(hI.silent hrun).1] at hr; cases hr
    | false =>
      obtain ⟨r', hres, hr'⟩ := hI.spoken hrun
      rw [hres, List.mem_singleton] at hr
      exact hr ▸ hr'
  exact {
    attempts := by
      have hbudget := hI.budget
      have hused := hI.used
      have hone := t.phase.attempted_le
      omega
    one := by
      cases hrun : t.phase.running with
      | true => rw [(hI.silent hrun).1]; rfl
      | false =>
        obtain ⟨r, hres, -⟩ := hI.spoken hrun
        rw [hres]; rfl
    terminates := finished_of_tally hall
    progress := due_eventually
    success := fun r hr => (hspoken r hr).1
    heard := fun r hr => (hspoken r hr).2
    cancelled := fun hc => (cancelled_run hc h').2
    shutdown := fun hs => (told_run h).same ▸ shutdown_run hs h' }

/-- A script login with one retry. -/
def sampleParams : SessionParams :=
  { source := .manual, maxRetries := 1, retryInterval := 5000, loginTimeout := 120000,
    profileId := "campus", plan := .script }

/-- The first attempt meets a network error, -/
def sampleFirst : List SessionEvent :=
  [.poll { now := 0 }, .poll { now := 0 }, .poll { now := 0 },
   .poll { now := 900, work := some (.inProcess ⟨.networkError, "timeout", .null⟩) }]

/-- the second succeeds and the network is online. -/
def sampleSecond : List SessionEvent :=
  [.poll { now := 6000 }, .poll { now := 6000 }, .poll { now := 6000 },
   .poll { now := 7000, work := some (.inProcess ⟨.success, "ok", .null⟩) },
   .poll { now := 13000, report := some (.ok .online) },
   .poll { now := 13000, ioReady := true }]

theorem session_outcome_sample :
    ∃ s t os os', sessionMachine.Steps { params := sampleParams } sampleFirst os s ∧
      sessionMachine.Steps s sampleSecond os' t ∧ (results (os ++ os')).length = 1 ∧
      executed (os ++ os') ≤ 2 ∧ (noted {} (os ++ os')).verified = some .online := by
  have hends : (sessionMachine.exec { params := sampleParams } (sampleFirst ++ sampleSecond)).any
      (fun r => !r.1.phase.running && (results r.2).any LoginResult.isSuccess) = true := by
    decide +kernel
  obtain ⟨t, _, hrun, hend⟩ := Machine.steps_of_any hends
  obtain ⟨s, os, os', hfirst, hsecond, rfl⟩ := hrun.split
  have hsound := session_outcome hfirst hsecond
  simp only [Bool.and_eq_true, Bool.not_eq_true', List.any_eq_true] at hend
  obtain ⟨hover, r, hr, hsucc⟩ := hend
  refine ⟨s, t, os, os', hfirst, hsecond, ?_, hsound.attempts, ?_⟩
  · rw [hsound.one, hover]; rfl
  · exact ((hsound.success r hr (of_decide_eq_true hsucc)).2).resolve_left nofun

end CampusAuth.Login
