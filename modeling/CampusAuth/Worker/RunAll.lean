import CampusAuth.Worker.Debugger

/- A debug run of a task against an official one.

   `run_steps` and `handle_debug_run_all` go through the same steps with loops of their own: the
   one keeps what failed for its summary, the other a record for each step, and takes a picture of
   the page behind it. On a page on which a picture leaves no trace (`Unseen`) both do to the page
   what `attempts` does, and the verdict of the official run can be read off the steps of the debug
   run (`run_all_agrees`). They part at one kind of step only: one that need not succeed and asks
   for a hand ends the official run, and the debug run goes on behind it. -/
namespace CampusAuth.Worker
open Lib

variable {σ : Type} (o : CharClasses) (b : Browser σ)

/-! ## Steps one after the other -/

/-- A step that was tried, and how it failed if it did. -/
structure Try where
  index : Nat
  step : StepConfig
  failure : Option Failure

/-- The delay and the step. -/
def attempt (context : StepContext) (total index : Nat) (step : StepConfig) (s : Scene σ) :
    Option Failure × Scene σ :=
  match stepPause b context (0 < index) s with
  | (some failure, s) => (some failure, s)
  | (none, s) => runStepAsync o b context step (some index) total s

/-- The steps from `index` on, up to the first whose failure `halts`. -/
def attempts (halts : StepConfig → Failure → Bool) (context : StepContext) (total : Nat) :
    Nat → List StepConfig → Scene σ → List Try × Scene σ
  | _, [], s => ([], s)
  | index, step :: rest, s =>
    let (failure, s) := attempt o b context total index step s
    if failure.any (halts step) then ([⟨index, step, failure⟩], s)
    else
      let (tried, s) := attempts halts context total (index + 1) rest s
      (⟨index, step, failure⟩ :: tried, s)

/-- The official run ends at this step. -/
def Try.halts (t : Try) : Bool := t.failure.any fun failure => !t.step.skips failure

/-- What the official run makes of the steps that were tried: what failed and was passed over, or
    the first failure that ends it. -/
def tally : List Text → List Try → Except Failure (List Text)
  | failed, [] => .ok failed
  | failed, t :: rest =>
    match t.failure with
    | none => tally failed rest
    | some failure =>
      if t.step.skips failure then tally (failed ++ [stepLabel t.step t.index]) rest
      else .error failure

def verdict (tried : List Try) : Option StructuredResult := runResult (tally [] tried)

/-- The record of a step; one that was broken off has none. -/
def Try.record (t : Try) : Option Record :=
  match t.failure with
  | none => some ⟨t.index, true, []⟩
  | some failure => (normalizeStepFailure cancelledStep failure).map fun r =>
      ⟨t.index, false, if r.2.isEmpty then "执行失败".toList else r.2⟩

/-! ## Pages that look alike -/

/-- Pages related by `R` cannot be told apart by the steps of a task, and taking a picture leaves
    a page related to what it was related to. -/
structure Unseen (R : σ → σ → Prop) : Prop where
  vars : ∀ v w, R v w → b.templateVariables v = b.templateVariables w
  cancelled : ∀ v w, R v w → b.cancelled v = b.cancelled w
  sleep : ∀ q v w, R v w → (b.sleep q v).1 = (b.sleep q w).1 ∧ R (b.sleep q v).2 (b.sleep q w).2
  handle : ∀ step ms v w, R v w →
    (b.handle step ms v).1 = (b.handle step ms w).1 ∧ R (b.handle step ms v).2 (b.handle step ms w).2
  screenshot : ∀ index fullPage v w, R v w → R v (b.screenshot index fullPage w).2
  done : b.FramesDone

variable {o b} {R : σ → σ → Prop} {context : StepContext}

theorem Unseen.sleepCancellable (hb : Unseen b R) (q : ℚ) {v w : σ} (h : R v w) :
    (sleepCancellable b q v).1 = (sleepCancellable b q w).1 ∧
      R (sleepCancellable b q v).2 (sleepCancellable b q w).2 := by
  obtain ⟨hfailure, hrel⟩ := hb.sleep q v w h
  unfold Worker.sleepCancellable
  rw [← hb.cancelled v w h]
  generalize b.sleep q v = r at hfailure hrel
  generalize b.sleep q w = r' at hfailure hrel
  obtain ⟨failure, v'⟩ := r
  obtain ⟨failure', w'⟩ := r'
  obtain rfl : failure = failure' := hfailure
  split
  next => exact ⟨rfl, h⟩
  next =>
    split
    next => exact ⟨rfl, h⟩
    next =>
      cases failure with
      | true => exact ⟨rfl, hrel⟩
      | false =>
        dsimp only
        rw [← hb.cancelled v' w' hrel]
        split <;> exact ⟨rfl, hrel⟩

theorem Unseen.stepPause (hb : Unseen b R) (context : StepContext) (apply : Bool) {s t : Scene σ} (h : R s.world t.world) :
    (stepPause b context apply s).1 = (stepPause b context apply t).1 ∧
      R (stepPause b context apply s).2.world (stepPause b context apply t).2.world := by
  unfold Worker.stepPause
  split
  next => exact hb.sleepCancellable _ h
  next => exact ⟨rfl, h⟩

theorem Unseen.runStepAsync (hb : Unseen b R) (step : StepConfig) (index : Option Nat) (total : Nat)
    {s t : Scene σ} (h : R s.world t.world) :
    (runStepAsync o b context step index total s).1 =
        (runStepAsync o b context step index total t).1 ∧
      R (runStepAsync o b context step index total s).2.world
        (runStepAsync o b context step index total t).2.world := by
  unfold Worker.runStepAsync
  rw [← hb.vars _ _ h]
  dsimp only [Scene.emit]
  rw [← hb.cancelled _ _ h]
  split
  next => exact ⟨rfl, h⟩
  next =>
    split
    next => exact ⟨rfl, h⟩
    next =>
      obtain ⟨hrace, hrel⟩ := hb.handle (resolveStep o (b.templateVariables s.world) step)
        (timeoutMs context (resolveStep o (b.templateVariables s.world) step)) _ _ h
      exact ⟨congrArg (Race.failure context _) hrace, hrel⟩

theorem Unseen.attempt (hb : Unseen b R) (context : StepContext) (total index : Nat) (step : StepConfig) {s t : Scene σ}
    (h : R s.world t.world) :
    (attempt o b context total index step s).1 = (attempt o b context total index step t).1 ∧
      R (attempt o b context total index step s).2.world
        (attempt o b context total index step t).2.world := by
  obtain ⟨hfailure, hrel⟩ := hb.stepPause context (decide (0 < index)) h
  unfold Worker.attempt
  generalize Worker.stepPause b context (decide (0 < index)) s = r at hfailure hrel
  generalize Worker.stepPause b context (decide (0 < index)) t = r' at hfailure hrel
  obtain ⟨failure, s'⟩ := r
  obtain ⟨failure', t'⟩ := r'
  obtain rfl : failure = failure' := hfailure
  cases failure with
  | some failure => exact ⟨rfl, hrel⟩
  | none => exact hb.runStepAsync step (some index) total hrel

/-! ## The official run -/

theorem Try.halts_of_fatal {t : Try} (h : t.failure.any t.step.fatal = true) : t.halts = true := by
  obtain ⟨index, step, failure⟩ := t
  cases failure with
  | none => cases h
  | some failure =>
    cases failure <;> simp_all [Try.halts, StepConfig.skips, StepConfig.fatal]

/-- A delay ends with no failure that a run could pass over. -/
theorem sleep_halts {q : ℚ} {w : σ} {failure : Failure} (step : StepConfig)
    (h : (sleepCancellable b q w).1 = some failure) : step.skips failure = false := by
  unfold sleepCancellable at h
  split at h
  · cases h
    rfl
  · split at h
    · cases h
    · split at h
      · cases h
        rfl
      · split at h <;> cases h
        rfl

theorem pause_halts {apply : Bool} {s t : Scene σ} {failure : Failure} (step : StepConfig)
    (h : stepPause b context apply s = (some failure, t)) : step.skips failure = false := by
  unfold stepPause at h
  split at h
  · exact sleep_halts step (congrArg Prod.fst h)
  · cases h

/-- Under a cancelled command a step is not begun. -/
theorem attempt_cancelled (context : StepContext) (total index : Nat) {step : StepConfig}
    {s : Scene σ} (hcancelled : b.cancelled s.world = true) (hknown : step.stepType ∈ stepHandlers) :
    (attempt o b context total index step s).1 = some stepCancelled ∧
      (attempt o b context total index step s).2.world = s.world := by
  have hpause : ∀ apply, stepPause b context apply s = (none, s) ∨
      stepPause b context apply s = (some stepCancelled, s) := by
    intro apply
    unfold stepPause sleepCancellable
    rw [if_pos hcancelled]
    split
    next => exact .inr rfl
    next => exact .inl rfl
  unfold attempt
  obtain h | h := hpause (decide (0 < index))
  · rw [h]
    have hresolved : (resolveStep o (b.templateVariables s.world) step).stepType ∈ stepHandlers :=
      hknown
    simp only [runStepAsync, List.contains_iff_mem.mpr hresolved, Bool.not_true, Bool.false_eq_true,
      if_false, Scene.emit, hcancelled, if_true, and_self]
  · rw [h]
    exact ⟨rfl, rfl⟩

/-- The loop of `run_steps` is what the tried steps tally to. -/
theorem runStepsFrom_eq (context : StepContext) (total : Nat) : ∀ (steps : List StepConfig) (index : Nat)
    (failed : List Text) (s : Scene σ), (∀ step ∈ steps, step.stepType ∈ stepHandlers) →
    (runStepsFrom o b context total index steps failed s).1 =
        tally failed (attempts o b (fun step f => !step.skips f) context total index steps s).1 ∧
      (runStepsFrom o b context total index steps failed s).2.world =
        (attempts o b (fun step f => !step.skips f) context total index steps s).2.world := by
  intro steps
  induction steps with
  | nil => exact fun _ _ _ _ => ⟨rfl, rfl⟩
  | cons step rest ih =>
    intro index failed s hknown
    have hrest := fun step hstep => hknown step (List.mem_cons_of_mem _ hstep)
    by_cases hcancelled : b.cancelled s.world = true
    · obtain ⟨hfailure, hworld⟩ := attempt_cancelled (o := o) context total index hcancelled
        (hknown step List.mem_cons_self)
      simp only [runStepsFrom, if_pos hcancelled, attempts, hfailure]
      exact ⟨rfl, hworld.symm⟩
    simp only [runStepsFrom, if_neg hcancelled, attempts, attempt]
    obtain ⟨paused, s', hpause⟩ : ∃ paused s',
      stepPause b context (decide (0 < index)) s = (paused, s') := ⟨_, _, rfl⟩
    obtain ⟨failure, s'', hrun⟩ : ∃ failure s'',
      runStepAsync o b context step (some index) total s' = (failure, s'') := ⟨_, _, rfl⟩
    simp only [hpause]
    cases paused with
    | some failure =>
      have hskips := pause_halts step hpause
      simp [tally, hskips]
    | none =>
      simp only [hrun]
      cases failure with
      | none =>
        obtain ⟨htally, hworld⟩ := ih (index + 1) failed s'' hrest
        simpa [tally] using ⟨htally, hworld⟩
      | some failure =>
        cases hskips : step.skips failure with
        | true =>
          obtain ⟨htally, hworld⟩ := ih (index + 1) (failed ++ [stepLabel step index]) s'' hrest
          simpa [tally, hskips] using ⟨htally, hworld⟩
        | false => simp [tally, hskips]

/-! ## The steps that were tried -/

variable {halts : StepConfig → Failure → Bool} {total : Nat}

theorem attempts_steps : ∀ (steps : List StepConfig) (index : Nat) (s : Scene σ),
    (attempts o b halts context total index steps s).1.map (fun t => (t.step, t.index)) <+:
      steps.zipIdx index := by
  intro steps
  induction steps with
  | nil => exact fun _ _ => List.nil_prefix
  | cons step rest ih =>
    intro index s
    simp only [attempts, List.zipIdx_cons]
    split
    next => exact (List.prefix_cons_inj _).mpr List.nil_prefix
    next => exact (List.prefix_cons_inj _).mpr (ih (index + 1) _)

theorem attempts_ne_nil {steps : List StepConfig} (h : steps ≠ []) (index : Nat) (s : Scene σ) :
    (attempts o b halts context total index steps s).1 ≠ [] := by
  cases steps with
  | nil => exact absurd rfl h
  | cons step rest =>
    simp only [attempts]
    split <;> exact List.cons_ne_nil _ _

theorem mem_dropLast_cons {α : Type*} {a c : α} {l : List α} (h : c ∈ (a :: l).dropLast) :
    l ≠ [] ∧ (c = a ∨ c ∈ l.dropLast) := by
  cases l with
  | nil => exact absurd h List.not_mem_nil
  | cons d l => exact ⟨List.cons_ne_nil d l, List.mem_cons.mp h⟩

/-- Only the last step that was tried may have failed so that the run ends. -/
theorem attempts_dropLast : ∀ (steps : List StepConfig) (index : Nat) (s : Scene σ),
    ∀ t ∈ (attempts o b halts context total index steps s).1.dropLast,
      t.failure.any (halts t.step) = false := by
  intro steps
  induction steps with
  | nil => exact fun _ _ _ ht => absurd ht List.not_mem_nil
  | cons step rest ih =>
    intro index s t ht
    simp only [attempts] at ht
    split at ht
    · exact absurd ht List.not_mem_nil
    next hgoes =>
      obtain ⟨-, rfl | ht⟩ := mem_dropLast_cons ht
      · exact Bool.eq_false_iff.mpr hgoes
      · exact ih (index + 1) _ t ht

/-- The run that ends at every failure the official one ends at tallies to the same as one that
    goes on behind some of them. -/
theorem attempts_agree (context : StepContext) (total : Nat)
    (hhalts : ∀ step f, halts step f = true → step.skips f = false) :
    ∀ (steps : List StepConfig) (index : Nat) (s : Scene σ),
    (∀ failed,
      tally failed (attempts o b (fun step f => !step.skips f) context total index steps s).1 =
        tally failed (attempts o b halts context total index steps s).1) ∧
    ((∀ t ∈ (attempts o b halts context total index steps s).1.dropLast, t.halts = false) →
      attempts o b (fun step f => !step.skips f) context total index steps s =
        attempts o b halts context total index steps s) := by
  intro steps
  induction steps with
  | nil => exact fun _ _ => ⟨fun _ => rfl, fun _ => rfl⟩
  | cons step rest ih =>
    intro index s
    obtain ⟨failure, s', hattempt⟩ : ∃ failure s',
      attempt o b context total index step s = (failure, s') := ⟨_, _, rfl⟩
    obtain ⟨htally, hsame⟩ := ih (index + 1) s'
    simp only [attempts, hattempt]
    by_cases hends : failure.any (halts step) = true
    · -- Both end here.
      have hofficial : (failure.any fun f => !step.skips f) = true := by
        cases failure with
        | none => cases hends
        | some failure => simpa using hhalts step failure hends
      simp [hends, hofficial]
    rw [if_neg hends]
    by_cases hofficial : (failure.any fun f => !step.skips f) = true
    · -- Only the official run ends here.
      rw [if_pos hofficial]
      refine ⟨fun failed => ?_, fun hnone => ?_⟩
      · cases failure with
        | none => cases hofficial
        | some failure =>
          have hskips : step.skips failure = false := by simpa using hofficial
          simp [tally, hskips]
      · cases rest with
        | nil => rfl
        | cons next rest =>
          have hmore : (attempts o b halts context total (index + 1) (next :: rest) s').1 ≠ [] :=
            attempts_ne_nil (List.cons_ne_nil next rest) (index + 1) s'
          have hmem : (⟨index, step, failure⟩ : Try) ∈ (⟨index, step, failure⟩ ::
              (attempts o b halts context total (index + 1) (next :: rest) s').1).dropLast := by
            rw [List.dropLast_cons_of_ne_nil hmore]
            exact List.mem_cons_self
          exact absurd (hnone _ hmem) (by rw [Try.halts, hofficial]; decide)
    · -- Neither ends here.
      rw [if_neg hofficial]
      refine ⟨fun failed => ?_, fun hnone => ?_⟩
      · cases failure with
        | none => simpa [tally] using htally failed
        | some failure =>
          have hskips : step.skips failure = true := by simpa using hofficial
          simpa [tally, hskips] using htally (failed ++ [stepLabel step index])
      · rw [hsame fun t ht => hnone t ?_]
        by_cases hnil : (attempts o b halts context total (index + 1) rest s').1 = []
        · rw [hnil] at ht
          exact absurd ht List.not_mem_nil
        · rw [List.dropLast_cons_of_ne_nil hnil]
          exact List.mem_cons_of_mem _ ht

/-! ## The debug run -/

/-- What the debugger notes of a step is its record. -/
theorem record_eq {failure : Option Failure} (index : Nat) (step : StepConfig)
    (h : failure.map (normalizeStepFailure cancelledStep) = some none → False)
    (session : DebugSession) : ∃ r, Try.record ⟨index, step, failure⟩ = some r ∧
      (session.record index failure.isNone
        (((failure.map (normalizeStepFailure cancelledStep)).join.map (·.2)).getD [])).results =
        session.results ++ [r] := by
  cases failure with
  | none => exact ⟨_, rfl, rfl⟩
  | some failure =>
    cases hnormal : normalizeStepFailure cancelledStep failure with
    | none => exact absurd (congrArg some hnormal) h
    | some r =>
      refine ⟨⟨index, false, if r.2.isEmpty then "执行失败".toList else r.2⟩, ?_, ?_⟩
      · simp [Try.record, hnormal]
      · simp [DebugSession.record, hnormal]

/-- The loop of `handle_debug_run_all` records the steps that were tried. -/
theorem runAllFrom_eq (hb : Unseen b R) : ∀ (rest : List StepConfig) (index : Nat)
    (session : DebugSession) (v w : Scene σ), R v.world w.world →
    (runAllFrom o b 0 index rest session w).2.1.results = session.results ++
        (attempts o b StepConfig.fatal session.context session.steps.length index rest v).1.filterMap
          Try.record ∧
      (runAllFrom o b 0 index rest session w).2.1.currentStep = index +
        ((attempts o b StepConfig.fatal session.context session.steps.length index rest
          v).1.filterMap Try.record).length ∧
      R (attempts o b StepConfig.fatal session.context session.steps.length index rest v).2.world
        (runAllFrom o b 0 index rest session w).2.2.world ∧
      (runAllFrom o b 0 index rest session w).2.1.sessionId = session.sessionId := by
  intro rest
  induction rest with
  | nil => exact fun index session v w h => ⟨by simp [runAllFrom, attempts], rfl, h, rfl⟩
  | cons step rest ih =>
    intro index session v w h
    obtain ⟨hfailure, hrel⟩ := hb.attempt (o := o) session.context session.steps.length
      index step h
    obtain ⟨failure, v', hv⟩ : ∃ failure v',
      attempt o b session.context session.steps.length index step v = (failure, v') := ⟨_, _, rfl⟩
    obtain ⟨failure', w', hw⟩ : ∃ failure w',
      attempt o b session.context session.steps.length index step w = (failure, w') := ⟨_, _, rfl⟩
    rw [hv, hw] at hfailure hrel
    obtain rfl : failure = failure' := hfailure
    have hturn : ∀ currentStep : Nat,
        runAllStep o b 0 index step { session with currentStep } w = (failure, w') := fun _ => hw
    simp only [runAllFrom, hturn, attempts, hv]
    split
    next hbase =>
      -- What broke the step off leaves no record, and the cursor stays at it.
      obtain ⟨f, rfl, hf⟩ := Option.map_eq_some_iff.mp hbase
      have hfatal : step.fatal f = true := by
        cases f <;> first | rfl | cases hf
      have hrecord : ([⟨index, step, some f⟩] : List Try).filterMap Try.record = [] := by
        simp [Try.record, hf]
      simp only [Option.any_some, hfatal, if_true, hrecord, List.append_nil, List.length_nil,
        Nat.add_zero]
      exact ⟨trivial, trivial, hrel, trivial⟩
    next hcaught =>
      obtain ⟨r, hrecord, hresults⟩ := record_eq index step hcaught
        { session with currentStep := index }
      obtain ⟨screenshots, scene, hcapture, hscene⟩ := capture_cases hb.done
        (DebugSession.record { session with currentStep := index } index failure.isNone
          (((failure.map (normalizeStepFailure cancelledStep)).join.map (·.2)).getD []))
        (some index) false w'
      have hshown : R v'.world scene.world := hscene ▸ hb.screenshot _ _ _ _ hrel
      rw [hcapture]
      dsimp only
      split
      next => exact ⟨by simp [hresults, hrecord], by simp [hrecord], hshown, rfl⟩
      next =>
        obtain ⟨hrest, hcursor, hworld, hid⟩ := ih (index + 1) { (DebugSession.record
          { session with currentStep := index } index failure.isNone
          (((failure.map (normalizeStepFailure cancelledStep)).join.map (·.2)).getD [])) with
            screenshots } v' scene hshown
        refine ⟨?_, ?_, hworld, hid⟩
        · rw [hrest, List.filterMap_cons_some hrecord]
          simp only [hresults, List.append_assoc, List.singleton_append]
          rfl
        · rw [hcursor, List.filterMap_cons_some hrecord, List.length_cons]
          exact Nat.add_right_comm index 1 _

/-- A fresh session run to its end and an official run of its steps, on pages that cannot be told
    apart: the records are those of the steps that were tried, the official verdict is what these
    tally to, a step behind which only the debug run went on need not succeed and asks for a hand,
    and where there is none the pages still cannot be told apart. -/
theorem run_all_agrees (hb : Unseen b R) {session : DebugSession} (hcursor : session.currentStep = 0)
    (hresults : session.results = []) (hsteps : session.steps ≠ [])
    (hknown : ∀ step ∈ session.steps, step.stepType ∈ stepHandlers) {d : Debugger σ}
    (hd : d.sessions = [(session.sessionId, session)]) {s : Scene σ}
    (hs : R s.world d.scene.world) :
    ∃ (tried : List Try) (after : DebugSession),
      (handleDebugRunAll o b [] d).2.sessions = [(session.sessionId, after)] ∧
      tried.map (fun t => (t.step, t.index)) <+: session.steps.zipIdx ∧
      after.results = tried.filterMap Try.record ∧ after.currentStep = after.results.length ∧
      (runSteps o b session.context session.steps s).1 = verdict tried ∧
      (∀ t ∈ tried.dropLast, t.halts = true → t.step.required = false ∧
        ∃ message, t.failure = some (.worker .manualRequired message)) ∧
      ((∀ t ∈ tried.dropLast, t.halts = false) →
        R (runSteps o b session.context session.steps s).2.world
          (handleDebugRunAll o b [] d).2.scene.world) := by
  have hrun : handleDebugRunAll o b [] d =
      answerWith d (runAllFrom o b 0 0 session.steps session d.scene) := by
    simp [handleDebugRunAll, Debugger.sessionFor, hd, hcursor, hsteps]
  obtain ⟨hrecords, hat, hworld, hid⟩ := runAllFrom_eq (o := o) hb session.steps 0 session s d.scene hs
  obtain ⟨htally, hofficial⟩ := runStepsFrom_eq (o := o) (b := b) session.context
    session.steps.length session.steps 0 [] s hknown
  have hfatal : ∀ (step : StepConfig) f, step.fatal f = true → step.skips f = false := by
    intro step f
    cases f <;> simp [StepConfig.fatal, StepConfig.skips]
    exact fun h h' => absurd (h.symm.trans h') (by decide)
  obtain ⟨hsame, hequal⟩ := attempts_agree (o := o) (b := b) session.context session.steps.length
    hfatal session.steps 0 s
  have hverdict : runSteps o b session.context session.steps s =
      let r := runStepsFrom o b session.context session.steps.length 0 session.steps [] s
      (runResult r.1, r.2) := by
    simp [runSteps, hsteps]
  refine ⟨(attempts o b StepConfig.fatal session.context session.steps.length 0 session.steps s).1,
    (runAllFrom o b 0 0 session.steps session d.scene).2.1, ?_, attempts_steps _ _ _, ?_, ?_, ?_, ?_,
    ?_⟩
  · simp [hrun, answerWith, Debugger.set, hd, hid]
  · rw [hrecords, hresults, List.nil_append]
  · rw [hat, hrecords, hresults, List.nil_append, Nat.zero_add]
  · rw [hverdict, verdict, ← hsame, ← htally]
  · intro t ht hhalts
    have hgoes := attempts_dropLast session.steps 0 s t ht
    obtain ⟨index, step, failure⟩ := t
    cases failure with
    | none => cases hhalts
    | some failure => cases failure <;> simp_all [Try.halts, StepConfig.fatal, StepConfig.skips]
  · intro hnone
    rw [hverdict, hrun]
    dsimp only
    rw [hofficial, hequal hnone]
    exact hworld

def sampleSession : DebugSession := sampleStart.session

def sampleDebugger : Debugger Nat := ⟨⟨0, []⟩, [(['s'], sampleSession)]⟩

theorem sampleBrowser_unseen : Unseen sampleBrowser Eq where
  vars _ _ _ := rfl
  cancelled _ _ _ := rfl
  sleep _ _ _ h := ⟨rfl, h⟩
  handle _ _ _ _ h := ⟨rfl, congrArg (· + 1) h⟩
  screenshot _ _ _ _ h := h
  done := sampleBrowser_framesDone

theorem run_all_agrees_sample : ∃ tried after,
    (handleDebugRunAll asciiClasses sampleBrowser [] sampleDebugger).2.sessions = [(['s'], after)] ∧
      after.results = tried.filterMap Try.record ∧
      verdict tried = some ⟨.success, "执行成功；1 个非必须步骤失败: b".toList⟩ := by
  have hofficial : (runSteps asciiClasses sampleBrowser sampleSession.context sampleSession.steps
      ⟨0, []⟩).1 = some ⟨.success, "执行成功；1 个非必须步骤失败: b".toList⟩ := by
    decide +kernel
  obtain ⟨tried, after, hsessions, -, hrecords, -, hverdict, -⟩ :=
    run_all_agrees (o := asciiClasses) (s := ⟨0, []⟩) sampleBrowser_unseen
      (show sampleSession.currentStep = 0 from rfl) rfl (List.cons_ne_nil _ _) (by decide)
      (d := sampleDebugger) rfl rfl
  exact ⟨tried, after, hsessions, hrecords, hverdict ▸ hofficial⟩

end CampusAuth.Worker
