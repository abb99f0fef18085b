import CampusAuth.Engine.Recovery

/- What becomes of the users' last commands over crashes and restarts.

   The switches that the engine will have once it has handled what is in its channel are those
   the accepted commands ask for, except while a restart that will send a Start is under way
   (`RecoveryInv`). The exceptions to the rule are the steps that are not `Honoured`: a crash
   under a manual pause, a sample that is not what was asked for, and a Start that is sent
   although the users have stopped the monitoring meanwhile. -/
namespace CampusAuth.Engine
open Status Monitor Config Login Lib

/-- The state is what the accepted commands ask for, and with the budget used up the engine is
    published as dead and every command refused. -/
structure LastCommand (s : Supervised) : Prop where
  monitoring : s.alive = true → s.watcher = .waiting → s.channel = [] →
    s.engine.inner.monitoring = s.wanted.1
  pause : s.alive = true → s.watcher = .waiting → s.channel = [] → s.wanted.2 = true →
    s.engine.inner.manualPaused = true
  dead : s.watcher = .exhausted → s.published = .dead ∧
    ∀ cmd, cmd ≠ .shutdown → s.step (.command cmd) = some (s, [.rejected .channelClosed])

def Honoured (s : Supervised) : SupervisedEvent → Prop
  -- no manual pause is in force, unless the crash uses up the budget
  | .crash => s.restartCount < maxRestartAttempts → s.wanted.2 = false
  -- what is published is what was asked for last
  | .notice => s.restartCount < maxRestartAttempts → (s.published == .running) = s.wanted.1
  -- the users have not stopped the monitoring since it was sampled
  | .restore => s.watcher = .delaying true → s.alive = true → s.wanted.1 = true
  | _ => True

instance (s : Supervised) (e : SupervisedEvent) : Decidable (Honoured s e) := by
  cases e <;> unfold Honoured <;> infer_instance

/-! ## The switches to come -/

/-- The switches once the channel is handled. -/
def Supervised.outcome (s : Supervised) : Switches :=
  s.channel.foldl (fun switches cmd => cmd.switch switches) s.engine.inner.switches

theorem switch_fst {a b : Switches} (cmd : EngineCommand) (h : a.1 = b.1) :
    (cmd.switch a).1 = (cmd.switch b).1 := by
  cases cmd with
  | start | stop => rfl
  | _ => exact h

theorem switch_snd {a b : Switches} (cmd : EngineCommand) (h : a.2 = b.2) :
    (cmd.switch a).2 = (cmd.switch b).2 := by
  cases cmd with
  | pause | resume => rfl
  | _ => exact h

variable {s t : Supervised} {e : SupervisedEvent} {os : List SupervisedEffect}

theorem outcome_push (s : Supervised) (cmd : EngineCommand) :
    ({ s with channel := s.channel ++ [cmd] } : Supervised).outcome = cmd.switch s.outcome := by
  unfold Supervised.outcome
  rw [List.foldl_append]
  rfl

theorem dispatch_cases {cmd : EngineCommand} (h : s.dispatch cmd = .ok t) :
    s.slot = true ∧ s.alive = true ∧ t = { s with channel := s.channel ++ [cmd] } := by
  unfold Supervised.dispatch at h
  split at h
  · cases h
  next hopen =>
    simp only [Bool.or_eq_true, Bool.not_eq_true', not_or, Bool.not_eq_false] at hopen
    split at h
    · cases h
    · cases h
      exact ⟨hopen.1, hopen.2, rfl⟩

theorem dispatch_closed {cmd : EngineCommand} (h : s.dispatch cmd = .error .channelClosed)
    (hslot : s.slot = true) : s.alive = false := by
  unfold Supervised.dispatch at h
  split at h
  next hclosed => simpa [hslot] using hclosed
  · split at h <;> cases h

/-- A turn changes what is published and handles commands; what is to come stays. -/
theorem turn_cases {ev : EngineEvent} {os : List Effect} (h : s.turn ev = some (t, os)) :
    s.alive = true ∧ t.outcome = s.outcome ∧
      ∃ w channel published, t = { s with engine := w, channel, published } := by
  unfold Supervised.turn at h
  split at h
  · cases h
  next halive =>
    have halive : s.alive = true := by simpa using halive
    refine ⟨halive, ?_⟩
    split at h
    next cmd aw =>
      split at h
      next first rest hchannel =>
        split at h
        next heq =>
          subst heq
          obtain ⟨⟨w, os'⟩, hstep, heq⟩ := Option.map_eq_some_iff.mp h
          cases heq
          refine ⟨?_, w, rest, _, rfl⟩
          unfold Supervised.outcome Supervised.settle
          rw [hchannel, List.foldl_cons]
          dsimp only
          rw [engineStep_switches hstep]
        · cases h
      · cases h
    next hcommand =>
      obtain ⟨⟨w, os'⟩, hstep, heq⟩ := Option.map_eq_some_iff.mp h
      cases heq
      refine ⟨?_, w, s.channel, _, rfl⟩
      have hswitches := engineStep_switches hstep
      unfold Supervised.outcome Supervised.settle
      dsimp only
      rw [hswitches]
      split
      next cmd aw => exact absurd rfl (hcommand _ _)
      · rfl

/-! ## Reachable states -/

structure RecoveryInv (s : Supervised) : Prop where
  slot : s.watcher ≠ .exhausted → s.slot = true
  exhausted : s.watcher = .exhausted → s.slot = false ∧ s.published = .dead ∧ s.alive = false
  sampled : ∀ was, s.watcher = .sampled was → s.alive = false ∧
    (s.restartCount < maxRestartAttempts → was = s.wanted.1)
  waiting : s.watcher = .waiting ∨ s.watcher = .delaying false → s.alive = true →
    s.outcome.1 = s.wanted.1
  pause : s.alive = true → s.outcome.2 = s.wanted.2
  crashed : s.alive = false → s.restartCount < maxRestartAttempts → s.wanted.2 = false

theorem recoveryInv_start (deps : EngineDeps) : RecoveryInv (supervisedStart deps) where
  slot := fun _ => rfl
  exhausted := by intro h; cases h
  sampled := by intro was h; cases h
  waiting := fun _ _ => rfl
  pause := fun _ => rfl
  crashed := by intro h; cases h

/-- The same engine with the same commands to come. -/
theorem RecoveryInv.frame (hs : RecoveryInv s) (halive : s.alive = true) (halive' : t.alive = true)
    (hslot : t.slot = s.slot) (hwatcher : t.watcher = s.watcher) (houtcome : t.outcome = s.outcome)
    (hwanted : t.wanted = s.wanted) : RecoveryInv t where
  slot := by
    rw [hslot, hwatcher]
    exact hs.slot
  exhausted := by
    rw [hwatcher]
    intro h
    have hdead := (hs.exhausted h).2.2
    rw [halive] at hdead
    cases hdead
  sampled := by
    rw [hwatcher]
    intro was h
    have := (hs.sampled was h).1
    rw [halive] at this
    cases this
  waiting := by
    rw [hwatcher, houtcome, hwanted]
    exact fun h _ => hs.waiting h halive
  pause := by
    rw [houtcome, hwanted]
    exact fun _ => hs.pause halive
  crashed := by
    rw [halive']
    intro h
    cases h

theorem RecoveryInv.command {cmd : EngineCommand} (hs : RecoveryInv s)
    (h : s.step (.command cmd) = some (t, os)) : RecoveryInv t := by
  simp only [Supervised.step] at h
  split at h
  · cases h
  split at h
  next dispatched hdispatch =>
    cases h
    obtain ⟨-, halive, rfl⟩ := dispatch_cases hdispatch
    have houtcome := outcome_push s cmd
    refine ⟨hs.slot, fun h => ?_, fun was h => ?_, fun h _ => ?_, fun _ => ?_, fun h => ?_⟩
    · have hdead := (hs.exhausted h).2.2
      rw [halive] at hdead
      cases hdead
    · have hdead := (hs.sampled was h).1
      rw [halive] at hdead
      cases hdead
    · exact (congrArg Prod.fst houtcome).trans (switch_fst cmd (hs.waiting h halive))
    · exact (congrArg Prod.snd houtcome).trans (switch_snd cmd (hs.pause halive))
    · rw [show s.alive = false from h] at halive
      cases halive
  · cases h
    exact hs

theorem RecoveryInv.turn {ev : EngineEvent} (hs : RecoveryInv s)
    (h : s.step (.turn ev) = some (t, os)) : RecoveryInv t := by
  obtain ⟨⟨t', os'⟩, hturn, heq⟩ := Option.map_eq_some_iff.mp h
  cases heq
  obtain ⟨halive, houtcome, w, channel, published, rfl⟩ := turn_cases hturn
  exact hs.frame halive halive rfl rfl houtcome rfl

theorem RecoveryInv.crash (hs : RecoveryInv s) (hhonoured : Honoured s .crash)
    (h : s.step .crash = some (t, os)) : RecoveryInv t := by
  simp only [Supervised.step] at h
  split at h
  next halive =>
    cases h
    refine ⟨hs.slot, fun h => ?_, fun was h => ?_, fun _ h => ?_, fun h => ?_, fun _ => hhonoured⟩
    · exact ⟨(hs.exhausted h).1, (hs.exhausted h).2.1, rfl⟩
    · exact ⟨rfl, (hs.sampled was h).2⟩
    · cases h
    · cases h
  · cases h

theorem RecoveryInv.notice (hs : RecoveryInv s) (hhonoured : Honoured s .notice)
    (h : s.step .notice = some (t, os)) : RecoveryInv t := by
  simp only [Supervised.step] at h
  split at h
  next hwhen =>
    cases h
    refine ⟨fun _ => hs.slot (by simp [hwhen.1]), fun h => ?_, fun was h => ?_, fun h => ?_,
      hs.pause, hs.crashed⟩
    · cases h
    · cases h
      exact ⟨hwhen.2, hhonoured⟩
    · rcases h with h | h <;> cases h
  · cases h

/-- The new engine starts with both switches off: what was asked for, or what the Start will
    restore. -/
theorem RecoveryInv.restart {deps : EngineDeps} (hs : RecoveryInv s)
    (h : s.step (.restart deps) = some (t, os)) : RecoveryInv t := by
  simp only [Supervised.step] at h
  split at h
  next was hwatcher =>
    obtain ⟨halive, hwas⟩ := hs.sampled was hwatcher
    split at h
    · cases h
      unfold Supervised.restart
      split
      · refine ⟨fun h => absurd rfl h, fun _ => ⟨rfl, rfl, halive⟩, nofun, fun h => ?_, hs.pause,
          fun _ hcount => hs.crashed halive (Nat.lt_of_succ_lt hcount)⟩
        rcases h with h | h <;> cases h
      next hbudget =>
        have hbudget : s.restartCount < maxRestartAttempts := by omega
        refine ⟨fun _ => hs.slot (by simp [hwatcher]), nofun, nofun, fun h _ => ?_, fun _ => ?_,
          nofun⟩
        · have hoff : was = false := by
            rcases h with h | h
            · cases h
            · exact Watcher.delaying.inj h
          exact hoff.symm.trans (hwas hbudget)
        · exact (hs.crashed halive hbudget).symm
    · cases h
  · cases h

theorem RecoveryInv.restore (hs : RecoveryInv s) (hhonoured : Honoured s .restore)
    (h : s.step .restore = some (t, os)) : RecoveryInv t := by
  simp only [Supervised.step] at h
  split at h
  next was hwatcher =>
    have hslot : s.slot = true := hs.slot (by simp [hwatcher])
    obtain ⟨t', hrestore, heq⟩ := Option.map_eq_some_iff.mp h
    cases heq
    unfold Supervised.restore at hrestore
    split at hrestore
    next hwas =>
      subst hwas
      split at hrestore
      next dispatched hdispatch =>
        cases hrestore
        obtain ⟨-, halive, rfl⟩ := dispatch_cases hdispatch
        have houtcome := outcome_push s .start
        refine ⟨fun _ => hslot, nofun, nofun, fun _ _ => ?_, fun _ => ?_, fun h => ?_⟩
        · exact (congrArg Prod.fst houtcome).trans (hhonoured hwatcher halive).symm
        · exact (congrArg Prod.snd houtcome).trans (hs.pause halive)
        · rw [show s.alive = false from h] at halive
          cases halive
      next hclosed =>
        cases hrestore
        refine ⟨fun _ => hslot, nofun, nofun, fun _ halive => ?_, hs.pause, hs.crashed⟩
        rw [dispatch_closed hclosed hslot] at halive
        cases halive
      · cases hrestore
    next hwas =>
      cases hrestore
      have hwas : was = false := by simpa using hwas
      exact ⟨fun _ => hslot, nofun, nofun, fun _ => hs.waiting (.inr (hwas ▸ hwatcher)), hs.pause,
        hs.crashed⟩
  · cases h

theorem RecoveryInv.step (hs : RecoveryInv s) (hhonoured : Honoured s e)
    (h : s.step e = some (t, os)) : RecoveryInv t := by
  cases e with
  | command cmd => exact hs.command h
  | turn ev => exact hs.turn h
  | crash => exact hs.crash hhonoured h
  | notice => exact hs.notice hhonoured h
  | restart deps => exact hs.restart h
  | restore => exact hs.restore hhonoured h

/-! ## The last command -/

theorem RecoveryInv.lastCommand (hs : RecoveryInv s) : LastCommand s where
  monitoring := by
    intro halive hwatcher hchannel
    have houtcome := hs.waiting (.inl hwatcher) halive
    unfold Supervised.outcome at houtcome
    rw [hchannel] at houtcome
    exact houtcome
  pause := by
    intro halive _ hchannel hwanted
    have houtcome := hs.pause halive
    unfold Supervised.outcome at houtcome
    rw [hchannel, hwanted] at houtcome
    exact houtcome
  dead := by
    intro hwatcher
    obtain ⟨hslot, hpublished, -⟩ := hs.exhausted hwatcher
    refine ⟨hpublished, fun cmd hcmd => ?_⟩
    simp [Supervised.step, Supervised.dispatch, hcmd, hslot]

/-- In every interleaving of crashes, restarts, turns of the engine and commands whose steps are
    all `Honoured`, the last accepted commands hold. -/
theorem last_command_honoured (deps : EngineDeps) (es : List SupervisedEvent)
    (os : List SupervisedEffect) (t : Supervised)
    (hrun : supervisedMachine.Steps (supervisedStart deps) es os t)
    (hhonoured : supervisedMachine.Along Honoured (supervisedStart deps) es) : LastCommand t := by
  have hinv : RecoveryInv t :=
    hrun.invariant (fun hs he h => hs.step he h) hhonoured (recoveryInv_start deps)
  exact hinv.lastCommand

/-- A Start that is handled, a crash, and a restart up to the restored Start. `during` is what
    happens while the restart waits. -/
def crashAfterStart (during : List SupervisedEvent) : List SupervisedEvent :=
  [.command .start, .turn (.command .start sampleWait), .crash, .notice, .restart sampleDeps] ++
    during ++ [.restore, .turn (.command .start sampleWait)]

/-- A crash with nobody giving a command: monitoring is on again. -/
theorem last_command_honoured_sample :
    ∃ os t, supervisedMachine.Steps (supervisedStart sampleDeps) (crashAfterStart []) os t ∧
      t.watcher = .waiting ∧ t.engine.inner.monitoring = true ∧ t.wanted.1 = true := by
  have hrun : supervisedMachine.Steps (supervisedStart sampleDeps) (crashAfterStart []) _ _ :=
    Machine.steps_of_exec rfl
  refine ⟨_, _, hrun, rfl, ?_, rfl⟩
  exact (last_command_honoured sampleDeps (crashAfterStart []) _ _ hrun (by decide)).monitoring
    rfl rfl rfl

/-- A Stop that the new engine accepts and handles while the restart waits is followed by the
    Start of the restart. -/
theorem stop_during_restart_is_lost : ¬∀ (deps : EngineDeps) (es : List SupervisedEvent)
    (os : List SupervisedEffect) (t : Supervised),
    supervisedMachine.Steps (supervisedStart deps) es os t → LastCommand t := by
  intro h
  have hrun : supervisedMachine.Steps (supervisedStart sampleDeps)
      (crashAfterStart [.command .stop, .turn (.command .stop sampleWait)]) _ _ :=
    Machine.steps_of_exec rfl
  have hlast := (h sampleDeps _ _ _ hrun).monitoring rfl rfl rfl
  exact Bool.false_ne_true hlast.symm

end CampusAuth.Engine
