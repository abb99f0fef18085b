import CampusAuth.Engine.Handlers

/- The engine under its supervisor (`watch_engine` in `launcher.rs`, `EngineSlot` in
   `engine/slot.rs`). A crash drops the command channel with what is in it; the supervisor
   samples the published state, aborts the automatic logins, puts a new engine into the slot,
   waits, and sends a Start if the sample said Running. After three restarts it clears the slot
   and publishes Dead.

   The engine is the loop of `Engine.System`, started anew by a restart; its turns and the
   commands of users fall in any order between the supervisor's steps. The application is not
   shutting down.

   The last accepted command on each of the two switches, monitoring and the manual pause, is
   honoured as long as every step is `Honoured` (`last_command_honoured`); a Stop given while
   the restart waits is not (`stop_during_restart_is_lost`). -/
namespace CampusAuth.Engine
open Status Monitor Config Login Lib

def cmdChannelCapacity : Nat := 64
def maxRestartAttempts : Nat := 3

inductive EngineError where
  | channelFull
  | channelClosed
  deriving DecidableEq, Repr

/-- Where the supervisor is. `was` is the sampled "was monitoring". -/
inductive Watcher where
  /-- Waits for the engine to complete. -/
  | waiting
  /-- Has sampled and aborts the automatic logins. -/
  | sampled (was : Bool)
  /-- Waits before it restores, with a new engine in the slot. -/
  | delaying (was : Bool)
  | exhausted
  deriving DecidableEq, Repr

/-- Monitoring and the manual pause. -/
abbrev Switches := Bool × Bool

def EngineInner.switches (inner : EngineInner) : Switches := (inner.monitoring, inner.manualPaused)

/-- What a command makes of the switches. -/
def EngineCommand.switch : EngineCommand → Switches → Switches
  | .start, s => (true, s.2)
  | .stop, s => (false, s.2)
  | .pause, s => (s.1, true)
  | .resume, s => (s.1, false)
  | _, s => s

structure Supervised where
  /-- The engine last started. -/
  engine : World
  alive : Bool := true
  /-- The slot holds the engine. -/
  slot : Bool := true
  /-- The commands in the engine's channel. -/
  channel : List EngineCommand := []
  /-- The engine state of the published snapshot. -/
  published : EngineState := .stopped
  watcher : Watcher := .waiting
  restartCount : Nat := 0
  /-- What the accepted commands ask for. -/
  wanted : Switches := (false, false)

inductive SupervisedEvent where
  /-- A user's command is dispatched through the slot. -/
  | command (cmd : EngineCommand)
  /-- A turn of the engine; a command it handles is the next of the channel. -/
  | turn (e : EngineEvent)
  | crash
  /-- The supervisor finds the engine complete and samples the published state. -/
  | notice
  /-- The supervisor starts a new engine, or gives up. -/
  | restart (deps : EngineDeps)
  /-- The delay is over, and a Start is sent if the sample said so. -/
  | restore

inductive SupervisedEffect where
  | accepted (cmd : EngineCommand)
  | rejected (error : EngineError)
  | engine (o : Effect)
  deriving DecidableEq, Repr

namespace Supervised

/-- `EngineSlot::try_dispatch`. -/
def dispatch (s : Supervised) (cmd : EngineCommand) : Except EngineError Supervised :=
  if !s.slot || !s.alive then .error .channelClosed
  else if s.channel.length ≥ cmdChannelCapacity then .error .channelFull
  else .ok { s with channel := s.channel ++ [cmd] }

/-- The engine moves to `w` with the effects `os`. -/
def settle (s : Supervised) (w : World) (os : List Effect) : Supervised :=
  { s with engine := w, published := (shown os).getLast?.getD s.published }

def turn (s : Supervised) (e : EngineEvent) : Option (Supervised × List Effect) :=
  if !s.alive then none
  else
    match e with
    | .command cmd aw =>
      match s.channel with
      | next :: rest =>
        if next = cmd then
          (engineStep s.engine (.command cmd aw)).map fun (w, os) =>
            ({ s with channel := rest }.settle w os, os)
        else none
      | [] => none
    | e => (engineStep s.engine e).map fun (w, os) => (s.settle w os, os)

def restart (s : Supervised) (deps : EngineDeps) (was : Bool) : Supervised :=
  if s.restartCount + 1 > maxRestartAttempts then
    { s with slot := false, published := .dead, watcher := .exhausted
             restartCount := s.restartCount + 1 }
  else
    { s with engine := .init deps, alive := true, channel := [], watcher := .delaying was
             restartCount := s.restartCount + 1 }

/-- `none` while the channel of the new engine is full: the Start waits for room. -/
def restore (s : Supervised) (was : Bool) : Option Supervised :=
  if was then
    match s.dispatch .start with
    | .ok s => some { s with watcher := .waiting }
    | .error .channelClosed => some { s with watcher := .waiting }
    | .error .channelFull => none
  else some { s with watcher := .waiting }

def step (s : Supervised) : SupervisedEvent → Option (Supervised × List SupervisedEffect)
  | .command cmd =>
    if cmd = .shutdown then none
    else
      match s.dispatch cmd with
      | .ok t => some ({ t with wanted := cmd.switch s.wanted }, [.accepted cmd])
      | .error error => some (s, [.rejected error])
  | .turn e => (s.turn e).map fun (t, os) => (t, os.map .engine)
  | .crash => if s.alive then some ({ s with alive := false, channel := [] }, []) else none
  | .notice =>
    if s.watcher = .waiting ∧ s.alive = false then
      some ({ s with watcher := .sampled (s.published == .running) }, [])
    else none
  | .restart deps =>
    match s.watcher with
    | .sampled was =>
      if s.engine.deps.precedes deps then some (s.restart deps was, []) else none
    | _ => none
  | .restore =>
    match s.watcher with
    | .delaying was => (s.restore was).map (·, [])
    | _ => none

end Supervised

def supervisedMachine : Machine Supervised SupervisedEvent SupervisedEffect := ⟨Supervised.step⟩

def supervisedStart (deps : EngineDeps) : Supervised := { engine := .init deps }

/-! ## The switches of the engine -/

variable {inner : EngineInner} {deps : EngineDeps} {aw : Awaited}

theorem switches_check (priority : Bool) (inner : EngineInner) (deps : EngineDeps) :
    (handleNetworkCheckWithPriority priority inner deps).1.switches = inner.switches := by
  unfold handleNetworkCheckWithPriority
  split
  · rfl
  · rfl

theorem switches_immediateCheck (inner : EngineInner) (deps : EngineDeps) :
    (immediateCheck inner deps).1.switches = inner.switches := by
  unfold immediateCheck
  split
  · rfl
  · exact switches_check ..

theorem switches_immediateCheckAndReset (inner : EngineInner) (deps : EngineDeps) :
    (immediateCheckAndReset inner deps).1.switches = inner.switches := by
  unfold immediateCheckAndReset
  split
  · exact switches_check true inner deps
  · rfl

theorem switches_handleApplyProfile (id : String) (aw : Awaited) (inner : EngineInner)
    (deps : EngineDeps) : (handleApplyProfile id aw inner deps).1.switches = inner.switches := by
  unfold handleApplyProfile
  split
  · exact switches_immediateCheckAndReset ..
  · split
    · rfl
    · exact switches_immediateCheckAndReset ..

/-- A command moves the switches as it says. -/
theorem switches_handleCommand (cmd : EngineCommand) (aw : Awaited) (inner : EngineInner)
    (deps : EngineDeps) :
    (handleCommand cmd aw inner deps).1.1.switches = cmd.switch inner.switches := by
  cases cmd with
  | start =>
    simp only [handleCommand, handleStart]
    split
    next hon => simp [EngineInner.switches, EngineCommand.switch, hon]
    next => exact switches_immediateCheck { inner with monitoring := true } deps
  | stop =>
    simp only [handleCommand, handleStop]
    split
    next hoff =>
      have hoff : inner.monitoring = false := by simpa using hoff
      simp [EngineInner.switches, EngineCommand.switch, hoff]
    next => rfl
  | resume => exact switches_immediateCheckAndReset { inner with manualPaused := false } deps
  | applyProfile id source => exact switches_handleApplyProfile ..
  | reload | testNetwork | pause | shutdown => rfl

theorem switches_handleLoginResult (result : LoginResult) (inner : EngineInner)
    (deps : EngineDeps) : (handleLoginResult result inner deps).1.switches = inner.switches := by
  obtain ⟨notifier, warnings, -, heq⟩ := handleLoginResult_eq result inner deps
  rw [heq]
  rfl

theorem switches_runPendingCheck (pending : Bool) (inner : EngineInner) (deps : EngineDeps) :
    (runPendingCheck pending inner deps).1.switches = inner.switches := by
  unfold runPendingCheck handleNetworkCheck
  split
  · exact switches_check ..
  · rfl

theorem switches_decideLogin (advice : RecoveryAdvice) (v : Nat) (stale : Bool)
    (inner : EngineInner) (deps : EngineDeps) :
    (decideLogin advice v stale inner deps).1.switches = inner.switches := by
  unfold decideLogin
  split
  · dsimp only
    split <;> rfl
  · rfl

theorem switches_handleProbeMessage (msg : ProbeMessage) (inner : EngineInner)
    (deps : EngineDeps) : (handleProbeMessage msg inner deps).1.switches = inner.switches := by
  unfold handleProbeMessage
  cases msg with
  | failed error v =>
    rw [handleProbeMessageWith_failed]
    exact switches_runPendingCheck _ (received deps.now inner) deps
  | report report v =>
    rw [handleProbeMessageWith_report]
    unfold handleProbeReport
    obtain ⟨lastCheckTime, onlineStreak, checkTimer, heq⟩ :=
      observeReport_eq report (received deps.now inner) deps
    simp only [Handled.andThen_fst, switches_runPendingCheck, switches_decideLogin, heq]
    rfl

theorem switches_checkProfileSwitch (gateways : Except String (List String))
    (ssid : Except String (Option String)) (aw : Awaited) (inner : EngineInner)
    (deps : EngineDeps) :
    (checkProfileSwitch gateways ssid aw inner deps).1.switches = inner.switches := by
  unfold checkProfileSwitch
  split
  · split
    · split
      · exact switches_handleApplyProfile ..
      · rfl
    · rfl
  · rfl

/-- A turn of the engine: only a command moves the switches, and only a shutdown ends it. -/
theorem engineStep_switches {w t : World} {e : EngineEvent} {os : List Effect}
    (h : engineStep w e = some (t, os)) :
    t.inner.switches = (match e with
      | .command cmd _ => cmd.switch w.inner.switches
      | _ => w.inner.switches) := by
  cases e with
  | command cmd aw =>
    simp only [engineStep] at h
    split at h
    · cases h
      exact switches_handleCommand cmd aw w.inner w.deps
    · cases h
  | loginResult result =>
    simp only [engineStep] at h
    split at h
    · cases h
      exact switches_handleLoginResult result w.inner w.deps
    · cases h
  | probeMessage msg =>
    simp only [engineStep] at h
    split at h
    · cases h
      exact switches_handleProbeMessage msg w.inner w.deps
    · cases h
  | configChanged =>
    simp only [engineStep] at h
    split at h
    · cases h
      rfl
    · cases h
  | checkTimer =>
    simp only [engineStep] at h
    split at h
    · cases h
      unfold World.settle handleTick handleNetworkCheck
      dsimp only
      split
      · exact switches_check ..
      · rfl
    · cases h
  | profileCheck gateways ssid found aw =>
    simp only [engineStep] at h
    split at h
    · cases h
      exact switches_checkProfileSwitch gateways ssid aw w.inner found
    · cases h
  | surroundings deps =>
    simp only [engineStep] at h
    split at h
    · cases h
      rfl
    · cases h

end CampusAuth.Engine
