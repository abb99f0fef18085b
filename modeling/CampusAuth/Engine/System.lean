import CampusAuth.Engine.RunLoop
import CampusAuth.Lib.Machine
import CampusAuth.Monitor.Decision

/- The engine loop among the tasks it spawns, as a machine.

   `World` puts the loop's state beside its surroundings and counts what is outstanding:
   the versions of the probe tasks, and the automatic logins, whose message the loop has
   not consumed. A task sends exactly one message, also when it panics, so an event
   consumes a message only while a task is outstanding. Between two events the
   surroundings move on: clock and version only forward. An event is one turn of the loop
   up to its next wait, so the runs of the machine are the interleavings of the tasks
   with the loop's handlers. -/
namespace CampusAuth.Engine
open Status Monitor Config Login Lib

inductive EngineEvent where
  | command (cmd : EngineCommand) (aw : Awaited)
  | loginResult (result : LoginResult)
  | probeMessage (msg : ProbeMessage)
  /-- The version watch fires. -/
  | configChanged
  | checkTimer
  /-- Step 3 of the loop; `found` are the surroundings once gateway and SSID are known. -/
  | profileCheck (gateways : Except String (List String)) (ssid : Except String (Option String))
      (found : EngineDeps) (aw : Awaited)
  /-- Everybody else moves: the clocks, the published configuration, the counters. -/
  | surroundings (deps : EngineDeps)

def EngineEvent.isProbeMessage : EngineEvent → Bool
  | .probeMessage _ => true
  | _ => false

def EngineEvent.isSurroundings : EngineEvent → Bool
  | .surroundings _ => true
  | _ => false

structure World where
  inner : EngineInner
  deps : EngineDeps
  /-- The versions of the probe tasks whose message is not consumed. -/
  probes : List Nat := []
  /-- The automatic logins whose result is not consumed. -/
  autoLogins : Nat := 0
  running : Bool := true

def World.init (deps : EngineDeps) : World := { inner := .new deps.now, deps }

/-- Time does not run backwards, and neither does the version. -/
def EngineDeps.precedes (d d' : EngineDeps) : Bool :=
  decide (d.now ≤ d'.now) && decide (d.configVersion ≤ d'.configVersion)

/-! ## What a list of effects amounts to -/

def Effect.spawn? : Effect → Option Nat
  | .spawnProbe v => some v
  | _ => none

/-- The versions of the probes spawned. -/
def spawned (os : List Effect) : List Nat := os.filterMap Effect.spawn?

def Effect.submits : Effect → Nat
  | .submitLogin _ => 1
  | _ => 0

/-- How many logins were submitted. -/
def submissions (os : List Effect) : Nat := Machine.weigh Effect.submits os

theorem submissions_pos {source : LoginSource} {os : List Effect} (h : .submitLogin source ∈ os) :
    0 < submissions os := by
  induction os with
  | nil => cases h
  | cons o os ih =>
    rcases List.mem_cons.mp h with rfl | h
    · simp only [submissions, Machine.weigh_cons, Effect.submits]
      omega
    · have := ih h
      simp only [submissions, Machine.weigh_cons] at this ⊢
      omega

def Effect.shown? : Effect → Option EngineState
  | .merge (.engine state _ _ _ _ _ _ _ _) => some state
  | _ => none

/-- The engine states merged into the snapshot. -/
def shown (os : List Effect) : List EngineState := os.filterMap Effect.shown?

/-- Whether a priority check was asked for while a probe was in flight. -/
def asked (os : List Effect) : Bool := os.contains (.checkMeanwhile true)

@[simp] theorem spawned_nil : spawned [] = [] := rfl

@[simp] theorem spawned_append (os os' : List Effect) :
    spawned (os ++ os') = spawned os ++ spawned os' := by simp [spawned]

@[simp] theorem spawned_merge (u : PartialSnapshot) (os : List Effect) :
    spawned (.merge u :: os) = spawned os := rfl

@[simp] theorem submissions_nil : submissions [] = 0 := rfl

@[simp] theorem submissions_append (os os' : List Effect) :
    submissions (os ++ os') = submissions os + submissions os' := by simp [submissions]

@[simp] theorem submissions_merge (u : PartialSnapshot) (os : List Effect) :
    submissions (.merge u :: os) = submissions os := by simp [submissions, Effect.submits]

@[simp] theorem submissions_submitLogin (source : LoginSource) (os : List Effect) :
    submissions (.submitLogin source :: os) = 1 + submissions os := by
  simp [submissions, Effect.submits]

@[simp] theorem asked_nil : asked [] = false := rfl

@[simp] theorem asked_append (os os' : List Effect) :
    asked (os ++ os') = (asked os || asked os') := by simp [asked]

/-! ## The machine -/

/-- The world after a handler: what it spawned is outstanding. -/
def World.settle (w : World) (r : Handled) (deps : EngineDeps) : World :=
  { w with
    inner := r.1
    deps
    probes := w.probes ++ spawned r.2
    autoLogins := w.autoLogins + submissions r.2 }

def engineStep (w : World) : EngineEvent → Option (World × List Effect)
  | .command cmd aw =>
    if w.running && w.deps.precedes aw.after then
      let (r, stop) := handleCommand cmd aw w.inner w.deps
      some ({ w.settle r aw.after with running := !stop }, r.2)
    else none
  | .loginResult result =>
    if w.running && decide (0 < w.autoLogins) then
      let r := handleLoginResult result w.inner w.deps
      some ({ w with autoLogins := w.autoLogins - 1 }.settle r w.deps, r.2)
    else none
  | .probeMessage msg =>
    if w.running && w.probes.contains msg.configVersion then
      let r := handleProbeMessage msg w.inner w.deps
      some ({ w with probes := w.probes.erase msg.configVersion }.settle r w.deps, r.2)
    else none
  | .configChanged =>
    if w.running then
      some (w.settle (resetCheckTimer w.inner w.deps, []) w.deps, [])
    else none
  | .checkTimer =>
    if w.running && decide (w.inner.checkTimer.deadline ≤ w.deps.now) then
      let r := handleTick w.inner w.deps
      some (w.settle r w.deps, r.2)
    else none
  | .profileCheck gateways ssid found aw =>
    if w.running && profileCheckDue w.inner w.deps && w.deps.precedes found &&
        found.precedes aw.after then
      let r := checkProfileSwitch gateways ssid aw w.inner found
      let r : Handled := ({ r.1 with lastProfileCheck := aw.after.now }, r.2)
      some (w.settle r aw.after, r.2)
    else none
  | .surroundings deps =>
    if w.deps.precedes deps then some ({ w with deps }, []) else none

def engineMachine : Machine World EngineEvent Effect := ⟨engineStep⟩

/-- The states the engine loop reaches, whatever it was started in. -/
def Reachable (w : World) : Prop := ∃ deps, engineMachine.Reach (.init deps) w

/-! ## A sample configuration -/

def sampleRuntime : RuntimeConfig where
  pause := { enabled := false }
  profile :=
    { id := "default", loginChannel := .browser, authUrl := "http://10.0.0.1/login", triggerUrl := "" }

def sampleDeps : EngineDeps where
  runtime := sampleRuntime
  configVersion := 0
  now := 0
  localNow := { stamp := 0, hour := 12, minute := 0 }

/-- A command that waits for nothing. -/
def sampleWait : Awaited := { outcome := .ok (), after := sampleDeps }

/-- The report of a check under the sample configuration. -/
def sampleReport (m : Measurements) : ProbeReport where
  evidence := (checkOnce .autoMonitor sampleRuntime m).1
  assessment := (checkOnce .autoMonitor sampleRuntime m).2
  latencyMs := 40
  checkNumber := 1

/-- A captive portal whose authentication endpoint answers. -/
def portalMeasurements : Measurements where
  tcp := .fail
  http := .captive
  url := .fail
  authEndpoint := .reachable
  localLink := .available

/-- Where the events `es` lead from the start. -/
def sampleWorld (es : List EngineEvent) : World :=
  ((engineMachine.exec (.init sampleDeps) es).map Prod.fst).getD (.init sampleDeps)

theorem reachable_sampleWorld (es : List EngineEvent) : Reachable (sampleWorld es) := by
  refine ⟨sampleDeps, ?_⟩
  unfold sampleWorld
  cases h : engineMachine.exec (.init sampleDeps) es with
  | none => exact .refl _
  | some r => exact ⟨es, r.2, Machine.steps_of_exec h⟩

end CampusAuth.Engine
