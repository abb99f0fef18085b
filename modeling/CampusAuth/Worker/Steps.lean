import CampusAuth.Worker.Dispatch
import CampusAuth.Worker.Variables

/- The steps of a browser task (`python_worker/step_handlers.py`, `playwright_worker.py`).

   What a page does with a step, how long a wait lasts and when the command's cancel event is set
   are given from outside (`Browser`); the functions pass its state on, and the exception that
   leaves them, if one does. -/
namespace CampusAuth.Worker
open Lib

inductive Outcome where
  | success | cancelled | navigationTimeout | selectorFailed | assertionFailed | captchaFailed
  | invalidCredential | manualRequired | networkError | unknownError
  deriving DecidableEq

/-- What leaves a function as an exception. -/
inductive Failure where
  /-- `StepCancelled`. -/
  | cancelled (message : Text)
  /-- Any other `WorkerError`. -/
  | worker (outcome : Outcome) (message : Text)
  /-- Any other `Exception`, with its text. -/
  | exception (text : Text)
  /-- What no `except Exception` catches, such as the cancelled task of a command that ran out of
      time. -/
  | base
  deriving DecidableEq

/-- `StepCancelled()`. -/
def stepCancelled : Failure := .cancelled "步骤执行已取消".toList

/-- The fields of `StepConfig` that are looked at outside the handlers. -/
structure StepConfig where
  id : Text
  stepType : Text
  description : Text
  selector : Option Text
  frame : Option Text
  timeout : Option Int
  duration : Int
  required : Bool

structure StepContext where
  defaultTimeout : Int
  navigationTimeout : Int
  stepDelay : ℚ

/-- How the race between a handler, the cancel event and the deadline ends. -/
inductive Race where
  | done
  | raised (failure : Failure)
  | cancelled
  | expired

/-- How taking a picture of the page ends. -/
inductive Shot where
  | taken (path : Text)
  | failed
  | interrupted

/-- What goes before the first step. -/
inductive Stage where
  /-- `ensure_browser`. -/
  | browser
  /-- `_prepare_session_page`. -/
  | page
  /-- `_navigate`. -/
  | navigate (url : Text)

/-- The browser, the clock and the cancel event of the command. -/
structure Browser (σ : Type) where
  /-- `_template_variables`. -/
  templateVariables : σ → Text → Option Text
  /-- The cancel event of the command is set. -/
  cancelled : σ → Bool
  /-- The slices of a sleep up to its end, or to the first at whose end the event is set; or the
      sleep is broken off. -/
  sleep : ℚ → σ → Bool × σ
  /-- The handler of the resolved step, with its deadline in milliseconds. -/
  handle : StepConfig → Int → σ → Race × σ
  prepare : Stage → σ → Option Failure × σ
  screenshot : Option Nat → Bool → σ → Shot × σ
  /-- Closing the page and its context, which may be broken off. -/
  close : σ → Option Failure × σ
  /-- A login attempt or a browser task. -/
  task : σ → σ

inductive Emitted where
  | stepProgress (id type description : Text) (index : Option Nat) (total : Nat)
  | screenshot (path : Text) (index : Option Nat)
  deriving DecidableEq

/-- The browser and what was sent to the other side. -/
structure Scene (σ : Type) where
  world : σ
  events : List Emitted

variable {σ : Type} (o : CharClasses) (b : Browser σ)

def Scene.emit (s : Scene σ) (e : Emitted) : Scene σ := { s with events := s.events ++ [e] }

/-! ## One step -/

def stepHandlers : List Text :=
  ["input", "click", "select", "click_select", "wait", "sleep", "wait_for_selector", "wait_url",
    "screenshot", "evaluate", "eval", "custom_js", "custom", "navigate", "goto", "assert_text",
    "manual_check", "upload_file", "ocr"].map String.toList

/-- A field as `_resolve` leaves it. -/
def resolveField (vars : Text → Option Text) (field : Option Text) : Option Text :=
  field.map (resolve o vars)

/-- `_resolve`. -/
def resolveStep (vars : Text → Option Text) (step : StepConfig) : StepConfig :=
  { step with
    description := resolve o vars step.description
    selector := resolveField o vars step.selector
    frame := resolveField o vars step.frame }

def blank : Option Text → Bool
  | none => true
  | some text => text.isEmpty

def timeoutMs (context : StepContext) (step : StepConfig) : Int :=
  max 1 <|
    if step.timeout.getD 0 ≠ 0 then step.timeout.getD 0
    else if (["navigate", "goto", "wait_url"].map String.toList).contains step.stepType then
      context.navigationTimeout
    else if (["wait", "sleep"].map String.toList).contains step.stepType ∧ blank step.selector then
      max context.defaultTimeout (step.duration + 1000)
    else context.defaultTimeout

def timeoutOutcome (stepType : Text) : Outcome :=
  if (["navigate", "goto", "wait_url"].map String.toList).contains stepType then .navigationTimeout
  else if stepType = "assert_text".toList then .assertionFailed
  else if (["evaluate", "eval", "custom_js", "custom", "ocr"].map String.toList).contains stepType then
    .unknownError
  else .selectorFailed

def expired (context : StepContext) (step : StepConfig) : Failure :=
  .worker (timeoutOutcome step.stepType) <|
    "步骤 ".toList ++ (if step.id.isEmpty then step.stepType else step.id) ++ " 执行超时（".toList ++
      (toString (timeoutMs context step)).toList ++ "ms）".toList

/-- How a race ends for its step. -/
def Race.failure (context : StepContext) (step : StepConfig) : Race → Option Failure
  | .done => none
  | .raised failure => some failure
  | .cancelled => some stepCancelled
  | .expired => some (Worker.expired context step)

def runStepAsync (context : StepContext) (raw : StepConfig) (index : Option Nat) (total : Nat)
    (s : Scene σ) : Option Failure × Scene σ :=
  let step := resolveStep o (b.templateVariables s.world) raw
  if !stepHandlers.contains step.stepType then
    (some (.worker .unknownError ("未知步骤类型: ".toList ++ step.stepType)), s)
  else
    let s := s.emit (.stepProgress step.id step.stepType step.description index total)
    -- The first turn of the waiting loop comes before the handler's first.
    if b.cancelled s.world then (some stepCancelled, s)
    else
      let (race, world) := b.handle step (timeoutMs context step) s.world
      (race.failure context step, { s with world })

/-! ## A task -/

def sleepCancellable (seconds : ℚ) (w : σ) : Option Failure × σ :=
  if b.cancelled w then (some stepCancelled, w)
  else if seconds ≤ 0 then (none, w)
  else
    match b.sleep seconds w with
    | (true, w) => (some .base, w)
    | (false, w) => if b.cancelled w then (some stepCancelled, w) else (none, w)

/-- The delay before a step. -/
def stepPause (context : StepContext) (apply : Bool) (s : Scene σ) : Option Failure × Scene σ :=
  if apply ∧ 0 < context.stepDelay then
    let (failure, world) := sleepCancellable b context.stepDelay s.world
    (failure, { s with world })
  else (none, s)

/-- `_normalize_step_failure`; `none` when the exception is not caught. -/
def normalizeStepFailure (cancelledMessage : Text) : Failure → Option (Outcome × Text)
  | .cancelled _ => some (.cancelled, cancelledMessage)
  | .worker outcome message => some (outcome, message)
  | .exception text => some (.unknownError, "执行异常: ".toList ++ text)
  | .base => none

/-- The official run goes on behind a step that failed so. -/
def StepConfig.skips (step : StepConfig) : Failure → Bool
  | .worker outcome _ => !step.required && outcome ≠ .manualRequired
  | _ => false

/-- The text a step is named by in the summary of a run. -/
def stepLabel (step : StepConfig) (index : Nat) : Text :=
  if step.id.isEmpty then "#".toList ++ (toString index).toList else step.id

/-- The loop of `run_steps`: the steps that failed and were passed over, and the exception that
    ended it. -/
def runStepsFrom (context : StepContext) (total : Nat) : Nat → List StepConfig → List Text →
    Scene σ → Except Failure (List Text) × Scene σ
  | _, [], failed, s => (.ok failed, s)
  | index, step :: rest, failed, s =>
    if b.cancelled s.world then (.error stepCancelled, s)
    else
      match stepPause b context (0 < index) s with
      | (some failure, s) => (.error failure, s)
      | (none, s) =>
        match runStepAsync o b context step (some index) total s with
        | (none, s) => runStepsFrom context total (index + 1) rest failed s
        | (some failure, s) =>
          if step.skips failure then
            runStepsFrom context total (index + 1) rest (failed ++ [stepLabel step index]) s
          else (.error failure, s)

structure StructuredResult where
  outcome : Outcome
  message : Text
  deriving DecidableEq

/-- The message of a run that came to its end. -/
def runSummary (failed : List Text) : Text :=
  if failed.isEmpty then "执行成功".toList
  else "执行成功；".toList ++ (toString failed.length).toList ++ " 个非必须步骤失败: ".toList ++
    (List.intercalate ", ".toList failed)

def cancelledRun : Text := "执行已取消".toList

/-- What `run_steps` makes of the end of its loop; `none` when an exception that is not caught
    leaves the function. -/
def runResult : Except Failure (List Text) → Option StructuredResult
  | .ok failed => some ⟨.success, runSummary failed⟩
  | .error failure => (normalizeStepFailure cancelledRun failure).map fun r => ⟨r.1, r.2⟩

def runSteps (context : StepContext) (steps : List StepConfig) (s : Scene σ) :
    Option StructuredResult × Scene σ :=
  if steps.isEmpty then
    (some ⟨.unknownError, "任务未包含任何步骤，无法执行".toList⟩, s)
  else
    let (result, s) := runStepsFrom o b context steps.length 0 steps [] s
    (runResult result, s)

end CampusAuth.Worker
