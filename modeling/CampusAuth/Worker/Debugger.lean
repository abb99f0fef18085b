import CampusAuth.Lib.Assoc
import CampusAuth.Lib.Interleave
import CampusAuth.Lib.Machine
import CampusAuth.Worker.Steps

/- The debugger of the Worker (`debug_session.py` and the `handle_debug_*` functions of
   `playwright_worker.py`).

   A debug session holds the steps of a task, a cursor, and a record for each step that was run.
   Commands come one after the other; what happens to the page between them, and which of them is
   cancelled, is given from outside. Over every run there is at most one session, and its records
   are those of the steps before the cursor, in order and once each, between which stand the
   records of the steps that were asked for by number (`debug_session_records`). -/
namespace CampusAuth.Worker
open Lib

variable {σ : Type} (o : CharClasses) (b : Browser σ)

/-! ## Sessions -/

structure StepInfo where
  index : Nat
  id : Text
  type : Text
  description : Text
  deriving DecidableEq

structure Record where
  stepIndex : Nat
  success : Bool
  message : Text
  deriving DecidableEq

structure DebugSession where
  sessionId : Text
  taskId : Text
  steps : List StepConfig
  context : StepContext
  currentStep : Nat
  stepsInfo : List StepInfo
  results : List Record
  screenshots : List Text

def stepInfo (index : Nat) (step : StepConfig) : StepInfo where
  index
  id := if step.id.isEmpty then "step_".toList ++ (toString index).toList else step.id
  type := if !step.stepType.isEmpty then step.stepType
    else if !step.id.isEmpty then step.id else "?".toList
  description := step.description

def buildStepsInfo (steps : List StepConfig) : List StepInfo := steps.mapIdx stepInfo

structure DebugResponse where
  running : Bool
  taskId : Text
  currentStep : Nat
  totalSteps : Nat
  steps : List StepInfo
  results : List Record
  deriving DecidableEq

def DebugSession.response (session : DebugSession) : DebugResponse where
  running := session.currentStep < session.stepsInfo.length
  taskId := session.taskId
  currentStep := session.currentStep
  totalSteps := session.stepsInfo.length
  steps := session.stepsInfo
  results := session.results

/-- `_record_debug_result`. -/
def DebugSession.record (session : DebugSession) (index : Nat) (success : Bool) (message : Text) :
    DebugSession :=
  { session with
    results := session.results ++
      [⟨index, success, if message.isEmpty ∧ !success then "执行失败".toList else message⟩] }

def cancelledStep : Text := "步骤已取消".toList

/-- The session behind a step: with its record when it has a number, and the cursor behind it when
    it was the next. -/
def DebugSession.note (session : DebugSession) (index : Option Nat) (auto success : Bool)
    (message : Text) : DebugSession :=
  let session := match index with
    | some i => session.record i success message
    | none => session
  if auto then { session with currentStep := session.currentStep + 1 } else session

/-- `_capture_debug_frame`: only what is no `Exception` leaves it. -/
def captureDebugFrame (session : DebugSession) (index : Option Nat) (fullPage : Bool)
    (s : Scene σ) : Option Failure × DebugSession × Scene σ :=
  match b.screenshot index fullPage s.world with
  | (.taken path, world) =>
    (none, { session with screenshots := session.screenshots ++ [path] },
      { s with world }.emit (.screenshot path index))
  | (.failed, world) => (none, session, { s with world })
  | (.interrupted, world) => (some .base, session, { s with world })

structure Debugger (σ : Type) where
  scene : Scene σ
  sessions : List (Text × DebugSession)

def Debugger.set (d : Debugger σ) (session : DebugSession) : Debugger σ :=
  { d with sessions := d.sessions.map fun entry =>
      if entry.1 = session.sessionId then (entry.1, session) else entry }

def noSession : Failure := .worker .unknownError "调试会话不存在，请先启动调试".toList

def Debugger.sessionFor (d : Debugger σ) (sessionId : Text) : Except Failure DebugSession :=
  if !sessionId.isEmpty then
    match d.sessions.lookup sessionId with
    | some session => .ok session
    | none => .error noSession
  else
    match d.sessions with
    | [entry] => .ok entry.2
    | [] => .error noSession
    | _ => .error (.worker .unknownError "存在多个调试会话，请指定 session_id".toList)

/-! ## Commands -/

/-- Which step `handle_debug_step` is to run. -/
inductive Asked where
  | step (raw : StepConfig)
  | index (i : Int)
  | next

structure StartParams where
  sessionId : Text
  taskId : Text
  steps : List StepConfig
  context : StepContext
  url : Text
  vars : Text → Option Text
  fallbackUrl : Text
  navigationWait : ℚ

def resolveStartUrl (p : StartParams) : Text :=
  let resolved := pyStrip (resolve o p.vars p.url)
  let resolved := if ['{', '{'] <:+: resolved then [] else resolved
  if resolved.isEmpty then pyStrip p.fallbackUrl else resolved

/-- `_ensure_not_cancelled`. -/
def ensureNotCancelled (stage : String) (w : σ) : Option Failure × σ :=
  (if b.cancelled w then some (.cancelled ("调试已取消（".toList ++ stage.toList ++ "阶段）".toList))
    else none, w)

/-- One after the other, up to the first that fails. -/
def inTurn : List (σ → Option Failure × σ) → σ → Option Failure × σ
  | [], w => (none, w)
  | stage :: rest, w =>
    match stage w with
    | (some failure, w) => (some failure, w)
    | (none, w) => inTurn rest w

def startStages (p : StartParams) : List (σ → Option Failure × σ) :=
  [ensureNotCancelled b "环境准备前", b.prepare .browser, ensureNotCancelled b "会话准备前",
      b.prepare .page] ++
    let target := resolveStartUrl o p
    if target.isEmpty then []
    else
      [ensureNotCancelled b "导航前", b.prepare (.navigate target),
        fun w => if 0 < p.navigationWait then sleepCancellable b p.navigationWait w else (none, w),
        ensureNotCancelled b "导航后"]

def StartParams.session (p : StartParams) : DebugSession where
  sessionId := p.sessionId
  taskId := p.taskId
  steps := p.steps
  context := p.context
  currentStep := 0
  stepsInfo := buildStepsInfo p.steps
  results := []
  screenshots := []

/-- `_close_session`: the sessions go when the page is closed. -/
def closeSession (d : Debugger σ) : Option Failure × Debugger σ :=
  match b.close d.scene.world with
  | (some failure, world) => (some failure, { d with scene := { d.scene with world } })
  | (none, world) => (none, { scene := { d.scene with world }, sessions := [] })

abbrev Answer := Except Failure (Option DebugResponse)

def handleDebugStart (p : StartParams) (d : Debugger σ) : Answer × Debugger σ :=
  if !d.sessions.isEmpty then
    (.error (.worker .unknownError "已存在活跃调试会话，请先停止再启动".toList), d)
  else
    match inTurn (startStages o b p) d.scene.world with
    | (some failure, world) => (.error failure, { d with scene := { d.scene with world } })
    | (none, world) =>
      let (failure, session, scene) := captureDebugFrame b p.session none true { d.scene with world }
      -- A cancel that came too late for the checks above takes the session away again.
      if b.cancelled scene.world then
        let (broken, d) := closeSession b { scene, sessions := [] }
        (.error (broken.getD (.cancelled "调试已取消（启动完成阶段）".toList)), d)
      else
        let d := { scene, sessions := [(p.sessionId, session)] }
        match failure with
        | some failure => (.error failure, d)
        | none => (.ok session.response, d)

def runDebugStep (session : DebugSession) (step : StepConfig) (index : Option Nat) (auto : Bool)
    (s : Scene σ) : Option Failure × DebugSession × Scene σ :=
  let (failure, s) := runStepAsync o b session.context step index session.steps.length s
  match failure.map (normalizeStepFailure cancelledStep) with
  | some none => (some .base, session, s)
  | outcome =>
    let session := session.note index auto failure.isNone ((outcome.join.map (·.2)).getD [])
    captureDebugFrame b session (index.getD session.currentStep) false s

def answerWith (d : Debugger σ) (r : Option Failure × DebugSession × Scene σ) :
    Answer × Debugger σ :=
  (match r.1 with
    | some failure => .error failure
    | none => .ok r.2.1.response,
    { d with scene := r.2.2 }.set r.2.1)

def handleDebugStep (sessionId : Text) (asked : Asked) (d : Debugger σ) : Answer × Debugger σ :=
  match d.sessionFor sessionId with
  | .error failure => (.error failure, d)
  | .ok session =>
    match asked with
    | .step raw => answerWith d (runDebugStep o b session raw none false d.scene)
    | .index i =>
      if i < 0 then (.error (.worker .unknownError ("调试步骤索引越界: ".toList ++
        (toString i).toList)), d)
      else
        match session.steps[i.toNat]? with
        | none => (.error (.worker .unknownError ("调试步骤索引越界: ".toList ++
            (toString i).toList)), d)
        | some step => answerWith d (runDebugStep o b session step (some i.toNat) false d.scene)
    | .next =>
      match session.steps[session.currentStep]? with
      | none => (.ok session.response, d)
      | some step =>
        answerWith d (runDebugStep o b session step (some session.currentStep) true d.scene)

/-- The debugger stops behind a step that failed so. -/
def StepConfig.fatal (step : StepConfig) : Failure → Bool
  | .worker _ _ => step.required
  | _ => true

/-- One turn of the loop of `handle_debug_run_all`: the delay and the step. -/
def runAllStep (start index : Nat) (step : StepConfig) (session : DebugSession) (s : Scene σ) :
    Option Failure × Scene σ :=
  match stepPause b session.context (start < index) s with
  | (some failure, s) => (some failure, s)
  | (none, s) => runStepAsync o b session.context step (some index) session.steps.length s

/-- The loop of `handle_debug_run_all`. What is returned is the cursor, or the exception that is
    not caught. -/
def runAllFrom (start : Nat) : Nat → List StepConfig → DebugSession → Scene σ →
    Option Failure × DebugSession × Scene σ
  | index, [], session, s => (none, { session with currentStep := index }, s)
  | index, step :: rest, session, s =>
    let session := { session with currentStep := index }
    let (failure, s) := runAllStep o b start index step session s
    match failure.map (normalizeStepFailure cancelledStep) with
    | some none => (some .base, session, s)
    | outcome =>
      let session := session.record index failure.isNone ((outcome.join.map (·.2)).getD [])
      match captureDebugFrame b session (some index) false s with
      | (some broken, session, s) => (some broken, session, s)
      | (none, session, s) =>
        if failure.any step.fatal then (none, { session with currentStep := index + 1 }, s)
        else runAllFrom start (index + 1) rest session s

def handleDebugRunAll (sessionId : Text) (d : Debugger σ) : Answer × Debugger σ :=
  match d.sessionFor sessionId with
  | .error failure => (.error failure, d)
  | .ok session =>
    if session.steps.length ≤ session.currentStep then (.ok session.response, d)
    else
      answerWith d <| runAllFrom o b session.currentStep session.currentStep
        (session.steps.drop session.currentStep) session d.scene

def handleDebugStatus (sessionId : Text) (d : Debugger σ) : Answer × Debugger σ :=
  if d.sessions.isEmpty then (.error noSession, d)
  else (d.sessionFor sessionId |>.map fun session => some session.response, d)

def handleDebugStop (sessionId : Text) (d : Debugger σ) : Answer × Debugger σ :=
  match d.sessionFor sessionId with
  | .error failure => (.error failure, d)
  | .ok session =>
    let (failure, d) :=
      closeSession b { d with sessions := d.sessions.filter (·.1 ≠ session.sessionId) }
    (match failure with
      | some failure => .error failure
      | none => .ok none, d)

/-- The commands of the Worker, with what they do to debug sessions. -/
inductive Command where
  | start (p : StartParams)
  | step (sessionId : Text) (asked : Asked)
  | runAll (sessionId : Text)
  | status (sessionId : Text)
  | stop (sessionId : Text)
  | closeBrowser (preserve : Bool)
  /-- What needs the browser for itself: a login attempt, a browser task, a redirect test. -/
  | task (action : Text)
  /-- `force_interrupt_pending`; `own` when the page is the one the session started on. -/
  | interrupt (own : Bool)
  /-- `_browser_idle_release`. -/
  | idle

/-- One command, in the world it finds. -/
def serve (d : Debugger σ) (world : σ) (command : Command) : Answer × Debugger σ :=
  let d := { d with scene := { d.scene with world } }
  match command with
  | .start p => handleDebugStart o b p d
  | .step sessionId asked => handleDebugStep o b sessionId asked d
  | .runAll sessionId => handleDebugRunAll o b sessionId d
  | .status sessionId => handleDebugStatus sessionId d
  | .stop sessionId => handleDebugStop b sessionId d
  | .closeBrowser preserve => if preserve then (.ok none, d) else (.ok none, (closeSession b d).2)
  | .task action =>
    if d.sessions.isEmpty then
      (.ok none, { d with scene := { d.scene with world := b.task d.scene.world } })
    else (.error (.worker .unknownError ("调试会话进行中，无法执行".toList ++ action ++
      "，请先停止调试".toList)), d)
  | .interrupt own => (.ok none, if own then (closeSession b d).2 else d)
  | .idle => (.ok none, if d.sessions.isEmpty then (closeSession b d).2 else d)

def debugMachine : Machine (Debugger σ) (σ × Command) Answer where
  step d e := let r := serve o b d e.1 e.2; some (r.2, [r.1])

/-! ## The records of a session -/

/-- No picture is broken off by something that is no `Exception`. -/
def Browser.FramesDone : Prop := ∀ index fullPage w, (b.screenshot index fullPage w).1 ≠ .interrupted

/-- The steps that were asked for by their number. -/
def Command.requested : Command → List Nat
  | .step _ (.index i) => [i.toNat]
  | _ => []

/-- The records are those of the steps before the cursor, between which stand some of the steps
    that were asked for. -/
structure SessionOk (requested : List Nat) (session : DebugSession) : Prop where
  cursor : session.currentStep ≤ session.steps.length
  info : session.stepsInfo = buildStepsInfo session.steps
  records : ∃ explicit : List Nat, explicit.Sublist requested ∧
    (∀ i ∈ explicit, i < session.steps.length) ∧
    Interleaves (List.range session.currentStep) explicit (session.results.map Record.stepIndex)

variable {o b} {requested requested' : List Nat} {session : DebugSession}

theorem SessionOk.mono (h : SessionOk requested session) (hsub : requested.Sublist requested') :
    SessionOk requested' session where
  cursor := h.cursor
  info := h.info
  records := by
    obtain ⟨explicit, hexplicit, hin, hrecords⟩ := h.records
    exact ⟨explicit, hexplicit.trans hsub, hin, hrecords⟩

theorem SessionOk.shots (h : SessionOk requested session) (screenshots : List Text) :
    SessionOk requested { session with screenshots } :=
  ⟨h.cursor, h.info, h.records⟩

theorem SessionOk.note_next (h : SessionOk requested session)
    (hlt : session.currentStep < session.steps.length) (success : Bool) (message : Text) :
    SessionOk requested (session.note (some session.currentStep) true success message) where
  cursor := hlt
  info := h.info
  records := by
    obtain ⟨explicit, hexplicit, hin, hrecords⟩ := h.records
    refine ⟨explicit, hexplicit, hin, ?_⟩
    have hnext := hrecords.append_left session.currentStep
    rw [← List.range_succ] at hnext
    simpa [DebugSession.note, DebugSession.record] using hnext

theorem SessionOk.note_index (h : SessionOk requested session) {i : Nat}
    (hlt : i < session.steps.length) (success : Bool) (message : Text) :
    SessionOk (requested ++ [i]) (session.note (some i) false success message) where
  cursor := h.cursor
  info := h.info
  records := by
    obtain ⟨explicit, hexplicit, hin, hrecords⟩ := h.records
    refine ⟨explicit ++ [i], hexplicit.append (List.Sublist.refl [i]), ?_, ?_⟩
    · intro j hj
      rcases List.mem_append.mp hj with hj | hj
      · exact hin j hj
      · rw [List.mem_singleton.mp hj]
        exact hlt
    · simpa [DebugSession.note, DebugSession.record] using hrecords.append_right i

theorem capture_cases (hb : b.FramesDone) (session : DebugSession) (index : Option Nat)
    (fullPage : Bool) (s : Scene σ) : ∃ screenshots scene,
      captureDebugFrame b session index fullPage s = (none, { session with screenshots }, scene) ∧
      scene.world = (b.screenshot index fullPage s.world).2 := by
  have hdone := hb index fullPage s.world
  unfold captureDebugFrame
  generalize b.screenshot index fullPage s.world = shot at hdone
  obtain ⟨shot, world⟩ := shot
  cases shot with
  | taken path => exact ⟨_, _, rfl, rfl⟩
  | failed => exact ⟨_, _, rfl, rfl⟩
  | interrupted => exact absurd rfl hdone

/-- The session behind a step is as before, or it has what the step added to it. -/
theorem runDebugStep_cases (hb : b.FramesDone) (session : DebugSession) (step : StepConfig)
    (index : Option Nat) (auto : Bool) (s : Scene σ) :
    (runDebugStep o b session step index auto s).2.1 = session ∨
    ∃ success message screenshots, (runDebugStep o b session step index auto s).2.1 =
      { session.note index auto success message with screenshots } := by
  unfold runDebugStep
  generalize runStepAsync o b session.context step index session.steps.length s = r
  obtain ⟨failure, s⟩ := r
  dsimp only
  split
  next => exact .inl rfl
  next =>
    obtain ⟨screenshots, _, hcapture, -⟩ := capture_cases hb (session.note index auto failure.isNone
      ((Option.join (failure.map (normalizeStepFailure cancelledStep))).map (·.2) |>.getD []))
      _ false s
    exact .inr ⟨_, _, screenshots, congrArg (·.2.1) hcapture⟩

/-- What the loop of `handle_debug_run_all` keeps: with the cursor put at the step it has come to,
    the session is in order. -/
theorem runAllFrom_ok (hb : b.FramesDone) (start : Nat) : ∀ (rest : List StepConfig) (index : Nat)
    (session : DebugSession) (s : Scene σ), rest = session.steps.drop index →
    index ≤ session.steps.length →
    SessionOk requested { session with currentStep := index } →
    SessionOk requested (runAllFrom o b start index rest session s).2.1 ∧
      (runAllFrom o b start index rest session s).2.1.sessionId = session.sessionId := by
  intro rest
  induction rest with
  | nil => exact fun _ _ _ _ _ hok => ⟨hok, rfl⟩
  | cons step rest ih =>
    intro index session s hrest hle hok
    have hlt : index < session.steps.length := by
      by_contra hge
      rw [List.drop_eq_nil_of_le (by omega)] at hrest
      cases hrest
    have htail : rest = session.steps.drop (index + 1) := by
      rw [← List.tail_drop, ← hrest]
      rfl
    simp only [runAllFrom]
    split
    next => exact ⟨hok, rfl⟩
    next =>
      obtain ⟨screenshots, scene, hcapture, -⟩ := capture_cases hb (DebugSession.record
        { session with currentStep := index } index _ _) (some index) false _
      rw [hcapture]
      dsimp only
      split
      next => exact ⟨(hok.note_next hlt _ _).shots screenshots, rfl⟩
      next => exact ih (index + 1) _ scene htail hlt ((hok.note_next hlt _ _).shots screenshots)

/-! ## Commands and runs -/

structure DebuggerOk (requested : List Nat) (d : Debugger σ) : Prop where
  one : d.sessions.length ≤ 1
  each : ∀ entry ∈ d.sessions, entry.1 = entry.2.sessionId ∧ SessionOk requested entry.2

theorem DebuggerOk.mono {d : Debugger σ} (h : DebuggerOk requested d)
    (hsub : requested.Sublist requested') : DebuggerOk requested' d :=
  ⟨h.one, fun entry hentry => ⟨(h.each entry hentry).1, (h.each entry hentry).2.mono hsub⟩⟩

theorem DebuggerOk.empty (scene : Scene σ) : DebuggerOk requested ⟨scene, []⟩ :=
  ⟨Nat.zero_le 1, fun _ hentry => absurd hentry List.not_mem_nil⟩

theorem DebuggerOk.world {d : Debugger σ} (h : DebuggerOk requested d) (scene : Scene σ) :
    DebuggerOk requested { d with scene } :=
  ⟨h.one, h.each⟩

theorem DebuggerOk.close {d : Debugger σ} (h : DebuggerOk requested d) :
    DebuggerOk requested (closeSession b d).2 := by
  unfold closeSession
  split
  next => exact h.world _
  next => exact .empty _

/-- The session a command is about is the only one. -/
theorem DebuggerOk.found {d : Debugger σ} (h : DebuggerOk requested d) {sessionId : Text}
    (hfound : d.sessionFor sessionId = .ok session) :
    d.sessions = [(session.sessionId, session)] ∧ SessionOk requested session := by
  obtain ⟨hone, heach⟩ := h
  cases hsessions : d.sessions with
  | nil => simp [Debugger.sessionFor, hsessions] at hfound
  | cons entry rest =>
    rw [hsessions] at hone heach
    obtain rfl : rest = [] := List.eq_nil_of_length_eq_zero (by simpa using hone)
    obtain ⟨hkey, hok⟩ := heach entry List.mem_cons_self
    obtain rfl : entry.2 = session := by
      simp only [Debugger.sessionFor, hsessions] at hfound
      split at hfound
      · split at hfound
        next hlookup =>
          cases hfound
          exact congrArg (·.2) (List.mem_singleton.mp (mem_of_lookup hlookup)).symm
        next => cases hfound
      · cases hfound
        rfl
    exact ⟨by rw [← hkey], hok⟩

theorem DebuggerOk.answer {d : Debugger σ} {r : Option Failure × DebugSession × Scene σ}
    (hsessions : d.sessions = [(session.sessionId, session)])
    (hok : SessionOk requested r.2.1) (hid : r.2.1.sessionId = session.sessionId) :
    DebuggerOk requested (answerWith d r).2 := by
  have hset : (answerWith d r).2.sessions = [(session.sessionId, r.2.1)] := by
    simp [answerWith, Debugger.set, hsessions, hid]
  refine ⟨by rw [hset]; rfl, fun entry hentry => ?_⟩
  rw [hset, List.mem_singleton] at hentry
  rw [hentry]
  exact ⟨hid.symm, hok⟩

theorem sessionId_note (session : DebugSession) (index : Option Nat) (auto success : Bool)
    (message : Text) : (session.note index auto success message).sessionId = session.sessionId := by
  cases index <;> cases auto <;> rfl

/-- One step of a session leaves it in order when what it notes does. -/
theorem DebuggerOk.runStep (hb : b.FramesDone) {d : Debugger σ} (index : Option Nat) (auto : Bool)
    (hsessions : d.sessions = [(session.sessionId, session)]) (hok : SessionOk requested session)
    (hnote : ∀ success message, SessionOk requested (session.note index auto success message))
    (step : StepConfig) (s : Scene σ) :
    DebuggerOk requested (answerWith d (runDebugStep o b session step index auto s)).2 := by
  obtain heq | ⟨success, message, screenshots, heq⟩ :=
    runDebugStep_cases (o := o) hb session step index auto s
  · exact .answer hsessions (by rw [heq]; exact hok) (by rw [heq])
  · refine .answer hsessions (by rw [heq]; exact (hnote success message).shots screenshots) ?_
    rw [heq]
    exact sessionId_note session index auto success message

theorem handleDebugStep_ok (hb : b.FramesDone) {d : Debugger σ} (hd : DebuggerOk requested d)
    (sessionId : Text) (asked : Asked) :
    DebuggerOk (requested ++ (Command.step sessionId asked).requested)
      (handleDebugStep o b sessionId asked d).2 := by
  have hmore := List.sublist_append_left requested (Command.step sessionId asked).requested
  unfold handleDebugStep
  split
  next => exact hd.mono hmore
  next session hfound =>
    obtain ⟨hsessions, hok⟩ := hd.found hfound
    split
    next raw =>
      exact .runStep hb none false hsessions (hok.mono hmore) (fun _ _ => hok.mono hmore) raw _
    next i =>
      split
      next => exact hd.mono hmore
      next =>
        split
        next => exact hd.mono hmore
        next step hstep =>
          have hlt := (List.getElem?_eq_some_iff.mp hstep).1
          exact .runStep hb (some _) false hsessions (hok.mono hmore) (hok.note_index hlt) step _
    next =>
      split
      next => exact hd.mono hmore
      next step hstep =>
        have hlt := (List.getElem?_eq_some_iff.mp hstep).1
        exact .runStep hb (some _) true hsessions (hok.mono hmore)
          (fun success message => (hok.note_next hlt success message).mono hmore) step _

theorem handleDebugRunAll_ok (hb : b.FramesDone) {d : Debugger σ} (hd : DebuggerOk requested d)
    (sessionId : Text) : DebuggerOk requested (handleDebugRunAll o b sessionId d).2 := by
  unfold handleDebugRunAll
  split
  next => exact hd
  next session hfound =>
    obtain ⟨hsessions, hok⟩ := hd.found hfound
    split
    next => exact hd
    next =>
      obtain ⟨hrun, hid⟩ := runAllFrom_ok (o := o) hb session.currentStep
        (session.steps.drop session.currentStep) session.currentStep session d.scene rfl hok.cursor
        hok
      exact .answer hsessions hrun hid

theorem handleDebugStart_ok (hb : b.FramesDone) {d : Debugger σ} (hd : DebuggerOk requested d)
    (p : StartParams) : DebuggerOk requested (handleDebugStart o b p d).2 := by
  have hfresh : SessionOk requested p.session :=
    ⟨Nat.zero_le _, rfl, [], List.nil_sublist _, fun _ h => absurd h List.not_mem_nil, .nil⟩
  unfold handleDebugStart
  split
  next => exact hd
  next =>
    split
    next => exact hd.world _
    next world _ =>
      obtain ⟨screenshots, scene, hcapture, -⟩ :=
        capture_cases hb p.session none true { d.scene with world }
      rw [hcapture]
      dsimp only
      split
      next => exact (DebuggerOk.empty scene).close
      next =>
        refine ⟨Nat.le_refl 1, fun entry hentry => ?_⟩
        rw [List.mem_singleton.mp hentry]
        exact ⟨rfl, hfresh.shots screenshots⟩

theorem handleDebugStop_ok {d : Debugger σ} (hd : DebuggerOk requested d) (sessionId : Text) :
    DebuggerOk requested (handleDebugStop b sessionId d).2 := by
  unfold handleDebugStop
  split
  next => exact hd
  next session _ =>
    refine DebuggerOk.close (d := { d with sessions := _ }) ⟨?_, fun entry hentry => ?_⟩
    · exact (List.length_filter_le _ _).trans hd.one
    · exact hd.each entry (List.mem_of_mem_filter hentry)

theorem serve_ok (hb : b.FramesDone) {d : Debugger σ} (hd : DebuggerOk requested d) (world : σ)
    (command : Command) :
    DebuggerOk (requested ++ command.requested) (serve o b d world command).2 := by
  have hd := hd.world { d.scene with world }
  have hmore := hd.mono (List.sublist_append_left requested command.requested)
  unfold serve
  cases command with
  | start p => exact handleDebugStart_ok hb hmore p
  | step sessionId asked => exact handleDebugStep_ok hb hd sessionId asked
  | runAll sessionId => exact handleDebugRunAll_ok hb hmore sessionId
  | status sessionId =>
    simp only [handleDebugStatus]
    split <;> exact hmore
  | stop sessionId => exact handleDebugStop_ok hmore sessionId
  | closeBrowser preserve =>
    dsimp only
    split
    next => exact hmore
    next => exact hmore.close
  | task action =>
    dsimp only
    split
    next => exact hmore.world _
    next => exact hmore
  | interrupt own =>
    dsimp only
    split
    next => exact hmore.close
    next => exact hmore
  | idle =>
    dsimp only
    split
    next => exact hmore.close
    next => exact hmore

/-- Whatever is commanded, there is at most one debug session, and its records are those of the
    steps before its cursor, in order and once each, between which stand the records of steps that
    were asked for by number; without these they are the steps before the cursor and no other. -/
theorem debug_session_records (hb : b.FramesDone) {scene : Scene σ} {es : List (σ × Command)}
    {answers : List Answer} {d : Debugger σ}
    (h : (debugMachine o b).Steps ⟨scene, []⟩ es answers d) :
    d.sessions.length ≤ 1 ∧ ∀ entry ∈ d.sessions,
      SessionOk (es.flatMap (·.2.requested)) entry.2 ∧
      ((∀ e ∈ es, e.2.requested = []) →
        entry.2.results.map Record.stepIndex = List.range entry.2.currentStep) := by
  have hrun : ∀ {d d' : Debugger σ} {es : List (σ × Command)} {answers : List Answer}
      {requested : List Nat}, DebuggerOk requested d → (debugMachine o b).Steps d es answers d' →
      DebuggerOk (requested ++ es.flatMap (·.2.requested)) d' := by
    intro d d' es answers requested hd h
    induction h generalizing requested with
    | nil => exact hd.mono (List.sublist_append_left _ _)
    | cons hstep _ ih =>
      cases hstep
      have hnext := ih (serve_ok hb hd _ _)
      rwa [List.append_assoc] at hnext
  have hstart : DebuggerOk [] ⟨scene, []⟩ := .empty scene
  have hd := hrun hstart h
  refine ⟨hd.one, fun entry hentry => ?_⟩
  have hok := (hd.each entry hentry).2
  refine ⟨hok, fun hnone => ?_⟩
  obtain ⟨explicit, hsub, -, hrecords⟩ := hok.records
  rw [List.nil_append, List.flatMap_eq_nil_iff.mpr hnone, List.sublist_nil] at hsub
  subst hsub
  exact hrecords.eq_of_right_nil

/-! ## A sample -/

/-- A page on which the step `b` fails. The state counts what was handled. -/
def sampleBrowser : Browser Nat where
  templateVariables _ _ := none
  cancelled _ := false
  sleep _ w := (false, w)
  handle step _ w :=
    (if step.id = ['b'] then .raised (.worker .selectorFailed "no match".toList) else .done, w + 1)
  prepare _ w := (none, w)
  screenshot _ _ w := (.taken "frame.png".toList, w)
  close w := (none, w)
  task w := w

def sampleStep (id : Char) : StepConfig where
  id := [id]
  stepType := "click".toList
  description := []
  selector := none
  frame := none
  timeout := none
  duration := 1000
  required := false

def sampleStart : StartParams where
  sessionId := ['s']
  taskId := ['t']
  steps := ['a', 'b', 'c'].map sampleStep
  context := ⟨10000, 15000, 0⟩
  url := []
  vars _ := none
  fallbackUrl := []
  navigationWait := 0

theorem sampleBrowser_framesDone : sampleBrowser.FramesDone := fun _ _ _ h => nomatch h

/-- A session is started, steps on, runs its last step again, and then runs to its end. -/
def sampleCommands : List (Nat × Command) :=
  [.start sampleStart, .step [] .next, .step [] (.index 2), .runAll []].zipIdx.map Prod.swap

theorem debug_session_records_sample : ∃ d answers,
    (debugMachine asciiClasses sampleBrowser).Steps ⟨⟨0, []⟩, []⟩ sampleCommands answers d ∧
      d.sessions.map (fun e => (e.2.currentStep, e.2.results.map Record.stepIndex)) =
        [(3, [0, 2, 1, 2])] ∧
      ∀ entry ∈ d.sessions, SessionOk [2] entry.2 := by
  have hexec : ((debugMachine asciiClasses sampleBrowser).exec ⟨⟨0, []⟩, []⟩ sampleCommands).any
      (fun r => r.1.sessions.map (fun e => (e.2.currentStep, e.2.results.map Record.stepIndex)) ==
        [(3, [0, 2, 1, 2])]) = true := by decide +kernel
  obtain ⟨d, answers, hrun, hend⟩ := Machine.steps_of_any hexec
  refine ⟨d, answers, hrun, beq_iff_eq.mp hend, fun entry hentry => ?_⟩
  exact ((debug_session_records sampleBrowser_framesDone hrun).2 entry hentry).1

end CampusAuth.Worker
