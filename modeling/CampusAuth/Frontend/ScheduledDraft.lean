import CampusAuth.Frontend.Autosave
import CampusAuth.Scheduler.Service
import CampusAuth.Lib.Text
import Mathlib.Data.Rat.Floor

/- The draft of a scheduled task in the editor (`frontend/src/utils/scheduledDraft.ts`,
   `composables/useScheduledTasks.ts`).

   The form shows a time of the day. An expression that is no such time is kept beside it, and sent
   as long as the form shows what it showed when it was opened; every other expression is written
   from the form (`resolvedCron`). -/
namespace CampusAuth.Frontend.ScheduledDraft
open Lib Scheduler

/-! ## The source -/

/-- White space to `trim` and to the class `\s`. -/
def isSpace (c : Char) : Bool :=
  let n := c.toNat
  (9 ≤ n && n ≤ 13) || n == 0x20 || n == 0xA0 || n == 0x1680 || (0x2000 ≤ n && n ≤ 0x200A) ||
    n == 0x2028 || n == 0x2029 || n == 0x202F || n == 0x205F || n == 0x3000 || n == 0xFEFF

def trim (s : String) : String :=
  String.ofList ((s.toList.dropWhile isSpace).rdropWhile isSpace)

structure Limits where
  min : Nat
  max : Nat
  fallback : Nat

def maxRunsPerDayLimits : Limits := ⟨1, 99, 1⟩
def maxRetriesLimits : Limits := ⟨0, 10, 2⟩
def startupDelaySecsLimits : Limits := ⟨0, 86400, 30⟩
def timeoutLimits : Limits := ⟨5, 3600, 60⟩

/-- What an input for a number gives: a number or, when it is cleared, a text; and its value, when
    `Number` makes a finite one of it. -/
inductive FormNumber where
  | number (value : Option ℚ)
  | text (value : Option ℚ)

def FormNumber.value : FormNumber → Option ℚ
  | .number value | .text value => value

def FormNumber.ofNat (n : Nat) : FormNumber := .number (some n)

def FormNumber.within (limits : Limits) : FormNumber → Bool
  | .number (some q) => (limits.min : ℚ) ≤ q && q ≤ limits.max
  | _ => false

/-- `Math.round` rounds a half up. -/
def clamp (limits : Limits) (raw : FormNumber) : Nat :=
  match raw.value with
  | none => limits.fallback
  | some q => (min (max ⌊q + 1 / 2⌋ limits.min) limits.max).toNat

structure Schedule where
  hour : Nat
  minute : Nat
  deriving DecidableEq

/-- `cron.trim().split(/\s+/)`, where a blank text has no field. -/
def cronFields (cron : String) : List Text := words isSpace cron.toList

def numberIn (field : Text) (lo hi : Nat) : Bool :=
  !field.isEmpty && field.all (·.isDigit) &&
    lo ≤ Nat.ofDigitChars 10 field 0 && Nat.ofDigitChars 10 field 0 ≤ hi

/-- The time of an expression, and whether the form can show it. -/
def parseCronToSchedule (cron : String) : Schedule × Bool :=
  match cronFields cron with
  | [minute, hour, day, month, weekday] =>
    if numberIn minute 0 59 && numberIn hour 0 23 && day == ['*'] && month == ['*'] &&
        weekday == ['*'] then
      (⟨Nat.ofDigitChars 10 hour 0, Nat.ofDigitChars 10 minute 0⟩, true)
    else (⟨8, 0⟩, false)
  | _ => (⟨8, 0⟩, false)

def scheduleToCron (schedule : Schedule) : String :=
  toString schedule.minute ++ " " ++ toString schedule.hour ++ " * * *"

inductive TargetKind where
  | browser
  | script
  deriving DecidableEq

structure Draft where
  id : String
  name : String
  description : String
  taskType : TargetKind
  targetId : String
  enabled : Bool
  trigger : TaskTrigger
  schedule : Schedule
  timeout : FormNumber
  maxRunsPerDay : FormNumber
  maxRetries : FormNumber
  startupDelaySecs : FormNumber
  isNew : Bool
  originalCron : String
  originalCronInvalid : Bool
  originalSchedule : Schedule

/-- `n || fallback` -/
def orElse (n : Option Nat) (fallback : Nat) : Nat :=
  match n with
  | none | some 0 => fallback
  | some (n + 1) => n + 1

/-- From the list, which names the type of the target when it can be told. -/
def scheduledDraftFromServer (task : ScheduledTask) (taskType : Option String) : Draft :=
  let isStartup := task.trigger = .startup
  let cron := if isStartup then "" else task.cron
  let (schedule, valid) := parseCronToSchedule cron
  let shown := if isStartup then ⟨8, 0⟩ else schedule
  { id := task.id
    name := task.name
    description := task.description
    taskType := if taskType = some "script" then .script else .browser
    targetId := task.targetId
    enabled := task.enabled
    trigger := task.trigger
    schedule := shown
    timeout := .ofNat (orElse task.timeout timeoutLimits.fallback)
    maxRunsPerDay := .ofNat (orElse task.maxRunsPerDay maxRunsPerDayLimits.fallback)
    maxRetries := .ofNat (task.maxRetries.getD maxRetriesLimits.fallback)
    startupDelaySecs := .ofNat (task.startupDelaySecs.getD startupDelaySecsLimits.fallback)
    isNew := false
    originalCron := cron
    originalCronInvalid := !isStartup && !valid
    originalSchedule := shown }

def switchDraftTargetKind (draft : Draft) (kind : TargetKind) : Draft :=
  if draft.taskType = kind then draft else { draft with taskType := kind, targetId := "" }

def switchDraftTrigger (draft : Draft) (trigger : String) : Draft :=
  { draft with trigger := if trigger = "startup" then .startup else .cron }

structure GapContext where
  validTargetIds : List String
  targetsLoaded : Bool

def limitGap (what : String) (limits : Limits) (unit : String) (raw : FormNumber) : List String :=
  if raw.within limits then []
  else [what ++ "（" ++ toString limits.min ++ "–" ++ toString limits.max ++ unit ++ "）"]

def scheduledDraftGaps (draft : Draft) (ctx : GapContext) : List String :=
  (if (trim draft.name).isEmpty then ["任务名称"] else []) ++
  (if draft.targetId.isEmpty then ["目标任务"]
   else if ctx.targetsLoaded && !ctx.validTargetIds.contains draft.targetId then
     ["有效的目标任务（原目标已不存在）"]
   else []) ++
  limitGap "超时" timeoutLimits " 秒" draft.timeout ++
  match draft.trigger with
  | .cron => if draft.schedule.hour ≤ 23 && draft.schedule.minute ≤ 59 then [] else ["执行时间"]
  | .startup =>
    limitGap "每天最多成功次数" maxRunsPerDayLimits "" draft.maxRunsPerDay ++
    limitGap "失败重试次数" maxRetriesLimits "" draft.maxRetries ++
    limitGap "延迟执行秒数" startupDelaySecsLimits "" draft.startupDelaySecs

structure StartupForm where
  maxRunsPerDay : Nat
  maxRetries : Nat
  startupDelaySecs : Nat
  deriving DecidableEq

structure Payload where
  name : String
  description : String
  targetId : String
  cron : String
  enabled : Bool
  timeout : Nat
  trigger : TaskTrigger
  startup : Option StartupForm
  deriving DecidableEq

def resolvedCron (draft : Draft) : String :=
  if draft.originalCronInvalid && draft.schedule == draft.originalSchedule then draft.originalCron
  else scheduleToCron draft.schedule

def clampStartupForm (draft : Draft) : StartupForm where
  maxRunsPerDay := clamp maxRunsPerDayLimits draft.maxRunsPerDay
  maxRetries := clamp maxRetriesLimits draft.maxRetries
  startupDelaySecs := clamp startupDelaySecsLimits draft.startupDelaySecs

def scheduledDraftPayload (draft : Draft) : Payload :=
  let isStartup := draft.trigger = .startup
  { name := trim draft.name
    description := draft.description
    targetId := draft.targetId
    cron := if isStartup then "" else resolvedCron draft
    enabled := draft.enabled
    timeout := clamp timeoutLimits draft.timeout
    trigger := draft.trigger
    startup := if isStartup then some (clampStartupForm draft) else none }

/-- The body of the request that saves a task that is not new. -/
def Payload.update (p : Payload) : JobUpdate where
  cron := some p.cron
  enabled := some p.enabled
  name := some p.name
  targetId := some p.targetId
  description := some p.description
  timeout := some p.timeout
  trigger := some p.trigger
  maxRunsPerDay := p.startup.map (·.maxRunsPerDay)
  maxRetries := p.startup.map (·.maxRetries)
  startupDelaySecs := p.startup.map (·.startupDelaySecs)

/-- What the panel gives the autosave controller; the payload is its own fingerprint. -/
def panel (ctx : GapContext) : AutosaveSpec Draft Payload where
  fingerprintOf draft := some (scheduledDraftPayload draft)
  blockReasonOf draft :=
    let gaps := scheduledDraftGaps draft ctx
    if gaps.isEmpty then none else some ("改动未保存：还缺 " ++ "、".intercalate gaps)
  onSaved draft := { draft with isNew := false }
  detachedSubject := "上一份定时任务"
  payload _ _ := rfl
  onSaved_payload _ := rfl

/-! ## A session -/

/-- What happens to the draft in the editor. -/
inductive Edit where
  | name (value : String)
  | description (value : String)
  | targetKind (kind : TargetKind)
  | target (id : String)
  | enabled (value : Bool)
  | trigger (value : String)
  /-- `onTimeChange` -/
  | time (schedule : Schedule)
  | timeout (value : FormNumber)
  | maxRunsPerDay (value : FormNumber)
  | maxRetries (value : FormNumber)
  | startupDelaySecs (value : FormNumber)
  /-- A request with the payload succeeds. -/
  | saved

def Edit.apply (ctx : GapContext) (draft : Draft) : Edit → Draft
  | .name value => { draft with name := value }
  | .description value => { draft with description := value }
  | .targetKind kind => switchDraftTargetKind draft kind
  | .target id => { draft with targetId := id }
  | .enabled value => { draft with enabled := value }
  | .trigger value => switchDraftTrigger draft value
  | .time schedule => { draft with schedule }
  | .timeout value => { draft with timeout := value }
  | .maxRunsPerDay value => { draft with maxRunsPerDay := value }
  | .maxRetries value => { draft with maxRetries := value }
  | .startupDelaySecs value => { draft with startupDelaySecs := value }
  | .saved => (panel ctx).onSaved draft

def Edit.setsTime : Edit → Bool
  | .time _ => true
  | _ => false

def session (ctx : GapContext) (task : ScheduledTask) (taskType : Option String)
    (edits : List Edit) : Draft :=
  edits.foldl (Edit.apply ctx) (scheduledDraftFromServer task taskType)

/-- The schedule stays as it is until the user changes it. `shown` is the time in the form. -/
structure Kept (ctx : GapContext) (task : ScheduledTask) (draft : Draft) (edits : List Edit) :
    Prop where
  startup : draft.trigger = .startup → (scheduledDraftPayload draft).cron = ""
  /-- An expression that the form cannot show is sent as it was. -/
  other : draft.trigger = .cron → edits.any Edit.setsTime = false →
    (parseCronToSchedule task.cron).2 = false → (scheduledDraftPayload draft).cron = task.cron
  /-- A time of the day is written anew, and is the same time. -/
  daily : draft.trigger = .cron → edits.any Edit.setsTime = false →
    (parseCronToSchedule task.cron).2 = true →
      (scheduledDraftPayload draft).cron = scheduleToCron (parseCronToSchedule task.cron).1 ∧
      parseCronToSchedule (scheduledDraftPayload draft).cron = parseCronToSchedule task.cron
  /-- A time that was set is sent, if it is not the one that stood for another expression. -/
  set : draft.trigger = .cron → edits.any Edit.setsTime = true →
    ((parseCronToSchedule task.cron).2 = true ∨ draft.schedule ≠ ⟨8, 0⟩) →
      (scheduledDraftPayload draft).cron = scheduleToCron draft.schedule
  /-- What is saved without an edit differs in the spelling of the name and of the time, and has a
      timeout. -/
  unedited : (∀ e ∈ edits, e = .saved) → scheduledDraftGaps draft ctx = [] →
    (scheduledDraftPayload draft).update.apply task =
      { task with name := trim task.name, cron := (scheduledDraftPayload draft).cron,
                  timeout := some (orElse task.timeout timeoutLimits.fallback) }

/-! ## The time of an expression -/

theorem words_append {sep : Char → Bool} {w : Text} {c : Char} (hw : ∀ x ∈ w, sep x = false)
    (hne : w ≠ []) (hc : sep c = true) (rest : Text) :
    words sep (w ++ c :: rest) = w :: words sep rest := by
  rw [words, splitOnP_append_of_not hw, List.splitOnP_cons_eq_if_modifyHead, hc, if_pos rfl,
    List.modifyHead_cons, List.append_nil, List.filter_cons_of_pos, words]
  simpa using hne

theorem not_space_of_digit {c : Char} (h : c.isDigit = true) : isSpace c = false := by
  obtain ⟨hlow, hhigh⟩ : 48 ≤ c.toNat ∧ c.toNat ≤ 57 := by
    simpa [Char.isDigit, UInt32.le_iff_toNat_le] using h
  simp only [isSpace, Bool.or_eq_false_iff, Bool.and_eq_false_iff, decide_eq_false_iff_not,
    beq_eq_false_iff_ne]
  omega

theorem toList_scheduleToCron (schedule : Schedule) :
    (scheduleToCron schedule).toList = Nat.toDigits 10 schedule.minute ++ ' ' ::
      (Nat.toDigits 10 schedule.hour ++ ' ' :: ['*', ' ', '*', ' ', '*']) := by
  have hdigits : ∀ n : Nat, (toString n).toList = Nat.toDigits 10 n := fun n => by
    rw [Nat.toString_eq_ofList_toDigits, String.toList_ofList]
  simp only [scheduleToCron, String.toList_append, hdigits, List.append_assoc]
  rfl

theorem digits_of_mem {n : Nat} {c : Char} (h : c ∈ Nat.toDigits 10 n) : c.isDigit = true :=
  Nat.isDigit_of_mem_toDigits (by decide) (by decide) h

theorem cronFields_scheduleToCron (schedule : Schedule) :
    cronFields (scheduleToCron schedule) =
      [Nat.toDigits 10 schedule.minute, Nat.toDigits 10 schedule.hour, ['*'], ['*'], ['*']] := by
  have hsolid : ∀ n : Nat, ∀ c ∈ Nat.toDigits 10 n, isSpace c = false :=
    fun n c hc => not_space_of_digit (digits_of_mem hc)
  rw [cronFields, toList_scheduleToCron,
    words_append (hsolid _) Nat.toDigits_ne_nil rfl, words_append (hsolid _) Nat.toDigits_ne_nil rfl]
  rfl

theorem numberIn_toDigits {n hi : Nat} (h : n ≤ hi) : numberIn (Nat.toDigits 10 n) 0 hi = true := by
  have hall : (Nat.toDigits 10 n).all (·.isDigit) = true :=
    List.all_eq_true.mpr fun c hc => digits_of_mem hc
  have hne : (Nat.toDigits 10 n).isEmpty = false :=
    Bool.eq_false_iff.mpr fun hnil => Nat.toDigits_ne_nil (List.isEmpty_iff.mp hnil)
  rw [numberIn, hall, hne, Nat.ofDigitChars_ten_toDigits]
  simpa using h

/-- A time of the day is read back. -/
theorem parse_scheduleToCron {schedule : Schedule} (hhour : schedule.hour ≤ 23)
    (hminute : schedule.minute ≤ 59) :
    parseCronToSchedule (scheduleToCron schedule) = (schedule, true) := by
  rw [parseCronToSchedule, cronFields_scheduleToCron]
  dsimp only
  rw [numberIn_toDigits hhour, numberIn_toDigits hminute, Nat.ofDigitChars_ten_toDigits,
    Nat.ofDigitChars_ten_toDigits]
  rfl

theorem numberIn_le {field : Text} {lo hi : Nat} (h : numberIn field lo hi = true) :
    Nat.ofDigitChars 10 field 0 ≤ hi := by
  rw [numberIn, Bool.and_eq_true] at h
  exact of_decide_eq_true h.2

/-- What the form can show is a time of the day; otherwise it shows eight o'clock. -/
theorem parse_cases (cron : String) :
    (parseCronToSchedule cron = (⟨8, 0⟩, false)) ∨
    (parseCronToSchedule cron).2 = true ∧ (parseCronToSchedule cron).1.hour ≤ 23 ∧
      (parseCronToSchedule cron).1.minute ≤ 59 := by
  unfold parseCronToSchedule
  split
  next minute hour day month weekday _ =>
    split
    next hfields =>
      simp only [Bool.and_eq_true] at hfields
      obtain ⟨⟨⟨⟨hminute, hhour⟩, -⟩, -⟩, -⟩ := hfields
      exact .inr ⟨rfl, numberIn_le hhour, numberIn_le hminute⟩
    · exact .inl rfl
  · exact .inl rfl

theorem parse_invalid {cron : String} (h : (parseCronToSchedule cron).2 = false) :
    parseCronToSchedule cron = (⟨8, 0⟩, false) := by
  rcases parse_cases cron with heq | ⟨hvalid, -, -⟩
  · exact heq
  · rw [h] at hvalid
    cases hvalid

theorem parse_valid {cron : String} (h : (parseCronToSchedule cron).2 = true) :
    parseCronToSchedule (scheduleToCron (parseCronToSchedule cron).1) =
      parseCronToSchedule cron := by
  rcases parse_cases cron with heq | ⟨-, hhour, hminute⟩
  · rw [heq] at h
    cases h
  · rw [parse_scheduleToCron hhour hminute, ← h]

/-! ## What the edits leave alone -/

variable {ctx : GapContext} {task : ScheduledTask} {taskType : Option String} {edits : List Edit}

/-- What was noted when the draft was opened. -/
structure SameOriginals (draft draft' : Draft) : Prop where
  cron : draft'.originalCron = draft.originalCron
  invalid : draft'.originalCronInvalid = draft.originalCronInvalid
  schedule : draft'.originalSchedule = draft.originalSchedule

theorem apply_originals (draft : Draft) (e : Edit) : SameOriginals draft (e.apply ctx draft) := by
  cases e with
  | targetKind kind =>
    rw [Edit.apply, switchDraftTargetKind]
    split <;> exact ⟨rfl, rfl, rfl⟩
  | _ => exact ⟨rfl, rfl, rfl⟩

theorem session_originals (draft : Draft) (edits : List Edit) :
    SameOriginals draft (edits.foldl (Edit.apply ctx) draft) := by
  induction edits generalizing draft with
  | nil => exact ⟨rfl, rfl, rfl⟩
  | cons e edits ih =>
    have hstep : SameOriginals draft (e.apply ctx draft) := apply_originals draft e
    have hrest := ih (e.apply ctx draft)
    exact ⟨hrest.cron.trans hstep.cron, hrest.invalid.trans hstep.invalid,
      hrest.schedule.trans hstep.schedule⟩

theorem apply_schedule (draft : Draft) {e : Edit} (h : e.setsTime = false) :
    (e.apply ctx draft).schedule = draft.schedule := by
  cases e with
  | time schedule => cases h
  | targetKind kind =>
    rw [Edit.apply, switchDraftTargetKind]
    split <;> rfl
  | _ => rfl

/-- The form shows the same time until it is set. -/
theorem session_schedule (draft : Draft) (h : edits.any Edit.setsTime = false) :
    (edits.foldl (Edit.apply ctx) draft).schedule = draft.schedule := by
  induction edits generalizing draft with
  | nil => rfl
  | cons e edits ih =>
    rw [List.any_cons, Bool.or_eq_false_iff] at h
    rw [List.foldl_cons, ih _ h.2, apply_schedule draft h.1]

/-- Saving changes nothing but that the task is on disk. -/
theorem session_saved (draft : Draft) (h : ∀ e ∈ edits, e = .saved) :
    edits.foldl (Edit.apply ctx) draft = draft ∨
      edits.foldl (Edit.apply ctx) draft = { draft with isNew := false } := by
  induction edits generalizing draft with
  | nil => exact .inl rfl
  | cons e edits ih =>
    obtain rfl := h e List.mem_cons_self
    rw [List.foldl_cons]
    rcases ih { draft with isNew := false } fun e he => h e (List.mem_cons_of_mem _ he) with
      heq | heq
    · exact .inr heq
    · exact .inr heq

/-! ## The payload -/

theorem fromServer_cron (h : task.trigger = .cron) :
    (scheduledDraftFromServer task taskType).originalCron = task.cron ∧
    (scheduledDraftFromServer task taskType).originalCronInvalid =
      !(parseCronToSchedule task.cron).2 ∧
    (scheduledDraftFromServer task taskType).originalSchedule =
      (parseCronToSchedule task.cron).1 ∧
    (scheduledDraftFromServer task taskType).schedule = (parseCronToSchedule task.cron).1 := by
  simp [scheduledDraftFromServer, h]

/-- What is sent of the expression, by what was noted and what the form shows. -/
theorem resolvedCron_session (h : task.trigger = .cron) :
    resolvedCron (session ctx task taskType edits) =
      if (parseCronToSchedule task.cron).2 = false ∧
          (session ctx task taskType edits).schedule = (parseCronToSchedule task.cron).1
      then task.cron else scheduleToCron (session ctx task taskType edits).schedule := by
  obtain ⟨hcron, hinvalid, hschedule, -⟩ := @fromServer_cron _ taskType h
  obtain ⟨hcron', hinvalid', hschedule'⟩ :=
    @session_originals ctx (scheduledDraftFromServer task taskType) edits
  unfold session resolvedCron
  rw [hcron', hinvalid', hschedule', hcron, hinvalid, hschedule]
  simp only [Bool.and_eq_true, Bool.not_eq_true', beq_iff_eq]

theorem payload_cron {draft : Draft} (h : draft.trigger = .cron) :
    (scheduledDraftPayload draft).cron = resolvedCron draft := by
  simp only [scheduledDraftPayload, h, reduceCtorEq, if_false]

/-- A number within its limits is sent as it is. -/
theorem clamp_of_within {limits : Limits} {n : Nat}
    (h : (FormNumber.ofNat n).within limits = true) : clamp limits (.ofNat n) = n := by
  simp only [FormNumber.within, FormNumber.ofNat, Bool.and_eq_true, decide_eq_true_eq,
    Nat.cast_le] at h
  have hround : ⌊(n : ℚ) + 1 / 2⌋ = (n : ℤ) := by
    rw [Int.floor_natCast_add]
    norm_num
  simp only [clamp, FormNumber.ofNat, FormNumber.value, hround]
  omega

theorem within_of_gaps {draft : Draft} (h : scheduledDraftGaps draft ctx = []) :
    draft.timeout.within timeoutLimits = true := by
  simp only [scheduledDraftGaps, List.append_eq_nil_iff] at h
  obtain ⟨⟨-, htimeout⟩, -⟩ := h
  unfold limitGap at htimeout
  split at htimeout
  next hwithin => exact hwithin
  next => cases htimeout

theorem unedited_update (h : task.trigger = .cron)
    (hgaps : scheduledDraftGaps (scheduledDraftFromServer task taskType) ctx = []) :
    (scheduledDraftPayload (scheduledDraftFromServer task taskType)).update.apply task =
      { task with
        name := trim task.name
        cron := (scheduledDraftPayload (scheduledDraftFromServer task taskType)).cron
        timeout := some (orElse task.timeout timeoutLimits.fallback) } := by
  have htimeout : clamp timeoutLimits (scheduledDraftFromServer task taskType).timeout =
      orElse task.timeout timeoutLimits.fallback := clamp_of_within (within_of_gaps hgaps)
  simp only [JobUpdate.apply, Payload.update, scheduledDraftPayload, htimeout]
  simp only [scheduledDraftFromServer, h, reduceCtorEq, if_false]
  rfl

/-- Editing a task of the list, and saving it in between, keeps its schedule. -/
theorem schedule_kept (ctx : GapContext) (task : ScheduledTask) (taskType : Option String)
    (edits : List Edit) (h : task.trigger = .cron) :
    Kept ctx task (session ctx task taskType edits) edits where
  startup hstartup := by simp only [scheduledDraftPayload, hstartup, if_true]
  other hcron hset hvalid := by
    have hshown : (session ctx task taskType edits).schedule =
        (parseCronToSchedule task.cron).1 :=
      (session_schedule _ hset).trans (fromServer_cron h).2.2.2
    rw [payload_cron hcron, resolvedCron_session h, if_pos ⟨hvalid, hshown⟩]
  daily hcron hset hvalid := by
    have hshown : (session ctx task taskType edits).schedule =
        (parseCronToSchedule task.cron).1 :=
      (session_schedule _ hset).trans (fromServer_cron h).2.2.2
    have hsent : (scheduledDraftPayload (session ctx task taskType edits)).cron =
        scheduleToCron (parseCronToSchedule task.cron).1 := by
      rw [payload_cron hcron, resolvedCron_session h, hvalid, if_neg (by simp), hshown]
    exact ⟨hsent, by rw [hsent]; exact parse_valid hvalid⟩
  set hcron _ hother := by
    rw [payload_cron hcron, resolvedCron_session h]
    refine if_neg ?_
    rintro ⟨hvalid, hshown⟩
    rw [parse_invalid hvalid] at hother hshown
    rcases hother with hother | hother
    · cases hother
    · exact hother hshown
  unedited hsaved hgaps := by
    rcases session_saved (scheduledDraftFromServer task taskType) hsaved with heq | heq
    · rw [session, heq] at hgaps ⊢
      exact unedited_update h hgaps
    · rw [session, heq] at hgaps ⊢
      exact unedited_update h hgaps

/-- Each Monday at eight. -/
def weekly : ScheduledTask where
  id := "sched_1"
  name := "n"
  cron := "0 8 * * MON"
  targetId := "t"
  timeout := some 60

def noTargets : GapContext := ⟨[], false⟩

theorem schedule_kept_weekly :
    weekly.trigger = .cron ∧
      Kept noTargets weekly (session noTargets weekly none [.name "m", .saved])
        [.name "m", .saved] :=
  ⟨rfl, schedule_kept noTargets weekly none _ rfl⟩

/-! ## What is not kept -/

/-- The expression itself is sent until the time is set, and from then on the time in the form;
    without an edit no more than the name is spelled anew. -/
structure Verbatim (ctx : GapContext) (task : ScheduledTask) (draft : Draft) (edits : List Edit) :
    Prop where
  cron : (scheduledDraftPayload draft).cron =
    if edits.any Edit.setsTime then scheduleToCron draft.schedule else task.cron
  unedited : (∀ e ∈ edits, e = .saved) → scheduledDraftGaps draft ctx = [] →
    (scheduledDraftPayload draft).update.apply task = { task with name := trim task.name }

/-- A leading zero goes, a startup task has no expression, a missing timeout is the form's own, and
    a time that is set back to the one of the form brings the other expression back. -/
theorem not_verbatim :
    (¬Verbatim noTargets { weekly with cron := "05 08 * * *" }
      (session noTargets { weekly with cron := "05 08 * * *" } none []) []) ∧
    (¬Verbatim noTargets weekly (session noTargets weekly none [.trigger "startup"])
      [.trigger "startup"]) ∧
    (¬Verbatim noTargets { weekly with timeout := none }
      (session noTargets { weekly with timeout := none } none []) []) ∧
    ¬Verbatim noTargets weekly
      (session noTargets weekly none [.time ⟨9, 0⟩, .saved, .time ⟨8, 0⟩])
      [.time ⟨9, 0⟩, .saved, .time ⟨8, 0⟩] := by
  refine ⟨fun h => absurd h.cron (by decide +kernel), fun h => absurd h.cron (by decide +kernel),
    fun h => ?_, fun h => absurd h.cron (by decide +kernel)⟩
  have hsame := h.unedited (fun _ he => (List.not_mem_nil he).elim) (by decide +kernel)
  exact absurd (congrArg ScheduledTask.timeout hsame) (by decide +kernel)

end CampusAuth.Frontend.ScheduledDraft
