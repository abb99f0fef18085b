import CampusAuth.Worker.Requests
import Mathlib.Algebra.Order.Ring.Unbundled.Rat

/- Executing one command of the Worker (`_dispatch`, `_dispatch_guarded`,
   `python_worker/worker_main.py`).

   What a handler does, and which writes to stdout go through, is given from outside. The functions
   are in the monad `Emit`: they raise, and they write. `Keeps` says what any of them may do to
   stdout: it writes nothing, or one response, and that only while the guard is open. -/
namespace CampusAuth.Worker
open Lib

/-! ## Responses -/

/-- The texts of the error responses. -/
inductive Message
  /-- 未知命令, of a method that is a text. -/
  | unknownCommand (method : Text)
  /-- 未知命令, of any other method. -/
  | unknownMethod (method : PyVal)
  /-- params 必须是 JSON 对象. -/
  | paramsNotObject (method : Text)
  /-- 内部异常. -/
  | internal (method text : Text)
  /-- 执行超时. -/
  | timedOut (method : Text) (seconds : Option ℚ)
  /-- IPC 请求超过 16MiB 上限. -/
  | oversized
  /-- The text of an exception. -/
  | raised (text : Text)

inductive Data
  | handler (data : PyVal)
  | report (outcome : String) (message : Message)

structure Result where
  success : Bool
  data : Data
  error : Option Message

def errorResult (message : Message) : Result :=
  { success := false, data := .report "unknown_error" message, error := some message }

def structuredResult (outcome : String) (message : Message) (success : Bool) : Result :=
  { success, data := .report outcome message, error := if success then none else some message }

/-- A line of stdout with an id; `command` when it answers one that was queued. -/
structure Reply where
  id : PyVal
  result : Result
  command : Bool

/-! ## Exceptions -/

inductive Exc
  | stepCancelled (message : Text)
  | workerError (outcome : String) (message : Text)
  | exception (text : Text)
  /-- `asyncio.CancelledError`. -/
  | cancelled
  /-- `SystemExit` and `KeyboardInterrupt`, which an event loop lets through. -/
  | exit
  /-- Any other `BaseException`. -/
  | base (text : Text)
  /-- An exception whose text cannot be had: asking for it raises `inner`. -/
  | mute (ordinary : Bool) (inner : Exc)

/-- `except Exception` catches it. -/
def Exc.isException : Exc → Bool
  | .stepCancelled _ | .workerError _ _ | .exception _ => true
  | .mute ordinary _ => ordinary
  | .cancelled | .exit | .base _ => false

/-- `str(exc)`. -/
def Exc.str : Exc → Except Exc Text
  | .stepCancelled text | .workerError _ text | .exception text | .base text => .ok text
  | .cancelled | .exit => .ok []
  | .mute _ inner => .error inner

/-! ## Writing -/

/-- What becomes of a line that is written. -/
inductive Wrote
  | out
  /-- Nothing of it reaches stdout: it is no JSON, or no UTF-8, or stdout refuses it. -/
  | rejected (why : Text)
  /-- It stays in the buffer of stdout, and the call raises. -/
  | kept (why : Text)

structure Stdout where
  out : List Reply
  kept : List Reply

structure Desk where
  stdout : Stdout
  responded : Bool
  /-- Of the writes to come; those not listed go through. -/
  writes : List Wrote

abbrev Emit := ExceptT Exc (StateM Desk)

/-- `emit_response`. -/
def emitResponse (reply : Reply) : Emit Unit := fun d =>
  let (wrote, writes) := (d.writes.headD .out, d.writes.tail)
  match wrote with
  | .out => (.ok (), { d with stdout := ⟨d.stdout.out ++ d.stdout.kept ++ [reply], []⟩, writes })
  | .rejected why => (.error (.exception why), { d with writes })
  | .kept why =>
    (.error (.exception why),
      { d with stdout := { d.stdout with kept := d.stdout.kept ++ [reply] }, writes })

/-- The first response of a command counts; a failed write opens the guard again. -/
def emitOnce (id : PyVal) (result : Result) : Emit Unit := do
  if (← get).responded then
    return
  modify ({ · with responded := true })
  tryCatch (emitResponse ⟨id, result, true⟩) fun e => do
    modify ({ · with responded := false })
    throw e

def Exc.text (exc : Exc) : Emit Text :=
  match exc.str with
  | .ok text => pure text
  | .error inner => throw inner

/-! ## `_dispatch` -/

/-- How a handler ends; `unknown` when there is none for the method. -/
inductive Ending
  | unknown
  | returned (data : PyVal)
  | raised (exc : Exc)

def dispatch (id : PyVal) (method : Text) (ending : Ending) : Emit Unit :=
  tryCatch
    (match ending with
    | .unknown => emitOnce id (errorResult (.unknownCommand method))
    | .returned data => emitOnce id { success := true, data := .handler data, error := none }
    | .raised exc => throw exc)
    fun
    | .stepCancelled message => emitOnce id (structuredResult "cancelled" (.raised message) true)
    | .workerError outcome message => emitOnce id (structuredResult outcome (.raised message) false)
    | exc =>
      if exc.isException then do
        emitOnce id (errorResult (.raised (← exc.text)))
      else throw exc

/-! ## `_command_timeout` -/

/-- The first integer that no float can stand for. -/
def floatLimit : Int := 2 ^ 1024 - 2 ^ 970

/-- `rust_timeout_ms`, when it is a positive number; `none` is a budget without end. -/
def budgetSeconds : Option PyVal → Option (Except Exc (Option ℚ))
  | some (.bool true) => some (.ok (some (9 / 10000)))
  | some (.int n) =>
    if 0 < n then
      some (if floatLimit ≤ n then .error (.exception "int too large to convert to float".toList)
        else .ok (some (n / 1000 * (9 / 10))))
    else none
  | some (.float (.inf false)) => some (.ok none)
  | some (.float (.finite q)) => if 0 < q then some (.ok (some (q / 1000 * (9 / 10)))) else none
  | _ => none

inductive IntError
  /-- `TypeError` or `ValueError`. -/
  | bad
  | overflow

/-- The digits of an integer, with single underscores between them. -/
def digitsOf (py : Python) (s : Text) : Option (List Nat) :=
  if (s.splitOn '_').all (!·.isEmpty) then ((s.splitOn '_').flatten).mapM py.decimal else none

/-- `int(s)` of a text. -/
def intOfText (py : Python) (s : Text) : Option Int :=
  let (negative, digits) :=
    match pyStrip s with
    | '-' :: rest => (true, digitsOf py rest)
    | '+' :: rest => (false, digitsOf py rest)
    | rest => (false, digitsOf py rest)
  (digits.filter (·.length ≤ 4300)).map fun ds => if negative then -valueOf ds else valueOf ds

/-- `int(val)`. -/
def intOf (py : Python) : PyVal → Except IntError Int
  | .bool b => .ok (if b then 1 else 0)
  | .int n => .ok n
  | .float (.finite q) => .ok (if 0 ≤ q then q.floor else q.ceil)
  | .float .nan => .error .bad
  | .float (.inf _) => .error .overflow
  | .str s => match intOfText py s with
    | some n => .ok n
    | none => .error .bad
  | .none | .list _ | .dict _ => .error .bad

/-- `_to_ms`. -/
def toMs (py : Python) (bs : Members) (key : String) (defaultMs : Int) : Except Exc Int :=
  match bs.get key with
  | none | some .none => .ok defaultMs
  | some v =>
    match intOf py v with
    | .ok n => .ok (if n ≤ 0 then defaultMs else n * 1000)
    | .error .bad => .ok defaultMs
    | .error .overflow => .error (.exception "cannot convert float infinity to integer".toList)

def truthy : PyVal → Bool
  | .none => false
  | .bool b => b
  | .int n => n ≠ 0
  | .float (.finite q) => q ≠ 0
  | .float _ => true
  | .str s => !s.isEmpty
  | .list items => !items.isEmpty
  | .dict members => !members.isEmpty

def browserSeconds (py : Python) (bs : Members) : Except Exc (Option ℚ) := do
  let stepMs ← toMs py bs "timeout" 10000
  if floatLimit * 1000 ≤ stepMs then
    throw (.exception "integer division result too large for a float".toList)
  pure (some (max 270 (stepMs / 1000 * 20)))

/-- `_command_timeout`, in seconds and without the rounding of floats. -/
def commandTimeout (py : Python) (params : Members) : Except Exc (Option ℚ) :=
  match budgetSeconds (params.get "rust_timeout_ms") with
  | some seconds => seconds
  | none =>
    match params.get "browser_settings" with
    | some (.dict bs) => browserSeconds py bs
    | some v =>
      if truthy v then .error (.exception "object has no attribute 'get'".toList)
      else browserSeconds py []
    | none => browserSeconds py []

/-! ## `_dispatch_guarded` -/

/-- What the checks at the entry make of a message. -/
inductive Entry
  | malformed (message : Message)
  | ready (method : Text) (params : Members)

def entry (msg : Members) : Entry :=
  match (msg.get "method").getD .none with
  | .str (c :: method) =>
    match (msg.get "params").getD .none with
    | .none => .ready (c :: method) []
    | .dict params => .ready (c :: method) params
    | _ => .malformed (.paramsNotObject (c :: method))
  | v => .malformed (.unknownMethod v)

/-- The task of a command. -/
inductive Task
  | running
  | returned
  | failed (exc : Exc)
  | cancelled

/-- How a task ends; an exception that the event loop lets through ends the loop. -/
def Task.ofResult : Except Exc Unit → Option Task
  | .ok () => some .returned
  | .error .cancelled => some .cancelled
  | .error .exit => none
  | .error exc => some (.failed exc)

/-- The task ended before the timeout: `task.exception()` raises when it was cancelled. -/
def collect (id : PyVal) (method : Text) : Task → Emit Unit
  | .running | .returned => pure ()
  | .cancelled => throw .cancelled
  | .failed exc => do
    let text ← exc.text
    tryCatch (emitOnce id (errorResult (.internal method text))) fun e =>
      if e.isException then pure () else throw e

/-- After the timeout, once `force_interrupt_pending` has ended. -/
def replyTimeout (id : PyVal) (method : Text) (seconds : Option ℚ) (how : Option Exc) :
    Emit Unit := do
  if let some e := how.filter (!·.isException) then
    throw e
  emitOnce id (errorResult (.timedOut method seconds))

/-- The task has ended after the timeout. -/
def converge : Task → Emit Unit
  | .failed exc => if exc.isException then pure () else throw exc
  | .running | .returned | .cancelled => pure ()

/-! ## What is written -/

section
variable {α β : Type} {id : PyVal} {d d' d'' : Desk}

def Wrote.isKept : Wrote → Bool
  | .kept _ => true
  | .out | .rejected _ => false

def Wrote.isOut : Wrote → Bool
  | .out => true
  | .kept _ | .rejected _ => false

/-- Every write reaches stdout as a whole or not at all. -/
def Whole (writes : List Wrote) : Prop := ∀ w ∈ writes, w.isKept = false

/-- The next write goes through. -/
def Accepted (writes : List Wrote) : Prop := (writes.headD .out).isOut = true

structure Clean (d : Desk) : Prop where
  kept : d.stdout.kept = []
  writes : Whole d.writes

/-- From `d` to `d'` nothing is written, or one response to `id` while the guard is open. -/
structure Emits (id : PyVal) (d d' : Desk) : Prop where
  clean : Clean d'
  wrote : d'.responded = d.responded ∧ d'.stdout.out = d.stdout.out ∨
    d.responded = false ∧ d'.responded = true ∧
      ∃ result, d'.stdout.out = d.stdout.out ++ [⟨id, result, true⟩]

theorem Emits.refl (h : Clean d) : Emits id d d := ⟨h, .inl ⟨rfl, rfl⟩⟩

theorem Emits.trans (h : Emits id d d') (h' : Emits id d' d'') : Emits id d d'' := by
  refine ⟨h'.clean, ?_⟩
  rcases h.wrote with ⟨hr, hout⟩ | ⟨hopen, hr, result, hout⟩
  · rw [← hr, ← hout]
    exact h'.wrote
  · rcases h'.wrote with ⟨hr', hout'⟩ | ⟨hopen', -, -⟩
    · exact .inr ⟨hopen, hr'.trans hr, result, hout'.trans hout⟩
    · rw [hr] at hopen'
      cases hopen'

theorem bind_apply (x : Emit α) (f : α → Emit β) (d : Desk) :
    (x >>= f) d = match x d with
      | (.ok a, d') => f a d'
      | (.error e, d') => (.error e, d') := by
  show (match x d with | (r, d') => ExceptT.bindCont f r d') = _
  rcases x d with ⟨_ | a, d'⟩ <;> rfl

theorem tryCatch_apply (x : Emit α) (f : Exc → Emit α) (d : Desk) :
    (tryCatch x f) d = match x d with
      | (.ok a, d') => (.ok a, d')
      | (.error e, d') => f e d' := by
  unfold tryCatch
  simp only [instMonadExceptOfMonadExceptOf, tryCatchThe, MonadExceptOf.tryCatch,
    ExceptT.tryCatch, ExceptT.mk]
  rcases heq : x d with ⟨e | a, d'⟩
  · simp only [bind, StateT.bind, heq]
  · simp only [bind, StateT.bind, heq]
    rfl

/-- What `x` does to stdout. -/
def Keeps (id : PyVal) (x : Emit α) : Prop := ∀ d, Clean d → Emits id d (x d).2

theorem Keeps.pure (a : α) : Keeps id (pure a : Emit α) := fun _ hd => .refl hd

theorem Keeps.throw (e : Exc) : Keeps id (throw e : Emit α) := fun _ hd => .refl hd

theorem Keeps.bind {x : Emit α} {f : α → Emit β} (hx : Keeps id x) (hf : ∀ a, Keeps id (f a)) :
    Keeps id (x >>= f) := by
  intro d hd
  have hfirst := hx d hd
  rw [bind_apply]
  rcases heq : x d with ⟨e | a, d'⟩
  · rw [heq] at hfirst
    exact hfirst
  · rw [heq] at hfirst
    exact hfirst.trans (hf a d' hfirst.clean)

theorem Keeps.tryCatch {x : Emit α} {f : Exc → Emit α} (hx : Keeps id x)
    (hf : ∀ e, Keeps id (f e)) : Keeps id (tryCatch x f) := by
  intro d hd
  have hfirst := hx d hd
  rw [tryCatch_apply]
  rcases heq : x d with ⟨e | a, d'⟩
  · rw [heq] at hfirst
    exact hfirst.trans (hf e d' hfirst.clean)
  · rw [heq] at hfirst
    exact hfirst

theorem Clean.tail (h : Clean d) : Whole d.writes.tail :=
  fun w hw => h.writes w (List.mem_of_mem_tail hw)

/-- A response goes out whole, or nothing does. -/
theorem emitResponse_cases (reply : Reply) (h : Clean d) :
    (Accepted d.writes ∧ emitResponse reply d =
      (.ok (), { d with
        stdout := ⟨d.stdout.out ++ [reply], []⟩, writes := d.writes.tail })) ∨
    ∃ why, ¬Accepted d.writes ∧ emitResponse reply d =
      (.error (.exception why), { d with writes := d.writes.tail }) := by
  obtain ⟨⟨out, kept⟩, responded, writes⟩ := d
  obtain ⟨hkept, hwhole⟩ := h
  cases hkept
  cases writes with
  | nil => exact .inl ⟨rfl, by simp [emitResponse]⟩
  | cons w ws =>
    cases w with
    | out => exact .inl ⟨rfl, by simp [emitResponse]⟩
    | rejected why => exact .inr ⟨why, Bool.false_ne_true, rfl⟩
    | kept why => exact absurd (hwhole _ List.mem_cons_self) Bool.noConfusion

theorem emitOnce_responded {result : Result} (h : d.responded = true) :
    emitOnce id result d = (.ok (), d) := by
  obtain ⟨stdout, responded, writes⟩ := d
  cases h
  rfl

theorem emitOnce_open {result : Result} (h : d.responded = false) :
    emitOnce id result d =
      match emitResponse ⟨id, result, true⟩ { d with responded := true } with
      | (.ok (), d') => (.ok (), d')
      | (.error e, d') => (.error e, { d' with responded := false }) := by
  obtain ⟨stdout, responded, writes⟩ := d
  cases h
  show (tryCatch (emitResponse ⟨id, result, true⟩) _ : Emit Unit) ⟨stdout, true, writes⟩ = _
  rw [tryCatch_apply]
  rcases emitResponse ⟨id, result, true⟩ ⟨stdout, true, writes⟩ with ⟨_ | _, d'⟩ <;> rfl

theorem emitOnce_cases (id : PyVal) (result : Result) (hd : Clean d) (h : d.responded = false) :
    (Accepted d.writes ∧ emitOnce id result d =
      (.ok (), ⟨⟨d.stdout.out ++ [⟨id, result, true⟩], []⟩, true, d.writes.tail⟩)) ∨
    ∃ why, ¬Accepted d.writes ∧ emitOnce id result d =
      (.error (.exception why), { d with writes := d.writes.tail }) := by
  have hd' : Clean { d with responded := true } := ⟨hd.kept, hd.writes⟩
  rw [emitOnce_open h]
  rcases emitResponse_cases ⟨id, result, true⟩ hd' with ⟨hacc, heq⟩ | ⟨why, hacc, heq⟩
  · rw [heq]
    exact .inl ⟨hacc, rfl⟩
  · rw [heq]
    refine .inr ⟨why, hacc, ?_⟩
    rw [← h]

theorem emitOnce_keeps (result : Result) : Keeps id (emitOnce id result) := by
  intro d hd
  by_cases h : d.responded = true
  · rw [emitOnce_responded h]
    exact .refl hd
  · rw [Bool.not_eq_true] at h
    rcases emitOnce_cases id result hd h with ⟨-, heq⟩ | ⟨why, -, heq⟩
    · rw [heq]
      exact ⟨⟨rfl, hd.tail⟩, .inr ⟨h, rfl, result, rfl⟩⟩
    · rw [heq]
      exact ⟨⟨hd.kept, hd.tail⟩, .inl ⟨rfl, rfl⟩⟩

theorem text_keeps (exc : Exc) : Keeps id exc.text := by
  unfold Exc.text
  split
  · exact .pure _
  · exact .throw _

theorem dispatch_keeps (id : PyVal) (method : Text) (ending : Ending) :
    Keeps id (dispatch id method ending) := by
  refine .tryCatch ?_ fun exc => ?_
  · cases ending with
    | unknown | returned => exact emitOnce_keeps _
    | raised exc => exact .throw exc
  · split
    · exact emitOnce_keeps _
    · exact emitOnce_keeps _
    · split
      · exact .bind (text_keeps _) fun _ => emitOnce_keeps _
      · exact .throw _

theorem collect_keeps (method : Text) (task : Task) : Keeps id (collect id method task) := by
  cases task with
  | running | returned => exact .pure _
  | cancelled => exact .throw _
  | failed exc =>
    refine .bind (text_keeps exc) fun text => .tryCatch (emitOnce_keeps _) fun e => ?_
    split
    · exact .pure _
    · exact .throw _

theorem replyTimeout_keeps (method : Text) (seconds : Option ℚ) (how : Option Exc) :
    Keeps id (replyTimeout id method seconds how) := by
  unfold replyTimeout
  split
  · exact .bind (.throw _) fun _ => emitOnce_keeps _
  · exact emitOnce_keeps _

/-! ## When there is a response -/

/-- Where `x` returns, the guard is closed. -/
def Responds (x : Emit Unit) : Prop := ∀ d, (x d).1 = .ok () → (x d).2.responded = true

theorem Responds.throw (e : Exc) : Responds (throw e) := fun _ h => nomatch h

theorem Responds.bind {x : Emit α} {f : α → Emit Unit} (hf : ∀ a, Responds (f a)) :
    Responds (x >>= f) := by
  intro d hok
  rw [bind_apply] at hok ⊢
  rcases heq : x d with ⟨e | a, d'⟩
  · rw [heq] at hok
    cases hok
  · rw [heq] at hok
    exact hf a d' hok

theorem Responds.tryCatch {x : Emit Unit} {f : Exc → Emit Unit} (hx : Responds x)
    (hf : ∀ e, Responds (f e)) : Responds (tryCatch x f) := by
  intro d hok
  rw [tryCatch_apply] at hok ⊢
  rcases heq : x d with ⟨e | a, d'⟩
  · rw [heq] at hok
    exact hf e d' hok
  · have hresponded := hx d (by rw [heq])
    rw [heq] at hresponded
    exact hresponded

theorem emitResponse_responded (reply : Reply) (d : Desk) :
    (emitResponse reply d).2.responded = d.responded := by
  unfold emitResponse
  dsimp only
  split <;> rfl

theorem emitOnce_responds (id : PyVal) (result : Result) : Responds (emitOnce id result) := by
  intro d hok
  by_cases h : d.responded = true
  · rw [emitOnce_responded h]
    exact h
  · rw [Bool.not_eq_true] at h
    rw [emitOnce_open h] at hok ⊢
    have hkept := emitResponse_responded ⟨id, result, true⟩ { d with responded := true }
    rcases heq : emitResponse ⟨id, result, true⟩ { d with responded := true } with ⟨e | _, d'⟩
    · rw [heq] at hok
      cases hok
    · rw [heq] at hkept
      exact hkept

/-- A task that returns has responded. -/
theorem dispatch_responds (id : PyVal) (method : Text) (ending : Ending) :
    Responds (dispatch id method ending) := by
  refine .tryCatch ?_ fun exc => ?_
  · cases ending with
    | unknown | returned => exact emitOnce_responds _ _
    | raised exc => exact .throw exc
  · split
    · exact emitOnce_responds _ _
    · exact emitOnce_responds _ _
    · split
      · exact .bind fun _ => emitOnce_responds _ _
      · exact .throw _

theorem replyTimeout_responds (method : Text) (seconds : Option ℚ) (how : Option Exc) :
    Responds (replyTimeout id method seconds how) := by
  unfold replyTimeout
  split
  · exact .bind fun _ => emitOnce_responds _ _
  · exact emitOnce_responds _ _

theorem emitOnce_ok (id : PyVal) (result : Result) (hd : Clean d)
    (h : d.responded = true ∨ Accepted d.writes) :
    (emitOnce id result d).1 = .ok () := by
  by_cases hr : d.responded = true
  · rw [emitOnce_responded hr]
  · rw [Bool.not_eq_true] at hr
    rcases emitOnce_cases id result hd hr with ⟨-, heq⟩ | ⟨why, hacc, -⟩
    · rw [heq]
    · exact absurd (h.resolve_left (by rw [hr]; decide)) hacc

/-- Where its text can be had and the write goes through, an exception is answered. -/
theorem collect_failed {method : Text} {exc : Exc} {text : Text} (hd : Clean d)
    (hstr : exc.str = .ok text) (h : d.responded = true ∨ Accepted d.writes) :
    (collect id method (.failed exc) d).1 = .ok () ∧
      (collect id method (.failed exc) d).2.responded = true := by
  have htext : exc.text = pure text := by rw [Exc.text, hstr]
  have hok := emitOnce_ok id (errorResult (.internal method text)) hd h
  have hresponded := emitOnce_responds id (errorResult (.internal method text)) d hok
  have hcollect : collect id method (.failed exc) d =
      emitOnce id (errorResult (.internal method text)) d := by
    unfold collect
    dsimp only
    rw [htext, bind_apply]
    show (tryCatch (emitOnce id _) _ : Emit Unit) d = _
    rw [tryCatch_apply]
    rcases heq : emitOnce id (errorResult (.internal method text)) d with ⟨e | _, d'⟩
    · rw [heq] at hok
      cases hok
    · rfl
  rw [hcollect]
  exact ⟨hok, hresponded⟩

/-! ## What leaves the task -/

/-- The exception that leaves the task is one that the event loop lets through. -/
def Exc.exits : Exc → Bool
  | .exit => true
  | .mute true inner => inner.exits
  | .stepCancelled _ | .workerError _ _ | .exception _ | .cancelled | .base _ | .mute false _ => false

def Ending.exits : Ending → Bool
  | .raised exc => exc.exits
  | .unknown | .returned _ => false

/-- `x` raises nothing that ends the event loop. -/
def Spares (x : Emit α) : Prop := ∀ d e, (x d).1 = .error e → e.exits = false

theorem Spares.pure (a : α) : Spares (pure a : Emit α) := fun _ _ h => nomatch h

theorem Spares.throw {e : Exc} (he : e.exits = false) : Spares (throw e : Emit α) := by
  intro d e' h
  cases h
  exact he

theorem Spares.bind {x : Emit α} {f : α → Emit β} (hx : Spares x) (hf : ∀ a, Spares (f a)) :
    Spares (x >>= f) := by
  intro d e h
  rw [bind_apply] at h
  rcases heq : x d with ⟨e' | a, d'⟩
  · rw [heq] at h
    cases h
    exact hx d e (by rw [heq])
  · rw [heq] at h
    exact hf a d' e h

theorem Spares.tryCatch {x : Emit α} {f : Exc → Emit α} (hx : Spares x)
    (hf : ∀ e, e.exits = false → Spares (f e)) : Spares (tryCatch x f) := by
  intro d e h
  rw [tryCatch_apply] at h
  rcases heq : x d with ⟨e' | a, d'⟩
  · rw [heq] at h
    exact hf e' (hx d e' (by rw [heq])) d' e h
  · rw [heq] at h
    cases h

theorem emitOnce_spares (result : Result) : Spares (emitOnce id result) := by
  intro d e h
  by_cases hr : d.responded = true
  · rw [emitOnce_responded hr] at h
    cases h
  · rw [Bool.not_eq_true] at hr
    rw [emitOnce_open hr] at h
    unfold emitResponse at h
    dsimp only at h
    cases hw : d.writes.headD .out with
    | out | rejected | kept =>
      rw [hw] at h
      cases h
      try rfl

theorem text_spares {exc : Exc} (he : exc.isException = true) (hexits : exc.exits = false) :
    Spares exc.text := by
  cases exc with
  | stepCancelled | workerError | exception => exact .pure _
  | cancelled | exit | base => cases he
  | mute ordinary inner =>
    cases he
    exact .throw hexits

theorem dispatch_spares (id : PyVal) (method : Text) {ending : Ending} (h : ending.exits = false) :
    Spares (dispatch id method ending) := by
  refine .tryCatch ?_ fun exc hexc => ?_
  · cases ending with
    | unknown | returned => exact emitOnce_spares _
    | raised exc => exact .throw h
  · split
    · exact emitOnce_spares _
    · exact emitOnce_spares _
    · split
      next he => exact .bind (text_spares he hexc) fun _ => emitOnce_spares _
      · exact .throw hexc

end

end CampusAuth.Worker
