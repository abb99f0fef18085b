import Mathlib.Data.List.ReduceOption
import CampusAuth.Lib.Machine
import CampusAuth.Worker.Dispatch

/- The service loop of the Worker (`_serve`, `stdin_reader`, `_dispatch_guarded`,
   `python_worker/worker_main.py`).

   The reader thread and the main loop take turns in any order. A command is in one of three
   phases: its task runs under the timeout, the timeout has passed and the page is being closed, or
   the cancelled task is awaited. The task may end in any of them, in any way.

   Where no step meets one of the defects (`Sound`), commands are answered one by one, in order
   (`each_command_answered`). A handler that ends by a cancellation of its own is one of them:
   `task.exception()` raises, and the loop ends (`own_cancellation_ends_loop`). -/
namespace CampusAuth.Worker
open Lib

/-! ## Steps -/

structure Call where
  msg : Members
  method : Text
  seconds : Option ℚ
  responded : Bool
  task : Task

def idOf (msg : Members) : PyVal := (msg.get "id").getD .none

inductive Phase
  | waiting
  | interrupting
  | settling
  deriving DecidableEq

inductive End
  | shutdown
  | eof
  /-- An exception left the loop. -/
  | crashed
  deriving DecidableEq

inductive Main
  | idle
  | busy (phase : Phase) (call : Call)
  | ended (how : End)

structure Service where
  stdin : Text
  reading : Bool
  /-- `none` is the sentinel. -/
  queue : List (Option Members)
  /-- The commands taken from the queue so far. -/
  taken : List Members
  stdout : Stdout
  main : Main
  /-- What the cancellation registry was told. -/
  triggered : List PyVal

def start (input : Text) : Service :=
  { stdin := input, reading := true, queue := [], taken := [], stdout := ⟨[], []⟩, main := .idle,
    triggered := [] }

inductive Event
  /-- The reader takes a line, or finds the end of stdin. -/
  | read (writes : List Wrote)
  /-- The main loop takes from the queue. -/
  | take (writes : List Wrote)
  /-- The handler ends, and with it the task. -/
  | finish (ending : Ending) (writes : List Wrote)
  /-- `asyncio.wait` returns: the task has ended, or the timeout has passed. -/
  | resume (writes : List Wrote)
  /-- `force_interrupt_pending` ends, perhaps by an exception. -/
  | interrupted (how : Option Exc) (writes : List Wrote)
  /-- `asyncio.wait_for` returns, which it does once the task has ended. -/
  | settled

def handled : List String :=
  ["worker_health_check", "browser_health_check", "test_redirect", "execute_login_attempt",
    "execute_browser_task", "close_browser", "debug_start", "debug_step", "debug_run_all",
    "debug_stop", "debug_status", "feedback_capture", "page_capture", "ocr_recognize", "shutdown"]

/-- There is a handler exactly for the methods of `COMMANDS`. -/
def Ending.fits (method : Text) : Ending → Bool
  | .unknown => !(handled.map String.toList).contains method
  | .returned _ | .raised _ => (handled.map String.toList).contains method

def isShutdown (msg : Members) : Bool :=
  match msg.get "method" with
  | some (.str method) => method == "shutdown".toList
  | _ => false

/-- `_dispatch_guarded` has returned. -/
def conclude (msg : Members) : Main := if isShutdown msg then .ended .shutdown else .idle

def stopReading (s : Service) : Service :=
  { s with reading := false, queue := s.queue ++ [none] }

def stepRead (py : Python) (writes : List Wrote) (s : Service) : Service :=
  let (read, stdin) := readLine py s.stdin
  let s := { s with stdin }
  match read with
  | .eof | .fails => stopReading s
  | .skip => s
  | .cancel cancelId => { s with triggered := s.triggered ++ [cancelId] }
  | .command msg => { s with queue := s.queue ++ [some msg] }
  | .reply id =>
    match emitResponse ⟨.int id, errorResult .oversized, false⟩ ⟨s.stdout, false, writes⟩ with
    | (.ok (), d) => { s with stdout := d.stdout }
    | (.error _, d) => stopReading { s with stdout := d.stdout }

def stepTake (py : Python) (writes : List Wrote) (msg : Members) (s : Service) : Service :=
  let s := { s with taken := s.taken ++ [msg] }
  match entry msg with
  | .malformed message =>
    match emitResponse ⟨idOf msg, errorResult message, true⟩ ⟨s.stdout, false, writes⟩ with
    | (.ok (), d) => { s with stdout := d.stdout, main := conclude msg }
    | (.error _, d) => { s with stdout := d.stdout, main := .ended .crashed }
  | .ready method params =>
    match commandTimeout py params with
    | .error _ => { s with main := .ended .crashed }
    | .ok seconds => { s with main := .busy .waiting ⟨msg, method, seconds, false, .running⟩ }

def Task.isRunning : Task → Bool
  | .running => true
  | .returned | .failed _ | .cancelled => false

/-- The main loop executes `x` for a command and goes on with `next` unless an exception leaves. -/
def goOn (x : Emit Unit) (writes : List Wrote) (call : Call) (next : Call → Main) (s : Service) :
    Service :=
  match x ⟨s.stdout, call.responded, writes⟩ with
  | (.ok (), d) =>
    { s with stdout := d.stdout, main := next { call with responded := d.responded } }
  | (.error _, d) => { s with stdout := d.stdout, main := .ended .crashed }

def stepFinish (ending : Ending) (writes : List Wrote) (phase : Phase) (call : Call)
    (s : Service) : Service :=
  let (result, d) := dispatch (idOf call.msg) call.method ending ⟨s.stdout, call.responded, writes⟩
  match Task.ofResult result with
  | some task =>
    { s with
      stdout := d.stdout, main := .busy phase { call with responded := d.responded, task } }
  | none => { s with stdout := d.stdout, main := .ended .crashed }

def serviceStep (py : Python) (s : Service) : Event → Option Service
  | .read writes => if s.reading then some (stepRead py writes s) else none
  | .take writes =>
    match s.main, s.queue with
    | .idle, none :: queue => some { s with queue, main := .ended .eof }
    | .idle, some msg :: queue => some (stepTake py writes msg { s with queue })
    | _, _ => none
  | .finish ending writes =>
    match s.main with
    | .busy phase call =>
      if call.task.isRunning && ending.fits call.method then
        some (stepFinish ending writes phase call s)
      else none
    | .idle | .ended _ => none
  | .resume writes =>
    match s.main with
    | .busy .waiting call =>
      if call.task.isRunning then
        if call.seconds.isSome then some { s with main := .busy .interrupting call } else none
      else
        some (goOn (collect (idOf call.msg) call.method call.task) writes call
          (fun _ => conclude call.msg) s)
    | _ => none
  | .interrupted how writes =>
    match s.main with
    | .busy .interrupting call =>
      some (goOn (replyTimeout (idOf call.msg) call.method call.seconds how) writes call
        (.busy .settling) s)
    | _ => none
  | .settled =>
    match s.main with
    | .busy .settling call =>
      if call.task.isRunning then none
      else some (goOn (converge call.task) [] call (fun _ => conclude call.msg) s)
    | _ => none

def service (py : Python) : Machine Service Event Empty where
  step s e := (serviceStep py s e).map (·, [])

/-! ## One response for each command -/

/-- The ids of the responses to commands, in the order of stdout. -/
def Service.replies (s : Service) : List PyVal := (s.stdout.out.filter (·.command)).map (·.id)

def Main.isBusy : Main → Bool
  | .busy _ _ => true
  | .idle | .ended _ => false

/-- Commands are answered one by one in the order of their lines, and the loop ends only after a
    shutdown or at the end of the input, with every command before it answered. -/
structure Answers (py : Python) (input : Text) (s : Service) : Prop where
  taken : s.taken <+: commands py input
  /-- At most the command in hand has no response. -/
  replies : s.replies = s.taken.map idOf ∨
    s.main.isBusy = true ∧ s.replies = s.taken.dropLast.map idOf
  shutdown : ∀ e, s.main = .ended e →
    e = .shutdown ∧ s.taken.getLast?.any isShutdown = true ∨
      e = .eof ∧ s.taken = commands py input
  /-- The timeout alone is enough for a response. -/
  hanging : ∀ call, s.main = .busy .waiting call → call.task.isRunning = true →
    call.seconds.isSome = true → ∃ t, (service py).Steps s [.resume [], .interrupted none []] [] t ∧
      t.replies = t.taken.map idOf

/-- The next step meets none of the defects. -/
def Sound (py : Python) (s : Service) : Event → Prop
  | .read writes => Whole writes ∧ (s.stdin ≠ [] → Legible py (cutLine s.stdin).1) ∧
      (∀ id, readRaw py (cutLine s.stdin).1 = .reply id → Accepted writes)
  | .take writes => Whole writes ∧ ∀ msg, s.queue.head? = some (some msg) →
      match entry msg with
      | .malformed _ => Accepted writes
      | .ready _ params => (commandTimeout py params).isOk = true
  | .finish ending writes => Whole writes ∧ ending.exits = false
  | .resume writes => Whole writes ∧ ∀ call, s.main = .busy .waiting call →
      match call.task with
      | .running | .returned => True
      | .cancelled => False
      | .failed exc => exc.str.isOk = true ∧ (call.responded = true ∨ Accepted writes)
  | .interrupted how writes => Whole writes ∧ (∀ exc, how = some exc → exc.isException = true) ∧
      ∀ phase call, s.main = .busy phase call → call.responded = true ∨ Accepted writes
  | .settled => ∀ phase call exc, s.main = .busy phase call → call.task = .failed exc →
      exc.isException = true

/-! ## What a step keeps -/

section
variable {py : Python} {input : Text} {s t : Service}

def replyIds (out : List Reply) : List PyVal := (out.filter (·.command)).map (·.id)

@[simp] theorem replyIds_append (out : List Reply) (reply : Reply) :
    replyIds (out ++ [reply]) = replyIds out ++ if reply.command then [reply.id] else [] := by
  unfold replyIds
  rw [List.filter_append, List.map_append]
  cases h : reply.command <;> simp [h]

/-- What stdout holds while the response of the last command is open or given. -/
def upTo (earlier : List Members) (msg : Members) (responded : Bool) : List PyVal :=
  earlier.map idOf ++ if responded then [idOf msg] else []

theorem upTo_true (earlier : List Members) (msg : Members) :
    upTo earlier msg true = (earlier ++ [msg]).map idOf := by
  rw [upTo, List.map_append]
  rfl

theorem Emits.upTo {msg : Members} {d d' : Desk} (h : Emits (idOf msg) d d')
    {earlier : List Members} (hd : replyIds d.stdout.out = upTo earlier msg d.responded) :
    replyIds d'.stdout.out = Worker.upTo earlier msg d'.responded := by
  rcases h.wrote with ⟨hr, hout⟩ | ⟨hopen, hr, result, hout⟩
  · rw [hr, hout, hd]
  · rw [hr, hout, replyIds_append, hd, hopen]
    simp [Worker.upTo]

/-- The command in hand is the last one taken, and stdout is right up to it. -/
structure InHand (taken : List Members) (out : List Reply) (phase : Phase) (call : Call) :
    Prop where
  last : ∃ earlier, taken = earlier ++ [call.msg] ∧
    replyIds out = upTo earlier call.msg call.responded
  settling : phase = .settling → call.responded = true
  returned : call.task = .returned → call.responded = true

def Standing (py : Python) (input : Text) (taken : List Members) (out : List Reply) : Main → Prop
  | .idle => replyIds out = taken.map idOf
  | .busy phase call => InHand taken out phase call
  | .ended how => replyIds out = taken.map idOf ∧
      (how = .shutdown ∧ taken.getLast?.any isShutdown = true ∨
        how = .eof ∧ taken = commands py input)

/-- The commands wait in the queue, with the sentinel behind them once the input is read. -/
def Queued (s : Service) : Prop :=
  s.reading = true ∧ s.main ≠ .ended .eof ∧ (∃ msgs : List Members, s.queue = msgs.map some) ∨
    s.reading = false ∧ s.stdin = [] ∧ (s.main = .ended .eof ∧ s.queue = [] ∨
      s.main ≠ .ended .eof ∧ ∃ msgs : List Members, s.queue = msgs.map some ++ [none])

structure Inv (py : Python) (input : Text) (s : Service) : Prop where
  kept : s.stdout.kept = []
  lines : commands py input = s.taken ++ s.queue.reduceOption ++ commands py s.stdin
  queued : Queued s
  standing : Standing py input s.taken s.stdout.out s.main

theorem inv_start (py : Python) (input : Text) : Inv py input (start input) where
  kept := rfl
  lines := rfl
  queued := .inl ⟨rfl, nofun, [], rfl⟩
  standing := rfl

theorem Standing.conclude {taken : List Members} {out : List Reply} {msg : Members}
    (hlast : taken.getLast? = some msg) (hids : replyIds out = taken.map idOf) :
    Standing py input taken out (conclude msg) := by
  unfold Worker.conclude
  split
  next h => exact ⟨hids, .inl ⟨rfl, by rw [hlast]; exact h⟩⟩
  · exact hids

theorem standing_of_ids {taken : List Members} {out out' : List Reply} {main : Main}
    (h : Standing py input taken out main) (hids : replyIds out' = replyIds out) :
    Standing py input taken out' main := by
  cases main with
  | idle => exact hids.trans h
  | busy phase call =>
    obtain ⟨⟨earlier, htaken, hout⟩, hsettling, hreturned⟩ := h
    exact ⟨⟨earlier, htaken, hids.trans hout⟩, hsettling, hreturned⟩
  | ended how => exact ⟨hids.trans h.1, h.2⟩

/-- What the reader does to queue and stdout, given what it read. -/
theorem inv_read (hi : Inv py input s) {writes : List Wrote} (hreading : s.reading = true)
    (hsound : Sound py s (.read writes)) : Inv py input (stepRead py writes s) := by
  obtain ⟨hwhole, hlegible, haccepted⟩ := hsound
  obtain ⟨hkept, hlines, hqueued, hstanding⟩ := hi
  obtain ⟨-, hmain, msgs, hqueue⟩ := hqueued.resolve_right fun h => by rw [h.1] at hreading; cases hreading
  by_cases hstdin : s.stdin = []
  · -- the end of stdin: the sentinel is put behind the commands
    have hstep : stepRead py writes s = stopReading s := by
      obtain ⟨stdin, reading, queue, taken, stdout, main, triggered⟩ := s
      cases hstdin
      rfl
    rw [hstep]
    refine ⟨hkept, ?_, .inr ⟨rfl, hstdin, .inr ⟨hmain, msgs, ?_⟩⟩, hstanding⟩
    · rw [hlines]
      simp [stopReading, List.reduceOption_append]
    · rw [← hqueue]
      rfl
  · have hread := readLine_eq py hstdin
    have hcommands := commands_of_ne_nil py hstdin
    rcases readRaw_of_legible (hlegible hstdin) with ⟨msg, hmsg, hraw⟩ | ⟨hnone, hraw⟩
    · have hstep : stepRead py writes s =
          { s with stdin := (cutLine s.stdin).2, queue := s.queue ++ [some msg] } := by
        unfold stepRead
        rw [hread, hraw]
      rw [hstep]
      refine ⟨hkept, ?_, .inl ⟨hreading, hmain, msgs ++ [msg], ?_⟩, hstanding⟩
      · rw [hlines, hcommands, hmsg]
        simp [List.reduceOption_append]
      · rw [hqueue, List.map_append]
        rfl
    · rw [hnone] at hcommands
      rcases hraw with hraw | ⟨id, hraw⟩ | ⟨cancelId, hraw⟩
      · have hstep : stepRead py writes s = { s with stdin := (cutLine s.stdin).2 } := by
          unfold stepRead
          rw [hread, hraw]
        rw [hstep]
        exact ⟨hkept, hlines.trans (by rw [hcommands]; rfl), .inl ⟨hreading, hmain, msgs, hqueue⟩,
          hstanding⟩
      · have hclean : Clean ⟨s.stdout, false, writes⟩ := ⟨hkept, hwhole⟩
        rcases emitResponse_cases ⟨.int id, errorResult .oversized, false⟩ hclean with
          ⟨-, heq⟩ | ⟨why, hrefused, -⟩
        · have hstep : stepRead py writes s = { s with
              stdin := (cutLine s.stdin).2,
              stdout := ⟨s.stdout.out ++ [⟨.int id, errorResult .oversized, false⟩], []⟩ } := by
            unfold stepRead
            rw [hread, hraw]
            dsimp only
            rw [heq]
          rw [hstep]
          refine ⟨rfl, hlines.trans (by rw [hcommands]; rfl), .inl ⟨hreading, hmain, msgs, hqueue⟩, ?_⟩
          exact standing_of_ids hstanding (by simp)
        · exact absurd (haccepted id hraw) hrefused
      · have hstep : stepRead py writes s = { s with
            stdin := (cutLine s.stdin).2, triggered := s.triggered ++ [cancelId] } := by
          unfold stepRead
          rw [hread, hraw]
        rw [hstep]
        exact ⟨hkept, hlines.trans (by rw [hcommands]; rfl), .inl ⟨hreading, hmain, msgs, hqueue⟩,
          hstanding⟩

theorem conclude_ne_eof (msg : Members) : conclude msg ≠ .ended .eof := by
  unfold conclude
  split <;> nofun

/-- The main loop moves on without the queue. -/
theorem Inv.moves (hi : Inv py input s) (hmain : s.main ≠ .ended .eof) {stdout : Stdout}
    {main : Main} (hkept : stdout.kept = []) (hne : main ≠ .ended .eof)
    (hstanding : Standing py input s.taken stdout.out main) :
    Inv py input { s with stdout, main } := by
  refine ⟨hkept, hi.lines, ?_, hstanding⟩
  rcases hi.queued with ⟨hreading, -, hqueue⟩ | ⟨hreading, hstdin, ⟨heof, -⟩ | ⟨-, hqueue⟩⟩
  · exact .inl ⟨hreading, hne, hqueue⟩
  · exact absurd heof hmain
  · exact .inr ⟨hreading, hstdin, .inr ⟨hne, hqueue⟩⟩

/-- A part of `_dispatch_guarded` that returns leaves the command answered. -/
theorem goOn_cases (hi : Inv py input s) {phase : Phase} {call : Call}
    (hbusy : s.main = .busy phase call) {writes : List Wrote} (hwhole : Whole writes)
    {x : Emit Unit} (hkeeps : Keeps (idOf call.msg) x)
    (hok : (x ⟨s.stdout, call.responded, writes⟩).1 = .ok ())
    (hresponded : (x ⟨s.stdout, call.responded, writes⟩).2.responded = true)
    (next : Call → Main) :
    ∃ stdout : Stdout, stdout.kept = [] ∧ replyIds stdout.out = s.taken.map idOf ∧
      s.taken.getLast? = some call.msg ∧
      goOn x writes call next s = { s with stdout, main := next { call with responded := true } } := by
  have hstanding := hi.standing
  rw [hbusy] at hstanding
  obtain ⟨⟨earlier, htaken, hout⟩, -, -⟩ := hstanding
  have hemits := hkeeps ⟨s.stdout, call.responded, writes⟩ ⟨hi.kept, hwhole⟩
  have hids := hemits.upTo hout
  unfold goOn
  rcases heq : x ⟨s.stdout, call.responded, writes⟩ with ⟨e | _, d⟩
  · rw [heq] at hok
    cases hok
  · rw [heq] at hresponded hemits hids
    dsimp only at hresponded hids ⊢
    rw [hresponded, upTo_true, ← htaken] at hids
    exact ⟨d.stdout, hemits.clean.kept, hids, by rw [htaken, List.getLast?_concat], by
      rw [hresponded]⟩

theorem inv_take (hi : Inv py input s) {writes : List Wrote} {msg : Members}
    {queue : List (Option Members)} (hidle : s.main = .idle) (hqueue : s.queue = some msg :: queue)
    (hsound : Sound py s (.take writes)) :
    Inv py input (stepTake py writes msg { s with queue }) := by
  obtain ⟨hwhole, hentry⟩ := hsound
  have hentry := hentry msg (by rw [hqueue]; rfl)
  have hids : replyIds s.stdout.out = s.taken.map idOf := by
    have hstanding := hi.standing
    rw [hidle] at hstanding
    exact hstanding
  -- the command moves from the queue to the taken ones
  have htaken : Inv py input { s with
      queue, taken := s.taken ++ [msg], main := .busy .waiting ⟨msg, [], none, false, .running⟩ } := by
    refine ⟨hi.kept, ?_, ?_, ⟨s.taken, rfl, ?_⟩, nofun, nofun⟩
    · rw [hi.lines, hqueue, List.reduceOption_cons_of_some]
      simp
    · rcases hi.queued with ⟨hreading, -, msgs, hmsgs⟩ | ⟨hreading, hstdin, ⟨heof, -⟩ | ⟨-, msgs, hmsgs⟩⟩
      · refine .inl ⟨hreading, nofun, msgs.tail, ?_⟩
        cases msgs with
        | nil => rw [hqueue] at hmsgs; cases hmsgs
        | cons m msgs => rw [hqueue] at hmsgs; exact (List.cons.inj hmsgs).2
      · rw [hidle] at heof
        cases heof
      · refine .inr ⟨hreading, hstdin, .inr ⟨nofun, msgs.tail, ?_⟩⟩
        cases msgs with
        | nil => rw [hqueue] at hmsgs; cases hmsgs
        | cons m msgs => rw [hqueue] at hmsgs; exact (List.cons.inj hmsgs).2
    · rw [hids]
      simp [upTo]
  unfold stepTake
  dsimp only
  cases hkind : entry msg with
  | malformed message =>
    rw [hkind] at hentry
    have hclean : Clean ⟨s.stdout, false, writes⟩ := ⟨hi.kept, hwhole⟩
    rcases emitResponse_cases ⟨idOf msg, errorResult message, true⟩ hclean with
      ⟨-, heq⟩ | ⟨why, hrefused, -⟩
    · dsimp only
      rw [heq]
      refine htaken.moves nofun rfl (conclude_ne_eof msg) ?_
      refine Standing.conclude List.getLast?_concat ?_
      simp [hids]
    · exact absurd hentry hrefused
  | ready method params =>
    rw [hkind] at hentry
    dsimp only at hentry ⊢
    cases hseconds : commandTimeout py params with
    | error e => rw [hseconds] at hentry; cases hentry
    | ok seconds =>
      refine htaken.moves nofun hi.kept nofun ⟨⟨s.taken, rfl, ?_⟩, nofun, nofun⟩
      rw [hids]
      simp [upTo]

theorem inv_finish (hi : Inv py input s) {ending : Ending} {writes : List Wrote} {phase : Phase}
    {call : Call} (hbusy : s.main = .busy phase call)
    (hsound : Sound py s (.finish ending writes)) :
    Inv py input (stepFinish ending writes phase call s) := by
  obtain ⟨hwhole, hexits⟩ := hsound
  have hstanding := hi.standing
  rw [hbusy] at hstanding
  obtain ⟨⟨earlier, htaken, hout⟩, hsettling, -⟩ := hstanding
  have hclean : Clean ⟨s.stdout, call.responded, writes⟩ := ⟨hi.kept, hwhole⟩
  have hemits := dispatch_keeps (idOf call.msg) call.method ending _ hclean
  have hids := hemits.upTo hout
  have hresponds := dispatch_responds (idOf call.msg) call.method ending
    ⟨s.stdout, call.responded, writes⟩
  have hspares := dispatch_spares (idOf call.msg) call.method hexits
    ⟨s.stdout, call.responded, writes⟩
  unfold stepFinish
  rcases heq : dispatch (idOf call.msg) call.method ending ⟨s.stdout, call.responded, writes⟩ with
    ⟨result, d⟩
  rw [heq] at hemits hids hresponds hspares
  dsimp only at hids hresponds hspares ⊢
  -- an open guard can only be closed
  have hstays : call.responded = true → d.responded = true := by
    intro h
    rcases hemits.wrote with ⟨hr, -⟩ | ⟨-, hr, -⟩
    · exact hr.trans h
    · exact hr
  have hmoves : ∀ task : Task, (task = .returned → d.responded = true) →
      Inv py input { s with
        stdout := d.stdout, main := .busy phase { call with responded := d.responded, task } } := by
    intro task hreturned
    refine hi.moves (by rw [hbusy]; nofun) hemits.clean.kept nofun
      ⟨⟨earlier, htaken, hids⟩, fun h => hstays (hsettling h), hreturned⟩
  cases result with
  | ok u => exact hmoves .returned fun _ => hresponds rfl
  | error exc =>
    cases exc with
    | exit => exact absurd (hspares _ rfl) (by decide)
    | cancelled => exact hmoves .cancelled nofun
    | stepCancelled | workerError | exception | base | mute => exact hmoves (.failed _) nofun

/-- The sentinel comes behind every command of the input. -/
theorem inv_eof (hi : Inv py input s) {queue : List (Option Members)} (hidle : s.main = .idle)
    (hqueue : s.queue = none :: queue) : Inv py input { s with queue, main := .ended .eof } := by
  have hids : replyIds s.stdout.out = s.taken.map idOf := by
    have hstanding := hi.standing
    rw [hidle] at hstanding
    exact hstanding
  rcases hi.queued with ⟨-, -, msgs, hmsgs⟩ | ⟨hreading, hstdin, ⟨heof, -⟩ | ⟨-, msgs, hmsgs⟩⟩
  · rw [hqueue] at hmsgs
    cases msgs <;> cases hmsgs
  · rw [hidle] at heof
    cases heof
  · have hnil : queue = [] := by
      rw [hqueue] at hmsgs
      cases msgs with
      | nil => exact (List.cons.inj hmsgs).2
      | cons m msgs => cases hmsgs
    have hlines := hi.lines
    rw [hqueue, hnil, hstdin] at hlines
    refine ⟨hi.kept, ?_, .inr ⟨hreading, hstdin, .inl ⟨rfl, hnil⟩⟩, hids, .inr ⟨rfl, ?_⟩⟩
    · rw [hlines, hnil, hstdin]
      rfl
    · rw [hlines, List.reduceOption_cons_of_none, List.reduceOption_nil]
      exact ((List.append_nil _).trans (List.append_nil _)).symm

/-- The part of `_dispatch_guarded` returns, and with it the whole. -/
theorem inv_conclude (hi : Inv py input s) {phase : Phase} {call : Call}
    (hbusy : s.main = .busy phase call) {writes : List Wrote} (hwhole : Whole writes)
    {x : Emit Unit} (hkeeps : Keeps (idOf call.msg) x)
    (hok : (x ⟨s.stdout, call.responded, writes⟩).1 = .ok () ∧
      (x ⟨s.stdout, call.responded, writes⟩).2.responded = true) :
    Inv py input (goOn x writes call (fun _ => conclude call.msg) s) := by
  obtain ⟨stdout, hkept, hids, hlast, heq⟩ := goOn_cases hi hbusy hwhole hkeeps hok.1 hok.2
    fun _ => conclude call.msg
  rw [heq]
  exact hi.moves (by rw [hbusy]; nofun) hkept (conclude_ne_eof _) (.conclude hlast hids)

theorem inv_resume (hi : Inv py input s) {writes : List Wrote} {call : Call}
    (hbusy : s.main = .busy .waiting call) (hdone : call.task.isRunning = false)
    (hsound : Sound py s (.resume writes)) :
    Inv py input (goOn (collect (idOf call.msg) call.method call.task) writes call
      (fun _ => conclude call.msg) s) := by
  obtain ⟨hwhole, htask⟩ := hsound
  have htask := htask call hbusy
  have hstanding := hi.standing
  rw [hbusy] at hstanding
  refine inv_conclude hi hbusy hwhole (collect_keeps _ _) ?_
  cases hkind : call.task with
  | running =>
    rw [hkind] at hdone
    cases hdone
  | returned => exact ⟨rfl, hstanding.returned hkind⟩
  | cancelled =>
    rw [hkind] at htask
    exact htask.elim
  | failed exc =>
    rw [hkind] at htask
    cases hstr : exc.str with
    | error inner =>
      have hprints := htask.1
      rw [hstr] at hprints
      cases hprints
    | ok text => exact collect_failed ⟨hi.kept, hwhole⟩ hstr htask.2

theorem inv_interrupted (hi : Inv py input s) {how : Option Exc} {writes : List Wrote} {call : Call}
    (hbusy : s.main = .busy .interrupting call) (hsound : Sound py s (.interrupted how writes)) :
    Inv py input (goOn (replyTimeout (idOf call.msg) call.method call.seconds how) writes call
      (.busy .settling) s) := by
  obtain ⟨hwhole, hhow, hwrite⟩ := hsound
  have hnone : how.filter (!·.isException) = none := by
    cases how with
    | none => rfl
    | some exc => simp [hhow exc rfl]
  have hreply : replyTimeout (idOf call.msg) call.method call.seconds how =
      emitOnce (idOf call.msg) (errorResult (.timedOut call.method call.seconds)) := by
    unfold replyTimeout
    rw [hnone]
  have hok := emitOnce_ok (idOf call.msg) (errorResult (.timedOut call.method call.seconds))
    (⟨hi.kept, hwhole⟩ : Clean ⟨s.stdout, call.responded, writes⟩) (hwrite _ call hbusy)
  rw [hreply]
  obtain ⟨stdout, hkept, hids, hlast, heq⟩ := goOn_cases hi hbusy hwhole (emitOnce_keeps _) hok
    (emitOnce_responds _ _ _ hok) (.busy .settling)
  obtain ⟨earlier, htaken⟩ := List.getLast?_eq_some_iff.mp hlast
  rw [heq]
  refine hi.moves (by rw [hbusy]; nofun) hkept nofun ⟨⟨earlier, htaken, ?_⟩, fun _ => rfl, fun _ => rfl⟩
  rw [hids, htaken]
  exact (upTo_true earlier call.msg).symm

theorem inv_settled (hi : Inv py input s) {call : Call} (hbusy : s.main = .busy .settling call)
    (hsound : Sound py s .settled) :
    Inv py input (goOn (converge call.task) [] call (fun _ => conclude call.msg) s) := by
  have hstanding := hi.standing
  rw [hbusy] at hstanding
  have hreturns : converge call.task = pure () := by
    cases hkind : call.task with
    | running | returned | cancelled => rfl
    | failed exc => exact if_pos (hsound _ call exc hbusy hkind)
  rw [hreturns]
  exact inv_conclude hi hbusy (List.forall_mem_nil _) (.pure ()) ⟨rfl, hstanding.settling rfl⟩

/-- What one step keeps. -/
theorem inv_step (hi : Inv py input s) {e : Event} (h : serviceStep py s e = some t)
    (hsound : Sound py s e) : Inv py input t := by
  unfold serviceStep at h
  cases e with
  | read writes =>
    dsimp only at h
    split at h
    next hreading =>
      cases h
      exact inv_read hi hreading hsound
    · cases h
  | take writes =>
    dsimp only at h
    split at h
    next queue hmain hqueue =>
      cases h
      exact inv_eof hi hmain hqueue
    next msg queue hmain hqueue =>
      cases h
      exact inv_take hi hmain hqueue hsound
    · cases h
  | finish ending writes =>
    dsimp only at h
    split at h
    next phase call hmain =>
      split at h
      · cases h
        exact inv_finish hi hmain hsound
      · cases h
    · cases h
    · cases h
  | resume writes =>
    dsimp only at h
    split at h
    next call hmain =>
      split at h
      next hrunning =>
        split at h
        · cases h
          -- the timeout has passed; nothing is written yet
          have hstanding := hi.standing
          rw [hmain] at hstanding
          exact hi.moves (by rw [hmain]; nofun) hi.kept nofun
            ⟨hstanding.last, nofun, hstanding.returned⟩
        · cases h
      next hdone =>
        cases h
        exact inv_resume hi hmain (Bool.eq_false_iff.mpr hdone) hsound
    · cases h
  | interrupted how writes =>
    dsimp only at h
    split at h
    next call hmain =>
      cases h
      exact inv_interrupted hi hmain hsound
    · cases h
  | settled =>
    dsimp only at h
    split at h
    next call hmain =>
      split at h
      · cases h
      · cases h
        exact inv_settled hi hmain hsound
    · cases h

/-! ## Results -/

theorem service_step {e : Event} {os : List Empty} (h : (service py).step s e = some (t, os)) :
    serviceStep py s e = some t := by
  obtain ⟨t', ht', heq⟩ := Option.map_eq_some_iff.mp h
  cases heq
  exact ht'

theorem inv_steps {es : List Event} {os : List Empty}
    (hrun : (service py).Steps (start input) es os s)
    (hsound : (service py).Along (Sound py) (start input) es) : Inv py input s :=
  hrun.invariant (fun hi hs hstep => inv_step hi (service_step hstep) hs) hsound
    (inv_start py input)

/-- A handler that hangs is answered by the timeout. -/
theorem hanging_answered (hi : Inv py input s) {call : Call} (hbusy : s.main = .busy .waiting call)
    (hrunning : call.task.isRunning = true) (hseconds : call.seconds.isSome = true) :
    ∃ t, (service py).Steps s [.resume [], .interrupted none []] [] t ∧
      t.replies = t.taken.map idOf := by
  have hresume : serviceStep py s (.resume []) = some { s with main := .busy .interrupting call } := by
    unfold serviceStep
    dsimp only
    rw [hbusy]
    dsimp only
    rw [if_pos hrunning, if_pos hseconds]
  have hi' : Inv py input { s with main := .busy .interrupting call } := by
    refine inv_step hi hresume ⟨List.forall_mem_nil _, fun call' hmain => ?_⟩
    rw [hbusy] at hmain
    cases hmain
    cases hkind : call.task with
    | running => trivial
    | returned | failed | cancelled =>
      rw [hkind] at hrunning
      cases hrunning
  have hwrite : call.responded = true ∨ Accepted [] := .inr rfl
  have hok := emitOnce_ok (idOf call.msg) (errorResult (.timedOut call.method call.seconds))
    (⟨hi.kept, List.forall_mem_nil _⟩ : Clean ⟨s.stdout, call.responded, []⟩) hwrite
  obtain ⟨stdout, -, hids, -, heq⟩ := goOn_cases (x := replyTimeout (idOf call.msg) call.method
    call.seconds none) hi' rfl (List.forall_mem_nil _) (emitOnce_keeps _) hok
    (emitOnce_responds _ _ _ hok) (.busy .settling)
  have hfirst : (service py).step s (.resume []) =
      some ({ s with main := .busy .interrupting call }, []) :=
    congrArg (Option.map (·, [])) hresume
  have hsecond : (service py).step { s with main := .busy .interrupting call }
      (.interrupted none []) = some ({ s with
        stdout, main := .busy .settling { call with responded := true } }, []) :=
    congrArg (fun t => some (t, [])) heq
  exact ⟨_, .cons hfirst (.cons hsecond (.nil _)), hids⟩

/-- Where no step meets a defect, each command has one response, in the order of the commands, and
    nothing but a shutdown or the end of the input ends the loop. -/
theorem each_command_answered (py : Python) {input : Text} {es : List Event} {os : List Empty}
    {s : Service} (hrun : (service py).Steps (start input) es os s)
    (hsound : (service py).Along (Sound py) (start input) es) : Answers py input s := by
  have hi := inv_steps hrun hsound
  have hstanding := hi.standing
  refine ⟨⟨s.queue.reduceOption ++ commands py s.stdin, by rw [hi.lines, List.append_assoc]⟩, ?_, ?_,
    fun call hbusy hrunning hseconds => hanging_answered hi hbusy hrunning hseconds⟩
  · cases hmain : s.main with
    | idle =>
      rw [hmain] at hstanding
      exact .inl hstanding
    | ended how =>
      rw [hmain] at hstanding
      exact .inl hstanding.1
    | busy phase call =>
      rw [hmain] at hstanding
      obtain ⟨⟨earlier, htaken, hout⟩, -, -⟩ := hstanding
      cases hresponded : call.responded with
      | true =>
        refine .inl (hout.trans ?_)
        rw [hresponded, upTo_true, htaken]
      | false =>
        refine .inr ⟨rfl, hout.trans ?_⟩
        rw [hresponded, htaken, List.dropLast_concat]
        exact List.append_nil _
  · intro e hmain
    rw [hmain] at hstanding
    exact hstanding.2

end

/-! ## A command whose handler hangs, and one that cancels itself -/

def sampleLine : Text := "\x7b\"id\": 1, \"method\": \"page_capture\"\x7d".toList

def sampleMsg : Members :=
  [("id".toList, .int 1), ("method".toList, .str "page_capture".toList)]

def samplePython : Python where
  loads text := if text = sampleLine then .value (.dict sampleMsg) else .notJson
  decimal c := if c.isDigit then some (c.toNat - '0'.toNat) else none

theorem sampleLine_loads : samplePython.loads sampleLine = .value (.dict sampleMsg) :=
  show (if sampleLine = sampleLine then Loaded.value (.dict sampleMsg) else .notJson) = _ from
    if_pos rfl

theorem sampleLine_strip : pyStrip (sampleLine ++ ['\n']) = sampleLine := by decide +kernel

theorem sampleLine_read : readRaw samplePython (sampleLine ++ ['\n']) = .command sampleMsg := by
  have hsize : ¬maxStdinLineBytes < (bytes (sampleLine ++ ['\n'])).length := by decide +kernel
  have hne : sampleLine ≠ [] := by decide +kernel
  rw [readRaw, if_neg hsize, sampleLine_strip, if_neg hne, sampleLine_loads]
  rfl

theorem commandTimeout_default (py : Python) : ∃ q, commandTimeout py [] = .ok (some q) := by
  have hlow : ¬floatLimit * 1000 ≤ 10000 := by decide +kernel
  have hms : toMs py [] "timeout" 10000 = .ok 10000 := rfl
  show ∃ q, browserSeconds py [] = .ok (some q)
  unfold browserSeconds
  rw [hms]
  simp only [bind, Except.bind, pure, Except.pure, if_neg hlow]
  exact ⟨_, rfl⟩

def sampleQueued : Service :=
  { start (sampleLine ++ ['\n']) with stdin := [], queue := [some sampleMsg] }

def sampleTaken (out : List Reply) (main : Main) : Service :=
  { sampleQueued with queue := [], taken := [sampleMsg], stdout := ⟨out, []⟩, main }

theorem sample_reads :
    (service samplePython).step (start (sampleLine ++ ['\n'])) (.read []) =
      some (sampleQueued, []) ∧
    Sound samplePython (start (sampleLine ++ ['\n'])) (.read []) := by
  have hopen : '\n' ∉ sampleLine := by decide +kernel
  have hcut : cutLine (sampleLine ++ ['\n']) = (sampleLine ++ ['\n'], []) := cutLine_line hopen []
  have hread := readLine_eq samplePython (List.concat_ne_nil '\n' sampleLine)
  rw [hcut, sampleLine_read] at hread
  constructor
  · show some (stepRead samplePython [] (start (sampleLine ++ ['\n'])), []) = _
    unfold stepRead
    rw [show (start (sampleLine ++ ['\n'])).stdin = sampleLine ++ ['\n'] from rfl, hread]
    rfl
  · refine ⟨List.forall_mem_nil _, fun _ => ?_, fun _ _ => rfl⟩
    show Legible samplePython (cutLine (sampleLine ++ ['\n'])).1
    rw [hcut]
    refine ⟨by rw [sampleLine_read]; nofun, fun msg hmsg => ?_⟩
    have hfits : (decide (maxStdinLineBytes < (bytes (sampleLine ++ ['\n'])).length) ||
        decide (sampleLine = [])) = false := by decide +kernel
    rw [commandOf, sampleLine_strip, hfits, if_neg Bool.false_ne_true, sampleLine_loads] at hmsg
    cases hmsg
    decide +kernel

theorem sample_takes {q : ℚ} (hq : commandTimeout samplePython [] = .ok (some q)) :
    (service samplePython).step sampleQueued (.take []) = some (sampleTaken []
      (.busy .waiting ⟨sampleMsg, "page_capture".toList, some q, false, .running⟩), []) ∧
    Sound samplePython sampleQueued (.take []) := by
  have hentry : entry sampleMsg = .ready "page_capture".toList [] := rfl
  constructor
  · show some (stepTake samplePython [] sampleMsg { sampleQueued with queue := [] }, []) = _
    unfold stepTake
    rw [hentry]
    dsimp only
    rw [hq]
    rfl
  · refine ⟨List.forall_mem_nil _, fun msg hmsg => ?_⟩
    cases hmsg
    rw [hentry]
    dsimp only
    rw [hq]
    rfl

/-- A handler that hangs past its timeout. -/
theorem each_command_answered_hanging : ∃ s os,
    (service samplePython).Steps (start (sampleLine ++ ['\n']))
      [.read [], .take [], .resume [], .interrupted none [], .finish (.raised .cancelled) [],
        .settled] os s ∧
      Answers samplePython (sampleLine ++ ['\n']) s := by
  obtain ⟨q, hq⟩ := commandTimeout_default samplePython
  let reply : Reply := ⟨.int 1, errorResult (.timedOut "page_capture".toList (some q)), true⟩
  let call (responded : Bool) (task : Task) : Call :=
    ⟨sampleMsg, "page_capture".toList, some q, responded, task⟩
  have hresumes : (service samplePython).step (sampleTaken [] (.busy .waiting (call false .running)))
      (.resume []) = some (sampleTaken [] (.busy .interrupting (call false .running)), []) := rfl
  have hreplies : (service samplePython).step
      (sampleTaken [] (.busy .interrupting (call false .running))) (.interrupted none []) =
      some (sampleTaken [reply] (.busy .settling (call true .running)), []) := rfl
  have hfinishes : (service samplePython).step
      (sampleTaken [reply] (.busy .settling (call true .running)))
      (.finish (.raised .cancelled) []) =
      some (sampleTaken [reply] (.busy .settling (call true .cancelled)), []) := rfl
  have hsettles : (service samplePython).step
      (sampleTaken [reply] (.busy .settling (call true .cancelled))) .settled =
      some (sampleTaken [reply] .idle, []) := rfl
  have hrun := Machine.Steps.cons sample_reads.1 (.cons (sample_takes hq).1 (.cons hresumes
    (.cons hreplies (.cons hfinishes (.cons hsettles (.nil _))))))
  refine ⟨_, _, hrun, each_command_answered samplePython hrun ?_⟩
  refine (Machine.along_cons sample_reads.1).mpr ⟨sample_reads.2, ?_⟩
  refine (Machine.along_cons (sample_takes hq).1).mpr ⟨(sample_takes hq).2, ?_⟩
  refine (Machine.along_cons hresumes).mpr ⟨⟨List.forall_mem_nil _, ?_⟩, ?_⟩
  · intro _ hmain
    cases hmain
    trivial
  refine (Machine.along_cons hreplies).mpr ⟨⟨List.forall_mem_nil _, nofun, fun _ _ _ => .inr rfl⟩, ?_⟩
  refine (Machine.along_cons hfinishes).mpr ⟨⟨List.forall_mem_nil _, rfl⟩, ?_⟩
  refine (Machine.along_cons hsettles).mpr ⟨?_, trivial⟩
  intro _ _ exc hmain htask
  cases hmain
  cases htask
def endsCrashed (s : Service) : Bool :=
  match s.main with
  | .ended .crashed => s.stdout.out.isEmpty
  | _ => false

theorem endsCrashed_iff (s : Service) :
    endsCrashed s = true ↔ s.main = .ended .crashed ∧ s.stdout.out = [] := by
  unfold endsCrashed
  split
  next h => rw [h, List.isEmpty_iff]; exact ⟨fun hout => ⟨rfl, hout⟩, fun hout => hout.2⟩
  next h => exact ⟨nofun, fun hout => absurd hout.1 h⟩

/-- A handler that raises `CancelledError` takes the loop with it, and its command has no
    response. -/
theorem own_cancellation_ends_loop :
    ∃ s os, (service samplePython).Steps (start (sampleLine ++ ['\n']))
      [.read [], .take [], .finish (.raised .cancelled) [], .resume []] os s ∧
      s.main = .ended .crashed ∧ s.stdout.out = [] ∧
      ¬Answers samplePython (sampleLine ++ ['\n']) s := by
  have hexec : ((service samplePython).exec (start (sampleLine ++ ['\n']))
      [.read [], .take [], .finish (.raised .cancelled) [], .resume []]).any
        (fun r => endsCrashed r.1) = true := by decide +kernel
  obtain ⟨s, os, hrun, hcrashed⟩ := Machine.steps_of_any hexec
  obtain ⟨hmain, hout⟩ := (endsCrashed_iff s).mp hcrashed
  refine ⟨s, os, hrun, hmain, hout, fun h => ?_⟩
  rcases h.shutdown .crashed hmain with ⟨hne, -⟩ | ⟨hne, -⟩
  · cases hne
  · cases hne

end CampusAuth.Worker
