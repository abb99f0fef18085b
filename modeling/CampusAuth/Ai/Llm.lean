import CampusAuth.Lib.Json
import CampusAuth.Lib.LineStream
import CampusAuth.Lib.Slices

/- The client of a language model (`ai/llm.rs`): the stream of an answer, and the attempts at it.

   `select!` of the source gives what `Pulled` lists; where the list ends, the service has closed
   the stream. `serde_json::from_str` is the parameter `parse`. The branch without a callback asks
   once for the whole body and passes nothing on; it is left out. -/
namespace CampusAuth.Ai
open Lib

def chatMaxRetries : Nat := 2

def maxResponseBytes : Nat := 2 * 1024 * 1024

def maxSseBufferBytes : Nat := 1024 * 1024

/-- The errors of the chat client. -/
inductive AiError
  | cancelled
  | requestTimeout (seconds : Nat)
  | connectFailed (url : String)
  | requestFailed
  | llmServiceError (status : Nat) (snippet : String)
  | streamInterrupted
  | idleTimeout (seconds : Nat)
  | totalBudgetExceeded
  | responseTooLarge
  | invalidStreamUtf8
  | truncated
  | emptyStream
  deriving DecidableEq, Repr

def AiError.isRetryable : AiError → Bool
  | .requestTimeout _ | .connectFailed _ | .streamInterrupted | .idleTimeout _ | .emptyStream =>
    true
  | .llmServiceError status _ => status == 429 || (500 ≤ status && status < 600)
  | _ => false

/-! ## One line -/

/-- The text of the answer so far, and what was passed to the callback. -/
structure Sse where
  full : Text := []
  reason : Option Text := none
  deltas : List Text := []
  emitted : Bool := false
  deriving DecidableEq, Repr

/-- What a line says. -/
inductive SseLine
  | skip
  | done
  | data (reason : Option Text) (content : Text)
  deriving DecidableEq, Repr

def stripPrefix (start s : Text) : Option Text :=
  if start.isPrefixOf s then some (s.drop start.length) else none

/-- A step of a JSON pointer. -/
def child (token : String) : Json → Option Json
  | .obj members => members.lookup token
  | .arr items => if token = "0" then items.head? else none
  | _ => none

/-- `Value::pointer`, for the tokens that occur here. -/
def pointer (tokens : List String) (value : Json) : Option Json :=
  tokens.foldlM (fun value token => child token value) value

def asText (value : Option Json) : Option Text := (value.bind Json.asStr).map String.toList

def contentOf (value : Json) : Text :=
  (asText ((pointer ["choices", "0", "delta", "content"] value).orElse fun _ =>
    pointer ["choices", "0", "message", "content"] value)).getD []

variable (parse : Text → Option Json)

def readData (data : Text) : Except AiError SseLine :=
  if data = "[DONE]".toList then .ok .done
  else
    match parse data with
    | none => .ok .skip
    | some value =>
      let reason := asText (pointer ["choices", "0", "finish_reason"] value)
      if reason = some "length".toList then .error .truncated
      else .ok (.data reason (contentOf value))

def lineText (line : List UInt8) : Option Text :=
  (String.fromUTF8? line.toByteArray).map String.toList

/-- What `consume_sse_line` reads from a line. -/
def readSseLine (line : List UInt8) : Except AiError SseLine :=
  match lineText line with
  | none => .error .invalidStreamUtf8
  | some text =>
    let text := strip text
    if text = [] ∨ text.head? = some ':' then .ok .skip
    else
      match stripPrefix "data:".toList text with
      | none => .ok .skip
      | some data => readData parse (strip data)

def Sse.note (s : Sse) : Option Text → Sse
  | some reason =>
    if reason ≠ [] ∧ reason ≠ "null".toList then { s with reason := some reason } else s
  | none => s

def Sse.push (s : Sse) (content : Text) : Sse :=
  if content = [] then s else { s with full := s.full ++ content, deltas := s.deltas ++ [content] }

/-- The line is `[DONE]`, or not. -/
def consumeSseLine (line : List UInt8) (s : Sse) : Except AiError (Bool × Sse) :=
  match readSseLine parse line with
  | .error e => .error e
  | .ok .skip => .ok (false, s)
  | .ok .done => .ok (true, s)
  | .ok (.data reason content) => .ok (false, (s.note reason).push content)

/-! ## A stream -/

def Sse.mark (s : Sse) : Sse := { s with emitted := !s.full.isEmpty }

/-- A line that has ended. -/
def sseStep (s : Sse) (line : List UInt8) : LineResult Sse AiError :=
  match consumeSseLine parse line s with
  | .error e => .fail e s
  | .ok (done, s) =>
    let s := s.mark
    if maxResponseBytes < (bytes s.full).length then .fail .responseTooLarge s
    else if done then .stop s else .next s

def drainBuffer (buf : List UInt8) (s : Sse) : Drained UInt8 Sse AiError := drain (sseStep parse) 10 buf s

/-- What ends the pulling of chunks with an error. -/
inductive Interruption
  | cancelled
  | interrupted
  | idle
  | total
  deriving DecidableEq, Repr

def Interruption.error : Interruption → AiError
  | .cancelled => .cancelled
  | .interrupted => .streamInterrupted
  | .idle => .idleTimeout 600
  | .total => .totalBudgetExceeded

inductive Pulled
  | chunk (bytes : List UInt8)
  | stop (why : Interruption)
  deriving DecidableEq, Repr

/-- The result, and what was passed to the callback. An error tells whether that was anything. -/
abbrev Outcome := Except (AiError × Bool) Text × List Text

def failed (e : AiError) (s : Sse) : Outcome := (.error (e, s.emitted), s.deltas)

def isAsciiWhitespace (b : UInt8) : Bool := b == 9 || b == 10 || b == 12 || b == 13 || b == 32

/-- What is left in the buffer is read as one more line. -/
def consumeTail (buf : List UInt8) (s : Sse) : Except AiError Sse :=
  if buf.all isAsciiWhitespace then .ok s
  else
    match consumeSseLine parse buf s with
    | .error e => .error e
    | .ok (_, s) => .ok s.mark

def closing (s : Sse) : Outcome :=
  if s.full = [] then failed .emptyStream s
  else if s.reason = some "length".toList then failed .truncated s
  else (.ok s.full, s.deltas)

def conclude (buf : List UInt8) (s : Sse) : Outcome :=
  match consumeTail parse buf s with
  | .error e => failed e s
  | .ok s => closing s

def pullChunks : List Pulled → List UInt8 → Sse → Outcome
  | [], buf, s => conclude parse buf s
  | .stop why :: _, _, s => failed why.error s
  | .chunk chunk :: rest, buf, s =>
    let buf := buf ++ chunk
    if maxSseBufferBytes < buf.length then failed .responseTooLarge s
    else
      match drainBuffer parse buf s with
      | .failed e s => failed e s
      | .finished buf s => conclude parse buf s
      | .more buf s => pullChunks rest buf s

def streamChatResponse (pulled : List Pulled) : Outcome := pullChunks parse pulled [] {}

/-! ## Attempts -/

/-- What comes of an attempt, as far as the code sees it. -/
inductive Attempt
  | cancelledBefore
  | cancelled
  | sendFailed (e : AiError) (wasCancelled : Bool)
  | refused (status : Nat) (snippet : String)
  | answered (pulled : List Pulled)

inductive ChatEvent
  | request
  | delta (content : Text)
  deriving DecidableEq, Repr

/-- An attempt; the flag says whether an error that can be retried is. -/
def runAttempt : Attempt → List ChatEvent × Except (AiError × Bool) Text
  | .cancelledBefore => ([], .error (.cancelled, false))
  | .cancelled => ([.request], .error (.cancelled, false))
  | .sendFailed e wasCancelled =>
    ([.request], .error (if wasCancelled then (.cancelled, false) else (e, true)))
  | .refused status snippet => ([.request], .error (.llmServiceError status snippet, true))
  | .answered pulled =>
    let (result, deltas) := streamChatResponse parse pulled
    (.request :: deltas.map .delta,
      match result with
      | .ok text => .ok text
      | .error (e, emitted) => .error (e, !emitted))

/-- The attempt, and as many as are left after it. -/
def chatFrom (attempts : Nat → Attempt) : Nat → Nat → List ChatEvent × Except AiError Text
  | 0, attempt =>
    let (events, result) := runAttempt parse (attempts attempt)
    (events, match result with | .ok text => .ok text | .error (e, _) => .error e)
  | left + 1, attempt =>
    let (events, result) := runAttempt parse (attempts attempt)
    match result with
    | .ok text => (events, .ok text)
    | .error (e, again) =>
      if again && e.isRetryable then
        let (events', result') := chatFrom attempts left (attempt + 1)
        (events ++ events', result')
      else (events, .error e)

/-- `chat_completion_with_stream` with a callback. -/
def chatCompletionWithStream (attempts : Nat → Attempt) : List ChatEvent × Except AiError Text :=
  chatFrom parse attempts chatMaxRetries 0

end CampusAuth.Ai
