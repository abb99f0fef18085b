import CampusAuth.Bridge.Ipc
import CampusAuth.Lib.Lines
import Mathlib.Data.List.DropRight

/- The reader of the worker's output (`bridge/process.rs`).

   `stdoutReaderTask` gets the stream in pieces, keeps at most `ipcMaxLineLen` bytes of a line, and
   sends what it makes of each line to the supervisor. What it sends is kept line by line. Reading
   JSON and the two kinds of messages is `serde_json`'s, which is a parameter. -/
namespace CampusAuth.Bridge.Process
open Lib

structure IpcResult where
  success : Bool
  data : Json
  error : Option String

structure IpcResponse where
  id : Nat
  result : IpcResult

structure IpcEvent where
  event : String
  data : Json

inductive ParsedMessage where
  | response (response : IpcResponse)
  | responseError (id : Nat) (error : String)
  | event (event : IpcEvent)

/-- What the reader does with a line. -/
inductive Output where
  | send (message : ParsedMessage)
  /-- `INVALID_IPC_LINES` counts one more. -/
  | countInvalid

/-- How `serde_json` reads a text, and a value as a response or as an event. -/
structure Serde where
  parse : String → Except String Json
  response : Json → Except String IpcResponse
  event : Json → Except String IpcEvent

/-- `std::str::from_utf8` -/
def fromUtf8 (bytes : List UInt8) : Option String := String.fromUTF8? bytes.toByteArray

/-- The text without line ends at its end. -/
def trimLineEnds (s : String) : String :=
  String.ofList (s.toList.rdropWhile fun c => c = '\n' || c = '\r')

/-- `Value::as_u64`: a number written with digits alone that fits. -/
def asU64 : Json → Option Nat
  | .number literal =>
    if literal.toList.all Char.isDigit then literal.toNat?.filter (· < UInt64.size) else none
  | _ => none

def ipcMaxLineLen : Nat := 1048576

def ipcDelimiter : UInt8 := 0x0A

/-! ## Lines within the limit -/

def parseAndSendLine (serde : Serde) (trimmed : String) : List Output :=
  match serde.parse trimmed with
  | .ok v =>
    match v.get "id" with
    | some idVal =>
      match serde.response v with
      | .ok response => [.send (.response response)]
      | .error e =>
        match asU64 idVal with
        | some id => [.send (.responseError id e)]
        | none => []
    | none =>
      match v.get "event" with
      | some _ =>
        match serde.event v with
        | .ok event => [.send (.event event)]
        | .error _ => []
      | none => []
  | .error _ => [.countInvalid]

/-- A line, or what is left at the end of the stream. -/
def sendText (serde : Serde) (line : List UInt8) : List Output :=
  match fromUtf8 line with
  | none => []
  | some text =>
    if (trimLineEnds text).isEmpty then [] else parseAndSendLine serde (trimLineEnds text)

/-! ## Lines above the limit -/

def isAsciiWhitespace (b : UInt8) : Bool :=
  b = 0x20 || b = 0x09 || b = 0x0A || b = 0x0C || b = 0x0D

def isAsciiDigit (b : UInt8) : Bool := 0x30 ≤ b && b ≤ 0x39

def skipWs (bytes : List UInt8) : List UInt8 := bytes.dropWhile isAsciiWhitespace

/-- The bytes after `"id"`. -/
def stripIdKey : List UInt8 → Option (List UInt8)
  | a :: b :: c :: d :: rest =>
    if a = 0x22 && b = 0x69 && c = 0x64 && d = 0x22 then some rest else none
  | _ => none

/-- The bytes after `byte`. -/
def stripByte (byte : UInt8) : List UInt8 → Option (List UInt8)
  | b :: rest => if b = byte then some rest else none
  | [] => none

/-- The value of a row of digits. -/
def number (digits : List UInt8) : Nat :=
  digits.foldl (fun n d => 10 * n + (d.toNat - 0x30)) 0

/-- `str::parse::<u64>` for a row of digits. -/
def parseU64 (digits : List UInt8) : Option Nat :=
  if number digits < UInt64.size then some (number digits) else none

/-- What follows the opening brace, the key and the colon. -/
def scanIdValue (head : List UInt8) : Option (List UInt8) :=
  ((((stripByte 0x7B (skipWs head)).bind fun rest => stripIdKey (skipWs rest)).bind
    fun rest => stripByte 0x3A (skipWs rest))).map skipWs

/-- The number right at the start, in the form of an object whose first key is `"id"`. -/
def extractLeadingId (head : List UInt8) : Option Nat :=
  match scanIdValue head with
  | none => none
  | some rest =>
    if (rest.takeWhile isAsciiDigit).isEmpty then none else parseU64 (rest.takeWhile isAsciiDigit)

/-- The answer to a request whose response was too long. -/
def oversizedResponse (id : Nat) : IpcResponse :=
  { id
    result :=
      { success := false
        data := .null
        error := some
          ("IPC 响应超过 " ++ toString (ipcMaxLineLen / (1024 * 1024)) ++ " MiB 单行上限，已丢弃") } }

/-- As many bytes of a long line are looked at. -/
def headLen : Nat := 512

def settleOversizedLine (bytes : List UInt8) : List Output :=
  match fromUtf8 (bytes.take headLen) with
  | none => []
  | some _ =>
    match extractLeadingId (bytes.take headLen) with
    | none => []
    | some id => [.send (.response (oversizedResponse id))]

/-! ## The loop -/

/-- What is kept of the line being read. -/
structure LineBuf where
  bytes : List UInt8 := []
  exceeded : Bool := false

/-- More bytes of the line are there. -/
def LineBuf.extend (buf : LineBuf) (available : List UInt8) : LineBuf :=
  if !buf.exceeded && buf.bytes.length + available.length > ipcMaxLineLen then
    { bytes := buf.bytes ++ available.take (min (ipcMaxLineLen - buf.bytes.length) available.length)
      exceeded := true }
  else if !buf.exceeded then { buf with bytes := buf.bytes ++ available }
  else buf

/-- A line has ended. -/
def LineBuf.finish (buf : LineBuf) (serde : Serde) : List Output :=
  if buf.exceeded then settleOversizedLine buf.bytes else sendText serde buf.bytes

/-- Everything in the reader's own buffer is taken up, line after line. -/
def readAvailable (serde : Serde) (buf : LineBuf) (available : List UInt8) :
    List (List Output) × LineBuf :=
  match h : available.dropWhile (· ≠ ipcDelimiter) with
  | [] => ([], buf.extend available)
  | _ :: rest =>
    have : rest.length < available.length := by
      have hle := (List.dropWhile_sublist (· ≠ ipcDelimiter) (l := available)).length_le
      rw [h, List.length_cons] at hle
      exact hle
    let next := readAvailable serde {} rest
    ((buf.extend (available.takeWhile (· ≠ ipcDelimiter))).finish serde :: next.1, next.2)
termination_by available.length

/-- How the stream ends. -/
inductive StreamEnd where
  | eof
  | failed

/-- The line without an end, after the last piece. -/
def LineBuf.flush (buf : LineBuf) (serde : Serde) : StreamEnd → List Output
  | .eof => if buf.exceeded then [] else sendText serde buf.bytes
  | .failed => []

def readPieces (serde : Serde) : LineBuf → List (List UInt8) → List (List Output) × LineBuf
  | buf, [] => ([], buf)
  | buf, piece :: pieces =>
    let here := readAvailable serde buf piece
    let next := readPieces serde here.2 pieces
    (here.1 ++ next.1, next.2)

/-- What is sent for each ended line, and last what is sent at the end of the stream. -/
def stdoutReaderTask (serde : Serde) (pieces : List (List UInt8)) (ends : StreamEnd) :
    List (List Output) :=
  let read := readPieces serde {} pieces
  read.1 ++ [read.2.flush serde ends]

end CampusAuth.Bridge.Process
