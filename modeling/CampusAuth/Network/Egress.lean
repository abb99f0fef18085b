import CampusAuth.Lib.Http
import CampusAuth.Lib.Machine

/- The loopback forward proxy (`network/egress.rs`).

   A stream is the list of the bytes that will arrive on it; where it ends, the source sees the end
   of the stream, a timeout or an error, and gives up. Texts are looked at as their bytes:
   `String::from_utf8_lossy` changes no byte that is ASCII or white space, and what it gives is only
   compared. A turn of `serve_proxy` is one step of `serveProxy`; what it writes is in the `Turn`. -/
namespace CampusAuth.Network
open Lib Lib.Http

/-! ## Text -/

/-- The characters with the property `White_Space`, in UTF-8. -/
def whiteSpace : List Bytes :=
  [[9], [10], [11], [12], [13], [32], [0xC2, 0x85], [0xC2, 0xA0], [0xE1, 0x9A, 0x80]] ++
    (List.range 11).map (fun k => [0xE2, 0x80, UInt8.ofNat (0x80 + k)]) ++
    [[0xE2, 0x80, 0xA8], [0xE2, 0x80, 0xA9], [0xE2, 0x80, 0xAF], [0xE2, 0x81, 0x9F],
      [0xE3, 0x80, 0x80]]

/-- The white space at the start of the text, if any. -/
def spaceAt (spaces : List Bytes) (s : Bytes) : Option Bytes := spaces.find? (·.isPrefixOf s)

/-- The first number of bytes belongs to white space already seen. -/
def trimFrom (spaces : List Bytes) : Nat → Bytes → Bytes
  | _, [] => []
  | skip + 1, _ :: s => trimFrom spaces skip s
  | 0, b :: s =>
    match spaceAt spaces (b :: s) with
    | some space => trimFrom spaces (space.length - 1) s
    | none => b :: s

/-- `str::trim`. -/
def trim (s : Bytes) : Bytes :=
  (trimFrom (whiteSpace.map List.reverse) 0 (trimFrom whiteSpace 0 s).reverse).reverse

def wordsFrom : Nat → Bytes → Bytes → List Bytes
  | _, word, [] => if word = [] then [] else [word]
  | skip + 1, word, _ :: s => wordsFrom skip word s
  | 0, word, b :: s =>
    match spaceAt whiteSpace (b :: s) with
    | some space => (if word = [] then [] else [word]) ++ wordsFrom (space.length - 1) [] s
    | none => wordsFrom 0 (word ++ [b]) s

/-- `str::split_whitespace`. -/
def splitWhitespace (s : Bytes) : List Bytes := wordsFrom 0 [] s

def isUtf8 (bs : Bytes) : Bool := (String.fromUTF8? bs.toByteArray).isSome

def pushDigit (radix : Nat) (n : Option Nat) (d : UInt8) : Option Nat :=
  n.bind fun n => ((hexValue d).filter (· < radix)).map (radix * n + ·)

/-- `from_str_radix` of an unsigned type with the values below `bound`: a `+` may come first. -/
def fromStrRadix (bound radix : Nat) (s : Bytes) : Option Nat :=
  let digits := if s.head? == some 43 then s.tail else s
  if digits = [] then none else (digits.foldl (pushDigit radix) (some 0)).filter (· < bound)

/-! ## Reading and copying -/

/-- Bytes are taken one by one until `stop` holds of them. -/
def readUntil (limit : Nat) (stop : Bytes → Bool) : Bytes → Bytes → Option (Bytes × Bytes)
  | _, [] => none
  | taken, b :: input =>
    if limit ≤ taken.length then none
    else if stop (taken ++ [b]) then some (taken ++ [b], input)
    else readUntil limit stop (taken ++ [b]) input

def readHttpHead (input : Bytes) : Option (Bytes × Bytes) :=
  readUntil (32 * 1024) (blank.isSuffixOf ·) [] input

def headerValue (headers : Fields) (name : String) : Option Bytes :=
  (headers.find? fun h => sameName h.1 (ascii name)).map fun h => trim h.2

/-- What was written, what is left, and whether the function returned; `framed` unless it read to
    the end of the stream. -/
structure Copied where
  written : Bytes
  rest : Bytes
  returned : Bool
  framed : Bool := true

def copyFixed (input : Bytes) (length : Nat) : Copied :=
  { written := input.take length, rest := input.drop length, returned := length ≤ input.length }

def chunkLength (line : Bytes) : Option Nat :=
  fromStrRadix (2 ^ 64) 16 ((trim line).takeWhile (· != 59))

/-- A chunk takes at least one byte, so that the length of the input is fuel enough. -/
def copyChunkedFrom : Nat → Bytes → Copied
  | 0, input => { written := [], rest := input, returned := false }
  | fuel + 1, input =>
    match readUntil 8192 (crlf.isSuffixOf ·) [] input with
    | none => { written := [], rest := [], returned := false }
    | some (line, input) =>
      match if isUtf8 line then chunkLength line else none with
      | none => { written := [], rest := input, returned := false }
      | some 0 =>
        match readUntil (32 * 1024) (fun t => t == crlf || blank.isSuffixOf t) [] input with
        | none => { written := line, rest := [], returned := false }
        | some (trailer, input) => { written := line ++ trailer, rest := input, returned := true }
      | some size =>
        let copied := copyFixed input size
        if copied.returned && crlf.isPrefixOf copied.rest then
          let more := copyChunkedFrom fuel (copied.rest.drop 2)
          { more with written := line ++ (copied.written ++ (crlf ++ more.written)) }
        else { written := line ++ copied.written, rest := copied.rest, returned := false }

def copyChunked (input : Bytes) : Copied := copyChunkedFrom (input.length + 1) input

/-- `none` is an error. -/
def bodyLength (headers : Fields) : Option (Option Nat) :=
  let lengths := headers.filter fun h => sameName h.1 (ascii "content-length")
  if 1 < lengths.length || !lengths.isEmpty && (headerValue headers "transfer-encoding").isSome then
    none
  else
    match lengths.head? with
    | none => some none
    | some h => (fromStrRadix (2 ^ 64) 10 (trim h.2)).map some

def copyMessageBody (input : Bytes) (headers : Fields) (response : Bool) : Copied :=
  match bodyLength headers with
  | none => { written := [], rest := input, returned := false }
  | some length =>
    match headerValue headers "transfer-encoding" with
    | some encoding =>
      if sameName encoding (ascii "chunked") then copyChunked input
      else { written := [], rest := input, returned := false }
    | none =>
      match length with
      | some length => copyFixed input length
      | none =>
        if response then { written := input, rest := [], returned := true, framed := false }
        else { written := [], rest := input, returned := true }

/-! ## A request -/

structure Url where
  scheme : Bytes
  username : Bytes
  password : Option Bytes
  host : Option Bytes
  port : Option Nat
  path : Bytes
  query : Option Bytes

structure Env where
  auth : Bytes
  parseUrl : Bytes → Option Url

structure Request where
  method : Bytes
  version : Bytes
  url : Url
  host : Bytes
  headers : Fields

inductive Asked
  | failed
  | unauthorized
  | request (r : Request)

def askUrl (env : Env) (headers : Fields) (method target version : Bytes) : Asked :=
  let target := if method = ascii "CONNECT" then ascii "http://" ++ target ++ ascii "/" else target
  match env.parseUrl target with
  | none => .failed
  | some url =>
    if url.scheme ≠ ascii "http" || url.username ≠ [] || url.password.isSome then .failed
    else
      match url.host with
      | none => .failed
      | some host => .request { method, version, url, host, headers }

def ask (env : Env) (head : Bytes) : Asked :=
  if !isUtf8 head then .failed
  else
    match (fieldLines head).mapM (splitByte 58) with
    | none => .failed
    | some headers =>
      if headerValue headers "proxy-authorization" ≠ some env.auth then .unauthorized
      else
        match bodyLength headers, splitWhitespace ((crlfLines head).headD []) with
        | some _, [method, target, version] =>
          if version = ascii "HTTP/1.0" || version = ascii "HTTP/1.1" then
            askUrl env headers method target version
          else .failed
        | _, _ => .failed

def Request.path (r : Request) : Bytes :=
  match r.url.query with
  | some q => r.url.path ++ ascii "?" ++ q
  | none => r.url.path

def Request.key (r : Request) : Bytes × Nat := (r.host, r.url.port.getD 80)

def Request.close (r : Request) : Bool :=
  r.version == ascii "HTTP/1.0" ||
    (headerValue r.headers "connection").any (sameName · (ascii "close"))

/-- The headers that stay with the proxy. -/
def dropped (h : Bytes × Bytes) : Bool :=
  ["proxy-authorization", "proxy-connection", "connection", "expect"].any
    fun name => sameName h.1 (ascii name)

def Request.connectionLine (r : Request) : Bytes :=
  if (headerValue r.headers "upgrade").isSome then ascii "Connection: Upgrade"
  else if r.close then ascii "Connection: close"
  else ascii "Connection: keep-alive"

def Request.forwarded (r : Request) : Bytes :=
  r.method ++ ascii " " ++ r.path ++ ascii " HTTP/1.1" ++ crlf ++
    ((r.headers.filter (!dropped ·)).flatMap fun h => h.1 ++ [58] ++ h.2 ++ crlf) ++
    (r.connectionLine ++ blank)

def Request.continues (r : Request) : Bool :=
  (headerValue r.headers "expect").any (sameName · (ascii "100-continue"))

/-! ## The responses to it -/

inductive Outcome
  /-- The loop goes on with the next request. -/
  | next
  | closed
  | failed
  /-- From here on bytes go both ways unseen. -/
  | tunnel
  deriving DecidableEq

structure Relayed where
  interim : List Bytes
  /-- The head of the last response; empty when there was none. -/
  response : Bytes
  answer : Bytes
  unread : Bytes
  how : Outcome

def statusOf (response : Bytes) : Option Nat :=
  (splitWhitespace ((crlfLines response).headD []))[1]?.bind (fromStrRadix 65536 10)

def responseHeaders (response : Bytes) : Fields := (crlfLines response).tail.filterMap (splitByte 58)

def responseClose (response : Bytes) : Bool :=
  (ascii "HTTP/1.0").isPrefixOf ((crlfLines response).headD []) ||
    (headerValue (responseHeaders response) "connection").any (sameName · (ascii "close"))

def bodiless (isHead : Bool) (status : Nat) : Bool := isHead || status == 204 || status == 304

def answerBody (isHead : Bool) (response : Bytes) (status : Nat) (rest : Bytes) : Copied :=
  if bodiless isHead status then { written := [], rest, returned := true }
  else copyMessageBody rest (responseHeaders response) true

def relayFinal (isHead close : Bool) (response : Bytes) (status : Nat) (rest : Bytes) : Relayed :=
  let copied := answerBody isHead response status rest
  { interim := [], response, answer := copied.written, unread := copied.rest,
    how :=
      if !copied.returned then .failed
      else if close || responseClose response || !copied.framed then .closed
      else .next }

def noResponse (unread : Bytes) : Relayed :=
  { interim := [], response := [], answer := [], unread, how := .failed }

/-- A head takes at least one byte, so that the length of the input is fuel enough. -/
def relayFrom (isHead close : Bool) : Nat → Bytes → Relayed
  | 0, unread => noResponse unread
  | fuel + 1, unread =>
    match readHttpHead unread with
    | none => noResponse []
    | some (response, rest) =>
      match statusOf response, bodyLength (responseHeaders response) with
      | some status, some _ =>
        if status = 101 then
          { interim := [], response, answer := [], unread := rest, how := .tunnel }
        else if status < 200 then
          let more := relayFrom isHead close fuel rest
          { more with interim := response :: more.interim }
        else relayFinal isHead close response status rest
      | _, _ => noResponse rest

def relay (isHead close : Bool) (unread : Bytes) : Relayed :=
  relayFrom isHead close (unread.length + 1) unread

/-! ## `serve_proxy` -/

structure Upstream where
  key : Bytes × Nat
  /-- Its place among the connections made. -/
  number : Nat
  unread : Bytes

structure Proxy where
  client : Bytes
  connection : Option Upstream
  /-- What arrives on each of the connections made. -/
  streams : List Bytes
  serving : Bool

/-- A request and its responses, as far as they went. -/
structure Exchange where
  /-- The connection it went over. -/
  number : Nat
  head : Bytes
  forwarded : Bytes
  body : Bytes
  /-- The body was copied to its end. -/
  accepted : Bool
  isHead : Bool
  continued : Bool
  relayed : Relayed

inductive Turn
  /-- A reply of the proxy itself, or none, and the connection is closed. -/
  | refused (reply : Bytes)
  /-- CONNECT. -/
  | connected (number : Nat)
  | exchange (x : Exchange)

def unauthorizedReply : Bytes :=
  ascii ("HTTP/1.1 407 Proxy Authentication Required\r\n" ++
    "Proxy-Authenticate: Basic realm=\"campus-egress\"\r\nConnection: close\r\n" ++
    "Content-Length: 0\r\n\r\n")

def badGatewayReply : Bytes :=
  ascii "HTTP/1.1 502 Bad Gateway\r\nConnection: close\r\nContent-Length: 0\r\n\r\n"

/-- The connection of the last request, when it goes to the same place, or the new one `c`. -/
def Proxy.reach (s : Proxy) (r : Request) (c : Option Bytes) : Option (Upstream × List Bytes) :=
  let fresh := c.map fun stream =>
    ({ key := r.key, number := s.streams.length, unread := stream }, s.streams ++ [stream])
  match s.connection with
  | some up => if up.key = r.key then some (up, s.streams) else fresh
  | none => fresh

def forward (r : Request) (head client : Bytes) (up : Upstream) : Exchange × Bytes :=
  let sent := copyMessageBody client r.headers false
  let isHead := r.method == ascii "HEAD"
  ({ number := up.number, head, forwarded := r.forwarded, body := sent.written,
     accepted := sent.returned, isHead, continued := r.continues,
     relayed := if sent.returned then relay isHead r.close up.unread else noResponse up.unread },
   sent.rest)

/-- One turn of the loop; `c` is what arrives on the connection if one has to be made. -/
def serveTurn (env : Env) (s : Proxy) (c : Option Bytes) : Proxy × Turn :=
  let stop (t : Turn) : Proxy × Turn := ({ s with serving := false }, t)
  match readHttpHead s.client with
  | none => stop (.refused [])
  | some (head, client) =>
    match ask env head with
    | .failed => stop (.refused [])
    | .unauthorized => stop (.refused unauthorizedReply)
    | .request r =>
      match s.reach r c with
      | none => stop (.refused badGatewayReply)
      | some (up, streams) =>
        if r.method = ascii "CONNECT" then
          ({ s with streams, serving := false }, .connected up.number)
        else
          let (x, client) := forward r head client up
          ({ client, connection := some { up with unread := x.relayed.unread }, streams,
             serving := x.relayed.how = .next }, .exchange x)

def serveProxy (env : Env) : Machine Proxy (Option Bytes) Turn where
  step s c := if s.serving then some ((serveTurn env s c).1, [(serveTurn env s c).2]) else none

/-- The start of a connection of a client that sends `client`. -/
def accept (client : Bytes) : Proxy :=
  { client, connection := none, streams := [], serving := true }

end CampusAuth.Network
