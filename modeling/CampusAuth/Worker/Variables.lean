import CampusAuth.Lib.Replace
import CampusAuth.Lib.Text

/- The variables in the steps of a task (`variable_resolver.py`).

   A value that goes into a script is encoded for the place it stands in: within quotes its
   special characters are escaped, in code it is a string literal, in a comment or a regular
   expression the placeholder stays. Which place that is, a scan of the script up to it says;
   offsets are counted in characters. -/
namespace CampusAuth.Worker
open Lib

/-! ## Placeholders -/

def isNameStart (c : Char) : Bool := c.isAlpha || c == '_'

def isNameChar (c : Char) : Bool := c.isAlphanum || c == '_'

def backquote : Char := Char.ofNat 96

/-- `str.isalpha`, `str.isalnum` and `str.isspace`, which is also what `\s` matches. -/
structure CharClasses where
  isAlpha : Char → Bool
  isAlnum : Char → Bool
  isSpace : Char → Bool
  isAlpha_of_letter : ∀ c : Char, c.isAlpha = true → isAlpha c = true
  isAlnum_of_alphanum : ∀ c : Char, c.isAlphanum = true → isAlnum c = true
  not_alnum_of_space : ∀ c, isSpace c = true → isAlnum c = false
  not_alpha_of_space : ∀ c, isSpace c = true → isAlpha c = false
  special : ∀ c ∈ backquote :: "\\'\"$\x7b\x7d/*[]_".toList,
    isAlpha c = false ∧ isAlnum c = false ∧ isSpace c = false

/-- Characters of ASCII. -/
def asciiClasses : CharClasses where
  isAlpha := Char.isAlpha
  isAlnum := Char.isAlphanum
  isSpace c := c ∈ [' ', '\t', '\n', '\r', Char.ofNat 11, Char.ofNat 12]
  isAlpha_of_letter _ h := h
  isAlnum_of_alphanum _ h := h
  not_alnum_of_space c h := by
    have hall : ∀ c ∈ [' ', '\t', '\n', '\r', Char.ofNat 11, Char.ofNat 12],
        c.isAlphanum = false :=
      @of_decide_eq_true _ (List.decidableBAll _ _) rfl
    exact hall c (by simpa using h)
  not_alpha_of_space c h := by
    have hall : ∀ c ∈ [' ', '\t', '\n', '\r', Char.ofNat 11, Char.ofNat 12],
        c.isAlpha = false :=
      @of_decide_eq_true _ (List.decidableBAll _ _) rfl
    exact hall c (by simpa using h)
  special :=
      @of_decide_eq_true _ (List.decidableBAll _ _) rfl

section
variable (o : CharClasses)

/-- A match of the pattern at the front, and the name in it. -/
def matchVariable : Text → Option (Text × Text)
  | '{' :: '{' :: t =>
    let inner := t.dropWhile o.isSpace
    let name := inner.takeWhile isNameChar
    let closing := inner.dropWhile isNameChar
    if name.head?.any isNameStart ∧ ['}', '}'] <+: closing.dropWhile o.isSpace then
      some (['{', '{'] ++ t.takeWhile o.isSpace ++ name ++ closing.takeWhile o.isSpace ++
        ['}', '}'], name)
    else none
  | _ => none

inductive Piece where
  | char (c : Char)
  | variable (text name : Text)
  deriving DecidableEq

/-- The first number of characters belongs to a match already found. -/
def piecesFrom : Nat → Text → List Piece
  | _, [] => []
  | skip + 1, _ :: cs => piecesFrom skip cs
  | 0, c :: cs =>
    match matchVariable o (c :: cs) with
    | some (text, name) => .variable text name :: piecesFrom (text.length - 1) cs
    | none => .char c :: piecesFrom 0 cs

/-- The matches from the left, without overlaps, and the characters between them. -/
def pieces (template : Text) : List Piece := piecesFrom o 0 template

def Piece.source : Piece → Text
  | .char c => [c]
  | .variable text _ => text

/-- `_VAR_PATTERN.sub`: the function gets the start of a match, its text and its name. -/
def subFrom (sub : Nat → Text → Text → Text) : Nat → List Piece → Text
  | _, [] => []
  | start, .char c :: ps => c :: subFrom sub (start + 1) ps
  | start, .variable text name :: ps => sub start text name ++ subFrom sub (start + text.length) ps

/-- The number of levels that are still expanded, and the names that are being expanded. -/
def resolveAt (vars : Text → Option Text) : Nat → List Text → Text → Text
  | 0, _, template => template
  | levels + 1, visited, template =>
    subFrom (fun _ text name =>
      if name ∈ visited then text
      else
        match vars name with
        | none => text
        | some val =>
          if ['{', '{'] <:+: val then resolveAt vars levels (name :: visited) val else val)
      0 (pieces o template)

def maxDepth : Nat := 8

def resolve (vars : Text → Option Text) (template : Text) : Text :=
  resolveAt o vars (maxDepth + 1) [] template

/-! ## The place of a placeholder -/

inductive Mode where
  | code | single | double | template | lineComment | blockComment | regex
  deriving DecidableEq, Repr

structure Frame where
  mode : Mode
  /-- The open braces of code in a template literal. -/
  depth : Option Nat := none
  /-- The token before. -/
  token : Option Text := none
  charClass : Bool := false
  deriving DecidableEq

/-- Behind these a slash begins a regular expression. -/
def regexPrefixTokens : List (Option Text) :=
  none :: ["(", "[", "\x7b", ",", ":", ";", "=", "!", "?", "&", "|", "+", "-", "*", "%", "^", "~",
    "<", ">", "return", "throw", "case", "delete", "void", "typeof", "new", "in", "of", "yield",
    "await", "else", "do"].map fun token => some token.toList

def setValue : List Frame → List Frame
  | frame :: below => { frame with token := some "value".toList } :: below
  | [] => []

def quoteMode (char : Char) : Option Mode :=
  if char = '\'' then some .single
  else if char = '"' then some .double
  else if char = backquote then some .template
  else none

def isTokenStart (c : Char) : Bool := o.isAlpha c || c == '_' || c == '$'

def isTokenChar (c : Char) : Bool := o.isAlnum c || c == '_' || c == '$'

/-- The token that begins with a character. -/
def readToken (char : Char) (rest : Text) : Text × Text :=
  if isTokenStart o char then
    (char :: rest.takeWhile (isTokenChar o), rest.dropWhile (isTokenChar o))
  else (if char = ')' ∨ char = ']' then "value".toList else [char], rest)

/-- The open braces behind a character of code; `none` when the last one is closed. -/
def countBraces (char : Char) : Option Nat → Option (Option Nat)
  | none => some none
  | some depth =>
    if char = '{' then some (some (depth + 1))
    else if char = '}' then if depth = 1 then none else some (some (depth - 1))
    else some (some depth)

def turnQuoted (quote : Char) (frame : Frame) (below : List Frame) (char : Char) (rest : Text) :
    List Frame × Text :=
  if char = '\\' then (frame :: below, rest.drop 1)
  else if char = quote then (setValue below, rest)
  else (frame :: below, rest)

def turnTemplate (frame : Frame) (below : List Frame) (char : Char) (rest : Text) :
    List Frame × Text :=
  if char = '\\' then (frame :: below, rest.drop 1)
  else if char = backquote then (setValue below, rest)
  else if char = '$' ∧ rest.head? = some '{' then
    ({ mode := .code, depth := some 1 } :: frame :: below, rest.drop 1)
  else (frame :: below, rest)

def turnRegex (frame : Frame) (below : List Frame) (char : Char) (rest : Text) :
    List Frame × Text :=
  if char = '\\' then (frame :: below, rest.drop 1)
  else if char = '[' then ({ frame with charClass := true } :: below, rest)
  else if char = ']' then ({ frame with charClass := false } :: below, rest)
  else if char = '/' ∧ frame.charClass = false then (setValue below, rest)
  else (frame :: below, rest)

def turnCode (frame : Frame) (below : List Frame) (char : Char) (rest : Text) :
    List Frame × Text :=
  if o.isSpace char then (frame :: below, rest)
  else if char = '/' ∧ rest.head? = some '/' then
    ({ mode := .lineComment } :: frame :: below, rest.drop 1)
  else if char = '/' ∧ rest.head? = some '*' then
    ({ mode := .blockComment } :: frame :: below, rest.drop 1)
  else if char = '/' ∧ frame.token ∈ regexPrefixTokens then
    ({ mode := .regex } :: frame :: below, rest)
  else
    match quoteMode char with
    | some mode => ({ mode := mode } :: frame :: below, rest)
    | none =>
      match countBraces char frame.depth with
      | none => (below, rest)
      | some depth =>
        let (token, rest) := readToken o char rest
        ({ frame with depth := depth, token := some token } :: below, rest)

/-- One turn of the loop: the frames and what is left of the script. -/
def turn : List Frame → Char → Text → List Frame × Text
  | [], _, rest => ([], rest)
  | frame :: below, char, rest =>
    match frame.mode with
    | .single => turnQuoted '\'' frame below char rest
    | .double => turnQuoted '"' frame below char rest
    | .template => turnTemplate frame below char rest
    | .lineComment =>
      if char = '\r' ∨ char = '\n' then (below, rest) else (frame :: below, rest)
    | .blockComment =>
      if char = '*' ∧ rest.head? = some '/' then (below, rest.drop 1) else (frame :: below, rest)
    | .regex => turnRegex frame below char rest
    | .code => turnCode o frame below char rest

/-- Each turn takes a character at least, so as many turns as characters are enough. -/
def scan : Nat → List Frame → Text → List Frame
  | 0, frames, _ => frames
  | _, frames, [] => frames
  | turns + 1, frames, char :: rest =>
    scan turns (turn o frames char rest).1 (turn o frames char rest).2

def modeOf : List Frame → Mode
  | frame :: _ => frame.mode
  | [] => .code

def javascriptContextAt (source : Text) (offset : Nat) : Mode :=
  modeOf (scan o offset [{ mode := .code }] (source.take offset))

/-! ## Values in a script -/

def escapeJavascriptString (value : Text) (quote : Char) : Text :=
  let escaped := replaceAll ['\\'] ['\\', '\\'] value
  let escaped := replaceAll ['\n'] "\\n".toList (replaceAll ['\r'] "\\r".toList escaped)
  let escaped := replaceAll [Char.ofNat 0x2029] "\\u2029".toList
    (replaceAll [Char.ofNat 0x2028] "\\u2028".toList escaped)
  if quote = '\'' then replaceAll ['\''] ['\\', '\''] escaped
  else if quote = '"' then replaceAll ['"'] ['\\', '"'] escaped
  else replaceAll ['$', '{'] ['\\', '$', '{'] (replaceAll [backquote] ['\\', backquote] escaped)

def hexDigit (n : Nat) : Char := if n < 10 then Char.ofNat (48 + n) else Char.ofNat (87 + n)

/-- How `json.dumps(.., ensure_ascii=False)` writes a character. -/
def dumpChar (c : Char) : Text :=
  if c = '"' then ['\\', '"']
  else if c = '\\' then ['\\', '\\']
  else if c = '\n' then ['\\', 'n']
  else if c = '\r' then ['\\', 'r']
  else if c = '\t' then ['\\', 't']
  else if c = Char.ofNat 12 then ['\\', 'f']
  else if c = Char.ofNat 8 then ['\\', 'b']
  else if c.toNat < 32 then "\\u00".toList ++ [hexDigit (c.toNat / 16), hexDigit (c.toNat % 16)]
  else [c]

def jsonDumps (value : Text) : Text := '"' :: value.flatMap dumpChar ++ ['"']

/-- The quote of a string literal that a place is in. -/
def quoteOf : Mode → Option Char
  | .single => some '\''
  | .double => some '"'
  | .template => some backquote
  | _ => none

/-- What stands for a placeholder that is found in a place. -/
def encode (text value : Text) (context : Mode) : Text :=
  match quoteOf context with
  | some quote => escapeJavascriptString value quote
  | none => if context = .code then jsonDumps value else text

def subJavascript (vars : Text → Option Text) (template : Text) (start : Nat)
    (text name : Text) : Text :=
  match vars name with
  | none => text
  | some raw => encode text (resolve o vars raw) (javascriptContextAt o template start)

def resolveJavascript (vars : Text → Option Text) (template : Text) : Text :=
  subFrom (subJavascript o vars template) 0 (pieces o template)

end
end CampusAuth.Worker
