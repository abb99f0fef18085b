import Mathlib.Data.Rat.Defs
import CampusAuth.Lib.Lines
import CampusAuth.Lib.Slices

/- What the Worker reads from stdin (`python_worker/worker_main.py`).

   The reader takes a line in pieces of bounded size; `readLine_eq` says that this is the same as
   looking at the line as a whole (`readRaw`). `json.loads` and the decimal digits of Unicode are
   parameters. -/
namespace CampusAuth.Worker
open Lib

/-! ## Values -/

inductive PyFloat
  | nan
  | inf (negative : Bool)
  | finite (q : ℚ)

/-- What `json.loads` gives. -/
inductive PyVal
  | none
  | bool (b : Bool)
  | int (n : Int)
  | float (x : PyFloat)
  | str (s : Text)
  | list (items : List PyVal)
  | dict (members : List (Text × PyVal))

abbrev Members := List (Text × PyVal)

def Members.get (m : Members) (key : String) : Option PyVal := m.lookup key.toList

def Members.has (m : Members) (key : String) : Bool := (m.get key).isSome

def Members.isCommand (m : Members) : Bool := m.has "id" && m.has "method"

inductive Loaded
  | value (v : PyVal)
  /-- `json.JSONDecodeError`. -/
  | notJson
  /-- Any other exception: too deep a nesting, an integer with too many digits. -/
  | fails

structure Python where
  loads : Text → Loaded
  decimal : Char → Option Nat

/-- `str.isspace`. -/
def isSpace (c : Char) : Bool := isWhitespace c || (0x1c ≤ c.toNat && c.toNat ≤ 0x1f)

def pyStrip (s : Text) : Text := ((s.dropWhile isSpace).reverse.dropWhile isSpace).reverse

def valueOf (digits : List Nat) : Nat := digits.foldl (fun n d => 10 * n + d) 0

/-! ## Lines -/

/-- `_MAX_STDIN_LINE_BYTES`. -/
def maxStdinLineBytes : Nat := 16 * 1024 * 1024

/-- `sys.stdin.readline(n)`: through the end of the line, but at most `n` characters. -/
def readline : Nat → Text → Text × Text
  | _, [] => ([], [])
  | 0, s => ([], s)
  | n + 1, c :: s =>
    if c = '\n' then ([c], s) else (c :: (readline n s).1, (readline n s).2)

/-- The line as a whole, and what follows it. -/
def cutLine : Text → Text × Text
  | [] => ([], [])
  | c :: s => if c = '\n' then ([c], s) else (c :: (cutLine s).1, (cutLine s).2)

def endsLine (raw : Text) : Bool := raw.getLast? == some '\n'

theorem length_readline (n : Nat) (s : Text) :
    (readline n s).1.length + (readline n s).2.length = s.length := by
  induction s generalizing n with
  | nil => cases n <;> rfl
  | cons c s ih =>
    cases n with
    | zero => simp [readline]
    | succ n =>
      unfold readline
      split
      · simp only [List.length_cons, List.length_nil]
        omega
      · have := ih n
        simp only [List.length_cons]
        omega

/-- The rest of a line that is too long is thrown away in pieces. -/
def skipLine (raw rest : Text) : Text :=
  if raw = [] || endsLine raw then rest
  else if (readline (maxStdinLineBytes + 1) rest).1 = [] then
    (readline (maxStdinLineBytes + 1) rest).2
  else
    skipLine (readline (maxStdinLineBytes + 1) rest).1 (readline (maxStdinLineBytes + 1) rest).2
termination_by rest.length
decreasing_by
  have hlen := length_readline (maxStdinLineBytes + 1) rest
  have hpos := List.length_pos_iff.mpr ‹¬(readline (maxStdinLineBytes + 1) rest).1 = []›
  omega

def after (pat s : Text) : Option Text :=
  if pat.isPrefixOf s then some (s.drop pat.length) else none

/-- The id at the start of a line that is too long. -/
def oversizedRequestId (py : Python) (raw : Text) : Option Nat := do
  let s ← after ['\x7b'] ((raw.take 512).dropWhile isSpace)
  let s ← after "\"id\"".toList (s.dropWhile isSpace)
  let s ← after [':'] (s.dropWhile isSpace)
  let digits := (((s.dropWhile isSpace).map py.decimal).takeWhile Option.isSome).reduceOption
  if digits = [] then none else some (valueOf digits)

/-- What one line makes the reader do. -/
inductive Read
  | eof
  | skip
  /-- An error response for a line that is too long. -/
  | reply (id : Nat)
  | cancel (cancelId : PyVal)
  | command (msg : Members)
  /-- The exception ends the reader. -/
  | fails

def readOversized (py : Python) (raw : Text) : Read :=
  match oversizedRequestId py raw with
  | some id => .reply id
  | none => .skip

def readObject (msg : Members) : Read :=
  match msg.get "cancel" with
  | some cancelId => .cancel cancelId
  | none => if msg.isCommand then .command msg else .skip

def readRaw (py : Python) (raw : Text) : Read :=
  if maxStdinLineBytes < (bytes raw).length then readOversized py raw
  else if pyStrip raw = [] then .skip
  else
    match py.loads (pyStrip raw) with
    | .notJson => .skip
    | .fails => .fails
    | .value (.dict msg) => readObject msg
    | .value _ => .skip

/-- One turn of `stdin_reader`. -/
def readLine (py : Python) (stdin : Text) : Read × Text :=
  let (raw, rest) := readline (maxStdinLineBytes + 1) stdin
  if raw = [] then (.eof, rest)
  else if maxStdinLineBytes < raw.length && !endsLine raw then
    (readOversized py (raw.take 512), skipLine raw rest)
  else (readRaw py raw, rest)

/-! ## A line in pieces is a line -/

theorem cutLine_append (s : Text) : (cutLine s).1 ++ (cutLine s).2 = s := by
  induction s with
  | nil => rfl
  | cons c s ih =>
    unfold cutLine
    split
    · rfl
    · exact congrArg (c :: ·) ih

theorem cutLine_ne_nil {s : Text} (h : s ≠ []) : (cutLine s).1 ≠ [] := by
  cases s with
  | nil => exact absurd rfl h
  | cons c s =>
    unfold cutLine
    split <;> exact List.cons_ne_nil _ _

/-- A line that fits is read at once, of a longer one the first `n` characters. -/
theorem readline_eq (n : Nat) (s : Text) :
    ((cutLine s).1.length ≤ n ∧ readline n s = cutLine s) ∨
      (n < (cutLine s).1.length ∧ readline n s = (s.take n, s.drop n) ∧ '\n' ∉ s.take n ∧
        cutLine s = (s.take n ++ (cutLine (s.drop n)).1, (cutLine (s.drop n)).2)) := by
  induction s generalizing n with
  | nil => exact .inl ⟨Nat.zero_le n, by cases n <;> rfl⟩
  | cons c s ih =>
    cases n with
    | zero =>
      exact .inr ⟨List.length_pos_iff.mpr (cutLine_ne_nil (List.cons_ne_nil c s)), rfl,
        List.not_mem_nil, rfl⟩
    | succ n =>
      by_cases hc : c = '\n'
      · refine .inl ⟨?_, ?_⟩
        · rw [cutLine, if_pos hc]
          exact Nat.succ_le_succ (Nat.zero_le n)
        · rw [readline, cutLine, if_pos hc, if_pos hc]
      · have hcut : cutLine (c :: s) = (c :: (cutLine s).1, (cutLine s).2) := by
          rw [cutLine, if_neg hc]
        have hread : readline (n + 1) (c :: s) = (c :: (readline n s).1, (readline n s).2) := by
          rw [readline, if_neg hc]
        rcases ih n with ⟨hfits, heq⟩ | ⟨hlong, heq, hopen, hrest⟩
        · refine .inl ⟨?_, by rw [hread, hcut, heq]⟩
          rw [hcut]
          exact Nat.succ_le_succ hfits
        · refine .inr ⟨?_, by rw [hread, heq]; rfl, ?_, ?_⟩
          · rw [hcut]
            exact Nat.succ_lt_succ hlong
          · rw [List.take_succ_cons, List.mem_cons, not_or]
            exact ⟨fun h => hc h.symm, hopen⟩
          · rw [hcut, hrest]
            rfl

theorem endsLine_eq_false {raw : Text} (h : '\n' ∉ raw) : endsLine raw = false := by
  refine beq_eq_false_iff_ne.mpr fun hlast => h (List.mem_of_getLast? hlast)

/-- A line that is open runs to the end of the input. -/
theorem rest_of_open {s : Text} (h : endsLine (cutLine s).1 = false) : (cutLine s).2 = [] := by
  induction s with
  | nil => rfl
  | cons c s ih =>
    unfold cutLine at h ⊢
    split
    next hc =>
      rw [if_pos hc, hc] at h
      cases h
    next hc =>
      rw [if_neg hc] at h
      refine ih ?_
      cases hline : (cutLine s).1 with
      | nil => rfl
      | cons d line =>
        rw [hline] at h
        exact h

/-- The pieces of a long line are thrown away up to its end. -/
theorem skipLine_eq {raw rest : Text} (hopen : endsLine raw = false) (hraw : raw ≠ []) :
    skipLine raw rest = (cutLine rest).2 := by
  induction hn : rest.length using Nat.strongRecOn generalizing raw rest with
  | _ n ih =>
    subst hn
    unfold skipLine
    rw [if_neg (by simp [hraw, hopen])]
    rcases readline_eq (maxStdinLineBytes + 1) rest with ⟨-, heq⟩ | ⟨hlong, heq, hpiece, hrest⟩
    · rw [heq]
      split
      · rfl
      · by_cases hends : endsLine (cutLine rest).1
        · unfold skipLine
          rw [if_pos (by simp [hends])]
        · -- the line ran to the end of the input
          rw [Bool.not_eq_true] at hends
          have hnil : (cutLine rest).2 = [] := rest_of_open hends
          rw [hnil]
          unfold skipLine
          rw [if_neg (by simp [hends, ‹¬_›])]
          rfl
    · have hcut := congrArg Prod.snd hrest
      have hlen : 0 < rest.length :=
        List.length_pos_iff.mpr fun hnil => by rw [hnil] at hlong; exact absurd hlong (by decide)
      rw [heq, hcut]
      have hne : rest.take (maxStdinLineBytes + 1) ≠ [] := by
        refine List.length_pos_iff.mp ?_
        rw [List.length_take]
        exact Nat.lt_min.mpr ⟨Nat.succ_pos _, hlen⟩
      rw [if_neg hne]
      refine ih _ ?_ (endsLine_eq_false hpiece) hne rfl
      rw [List.length_drop]
      exact Nat.sub_lt hlen (Nat.succ_pos _)

theorem length_le_bytes (s : Text) : s.length ≤ (bytes s).length := by
  induction s with
  | nil => exact Nat.le_refl 0
  | cons c s ih =>
    rw [length_bytes_cons, List.length_cons]
    have := c.utf8Size_pos
    omega

theorem readOversized_take (py : Python) {raw long : Text} (h : long.take 512 = raw.take 512) :
    readOversized py long = readOversized py raw := by
  unfold readOversized oversizedRequestId
  rw [h]

@[simp] theorem readLine_nil (py : Python) : readLine py [] = (.eof, []) := rfl

/-- What is read of a line is what there is in the line as a whole. -/
theorem readLine_eq (py : Python) {stdin : Text} (h : stdin ≠ []) :
    readLine py stdin = (readRaw py (cutLine stdin).1, (cutLine stdin).2) := by
  unfold readLine
  rcases readline_eq (maxStdinLineBytes + 1) stdin with ⟨hfits, heq⟩ | ⟨hlong, heq, hopen, hcut⟩
  · rw [heq]
    dsimp only
    rw [if_neg (cutLine_ne_nil h)]
    split
    next hover =>
      rw [Bool.and_eq_true, decide_eq_true_iff, Bool.not_eq_true'] at hover
      have hsize := length_le_bytes (cutLine stdin).1
      have hstart : ((cutLine stdin).1.take 512).take 512 = (cutLine stdin).1.take 512 := by
        rw [List.take_take, Nat.min_self]
      rw [skipLine_eq hover.2 (cutLine_ne_nil h), rest_of_open hover.2, readRaw,
        if_pos (by omega), readOversized_take py hstart]
      rfl
    · rfl
  · have hne : stdin.take (maxStdinLineBytes + 1) ≠ [] := by
      refine List.length_pos_iff.mp ?_
      rw [List.length_take]
      exact Nat.lt_min.mpr ⟨Nat.succ_pos _, List.length_pos_iff.mpr h⟩
    have hline := congrArg Prod.fst hcut
    have hlen : (stdin.take (maxStdinLineBytes + 1)).length = maxStdinLineBytes + 1 := by
      have hwhole := congrArg List.length (cutLine_append stdin)
      rw [List.length_append] at hwhole
      rw [List.length_take]
      exact Nat.min_eq_left (by omega)
    have hsize := length_le_bytes (cutLine stdin).1
    rw [heq]
    dsimp only
    rw [if_neg hne, if_pos (by simp [hlen, endsLine_eq_false hopen]), skipLine_eq
      (endsLine_eq_false hopen) hne, readRaw, if_pos (by omega), congrArg Prod.snd hcut]
    refine congrArg (·, _) (readOversized_take py ?_)
    rw [hline, List.take_take, List.take_append_of_le_length (by rw [hlen]; decide)]
    rw [Nat.min_self, List.take_take]

/-! ## The commands of an input -/

/-- The lines of the input, each with its end. -/
def lines (input : Text) : List Text :=
  (splitLines '\n' input).1.map (· ++ ['\n']) ++
    if (splitLines '\n' input).2 = [] then [] else [(splitLines '\n' input).2]

/-- A line within the limit that is an object with `id` and `method`. -/
def commandOf (py : Python) (raw : Text) : Option Members :=
  if maxStdinLineBytes < (bytes raw).length || pyStrip raw = [] then none
  else
    match py.loads (pyStrip raw) with
    | .value (.dict msg) => if Members.isCommand msg then some msg else none
    | _ => none

def commands (py : Python) (input : Text) : List Members := (lines input).filterMap (commandOf py)

/-- The line is read to its end, and a command among them is no cancellation at the same time. -/
structure Legible (py : Python) (raw : Text) : Prop where
  loads : readRaw py raw ≠ .fails
  command : ∀ msg, commandOf py raw = some msg → msg.has "cancel" = false

theorem cutLine_of_not_mem {s : Text} (h : '\n' ∉ s) : cutLine s = (s, []) := by
  induction s with
  | nil => rfl
  | cons c s ih =>
    have hc : c ≠ '\n' := fun heq => h (heq ▸ List.mem_cons_self)
    rw [cutLine, if_neg hc, ih fun hmem => h (List.mem_cons_of_mem _ hmem)]

theorem cutLine_line {line : Text} (h : '\n' ∉ line) (rest : Text) :
    cutLine (line ++ '\n' :: rest) = (line ++ ['\n'], rest) := by
  induction line with
  | nil => rfl
  | cons c line ih =>
    have hc : c ≠ '\n' := fun heq => h (heq ▸ List.mem_cons_self)
    rw [List.cons_append, cutLine, if_neg hc, ih fun hmem => h (List.mem_cons_of_mem _ hmem)]
    rfl

theorem lines_of_ne_nil {input : Text} (h : input ≠ []) :
    lines input = (cutLine input).1 :: lines (cutLine input).2 := by
  rcases line_cases '\n' input with hnot | ⟨line, rest, hnot, rfl⟩
  · rw [cutLine_of_not_mem hnot, lines, splitLines_of_not_mem hnot]
    exact if_neg h
  · rw [cutLine_line hnot, lines, splitLines_line hnot]
    rfl

theorem commands_of_ne_nil (py : Python) {input : Text} (h : input ≠ []) :
    commands py input =
      (commandOf py (cutLine input).1).toList ++ commands py (cutLine input).2 := by
  rw [commands, lines_of_ne_nil h, List.filterMap_cons]
  cases commandOf py (cutLine input).1 <;> rfl

/-- Of a legible line a command is read exactly when it is one. -/
theorem readRaw_of_legible {py : Python} {raw : Text} (h : Legible py raw) :
    (∃ msg, commandOf py raw = some msg ∧ readRaw py raw = .command msg) ∨
      commandOf py raw = none ∧ (readRaw py raw = .skip ∨ (∃ id, readRaw py raw = .reply id) ∨
        ∃ cancelId, readRaw py raw = .cancel cancelId) := by
  obtain ⟨hloads, hcommand⟩ := h
  unfold commandOf readRaw at *
  by_cases hsize : maxStdinLineBytes < (bytes raw).length
  · refine .inr ⟨by simp [hsize], ?_⟩
    rw [if_pos hsize, readOversized]
    cases oversizedRequestId py raw with
    | none => exact .inl rfl
    | some id => exact .inr (.inl ⟨id, rfl⟩)
  · by_cases hblank : pyStrip raw = []
    · exact .inr ⟨by simp [hblank], by simp [hsize, hblank]⟩
    · simp only [hsize, hblank, if_false] at hloads hcommand ⊢
      cases hval : py.loads (pyStrip raw) with
      | notJson => exact .inr ⟨rfl, .inl rfl⟩
      | fails =>
        rw [hval] at hloads
        exact absurd rfl hloads
      | value v =>
        cases v with
        | none | bool | int | float | str | list => exact .inr ⟨rfl, .inl rfl⟩
        | dict msg =>
          rw [hval] at hcommand
          dsimp only at hcommand ⊢
          by_cases hkeys : Members.isCommand msg = true
          · rw [if_pos hkeys] at hcommand ⊢
            have hcancel := hcommand msg rfl
            refine .inl ⟨msg, rfl, ?_⟩
            rw [readObject, Option.not_isSome_iff_eq_none.mp (Bool.eq_false_iff.mp hcancel)]
            exact if_pos hkeys
          · rw [if_neg hkeys]
            refine .inr ⟨rfl, ?_⟩
            unfold readObject
            split
            next cancelId _ => exact .inr (.inr ⟨cancelId, rfl⟩)
            · exact .inl (if_neg hkeys)

end CampusAuth.Worker
