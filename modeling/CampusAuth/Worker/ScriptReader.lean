import CampusAuth.Worker.Variables
import Mathlib.Data.List.Forall2

/- The scan of a script, one character after the other.

   The scan looks one character ahead, skips what is escaped and takes words as a whole, so it
   cannot be cut in two. `Reader` takes one character after the other and remembers what it waits
   for (`scan_eq`). Two readers that differ only in tokens behind which a slash means the same
   stay so (`Alike`). -/
namespace CampusAuth.Worker
open Lib

section
variable (o : CharClasses)

/-! ## One character after the other -/

/-- What the reader waits for: the character behind a backslash, a slash, an asterisk or a dollar
    sign, or the rest of a word. -/
inductive Pending where
  | none | escaped | slash | star | dollar | word
  deriving DecidableEq

structure Reader where
  frames : List Frame
  pending : Pending

/-- What a character makes the reader wait for. -/
def waits : List Frame → Char → Pending
  | [], _ => .none
  | frame :: _, c =>
    match frame.mode with
    | .single | .double | .regex => if c = '\\' then .escaped else .none
    | .template => if c = '\\' then .escaped else if c = '$' then .dollar else .none
    | .lineComment => .none
    | .blockComment => if c = '*' then .star else .none
    | .code =>
      if o.isSpace c then .none
      else if c = '/' then .slash
      else if isTokenStart o c then .word
      else .none

/-- The frames behind a character when nothing follows it. -/
def advance (frames : List Frame) (c : Char) : List Frame := (turn o frames c []).1

def enter (frames : List Frame) (c : Char) : Reader :=
  match waits o frames c with
  | .none => ⟨advance o frames c, .none⟩
  | .word => ⟨advance o frames c, .word⟩
  | pending => ⟨frames, pending⟩

def extend : List Frame → Char → List Frame
  | frame :: below, c => { frame with token := frame.token.map (· ++ [c]) } :: below
  | [], _ => []

def read (s : Reader) (c : Char) : Reader :=
  match s.pending with
  | .none => enter o s.frames c
  | .escaped => ⟨s.frames, .none⟩
  | .slash =>
    if c = '/' then ⟨{ mode := .lineComment } :: s.frames, .none⟩
    else if c = '*' then ⟨{ mode := .blockComment } :: s.frames, .none⟩
    else enter o (advance o s.frames '/') c
  | .star => if c = '/' then ⟨s.frames.tail, .none⟩ else enter o s.frames c
  | .dollar =>
    if c = '{' then ⟨{ mode := .code, depth := some 1 } :: s.frames, .none⟩
    else enter o s.frames c
  | .word => if isTokenChar o c then ⟨extend s.frames c, .word⟩ else enter o s.frames c

/-- The frames when nothing follows. -/
def settle (s : Reader) : List Frame :=
  match s.pending with
  | .slash => advance o s.frames '/'
  | _ => s.frames

variable {o} {frames : List Frame} {c : Char} {rest : Text}

/-! ## What a turn waits for -/

section
variable {quote : Char} {frame : Frame} {below : List Frame}

theorem turnQuoted_rest (h : c ≠ '\\') :
    turnQuoted quote frame below c rest = ((turnQuoted quote frame below c []).1, rest) := by
  unfold turnQuoted
  rw [if_neg h, if_neg h]
  split <;> rfl

theorem turnTemplate_rest (h : c ≠ '\\') (hd : c ≠ '$') :
    turnTemplate frame below c rest = ((turnTemplate frame below c []).1, rest) := by
  unfold turnTemplate
  rw [if_neg h, if_neg h]
  by_cases hb : c = backquote
  · rw [if_pos hb, if_pos hb]
  · rw [if_neg hb, if_neg hb, if_neg fun hc => hd hc.1, if_neg fun hc => hd hc.1]

theorem turnRegex_rest (h : c ≠ '\\') :
    turnRegex frame below c rest = ((turnRegex frame below c []).1, rest) := by
  unfold turnRegex
  rw [if_neg h, if_neg h]
  repeat' split
  all_goals rfl

theorem readToken_rest (h : isTokenStart o c = false) (rest : Text) :
    readToken o c rest = ((readToken o c []).1, rest) := by
  unfold readToken
  rw [h]
  rfl

theorem turnCode_rest (h : c ≠ '/') (hstart : isTokenStart o c = false) :
    turnCode o frame below c rest = ((turnCode o frame below c []).1, rest) := by
  unfold turnCode
  cases o.isSpace c with
  | true => rfl
  | false =>
    simp only [if_neg fun hc : c = '/' ∧ _ => h hc.1, Bool.false_eq_true, if_false]
    cases quoteMode c with
    | some mode => rfl
    | none =>
      cases countBraces c frame.depth with
      | none => rfl
      | some depth =>
        simp only [readToken_rest hstart rest]

end

theorem turn_none (h : waits o frames c = .none) :
    turn o frames c rest = (advance o frames c, rest) := by
  cases frames with
  | nil => rfl
  | cons frame below =>
    obtain ⟨mode, depth, token, charClass⟩ := frame
    cases mode with
    | single | double | regex =>
      have hc : c ≠ '\\' := fun hc => by simp [waits, hc] at h
      first | exact turnQuoted_rest hc | exact turnRegex_rest hc
    | template =>
      refine turnTemplate_rest (fun hc => ?_) fun hc => ?_
      all_goals simp [waits, hc] at h
    | lineComment =>
      simp only [turn, advance]
      split <;> rfl
    | blockComment =>
      have hc : c ≠ '*' := fun hc => by simp [waits, hc] at h
      simp [turn, advance, hc]
    | code =>
      cases hspace : o.isSpace c with
      | true => simp [turn, advance, turnCode, hspace]
      | false =>
        have hslash : c ≠ '/' := fun hc => by
          rw [hc] at hspace h
          simp [waits, hspace] at h
        refine turnCode_rest hslash (Bool.eq_false_iff.mpr fun hstart => ?_)
        simp [waits, hspace, hslash, hstart] at h

theorem turn_escaped (h : waits o frames c = .escaped) :
    turn o frames c rest = (frames, rest.drop 1) := by
  cases frames with
  | nil => simp [waits] at h
  | cons frame below =>
    obtain ⟨mode, depth, token, charClass⟩ := frame
    cases mode with
    | single | double | template | regex =>
      have hc : c = '\\' := by
        by_contra hc
        simp only [waits, if_neg hc] at h
        try split at h
        all_goals cases h
      simp [turn, turnQuoted, turnTemplate, turnRegex, hc]
    | lineComment => simp [waits] at h
    | blockComment | code =>
      simp only [waits] at h
      repeat' split at h
      all_goals cases h

theorem of_waits_escaped (h : waits o frames c = .escaped) : c = '\\' ∧ modeOf frames ≠ .code := by
  unfold waits at h
  repeat' split at h
  all_goals first | cases h; done | exact ⟨‹_›, by simp [modeOf, *]⟩

theorem of_waits_slash (h : waits o frames c = .slash) :
    c = '/' ∧ ∃ frame below, frames = frame :: below ∧ frame.mode = .code := by
  unfold waits at h
  repeat' split at h
  all_goals first | cases h; done | exact ⟨‹_›, _, _, rfl, ‹_›⟩

theorem of_waits_star (h : waits o frames c = .star) :
    c = '*' ∧ ∃ frame below, frames = frame :: below ∧ frame.mode = .blockComment := by
  unfold waits at h
  repeat' split at h
  all_goals first | cases h; done | exact ⟨‹_›, _, _, rfl, ‹_›⟩

theorem of_waits_dollar (h : waits o frames c = .dollar) :
    c = '$' ∧ ∃ frame below, frames = frame :: below ∧ frame.mode = .template := by
  unfold waits at h
  repeat' split at h
  all_goals first | cases h; done | exact ⟨‹_›, _, _, rfl, ‹_›⟩

theorem of_waits_word (h : waits o frames c = .word) :
    (isTokenStart o c = true ∧ o.isSpace c = false) ∧
      ∃ frame below, frames = frame :: below ∧ frame.mode = .code := by
  unfold waits at h
  repeat' split at h
  all_goals
    first
    | cases h; done
    | exact ⟨⟨‹_›, Bool.eq_false_iff.mpr ‹_›⟩, _, _, rfl, ‹_›⟩

theorem CharClasses.special_slash (o : CharClasses) :
    o.isSpace '/' = false ∧ isTokenStart o '/' = false := by
  have h := o.special '/' (by decide)
  simp [isTokenStart, h]

theorem readToken_nil : (readToken o c []).2 = [] := by
  unfold readToken
  split <;> rfl

theorem turn_nil : turn o frames c [] = (advance o frames c, []) := by
  refine Prod.ext rfl ?_
  unfold turn turnQuoted turnTemplate turnRegex turnCode
  repeat' split
  all_goals
    first
    | rfl
    | exact (congrArg Prod.snd ‹readToken o _ [] = _›).symm.trans readToken_nil

theorem turn_slash {d : Char} {frame : Frame} {below : List Frame} (hmode : frame.mode = .code) :
    turn o (frame :: below) '/' (d :: rest) =
      if d = '/' then ({ mode := .lineComment } :: frame :: below, rest)
      else if d = '*' then ({ mode := .blockComment } :: frame :: below, rest)
      else (advance o (frame :: below) '/', d :: rest) := by
  obtain ⟨hspace, hstart⟩ := o.special_slash
  simp only [turn, advance, hmode, turnCode, hspace, readToken_rest hstart (d :: rest),
    List.head?_cons, Option.some.injEq, List.drop_one, List.tail_cons]
  by_cases h : d = '/'
  · simp [h]
  by_cases h' : d = '*'
  · simp [h']
  simp only [h, h', and_false, if_false, Bool.false_eq_true, List.head?_nil, reduceCtorEq]
  by_cases hr : frame.token ∈ regexPrefixTokens
  · simp [hr]
  simp only [hr, and_false, if_false, show quoteMode '/' = none from rfl]
  cases countBraces '/' frame.depth <;> rfl

theorem turn_star {d : Char} {frame : Frame} {below : List Frame}
    (hmode : frame.mode = .blockComment) :
    turn o (frame :: below) '*' (d :: rest) =
      if d = '/' then (below, rest) else (frame :: below, d :: rest) := by
  simp only [turn, hmode]
  by_cases h : d = '/' <;> simp [h]

theorem turn_dollar {d : Char} {frame : Frame} {below : List Frame}
    (hmode : frame.mode = .template) :
    turn o (frame :: below) '$' (d :: rest) =
      if d = '{' then ({ mode := .code, depth := some 1 } :: frame :: below, rest)
      else (frame :: below, d :: rest) := by
  simp only [turn, hmode, turnTemplate]
  by_cases h : d = '{' <;> simp [h, backquote]

/-- A word is read to its end. -/
theorem turn_word {frame : Frame} {below : List Frame} (hmode : frame.mode = .code)
    (hstart : isTokenStart o c = true) (hspace : o.isSpace c = false) :
    turn o (frame :: below) c rest =
      ({ frame with token := some (c :: rest.takeWhile (isTokenChar o)) } :: below,
        rest.dropWhile (isTokenChar o)) := by
  have hne : ∀ d ∈ backquote :: "\\'\"\x7b\x7d/*[]".toList, c ≠ d := by
    have hsub : ∀ d ∈ backquote :: "\\'\"\x7b\x7d/*[]".toList,
        d ∈ backquote :: "\\'\"$\x7b\x7d/*[]_".toList :=
      @of_decide_eq_true _ (List.decidableBAll _ _) rfl
    rintro d hd rfl
    have hspecial := (o.special c (hsub c hd)).1
    simp only [isTokenStart, hspecial, Bool.false_or, Bool.or_eq_true, beq_iff_eq] at hstart
    rcases hstart with rfl | rfl <;> revert hd <;> decide
  have hq : quoteMode c = none := by
    rw [quoteMode, if_neg (hne _ (by decide)), if_neg (hne _ (by decide)),
      if_neg (hne _ (by decide))]
  have hb : countBraces c frame.depth = some frame.depth := by
    cases frame.depth with
    | none => rfl
    | some depth =>
      rw [countBraces, if_neg (hne _ (by decide)), if_neg (hne _ (by decide))]
  have hslash := hne '/' (by decide)
  simp [turn, hmode, turnCode, hspace, hslash, hq, hb, readToken, hstart]

/-! ## The scan by characters -/

theorem settle_word {frame : Frame} {below : List Frame} (word : Text) :
    settle o (rest.foldl (read o) ⟨{ frame with token := some word } :: below, .word⟩) =
      settle o ((rest.dropWhile (isTokenChar o)).foldl (read o)
        ⟨{ frame with token := some (word ++ rest.takeWhile (isTokenChar o)) } :: below, .none⟩) := by
  induction rest generalizing word with
  | nil => simp [settle]
  | cons d rest ih =>
    cases hd : isTokenChar o d with
    | true =>
      have hread : read o ⟨{ frame with token := some word } :: below, .word⟩ d =
          ⟨{ frame with token := some (word ++ [d]) } :: below, .word⟩ := if_pos hd
      simp only [List.foldl_cons, hread, ih, List.takeWhile_cons, List.dropWhile_cons, hd, if_true,
        List.append_assoc, List.singleton_append]
    | false =>
      have hread : read o ⟨{ frame with token := some word } :: below, .word⟩ d =
          enter o ({ frame with token := some word } :: below) d := if_neg (by rw [hd]; decide)
      simp only [List.foldl_cons, hread, List.takeWhile_cons, List.dropWhile_cons, hd,
        Bool.false_eq_true, if_false, List.append_nil]
      rfl

theorem scan_eq {t : Text} {n : Nat} (h : t.length ≤ n) :
    scan o n frames t = settle o (t.foldl (read o) ⟨frames, .none⟩) := by
  induction n generalizing frames t with
  | zero =>
    rw [List.length_eq_zero_iff.mp (Nat.le_zero.mp h)]
    rfl
  | succ n ih =>
    cases t with
    | nil => rfl
    | cons c rest =>
      have hlen : rest.length ≤ n := Nat.le_of_succ_le_succ h
      have hread : read o ⟨frames, .none⟩ c = enter o frames c := rfl
      rw [scan, List.foldl_cons, hread]
      cases hw : waits o frames c with
      | none =>
        rw [turn_none hw, ih hlen]
        simp only [enter, hw]
      | escaped =>
        rw [turn_escaped hw]
        simp only [enter, hw]
        cases rest with
        | nil => exact ih (Nat.zero_le _)
        | cons d rest => exact ih (Nat.le_of_succ_le hlen)
      | word =>
        obtain ⟨⟨hstart, hspace⟩, frame, below, rfl, hmode⟩ := of_waits_word hw
        rw [turn_word hmode hstart hspace, ih ((List.dropWhile_suffix _).length_le.trans hlen)]
        simp only [enter, hw]
        rw [advance, turn_word hmode hstart hspace, List.takeWhile_nil, settle_word]
        rfl
      | slash =>
        obtain ⟨rfl, frame, below, rfl, hmode⟩ := of_waits_slash hw
        simp only [enter, hw]
        cases rest with
        | nil => rw [turn_nil]; exact ih (Nat.zero_le _)
        | cons d rest =>
          have hlen' : rest.length ≤ n := Nat.le_of_succ_le hlen
          rw [turn_slash hmode, List.foldl_cons]
          simp only [read]
          by_cases h1 : d = '/'
          · rw [if_pos h1, if_pos h1, ih hlen']
          by_cases h2 : d = '*'
          · rw [if_neg h1, if_neg h1, if_pos h2, if_pos h2, ih hlen']
          rw [if_neg h1, if_neg h1, if_neg h2, if_neg h2, ih hlen]
          rfl
      | star =>
        obtain ⟨rfl, frame, below, rfl, hmode⟩ := of_waits_star hw
        simp only [enter, hw]
        cases rest with
        | nil => rw [turn_nil, advance, turn]; simp only [hmode]; exact ih (Nat.zero_le _)
        | cons d rest =>
          rw [turn_star hmode, List.foldl_cons]
          simp only [read]
          by_cases h1 : d = '/'
          · rw [if_pos h1, if_pos h1, ih (Nat.le_of_succ_le hlen)]
            rfl
          rw [if_neg h1, if_neg h1, ih hlen]
          rfl
      | dollar =>
        obtain ⟨rfl, frame, below, rfl, hmode⟩ := of_waits_dollar hw
        simp only [enter, hw]
        cases rest with
        | nil => rw [turn_nil, advance, turn]; simp only [hmode]; exact ih (Nat.zero_le _)
        | cons d rest =>
          rw [turn_dollar hmode, List.foldl_cons]
          simp only [read]
          by_cases h1 : d = '{'
          · rw [if_pos h1, if_pos h1, ih (Nat.le_of_succ_le hlen)]
          rw [if_neg h1, if_neg h1, ih hlen]
          rfl

/-! ## Readers that differ in tokens only -/

/-- A slash behind the one token means what it means behind the other. -/
structure FrameAlike (frame frame' : Frame) : Prop where
  mode : frame.mode = frame'.mode
  depth : frame.depth = frame'.depth
  charClass : frame.charClass = frame'.charClass
  token : frame.token = frame'.token ∨
    frame.token ∉ regexPrefixTokens ∧ frame'.token ∉ regexPrefixTokens

def FramesAlike (frames frames' : List Frame) : Prop := List.Forall₂ FrameAlike frames frames'

/-- A word that is being read is the same in both. -/
structure Alike (s s' : Reader) : Prop where
  frames : FramesAlike s.frames s'.frames
  pending : s.pending = s'.pending
  word : s.pending = .word → s.frames.head?.map Frame.token = s'.frames.head?.map Frame.token

variable {frames' : List Frame} {frame frame' : Frame} {s s' : Reader}

theorem FrameAlike.refl (frame : Frame) : FrameAlike frame frame := ⟨rfl, rfl, rfl, .inl rfl⟩

theorem FramesAlike.refl (frames : List Frame) : FramesAlike frames frames :=
  List.forall₂_same.mpr fun frame _ => .refl frame

theorem Alike.refl (s : Reader) : Alike s s := ⟨.refl _, rfl, fun _ => rfl⟩

theorem FrameAlike.mem_iff (h : FrameAlike frame frame') :
    frame.token ∈ regexPrefixTokens ↔ frame'.token ∈ regexPrefixTokens := by
  rcases h.token with heq | ⟨hf, hf'⟩
  · rw [heq]
  · exact iff_of_false hf hf'

theorem FramesAlike.modeOf_eq (h : FramesAlike frames frames') : modeOf frames = modeOf frames' := by
  cases h with
  | nil => rfl
  | cons hframe _ => exact hframe.mode

theorem FramesAlike.setValue (h : FramesAlike frames frames') :
    FramesAlike (setValue frames) (setValue frames') := by
  cases h with
  | nil => exact .nil
  | cons hframe hbelow =>
    exact .cons ⟨hframe.mode, hframe.depth, hframe.charClass, .inl rfl⟩ hbelow

theorem FramesAlike.tail (h : FramesAlike frames frames') : FramesAlike frames.tail frames'.tail := by
  cases h with
  | nil => exact .nil
  | cons _ hbelow => exact hbelow

theorem FramesAlike.waits_eq (h : FramesAlike frames frames') :
    waits o frames c = waits o frames' c := by
  cases h with
  | nil => rfl
  | cons hframe _ => simp only [waits, hframe.mode]

theorem FramesAlike.advance (h : FramesAlike frames frames') :
    FramesAlike (advance o frames c) (advance o frames' c) := by
  have hall := h
  cases h with
  | nil => exact hall
  | @cons frame frame' below below' hframe hbelow =>
    have hbelow : FramesAlike below below' := hbelow
    have hmem := hframe.mem_iff
    obtain ⟨mode, depth, token, charClass⟩ := frame
    obtain ⟨mode', depth', token', charClass'⟩ := frame'
    obtain ⟨rfl, rfl, rfl, htoken⟩ := hframe
    simp only at hmem
    cases mode with
    | single | double =>
      simp only [Worker.advance, turn, turnQuoted]
      repeat' split
      exacts [hall, hbelow.setValue, hall]
    | template =>
      simp only [Worker.advance, turn, turnTemplate]
      repeat' split
      exacts [hall, hbelow.setValue, .cons (.refl _) hall, hall]
    | lineComment | blockComment =>
      simp only [Worker.advance, turn]
      split
      exacts [hbelow, hall]
    | regex =>
      simp only [Worker.advance, turn, turnRegex]
      repeat' split
      exacts [hall, .cons ⟨rfl, rfl, rfl, htoken⟩ hbelow, .cons ⟨rfl, rfl, rfl, htoken⟩ hbelow,
        hbelow.setValue, hall]
    | code =>
      simp only [Worker.advance, turn, turnCode, hmem]
      repeat' split
      all_goals
        first
        | exact hall
        | exact hbelow
        | exact .cons (.refl _) hall
        | exact .cons ⟨rfl, rfl, rfl, .inl rfl⟩ hbelow

theorem head_advance_word (h : waits o frames c = .word) :
    (advance o frames c).head?.map Frame.token = some (some [c]) := by
  obtain ⟨⟨hstart, hspace⟩, frame, below, rfl, hmode⟩ := of_waits_word h
  rw [advance, turn_word hmode hstart hspace]
  rfl

theorem FramesAlike.enter (h : FramesAlike frames frames') :
    Alike (enter o frames c) (enter o frames' c) := by
  unfold Worker.enter
  rw [h.waits_eq]
  cases hw : waits o frames' c with
  | none => exact ⟨h.advance, rfl, fun hp => nomatch hp⟩
  | word =>
    refine ⟨h.advance, rfl, fun _ => ?_⟩
    rw [head_advance_word hw, head_advance_word (h.waits_eq.trans hw)]
  | escaped | slash | star | dollar => exact ⟨h, rfl, fun hp => nomatch hp⟩

theorem Alike.extend (h : Alike s s') (hword : s.pending = .word) :
    FramesAlike (extend s.frames c) (extend s'.frames c) ∧
      (extend s.frames c).head?.map Frame.token = (extend s'.frames c).head?.map Frame.token := by
  have hhead := h.word hword
  have hframes := h.frames
  revert hhead hframes
  cases s.frames <;> cases s'.frames <;> intro hhead hframes
  case nil.nil => exact ⟨.nil, rfl⟩
  case cons.cons frame below frame' below' =>
    obtain ⟨hmode, hdepth, hclass, -⟩ := (List.forall₂_cons.mp hframes).1
    have htoken : frame.token = frame'.token := Option.some.inj hhead
    have hnew : frame.token.map (· ++ [c]) = frame'.token.map (· ++ [c]) := by rw [htoken]
    exact ⟨.cons ⟨hmode, hdepth, hclass, .inl hnew⟩ (List.forall₂_cons.mp hframes).2,
      congrArg some hnew⟩
  all_goals cases hframes

theorem Alike.read (h : Alike s s') : Alike (read o s c) (read o s' c) := by
  unfold Worker.read
  have hframes := h.frames
  have hnone : ∀ {frames frames'}, FramesAlike frames frames' →
      Alike ⟨frames, .none⟩ ⟨frames', .none⟩ := fun h => ⟨h, rfl, fun hp => nomatch hp⟩
  rw [← h.pending]
  cases hp : s.pending with
  | none => exact hframes.enter
  | escaped => exact hnone hframes
  | slash =>
    simp only
    split
    · exact hnone (.cons (.refl _) hframes)
    split
    · exact hnone (.cons (.refl _) hframes)
    · exact hframes.advance.enter
  | star =>
    simp only
    split
    · exact hnone hframes.tail
    · exact hframes.enter
  | dollar =>
    simp only
    split
    · exact hnone (.cons (.refl _) hframes)
    · exact hframes.enter
  | word =>
    simp only
    split
    · exact ⟨(h.extend hp).1, rfl, fun _ => (h.extend hp).2⟩
    · exact hframes.enter

theorem Alike.foldl (h : Alike s s') (t : Text) :
    Alike (t.foldl (Worker.read o) s) (t.foldl (Worker.read o) s') := by
  induction t generalizing s s' with
  | nil => exact h
  | cons c t ih => exact ih h.read

theorem Alike.settle (h : Alike s s') : FramesAlike (settle o s) (settle o s') := by
  unfold Worker.settle
  rw [← h.pending]
  cases s.pending with
  | slash => exact h.frames.advance
  | none | escaped | star | dollar | word => exact h.frames

/-! ## What is waited for and what was read -/

def begin : Reader := ⟨[{ mode := .code }], .none⟩

variable (o) in
def readAll (t : Text) : Reader := t.foldl (read o) begin

theorem javascriptContextAt_eq (source : Text) (offset : Nat) :
    javascriptContextAt o source offset = modeOf (settle o (readAll o (source.take offset))) :=
  congrArg modeOf (scan_eq (List.length_take_le _ _))

/-- At the bottom is the code of the script, and code above it has an open brace. -/
inductive Stacked : List Frame → Prop where
  | bottom {frame : Frame} : frame.mode = .code → frame.depth = none → Stacked [frame]
  | above {frame : Frame} {frames : List Frame} : frame.depth ≠ some 0 → Stacked frames →
      Stacked (frame :: frames)

/-- What is waited for fits the mode and the last character. -/
structure Fits (s : Reader) (done : Text) : Prop where
  stacked : Stacked s.frames
  escaped : s.pending = .escaped → done.getLast? = some '\\' ∧ modeOf s.frames ≠ .code
  slash : s.pending = .slash → modeOf s.frames = .code
  star : s.pending = .star → modeOf s.frames = .blockComment
  dollar : s.pending = .dollar → done.getLast? = some '$' ∧ modeOf s.frames = .template
  word : s.pending = .word → modeOf s.frames = .code

namespace Stacked
variable {below : List Frame}

theorem depth (h : Stacked (frame :: below)) : frame.depth ≠ some 0 := by
  cases h with
  | bottom _ hdepth => simp [hdepth]
  | above hdepth _ => exact hdepth

theorem pop (h : Stacked (frame :: below)) (hne : frame.mode = .code → frame.depth ≠ none) :
    Stacked below := by
  cases h with
  | bottom hmode hdepth => exact absurd hdepth (hne hmode)
  | above _ h => exact h

theorem change (h : Stacked (frame :: below)) {new : Frame} (hmode : new.mode = frame.mode)
    (hnone : frame.depth = none → new.depth = none) (hzero : new.depth ≠ some 0) :
    Stacked (new :: below) := by
  cases h with
  | bottom hcode hdepth => exact .bottom (hmode.trans hcode) (hnone hdepth)
  | above _ h => exact .above hzero h

theorem setValue (h : Stacked frames) : Stacked (setValue frames) := by
  cases h with
  | bottom hmode hdepth => exact .bottom hmode hdepth
  | above hdepth h => exact .above hdepth h

theorem countBraces {depth new : Option Nat} (h : depth ≠ some 0)
    (hnew : Worker.countBraces c depth = some new) :
    new ≠ some 0 ∧ (depth = none → new = none) := by
  cases depth with
  | none => cases hnew; simp
  | some n =>
    have hpos : n ≠ 0 := fun hn => h (congrArg some hn)
    simp only [Worker.countBraces] at hnew
    repeat' split at hnew
    all_goals first | cases hnew; done | (cases hnew; simp) <;> omega

theorem countBraces_last {depth : Option Nat} (h : Worker.countBraces c depth = none) :
    depth ≠ none := by
  rintro rfl
  cases h

theorem advance (h : Stacked frames) : Stacked (advance o frames c) := by
  cases frames with
  | nil => cases h
  | cons frame below =>
    have hnew : ∀ {mode depth}, depth ≠ some 0 →
        Stacked ({ mode := mode, depth := depth } :: frame :: below) := fun hd => .above hd h
    have hzero := h.depth
    obtain ⟨mode, depth, token, charClass⟩ := frame
    cases mode with
    | single | double =>
      have hbelow := h.pop fun hmode => nomatch hmode
      simp only [Worker.advance, turn, turnQuoted]
      repeat' split
      exacts [h, hbelow.setValue, h]
    | template =>
      have hbelow := h.pop fun hmode => nomatch hmode
      simp only [Worker.advance, turn, turnTemplate]
      repeat' split
      exacts [h, hbelow.setValue, hnew (by simp), h]
    | lineComment | blockComment =>
      have hbelow := h.pop fun hmode => nomatch hmode
      simp only [Worker.advance, turn]
      split
      exacts [hbelow, h]
    | regex =>
      have hbelow := h.pop fun hmode => nomatch hmode
      simp only [Worker.advance, turn, turnRegex]
      repeat' split
      exacts [h, .above hzero hbelow, .above hzero hbelow, hbelow.setValue, h]
    | code =>
      simp only [Worker.advance, turn, turnCode]
      repeat' split
      all_goals
        first
        | exact h
        | exact hnew (by simp)
        | exact h.pop fun _ => countBraces_last ‹_›
        | exact h.change rfl (countBraces hzero ‹_›).2 (countBraces hzero ‹_›).1

end Stacked

theorem Fits.enter (h : Stacked frames) (done : Text) : Fits (enter o frames c) (done ++ [c]) := by
  unfold Worker.enter
  cases hw : waits o frames c with
  | none => exact ⟨h.advance, by simp, by simp, by simp, by simp, by simp⟩
  | escaped =>
    obtain ⟨rfl, hmode⟩ := of_waits_escaped hw
    exact ⟨h, fun _ => ⟨by simp, hmode⟩, by simp, by simp, by simp, by simp⟩
  | slash =>
    obtain ⟨rfl, frame, below, rfl, hmode⟩ := of_waits_slash hw
    exact ⟨h, by simp, fun _ => hmode, by simp, by simp, by simp⟩
  | star =>
    obtain ⟨rfl, frame, below, rfl, hmode⟩ := of_waits_star hw
    exact ⟨h, by simp, by simp, fun _ => hmode, by simp, by simp⟩
  | dollar =>
    obtain ⟨rfl, frame, below, rfl, hmode⟩ := of_waits_dollar hw
    exact ⟨h, by simp, by simp, by simp, fun _ => ⟨by simp, hmode⟩, by simp⟩
  | word =>
    obtain ⟨⟨hstart, hspace⟩, frame, below, rfl, hmode⟩ := of_waits_word hw
    refine ⟨h.advance, by simp, by simp, by simp, by simp, fun _ => ?_⟩
    rw [advance, turn_word hmode hstart hspace]
    exact hmode

theorem Fits.read {done : Text} (h : Fits s done) : Fits (read o s c) (done ++ [c]) := by
  have hnone : ∀ {frames}, Stacked frames → Fits ⟨frames, .none⟩ (done ++ [c]) :=
    fun h => ⟨h, by simp, by simp, by simp, by simp, by simp⟩
  have hstacked : Stacked s.frames := h.stacked
  unfold Worker.read
  cases hp : s.pending with
  | none => exact .enter hstacked done
  | escaped => exact hnone hstacked
  | slash =>
    simp only
    split
    · exact hnone (.above (by simp) hstacked)
    split
    · exact hnone (.above (by simp) hstacked)
    · exact .enter hstacked.advance done
  | star =>
    simp only
    split
    · have hmode := h.star hp
      cases hf : s.frames with
      | nil =>
        rw [hf] at hstacked
        cases hstacked
      | cons frame below =>
        rw [hf] at hstacked hmode
        exact hnone (hstacked.pop fun hcode => nomatch hmode.symm.trans hcode)
    · exact .enter hstacked done
  | dollar =>
    simp only
    split
    · exact hnone (.above (by simp) hstacked)
    · exact .enter hstacked done
  | word =>
    simp only
    split
    · have hmode := h.word hp
      cases hf : s.frames with
      | nil =>
        rw [hf] at hstacked
        cases hstacked
      | cons frame below =>
        rw [hf] at hmode hstacked
        exact ⟨hstacked.change rfl id hstacked.depth, by simp, by simp, by simp, by simp,
          fun _ => hmode⟩
    · exact .enter hstacked done

theorem readAll_append (t u : Text) : readAll o (t ++ u) = u.foldl (read o) (readAll o t) :=
  List.foldl_append

theorem fits_readAll (done : Text) : Fits (readAll o done) done := by
  induction done using List.reverseRecOn with
  | nil => exact ⟨.bottom rfl rfl, nofun, nofun, nofun, nofun, nofun⟩
  | append_singleton done c ih =>
    rw [readAll_append]
    exact ih.read

end
end CampusAuth.Worker
