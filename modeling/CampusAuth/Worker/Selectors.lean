import CampusAuth.Lib.Cutting
import CampusAuth.Lib.Text

/- The candidates of a selector (`python_worker/step_handlers.py`: `_split_selector_candidates`).

   A click step may name several selectors, separated by commas. A comma in quotes, parentheses,
   brackets or behind a backslash belongs to the CSS of one of them (`Outside`, `cuts_iff`). A
   candidate that is split again stays whole, also when it looks like an XPath by itself. -/
namespace CampusAuth.Worker.Selectors
open Lib Lib.Cutting

/-! ## The source -/

/-- The characters that `str.strip` removes. -/
def isSpace (c : Char) : Bool := isWhitespace c || (28 ≤ c.toNat && c.toNat ≤ 31)

def strip (s : Text) : Text := (s.dropWhile isSpace).rdropWhile isSpace

def isNameStart (c : Char) : Bool := c.isAlpha || c == '_'

def isNameChar (c : Char) : Bool := c.isAlphanum || c == '_' || c == '-'

/-- A name of a selector engine and `=` at the start. -/
def namesEngine : Text → Bool
  | [] => false
  | c :: rest => isNameStart c && (rest.dropWhile isNameChar).head? == some '='

/-- Whether the commas of the trimmed selector are left to its engine. -/
def explicitEngine (value : Text) : Bool := value.head? == some '/' || namesEngine value

structure Scan where
  quote : Option Char
  escaped : Bool
  parenDepth : Nat
  bracketDepth : Nat
deriving DecidableEq

def Scan.start : Scan := ⟨none, false, 0, 0⟩

def Scan.next (s : Scan) (char : Char) : Scan :=
  if s.escaped then { s with escaped := false }
  else if char = '\\' then { s with escaped := true }
  else
    match s.quote with
    | some quote => if char = quote then { s with quote := none } else s
    | none =>
      if char = '\'' ∨ char = '"' then { s with quote := some char }
      else if char = '(' then { s with parenDepth := s.parenDepth + 1 }
      else if char = ')' ∧ 0 < s.parenDepth then { s with parenDepth := s.parenDepth - 1 }
      else if char = '[' then { s with bracketDepth := s.bracketDepth + 1 }
      else if char = ']' ∧ 0 < s.bracketDepth then { s with bracketDepth := s.bracketDepth - 1 }
      else s

/-- Whether the branch of the separating comma is taken. -/
def Scan.separates (s : Scan) (char : Char) : Bool :=
  !s.escaped && s.quote.isNone && char == ',' && s.parenDepth == 0 && s.bracketDepth == 0

structure Split where
  scan : Scan
  buf : Text
  result : List Text

/-- The result with what the buffer holds, if that is not blank. -/
def Split.flush (s : Split) : List Text :=
  let item := strip s.buf
  if item.isEmpty then s.result else s.result ++ [item]

/-- Every branch but the one of a separating comma appends the character. -/
def Split.read (s : Split) (char : Char) : Split :=
  if s.scan.separates char then ⟨s.scan.next char, [], s.flush⟩
  else ⟨s.scan.next char, s.buf ++ [char], s.result⟩

def splitSelectorCandidates (selector : Text) : List Text :=
  let value := strip selector
  if explicitEngine value then [value]
  else
    let result := (selector.foldl Split.read ⟨Scan.start, [], []⟩).flush
    if result.isEmpty then [strip selector] else result

/-! ## What a comma stands in -/

/-- A text between two quotes `q`. -/
inductive Quoted (q : Char) : Text → Prop
  | nil : Quoted q []
  | char {c : Char} {t : Text} : c ≠ '\\' → c ≠ q → Quoted q t → Quoted q (c :: t)
  | escape {c : Char} {t : Text} : Quoted q t → Quoted q ('\\' :: c :: t)

def IsQuote (c : Char) : Prop := c = '\'' ∨ c = '"'

/-- A text that ends outside quotes and escapes, and the characters outside them in it. -/
inductive Bare : Text → Text → Prop
  | nil : Bare [] []
  | char {c : Char} {t b : Text} : c ≠ '\\' → ¬IsQuote c → Bare t b → Bare (c :: t) (c :: b)
  | escape {c : Char} {t b : Text} : Bare t b → Bare ('\\' :: c :: t) b
  | quotes {q : Char} {body t b : Text} : IsQuote q → Quoted q body → Bare t b →
      Bare (q :: (body ++ q :: t)) b

/-- More is opened than closed again from some place on. -/
def Enclosed (opening closing : Char) (b : Text) : Prop :=
  ∃ suffix, suffix <:+ b ∧ suffix.count closing < suffix.count opening

/-- Behind this text one is outside quotes, escapes, parentheses and brackets. -/
def Outside (before : Text) : Prop :=
  ∃ b, Bare before b ∧ ¬Enclosed '(' ')' b ∧ ¬Enclosed '[' ']' b

/-- The text is cut at its outside commas and nowhere else. -/
structure CutOutside (text : Text) (ps : List Text) : Prop where
  joined : List.intercalate [','] ps = text
  between : ∀ front back, ps = front ++ back → front ≠ [] → back ≠ [] →
    Outside (List.intercalate [','] front)
  inside : ∀ front q r back, ps = front ++ (q ++ ',' :: r) :: back →
    ¬Outside (List.intercalate [','] (front ++ [q]))

def IsSpecial (c : Char) : Prop :=
  c = '\\' ∨ IsQuote c ∨ c = '(' ∨ c = ')' ∨ c = '[' ∨ c = ']' ∨ c = ','

/-- CSS whose quotes, parentheses and brackets are closed. `list` says whether it may have commas
    on its own level, as the text in parentheses may. -/
inductive Balanced : Bool → Text → Prop
  | nil {list : Bool} : Balanced list []
  | char {list : Bool} {c : Char} {t : Text} :
      ¬IsSpecial c → Balanced list t → Balanced list (c :: t)
  | comma {t : Text} : Balanced true t → Balanced true (',' :: t)
  | escape {list : Bool} {c : Char} {t : Text} :
      Balanced list t → Balanced list ('\\' :: c :: t)
  | quotes {list : Bool} {q : Char} {body t : Text} :
      IsQuote q → Quoted q body → Balanced list t → Balanced list (q :: (body ++ q :: t))
  | parens {list : Bool} {inner t : Text} :
      Balanced true inner → Balanced list t → Balanced list ('(' :: (inner ++ ')' :: t))
  | brackets {list : Bool} {inner t : Text} :
      Balanced true inner → Balanced list t → Balanced list ('[' :: (inner ++ ']' :: t))

/-- The candidates are the pieces without white space around them and without blank ones; only
    blank pieces leave the whole text. -/
def candidates (selector : Text) (ps : List Text) : List Text :=
  let kept := (ps.map strip).filter (!·.isEmpty)
  if kept.isEmpty then [strip selector] else kept

/-! ## The states of the scan -/

/-- Outside quotes and escapes. -/
abbrev Scan.open (p k : Nat) : Scan := ⟨none, false, p, k⟩

theorem next_backslash (quote : Option Char) (p k : Nat) :
    (⟨quote, false, p, k⟩ : Scan).next '\\' = ⟨quote, true, p, k⟩ := rfl

theorem next_escaped (quote : Option Char) (p k : Nat) (c : Char) :
    (⟨quote, true, p, k⟩ : Scan).next c = ⟨quote, false, p, k⟩ := rfl

theorem next_opens {q : Char} (h : IsQuote q) (p k : Nat) :
    (Scan.open p k).next q = ⟨some q, false, p, k⟩ := by
  rcases h with rfl | rfl <;> rfl

theorem next_closes {q : Char} (h : IsQuote q) (p k : Nat) :
    (⟨some q, false, p, k⟩ : Scan).next q = Scan.open p k := by
  rcases h with rfl | rfl <;> rfl

theorem next_quoted {q c : Char} (hc : c ≠ '\\') (hq : c ≠ q) (p k : Nat) :
    (⟨some q, false, p, k⟩ : Scan).next c = ⟨some q, false, p, k⟩ := by
  simp only [Scan.next, Bool.false_eq_true, if_false, if_neg hc, if_neg hq]

theorem next_plain {c : Char} (h : ¬IsSpecial c) (p k : Nat) :
    (Scan.open p k).next c = Scan.open p k := by
  simp only [IsSpecial, IsQuote, not_or] at h
  obtain ⟨h1, ⟨h2, h3⟩, h4, h5, h6, h7, -⟩ := h
  simp only [Scan.next, Bool.false_eq_true, if_false, if_neg h1, h2, h3, or_self, h4, h5, h6, h7,
    false_and]

theorem separates_iff {s : Scan} {c : Char} :
    s.separates c = true ↔ c = ',' ∧ s = Scan.start := by
  obtain ⟨quote, escaped, p, k⟩ := s
  simp only [Scan.separates, Scan.start, Bool.and_eq_true, Bool.not_eq_true', beq_iff_eq,
    Option.isNone_iff_eq_none, Scan.mk.injEq]
  tauto

theorem separates_sep (s : Scan) (c : Char) (h : s.separates c = true) : c = ',' :=
  (separates_iff.mp h).1

theorem next_separates (s : Scan) (c : Char) (h : s.separates c = true) :
    s.next c = Scan.start := by
  obtain ⟨rfl, rfl⟩ := separates_iff.mp h
  rfl

/-! ## Outside -/

/-- A counter that does not fall below 0. -/
def depth (opening closing : Char) (d : Nat) (b : Text) : Nat :=
  b.foldl (fun d c => if c = opening then d + 1 else if c = closing then d - 1 else d) d

/-- The counter is how much more is opened than closed, from the place on that makes it most. -/
theorem lt_depth_iff {opening closing : Char} (hne : opening ≠ closing) (b : Text) (n : Nat) :
    n < depth opening closing 0 b ↔
      ∃ suffix, suffix <:+ b ∧ suffix.count closing + n < suffix.count opening := by
  induction b using List.reverseRecOn generalizing n with
  | nil =>
    refine ⟨fun h => (Nat.not_lt_zero n h).elim, ?_⟩
    rintro ⟨suffix, hsuffix, hcount⟩
    rw [List.suffix_nil.mp hsuffix] at hcount
    cases hcount
  | append_singleton b c ih =>
    -- a suffix is empty or ends with the last character
    have hsplit : (∃ suffix, suffix <:+ b ++ [c] ∧
        suffix.count closing + n < suffix.count opening) ↔
        ∃ suffix, suffix <:+ b ∧
          suffix.count closing + [c].count closing + n < suffix.count opening + [c].count opening := by
      constructor
      · rintro ⟨suffix, hsuffix, hcount⟩
        rcases List.suffix_concat_iff.mp hsuffix with rfl | ⟨t, rfl, ht⟩
        · cases hcount
        · rw [List.count_append, List.count_append] at hcount
          exact ⟨t, ht, hcount⟩
      · rintro ⟨t, ht, hcount⟩
        refine ⟨t ++ [c], (List.suffix_append_self_iff).mpr ht, ?_⟩
        rw [List.count_append, List.count_append]
        exact hcount
    rw [hsplit, depth, List.foldl_append, List.foldl_cons, List.foldl_nil]
    change n < (if c = opening then depth opening closing 0 b + 1
      else if c = closing then depth opening closing 0 b - 1 else depth opening closing 0 b) ↔ _
    by_cases hopening : c = opening
    · subst hopening
      rw [if_pos rfl, List.count_singleton_self, List.count_singleton, if_neg (by simpa using hne)]
      cases n with
      | zero =>
        exact ⟨fun _ => ⟨[], List.nil_suffix, by simp⟩, fun _ => Nat.succ_pos _⟩
      | succ n =>
        rw [Nat.add_lt_add_iff_right, ih]
        refine exists_congr fun suffix => and_congr_right fun _ => ?_
        omega
    · by_cases hclosing : c = closing
      · subst hclosing
        rw [if_neg hopening, if_pos rfl, List.count_singleton_self, List.count_singleton,
          if_neg (by simpa using hopening), Nat.lt_sub_iff_add_lt, ih]
        refine exists_congr fun suffix => and_congr_right fun _ => ?_
        omega
      · rw [if_neg hopening, if_neg hclosing, List.count_singleton, List.count_singleton,
          if_neg (by simpa using hclosing), if_neg (by simpa using hopening), ih]
        rfl

theorem depth_eq_zero_iff {opening closing : Char} (hne : opening ≠ closing) (b : Text) :
    depth opening closing 0 b = 0 ↔ ¬Enclosed opening closing b := by
  exact (Nat.not_lt.trans Nat.le_zero).symm.trans (not_congr (lt_depth_iff hne b 0))

theorem next_bare {c : Char} (hc : c ≠ '\\') (hq : ¬IsQuote c) (p k : Nat) :
    (Scan.open p k).next c = Scan.open (depth '(' ')' p [c]) (depth '[' ']' k [c]) := by
  by_cases hspecial : IsSpecial c
  · rcases hspecial with rfl | h | rfl | rfl | rfl | rfl | rfl
    · exact absurd rfl hc
    · exact absurd h hq
    · rfl
    · cases p <;> rfl
    · rfl
    · cases k <;> rfl
    · rfl
  · rw [next_plain hspecial]
    simp only [IsSpecial, IsQuote, not_or] at hspecial
    obtain ⟨-, -, h4, h5, h6, h7, -⟩ := hspecial
    simp only [depth, List.foldl_cons, List.foldl_nil, if_neg h4, if_neg h5, if_neg h6, if_neg h7]

/-- Within quotes the scan stays in them. -/
theorem run_quoted {q : Char} {body : Text} (h : Quoted q body) (p k : Nat) :
    body.foldl Scan.next ⟨some q, false, p, k⟩ = ⟨some q, false, p, k⟩ := by
  induction h with
  | nil => rfl
  | char hc hq _ ih => rw [List.foldl_cons, next_quoted hc hq, ih]
  | escape _ ih => rw [List.foldl_cons, List.foldl_cons, next_backslash, next_escaped, ih]

theorem run_quotes {q : Char} {body : Text} (hq : IsQuote q) (h : Quoted q body) (t : Text)
    (p k : Nat) :
    (q :: (body ++ q :: t)).foldl Scan.next (Scan.open p k) =
      t.foldl Scan.next (Scan.open p k) := by
  rw [List.foldl_cons, next_opens hq, List.foldl_append, run_quoted h, List.foldl_cons,
    next_closes hq]

/-- Behind a bare text the scan is outside quotes and escapes, with its brackets counted. -/
theorem run_bare {t b : Text} (h : Bare t b) (p k : Nat) :
    t.foldl Scan.next (Scan.open p k) =
      Scan.open (depth '(' ')' p b) (depth '[' ']' k b) := by
  induction h generalizing p k with
  | nil => rfl
  | char hc hq _ ih =>
    rw [List.foldl_cons, next_bare hc hq, ih]
    rfl
  | escape _ ih => rw [List.foldl_cons, List.foldl_cons, next_backslash, next_escaped, ih]
  | quotes hq hbody _ ih => rw [run_quotes hq hbody, ih]

/-- The quotes are closed somewhere, or the text ends in them. -/
theorem quoted_or_open (q : Char) (t : Text) :
    (∃ body rest, t = body ++ q :: rest ∧ Quoted q body) ∨
      ∀ p k, (t.foldl Scan.next ⟨some q, false, p, k⟩).quote = some q := by
  match t with
  | [] => exact .inr fun _ _ => rfl
  | c :: t =>
    by_cases hc : c = '\\'
    · subst hc
      match t with
      | [] => exact .inr fun _ _ => rfl
      | d :: t =>
        rcases quoted_or_open q t with ⟨body, rest, rfl, hbody⟩ | hopen
        · exact .inl ⟨'\\' :: d :: body, rest, rfl, .escape hbody⟩
        · refine .inr fun p k => ?_
          rw [List.foldl_cons, List.foldl_cons, next_backslash, next_escaped]
          exact hopen p k
    · by_cases hq : c = q
      · subst hq
        exact .inl ⟨[], t, rfl, .nil⟩
      · rcases quoted_or_open q t with ⟨body, rest, rfl, hbody⟩ | hopen
        · exact .inl ⟨c :: body, rest, rfl, .char hc hq hbody⟩
        · refine .inr fun p k => ?_
          rw [List.foldl_cons, next_quoted hc hq]
          exact hopen p k

/-- A text is bare, or it ends in quotes or behind a backslash. -/
theorem bare_or_open (t : Text) :
    (∃ b, Bare t b) ∨ ∀ p k, (t.foldl Scan.next (Scan.open p k)).quote ≠ none ∨
      (t.foldl Scan.next (Scan.open p k)).escaped = true := by
  match t with
  | [] => exact .inl ⟨[], .nil⟩
  | c :: t =>
    by_cases hc : c = '\\'
    · subst hc
      match t with
      | [] => exact .inr fun _ _ => .inr rfl
      | d :: t =>
        rcases bare_or_open t with ⟨b, hb⟩ | hopen
        · exact .inl ⟨b, .escape hb⟩
        · refine .inr fun p k => ?_
          rw [List.foldl_cons, List.foldl_cons, next_backslash, next_escaped]
          exact hopen p k
    · by_cases hq : IsQuote c
      · rcases quoted_or_open c t with ⟨body, rest, rfl, hbody⟩ | hopen
        · have hshorter : rest.length < (body ++ c :: rest).length + 1 := by
            rw [List.length_append, List.length_cons]
            omega
          rcases bare_or_open rest with ⟨b, hb⟩ | hopen
          · exact .inl ⟨b, .quotes hq hbody hb⟩
          · refine .inr fun p k => ?_
            rw [run_quotes hq hbody]
            exact hopen p k
        · refine .inr fun p k => .inl ?_
          rw [List.foldl_cons, next_opens hq, hopen p k]
          exact Option.some_ne_none c
      · rcases bare_or_open t with ⟨b, hb⟩ | hopen
        · exact .inl ⟨c :: b, .char hc hq hb⟩
        · refine .inr fun p k => ?_
          rw [List.foldl_cons, next_bare hc hq]
          exact hopen _ _
termination_by t.length

/-- A comma is outside where the scan is back in its first state. -/
theorem outside_iff (before : Text) :
    Outside before ↔ before.foldl Scan.next Scan.start = Scan.start := by
  constructor
  · rintro ⟨b, hb, hparens, hbrackets⟩
    rw [Scan.start, run_bare hb, (depth_eq_zero_iff (by decide) b).mpr hparens,
      (depth_eq_zero_iff (by decide) b).mpr hbrackets]
  · intro hstart
    rcases bare_or_open before with ⟨b, hb⟩ | hopen
    · rw [Scan.start, run_bare hb] at hstart
      refine ⟨b, hb, (depth_eq_zero_iff (by decide) b).mp (congrArg Scan.parenDepth hstart),
        (depth_eq_zero_iff (by decide) b).mp (congrArg Scan.bracketDepth hstart)⟩
    · have hcontra := hopen 0 0
      rw [show Scan.open 0 0 = Scan.start from rfl, hstart] at hcontra
      rcases hcontra with hquote | hescaped
      · exact absurd rfl hquote
      · cases hescaped

theorem separates_comma_iff (before : Text) :
    (before.foldl Scan.next Scan.start).separates ',' = true ↔ Outside before := by
  rw [separates_iff, outside_iff]
  exact and_iff_right rfl

/-- The pieces of the scan are cut at the outside commas. -/
theorem cutOutside_pieces (text : Text) :
    CutOutside text (pieces Scan.next Scan.separates Scan.start text) where
  joined := intercalate_pieces separates_sep Scan.start text
  between front back h hfront hback :=
    (separates_comma_iff _).mp (cut_between separates_sep front h hfront hback)
  inside front q r back h houtside := by
    have hcut := (separates_comma_iff _).mpr houtside
    rw [uncut_inside separates_sep front q h] at hcut
    cases hcut

/-! ## Balanced selectors -/

/-- The text is read without a cut and without a trace. -/
def Stays (s : Scan) (t : Text) : Prop :=
  t.foldl Scan.next s = s ∧ Uncut Scan.next Scan.separates s t

theorem stays_nil (s : Scan) : Stays s [] := ⟨rfl, uncut_nil s⟩

theorem stays_append {s : Scan} {t u : Text} (ht : Stays s t) (hu : Stays s u) :
    Stays s (t ++ u) :=
  ⟨by rw [List.foldl_append, ht.1, hu.1], uncut_append.mpr ⟨ht.2, by rw [ht.1]; exact hu.2⟩⟩

/-- What stays in the state `s'` stays in `s` between two characters that lead there and back. -/
theorem stays_between (s s' : Scan) {c d : Char} {t : Text} (hc : s.next c = s')
    (hd : s'.next d = s) (hcutc : s.separates c = false) (hcutd : s'.separates d = false)
    (h : Stays s' t) : Stays s (c :: (t ++ [d])) := by
  constructor
  · rw [List.foldl_cons, hc, List.foldl_append, h.1, List.foldl_cons, hd, List.foldl_nil]
  · rw [uncut_cons, hc, uncut_append, h.1, uncut_cons, hd]
    exact ⟨hcutc, h.2, hcutd, uncut_nil s⟩

theorem separates_ne {s : Scan} {c : Char} (h : c ≠ ',') : s.separates c = false :=
  Bool.eq_false_iff.mpr fun hcut => h (separates_iff.mp hcut).1

theorem separates_of_ne_start {s : Scan} (h : s ≠ Scan.start) (c : Char) :
    s.separates c = false :=
  Bool.eq_false_iff.mpr fun hcut => h (separates_iff.mp hcut).2

theorem stays_plain {c : Char} (h : ¬IsSpecial c) (p k : Nat) : Stays (Scan.open p k) [c] := by
  have hcomma : c ≠ ',' := fun hc => h (by subst hc; simp [IsSpecial])
  exact ⟨next_plain h p k, uncut_cons.mpr ⟨separates_ne hcomma, uncut_nil _⟩⟩

theorem stays_escape (quote : Option Char) (c : Char) (p k : Nat) :
    Stays ⟨quote, false, p, k⟩ ['\\', c] :=
  ⟨rfl, uncut_cons.mpr ⟨separates_ne (by decide), uncut_cons.mpr
    ⟨separates_of_ne_start (fun h => by cases h) c, uncut_nil _⟩⟩⟩

theorem stays_quoted {q : Char} {body : Text} (h : Quoted q body) (p k : Nat) :
    Stays ⟨some q, false, p, k⟩ body := by
  refine ⟨run_quoted h p k, ?_⟩
  induction h with
  | nil => exact uncut_nil _
  | char hc hq _ ih =>
    rw [uncut_cons, next_quoted hc hq]
    exact ⟨separates_of_ne_start (fun h => by cases h) _, ih⟩
  | escape _ ih => exact uncut_append.mpr ⟨(stays_escape (some q) _ p k).2, ih⟩

theorem stays_quotes {q : Char} {body : Text} (hq : IsQuote q) (h : Quoted q body) (p k : Nat) :
    Stays (Scan.open p k) (q :: (body ++ [q])) :=
  stays_between _ _ (next_opens hq p k) (next_closes hq p k)
    (separates_ne (by rcases hq with rfl | rfl <;> decide))
    (separates_of_ne_start (fun h => by cases h) q) (stays_quoted h p k)

theorem open_ne_start {p k : Nat} (h : 0 < p + k) : Scan.open p k ≠ Scan.start := by
  intro heq
  cases heq
  cases h

/-- A balanced text is not cut where it may have no commas of its own, nor where it is enclosed. -/
theorem stays_balanced {list : Bool} {t : Text} (h : Balanced list t) (p k : Nat)
    (hcomma : list = false ∨ 0 < p + k) : Stays (Scan.open p k) t := by
  induction h generalizing p k with
  | nil => exact stays_nil _
  | char hc _ ih => exact stays_append (stays_plain hc p k) (ih p k hcomma)
  | comma _ ih =>
    have hopen : 0 < p + k := hcomma.resolve_left Bool.noConfusion
    have hread : Stays (Scan.open p k) [','] :=
      ⟨rfl, uncut_cons.mpr ⟨separates_of_ne_start (open_ne_start hopen) ',', uncut_nil _⟩⟩
    exact stays_append hread (ih p k hcomma)
  | escape _ ih => exact stays_append (stays_escape none _ p k) (ih p k hcomma)
  | @quotes list q body t hq hbody _ ih =>
    have hstays := stays_append (stays_quotes hq hbody p k) (ih p k hcomma)
    rw [List.cons_append, List.append_assoc] at hstays
    exact hstays
  | @parens list inner t _ _ ihinner ih =>
    have hinner := stays_between (Scan.open p k) (Scan.open (p + 1) k) rfl rfl
      (separates_ne (c := '(') (by decide)) (separates_ne (c := ')') (by decide))
      (ihinner (p + 1) k (.inr (by omega)))
    have hstays := stays_append hinner (ih p k hcomma)
    rw [List.cons_append, List.append_assoc] at hstays
    exact hstays
  | @brackets list inner t _ _ ihinner ih =>
    have hinner := stays_between (Scan.open p k) (Scan.open p (k + 1)) rfl rfl
      (separates_ne (c := '[') (by decide)) (separates_ne (c := ']') (by decide))
      (ihinner p (k + 1) (.inr (by omega)))
    have hstays := stays_append hinner (ih p k hcomma)
    rw [List.cons_append, List.append_assoc] at hstays
    exact hstays

/-- The pieces of a selector list are its selectors. -/
theorem pieces_selectors {selectors : List Text} (hne : selectors ≠ [])
    (h : ∀ s ∈ selectors, Balanced false s) :
    pieces Scan.next Scan.separates Scan.start (List.intercalate [','] selectors) = selectors :=
  pieces_intercalate rfl rfl hne fun s hs =>
    have hstays := stays_balanced (h s hs) 0 0 (.inl rfl)
    ⟨hstays.2, hstays.1⟩

theorem intercalate_append_head (block : Text) (s : Text) (selectors : List Text) :
    List.intercalate [','] ((block ++ s) :: selectors) =
      block ++ List.intercalate [','] (s :: selectors) := by
  cases selectors with
  | nil => rw [List.intercalate_singleton, List.intercalate_singleton]
  | cons s' selectors =>
    rw [List.intercalate_cons_cons, List.intercalate_cons_cons, List.append_assoc,
      List.append_assoc, List.append_assoc]

/-- A balanced text is a list of selectors. -/
theorem exists_selectors {list : Bool} {t : Text} (h : Balanced list t) :
    ∃ s selectors, (∀ s' ∈ s :: selectors, Balanced false s') ∧
      t = List.intercalate [','] (s :: selectors) := by
  -- a block in front stands in the first selector
  have hfront : ∀ (block : Text) {rest : Text}, (∀ {s}, Balanced false s → Balanced false (block ++ s)) →
      (∃ s selectors, (∀ s' ∈ s :: selectors, Balanced false s') ∧
        rest = List.intercalate [','] (s :: selectors)) →
      ∃ s selectors, (∀ s' ∈ s :: selectors, Balanced false s') ∧
        block ++ rest = List.intercalate [','] (s :: selectors) := by
    rintro block _ hblock ⟨s, selectors, hall, rfl⟩
    refine ⟨block ++ s, selectors, fun s' hs' => ?_, (intercalate_append_head _ _ _).symm⟩
    rcases List.mem_cons.mp hs' with rfl | hs'
    · exact hblock (hall s List.mem_cons_self)
    · exact hall s' (List.mem_cons_of_mem s hs')
  induction h with
  | nil =>
    exact ⟨[], [], fun s hs => by rw [List.mem_singleton.mp hs]; exact .nil,
      List.intercalate_singleton.symm⟩
  | @char list c t hc _ ih => exact hfront [c] (.char hc) ih
  | comma _ ih =>
    obtain ⟨s, selectors, hall, rfl⟩ := ih
    refine ⟨[], s :: selectors, fun s' hs' => ?_, by rw [List.intercalate_cons_cons]; rfl⟩
    rcases List.mem_cons.mp hs' with rfl | hs'
    · exact .nil
    · exact hall s' hs'
  | @escape list c t _ ih => exact hfront ['\\', c] .escape ih
  | @quotes list q body t hq hbody _ ih =>
    have hselectors := hfront (q :: (body ++ [q])) (fun hs => by
      rw [List.cons_append, List.append_assoc]
      exact .quotes hq hbody hs) ih
    rw [List.cons_append, List.append_assoc] at hselectors
    exact hselectors
  | @parens list inner t hinner _ _ ih =>
    have hselectors := hfront ('(' :: (inner ++ [')'])) (fun hs => by
      rw [List.cons_append, List.append_assoc]
      exact .parens hinner hs) ih
    rw [List.cons_append, List.append_assoc] at hselectors
    exact hselectors
  | @brackets list inner t hinner _ _ ih =>
    have hselectors := hfront ('[' :: (inner ++ [']'])) (fun hs => by
      rw [List.cons_append, List.append_assoc]
      exact .brackets hinner hs) ih
    rw [List.cons_append, List.append_assoc] at hselectors
    exact hselectors

/-! ## The candidates -/

/-- The pieces that are not blank, trimmed. -/
def nonBlank (ps : List Text) : List Text := (ps.map strip).filter (!·.isEmpty)

theorem flush_eq (s : Split) : s.flush = s.result ++ nonBlank [s.buf] := by
  simp only [Split.flush, nonBlank, List.map_cons, List.map_nil, List.filter_cons, List.filter_nil]
  cases (strip s.buf).isEmpty
  · rfl
  · exact (List.append_nil _).symm

/-- The loop collects the pieces; the buffer holds the start of the first one. -/
theorem flush_foldl (text : Text) (s : Split) :
    (text.foldl Split.read s).flush = s.result ++
      nonBlank ((pieces Scan.next Scan.separates s.scan text).modifyHead (s.buf ++ ·)) := by
  induction text generalizing s with
  | nil =>
    rw [List.foldl_nil, flush_eq, pieces, List.modifyHead_cons, List.append_nil]
  | cons c text ih =>
    obtain ⟨p, ps, hp⟩ := exists_pieces_cons Scan.next Scan.separates (s.scan.next c) text
    rw [List.foldl_cons, ih, pieces, Split.read]
    cases hc : s.scan.separates c with
    | true =>
      rw [if_pos rfl, if_pos rfl, flush_eq, hp, List.modifyHead_cons, List.modifyHead_cons,
        List.nil_append, List.append_nil, List.append_assoc]
      change _ = s.result ++ nonBlank ([s.buf] ++ p :: ps)
      rw [nonBlank, nonBlank, nonBlank, List.map_append, List.filter_append]
    | false =>
      rw [if_neg Bool.false_ne_true, if_neg Bool.false_ne_true, hp, List.modifyHead_cons,
        List.modifyHead_cons, List.modifyHead_cons, List.append_assoc, List.singleton_append]

theorem split_eq_candidates {selector : Text} (h : explicitEngine (strip selector) = false) :
    splitSelectorCandidates selector =
      candidates selector (pieces Scan.next Scan.separates Scan.start selector) := by
  obtain ⟨p, ps, hp⟩ := exists_pieces_cons Scan.next Scan.separates Scan.start selector
  rw [splitSelectorCandidates, h, candidates]
  dsimp only
  rw [if_neg Bool.false_ne_true, flush_foldl, List.nil_append, hp, List.modifyHead_cons,
    List.nil_append]
  rfl

theorem candidates_ne_nil (selector : Text) (ps : List Text) : candidates selector ps ≠ [] := by
  rw [candidates]
  split
  · exact List.cons_ne_nil _ _
  next hkept => exact fun hnil => hkept (List.isEmpty_iff.mpr hnil)

/-! ## Splitting again -/

theorem strip_strip (t : Text) : strip (strip t) = strip t := by
  have hstart : (strip t).dropWhile isSpace = strip t := by
    refine List.dropWhile_eq_self_iff.mpr fun hlen => ?_
    have hkept : strip t <+: t.dropWhile isSpace := List.rdropWhile_prefix isSpace _
    rw [hkept.getElem hlen]
    exact List.dropWhile_get_zero_not isSpace t (hlen.trans_le hkept.length_le)
  rw [strip, hstart]
  exact List.rdropWhile_idempotent isSpace _

/-- What is trimmed away is white space. -/
theorem exists_strip (t : Text) :
    ∃ front back, t = front ++ (strip t ++ back) ∧ ∀ c ∈ front, isSpace c = true := by
  obtain ⟨back, hback⟩ := List.rdropWhile_prefix isSpace (t.dropWhile isSpace)
  refine ⟨t.takeWhile isSpace, back, ?_, fun c hc => List.mem_takeWhile_imp hc⟩
  rw [strip, hback, List.takeWhile_append_dropWhile]

theorem not_special_of_isSpace {c : Char} (h : isSpace c = true) : ¬IsSpecial c := by
  rintro (rfl | (rfl | rfl) | rfl | rfl | rfl | rfl | rfl) <;> revert h <;> decide

theorem stays_space {t : Text} (h : ∀ c ∈ t, isSpace c = true) (p k : Nat) :
    Stays (Scan.open p k) t := by
  induction t with
  | nil => exact stays_nil _
  | cons c t ih =>
    exact stays_append (stays_plain (not_special_of_isSpace (h c List.mem_cons_self)) p k)
      (ih fun d hd => h d (List.mem_cons_of_mem c hd))

/-- Trimming lets no comma out of what it stands in. -/
theorem uncut_strip {t : Text} (h : Uncut Scan.next Scan.separates Scan.start t) :
    Uncut Scan.next Scan.separates Scan.start (strip t) := by
  obtain ⟨front, back, heq, hspace⟩ := exists_strip t
  have hfront := (stays_space hspace 0 0).1
  rw [heq, uncut_append, show front.foldl Scan.next Scan.start = Scan.start from hfront,
    uncut_append] at h
  exact h.2.1

theorem strip_eq_nil_iff (t : Text) : strip t = [] ↔ ∀ c ∈ t, isSpace c = true := by
  rw [strip, List.rdropWhile_eq_nil_iff]
  constructor
  · intro h c hc
    rw [← List.takeWhile_append_dropWhile (p := isSpace) (l := t)] at hc
    exact (List.mem_append.mp hc).elim List.mem_takeWhile_imp (h c)
  · exact fun h c hc => h c ((List.dropWhile_sublist isSpace).mem hc)

theorem nonBlank_eq_nil_iff (ps : List Text) :
    nonBlank ps = [] ↔ ∀ p ∈ ps, ∀ c ∈ p, isSpace c = true := by
  rw [nonBlank, List.filter_eq_nil_iff, List.forall_mem_map]
  refine forall₂_congr fun p _ => ?_
  rw [Bool.not_eq_true', Bool.not_eq_false, List.isEmpty_iff, strip_eq_nil_iff]

/-- A piece with nothing but commas and white space has no comma. -/
theorem space_of_uncut {t : Text} (h : Uncut Scan.next Scan.separates Scan.start t)
    (hchars : ∀ c ∈ t, c = ',' ∨ isSpace c = true) : ∀ c ∈ t, isSpace c = true := by
  induction t with
  | nil => exact fun c hc => (List.not_mem_nil hc).elim
  | cons c t ih =>
    obtain ⟨hcut, htail⟩ := uncut_cons.mp h
    rcases hchars c List.mem_cons_self with rfl | hspace
    · cases hcut
    · rw [show Scan.start.next c = Scan.start from
        next_plain (not_special_of_isSpace hspace) 0 0] at htail
      have hrest := ih htail fun d hd => hchars d (List.mem_cons_of_mem c hd)
      exact List.forall_mem_cons.mpr ⟨hspace, hrest⟩

theorem uncut_of_mem_pieces {text p : Text}
    (h : p ∈ pieces Scan.next Scan.separates Scan.start text) :
    Uncut Scan.next Scan.separates Scan.start p := by
  obtain ⟨first, others, hps⟩ := exists_pieces_cons Scan.next Scan.separates Scan.start text
  obtain ⟨hfirst, hothers⟩ := uncut_pieces next_separates hps
  rw [hps] at h
  rcases List.mem_cons.mp h with rfl | h
  · exact hfirst
  · exact hothers p h

/-- A text with only blank pieces has only blank pieces when it is trimmed. -/
theorem blank_pieces_strip {text : Text}
    (h : nonBlank (pieces Scan.next Scan.separates Scan.start text) = []) :
    nonBlank (pieces Scan.next Scan.separates Scan.start (strip text)) = [] := by
  rw [nonBlank_eq_nil_iff] at h ⊢
  intro p hp
  refine space_of_uncut (uncut_of_mem_pieces hp) fun c hc => ?_
  -- the character stands in the text, so it is a separator or stands in a blank piece
  have hstrip : c ∈ strip text := by
    rw [← intercalate_pieces separates_sep Scan.start (strip text)]
    exact mem_of_mem_piece hp hc
  obtain ⟨front, back, heq, -⟩ := exists_strip text
  have htext : c ∈ text := by
    rw [heq]
    exact List.mem_append_right front (List.mem_append_left back hstrip)
  rw [← intercalate_pieces separates_sep Scan.start text] at htext
  exact (mem_intercalate htext).imp_right fun ⟨q, hq, hcq⟩ => h q hq c hcq

/-- A candidate is a trimmed piece, or the whole text with nothing but blank pieces. -/
theorem mem_candidates {selector c : Text} {ps : List Text} (h : c ∈ candidates selector ps) :
    (∃ p ∈ ps, strip p = c ∧ c ≠ []) ∨ nonBlank ps = [] ∧ c = strip selector := by
  rw [candidates] at h
  split at h
  next hblank => exact .inr ⟨List.isEmpty_iff.mp hblank, List.mem_singleton.mp h⟩
  next =>
    obtain ⟨hmem, hne⟩ := List.mem_filter.mp h
    obtain ⟨p, hp, hc⟩ := List.mem_map.mp hmem
    refine .inl ⟨p, hp, hc, fun hnil => ?_⟩
    rw [hnil] at hne
    cases hne

theorem split_again {selector c : Text}
    (h : c ∈ candidates selector (pieces Scan.next Scan.separates Scan.start selector)) :
    splitSelectorCandidates c = [c] := by
  have hstrip : strip c = c := by
    rcases mem_candidates h with ⟨p, -, rfl, -⟩ | ⟨-, rfl⟩ <;> exact strip_strip _
  cases hengine : explicitEngine (strip c) with
  | true =>
    rw [splitSelectorCandidates, hengine]
    exact congrArg (fun t => [t]) hstrip
  | false =>
    rw [split_eq_candidates hengine, candidates]
    rcases mem_candidates h with ⟨p, hp, rfl, hne⟩ | ⟨hblank, rfl⟩
    · -- a trimmed piece is one piece
      have hpieces := pieces_of_uncut (uncut_strip (uncut_of_mem_pieces hp))
      have hnonempty : (strip p).isEmpty = false :=
        Bool.eq_false_iff.mpr fun hnil => hne (List.isEmpty_iff.mp hnil)
      rw [hpieces, List.map_singleton, strip_strip, List.filter_cons, hnonempty]
      rfl
    · have hnone := blank_pieces_strip hblank
      rw [nonBlank] at hnone
      rw [hnone, strip_strip]
      rfl

/-! ## All of it -/

/-- What the candidates of a selector are. -/
structure Exact (selector : Text) (result : List Text) : Prop where
  /-- Cut at the outside commas, without blank pieces and the white space around a piece. -/
  cut : ∃ ps, CutOutside selector ps ∧ result = candidates selector ps ∧
    (Balanced true selector → ∀ p ∈ ps, Balanced false p) ∧
    ∀ selectors, selectors ≠ [] → (∀ s ∈ selectors, Balanced false s) →
      selector = List.intercalate [','] selectors → ps = selectors
  nonempty : result ≠ []
  /-- Splitting a candidate gives it back. -/
  again : ∀ c ∈ result, splitSelectorCandidates c = [c]

/-- The candidates of CSS are what stands between its outside commas, and are split no further. -/
theorem split_exact (selector : Text) (h : explicitEngine (strip selector) = false) :
    Exact selector (splitSelectorCandidates selector) := by
  rw [split_eq_candidates h]
  refine ⟨⟨_, cutOutside_pieces selector, rfl, fun hbalanced => ?_, fun selectors hne hall heq => ?_⟩,
    candidates_ne_nil _ _, fun c hc => split_again hc⟩
  · obtain ⟨s, selectors, hall, rfl⟩ := exists_selectors hbalanced
    rw [pieces_selectors (List.cons_ne_nil _ _) hall]
    exact hall
  · rw [heq, pieces_selectors hne hall]

theorem split_exact_nested :
    explicitEngine (strip ":is(.a,.b), [data-x='a,b']".toList) = false ∧
      Exact ":is(.a,.b), [data-x='a,b']".toList
        (splitSelectorCandidates ":is(.a,.b), [data-x='a,b']".toList) :=
  ⟨by decide +kernel, split_exact _ (by decide +kernel)⟩

example : splitSelectorCandidates ":is(.a,.b), [data-x='a,b']".toList =
    [":is(.a,.b)".toList, "[data-x='a,b']".toList] := by decide +kernel

end CampusAuth.Worker.Selectors
