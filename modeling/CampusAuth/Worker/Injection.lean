import CampusAuth.Worker.Literals
import CampusAuth.Worker.ScriptReader

/- The values of variables and the structure of a script.

   A reader of a placeholder and one of the value that stands for it end up alike (`Matches`), so
   a script with values has the structure of its template. -/
namespace CampusAuth.Worker
open Lib

section
variable {o : CharClasses} {frames frames' : List Frame} {frame frame' : Frame} {s s' : Reader}
  {c quote : Char} {t : Text}

/-! ## A literal that is read -/

/-- The frames within a literal. -/
theorem literal_frames (h : quoteOf (modeOf frames) = some quote) :
    ∃ frame below, frames = frame :: below ∧
      (frame.mode = .single ∧ quote = '\'' ∨ frame.mode = .double ∧ quote = '"' ∨
        frame.mode = .template ∧ quote = backquote) := by
  cases frames with
  | nil => cases h
  | cons frame below =>
    refine ⟨frame, below, rfl, ?_⟩
    simp only [modeOf] at h
    cases hmode : frame.mode <;> rw [hmode] at h <;> cases h <;> simp

theorem enter_backslash (h : quoteOf (modeOf frames) = some quote) :
    enter o frames '\\' = ⟨frames, .escaped⟩ := by
  obtain ⟨frame, below, rfl, ⟨hmode, -⟩ | ⟨hmode, -⟩ | ⟨hmode, -⟩⟩ := literal_frames h <;>
    simp [enter, waits, hmode]

theorem enter_quote (h : quoteOf (modeOf frames) = some quote) :
    enter o frames quote = ⟨setValue frames.tail, .none⟩ := by
  obtain ⟨frame, below, rfl, ⟨hmode, rfl⟩ | ⟨hmode, rfl⟩ | ⟨hmode, rfl⟩⟩ := literal_frames h <;>
    simp [enter, waits, hmode, advance, turn, turnQuoted, turnTemplate, backquote]

theorem enter_plain (h : quoteOf (modeOf frames) = some quote) (hc : c ≠ '\\') (hq : c ≠ quote) :
    enter o frames c =
      ⟨frames, if c = '$' ∧ modeOf frames = .template then .dollar else .none⟩ := by
  obtain ⟨frame, below, rfl, ⟨hmode, rfl⟩ | ⟨hmode, rfl⟩ | ⟨hmode, rfl⟩⟩ := literal_frames h
  · simp [enter, waits, modeOf, hmode, advance, turn, turnQuoted, hc, hq]
  · simp [enter, waits, modeOf, hmode, advance, turn, turnQuoted, hc, hq]
  · by_cases hd : c = '$'
    · simp [enter, waits, modeOf, hmode, hd]
    · simp [enter, waits, modeOf, hmode, advance, turn, turnTemplate, hc, hq, hd]

theorem settle_eq (h : s.pending ≠ .slash) : settle o s = s.frames := by
  unfold settle
  split
  · exact absurd ‹_› h
  · rfl

/-- Between two characters of a literal; a dollar sign waits only for what is no brace. -/
structure Within (frames : List Frame) (s : Reader) (next : Option Char) : Prop where
  place : s.frames = frames
  waiting : s.pending = .none ∨
    s.pending = .dollar ∧ modeOf frames = .template ∧ next ≠ some '{'

theorem Within.settle_eq {next : Option Char} (h : Within frames s next) : settle o s = frames := by
  rw [Worker.settle_eq, h.place]
  rcases h.waiting with hp | ⟨hp, -⟩ <;> rw [hp] <;> decide

theorem Within.read_eq (h : Within frames s (some c)) : read o s c = enter o frames c := by
  unfold Worker.read
  rw [h.place]
  rcases h.waiting with hp | ⟨hp, -, hbrace⟩
  · rw [hp]
  · rw [hp]
    exact if_neg fun hc => hbrace (congrArg some hc)

/-- Reading a literal does not leave it. -/
theorem Literal.foldl (hE : Literal quote t) (hq : quoteOf (modeOf frames) = some quote)
    (h : Within frames s t.head?) :
    (∀ next, (modeOf frames = .template → next ≠ some '{') →
      Within frames (t.foldl (Worker.read o) s) next) ∧
      ∀ k, Worker.settle o ((t.take k).foldl (Worker.read o) s) = frames := by
  induction hE generalizing s with
  | nil =>
    refine ⟨fun next hnext => ⟨h.place, h.waiting.imp_right fun hp => ⟨hp.1, hp.2.1, hnext hp.2.1⟩⟩,
      fun k => ?_⟩
    rw [List.take_nil]
    exact h.settle_eq
  | @pair d t _ ih =>
    have hread : Worker.read o s '\\' = ⟨frames, .escaped⟩ := h.read_eq.trans (enter_backslash hq)
    obtain ⟨hwithin, hfront⟩ := ih (s := ⟨frames, .none⟩) ⟨rfl, .inl rfl⟩
    refine ⟨fun next hnext => ?_, fun k => ?_⟩
    · rw [List.foldl_cons, hread]
      exact hwithin next hnext
    · match k with
      | 0 => exact h.settle_eq
      | 1 =>
        show Worker.settle o (Worker.read o s '\\') = frames
        rw [hread]
        rfl
      | k + 2 =>
        rw [List.take_succ_cons, List.take_succ_cons, List.foldl_cons, hread]
        exact hfront k
  | @plain c t hc hne hdollar _ ih =>
    have hread : Worker.read o s c =
        ⟨frames, if c = '$' ∧ modeOf frames = .template then .dollar else .none⟩ :=
      h.read_eq.trans (enter_plain hq hc hne)
    have hnext : Within frames (Worker.read o s c) t.head? := by
      rw [hread]
      refine ⟨rfl, ?_⟩
      by_cases hd : c = '$' ∧ modeOf frames = .template
      · rw [if_pos hd]
        have hquote : quote = backquote := by
          rw [hd.2] at hq
          exact (Option.some.inj hq).symm
        exact .inr ⟨rfl, hd.2, hdollar hd.1 hquote⟩
      · rw [if_neg hd]
        exact .inl rfl
    obtain ⟨hwithin, hfront⟩ := ih hnext
    refine ⟨fun next h => hwithin next h, fun k => ?_⟩
    cases k with
    | zero => exact h.settle_eq
    | succ k => exact hfront k

/-! ## A placeholder that is read -/

/-- The text of a placeholder. -/
structure Placeholder (o : CharClasses) (text name : Text) : Prop where
  parts : ∃ before after, text = ['{', '{'] ++ before ++ name ++ after ++ ['}', '}'] ∧
    (∀ c ∈ before, o.isSpace c = true) ∧ ∀ c ∈ after, o.isSpace c = true
  start : ∃ c cs, name = c :: cs ∧ isNameStart c = true
  chars : ∀ c ∈ name, isNameChar c = true

theorem matchVariable_spec {t text name : Text} (h : matchVariable o t = some (text, name)) :
    text <+: t ∧ Placeholder o text name := by
  unfold matchVariable at h
  split at h
  case h_2 => cases h
  case h_1 u =>
    simp only at h
    split at h
    case isFalse => cases h
    case isTrue hc =>
      obtain ⟨hstart, rest, hrest⟩ := hc
      obtain ⟨rfl, rfl⟩ := Prod.mk.inj (Option.some.inj h)
      refine ⟨⟨rest, ?_⟩, ⟨_, _, rfl, fun c => List.mem_takeWhile_imp, fun c =>
        List.mem_takeWhile_imp⟩, ?_, fun c => List.mem_takeWhile_imp⟩
      · simp only [List.append_assoc, List.cons_append, List.nil_append, hrest,
          List.takeWhile_append_dropWhile]
      · cases hname : (u.dropWhile o.isSpace).takeWhile isNameChar with
        | nil => rw [hname] at hstart; cases hstart
        | cons c cs => exact ⟨c, cs, rfl, by rw [hname] at hstart; exact hstart⟩

def sourceOf (ps : List Piece) : Text := ps.flatMap Piece.source

theorem sourceOf_append (a b : List Piece) : sourceOf (a ++ b) = sourceOf a ++ sourceOf b :=
  List.flatMap_append

theorem sourceOf_cons (p : Piece) (ps : List Piece) :
    sourceOf (p :: ps) = p.source ++ sourceOf ps := rfl

theorem sourceOf_piecesFrom (skip : Nat) (t : Text) :
    sourceOf (piecesFrom o skip t) = t.drop skip := by
  induction t generalizing skip with
  | nil => simp [piecesFrom, sourceOf]
  | cons c cs ih =>
    cases skip with
    | succ skip => exact ih skip
    | zero =>
      rw [piecesFrom]
      cases hm : matchVariable o (c :: cs) with
      | none => exact congrArg (c :: ·) (ih 0)
      | some match_ =>
        obtain ⟨text, name⟩ := match_
        obtain ⟨⟨rest, hrest⟩, ⟨before, after, htext, -, -⟩, -, -⟩ := matchVariable_spec hm
        show text ++ sourceOf (piecesFrom o (text.length - 1) cs) = c :: cs
        rw [ih, ← hrest]
        congr 1
        have hcs : (text ++ rest).drop text.length = rest := List.drop_left
        have hpos : text.length = (text.length - 1) + 1 := by rw [htext]; simp
        rw [hrest, hpos, List.drop_succ_cons] at hcs
        exact hcs

/-- The pieces are the template. -/
theorem sourceOf_pieces (template : Text) : sourceOf (pieces o template) = template :=
  sourceOf_piecesFrom 0 template

theorem placeholder_of_mem {template text name : Text}
    (h : Piece.variable text name ∈ pieces o template) : Placeholder o text name := by
  have hall : ∀ skip t, Piece.variable text name ∈ piecesFrom o skip t →
      Placeholder o text name := by
    intro skip t
    induction t generalizing skip with
    | nil => simp [piecesFrom]
    | cons c cs ih =>
      cases skip with
      | succ skip => exact ih skip
      | zero =>
        rw [piecesFrom]
        cases hm : matchVariable o (c :: cs) with
        | none => simpa using ih 0
        | some match_ =>
          simp only [List.mem_cons, Piece.variable.injEq]
          rintro (⟨rfl, rfl⟩ | h)
          · exact (matchVariable_spec hm).2
          · exact ih _ h
  exact hall 0 template h

theorem Placeholder.literal {text name : Text} (h : Placeholder o text name)
    (hquote : quote = '\'' ∨ quote = '"' ∨ quote = backquote) : Literal quote text := by
  have hplain : ∀ d ∈ [backquote, '\\', '\'', '"', '$'], d ∉ text := by
    intro d hd
    have hsub : ∀ d ∈ [backquote, '\\', '\'', '"', '$'],
        d ∈ backquote :: "\\'\"$\x7b\x7d/*[]_".toList ∧ isNameChar d = false ∧
          d ≠ '{' ∧ d ≠ '}' :=
      @of_decide_eq_true _ (List.decidableBAll _ _) rfl
    obtain ⟨hspecial, hname, hopen, hclose⟩ := hsub d hd
    have hspace := (o.special d hspecial).2.2
    obtain ⟨before, after, rfl, hbefore, hafter⟩ := h.parts
    simp only [List.mem_append, List.mem_cons, List.not_mem_nil, or_false, hopen, hclose, or_self,
      false_or]
    rintro ((h' | h') | h')
    · rw [hbefore d h'] at hspace
      cases hspace
    · rw [h.chars d h'] at hname
      cases hname
    · rw [hafter d h'] at hspace
      cases hspace
  have hne : quote ∉ text := hplain quote (by rcases hquote with rfl | rfl | rfl <;> decide)
  have hslash := hplain '\\' (by decide)
  have hdollar := hplain '$' (by decide)
  clear h hplain
  induction text with
  | nil => exact .nil
  | cons c t ih =>
    simp only [List.mem_cons, not_or] at hne hslash hdollar
    exact .plain (Ne.symm hslash.1) (Ne.symm hne.1) (fun hc => absurd hc.symm hdollar.1)
      (ih hne.2 hslash.2 hdollar.2)

/-! ## Code that is read -/

section
variable {frame : Frame} {below : List Frame} (hmode : frame.mode = .code)
include hmode

theorem enter_space (hc : o.isSpace c = true) :
    enter o (frame :: below) c = ⟨frame :: below, .none⟩ := by
  simp [enter, waits, hmode, hc, advance, turn, turnCode]

theorem enter_open : enter o (frame :: below) '{' =
    ⟨{ frame with depth := frame.depth.map (· + 1), token := some ['{'] } :: below, .none⟩ := by
  have h := o.special '{' (by decide)
  have hstart : isTokenStart o '{' = false := by simp [isTokenStart, h]
  cases hd : frame.depth <;>
    simp [enter, waits, hmode, hstart, h, advance, turn, turnCode, quoteMode, backquote, hd,
      countBraces, readToken]

theorem enter_close (hdepth : frame.depth ≠ some 1) : enter o (frame :: below) '}' =
    ⟨{ frame with depth := frame.depth.map (· - 1), token := some ['}'] } :: below, .none⟩ := by
  have h := o.special '}' (by decide)
  have hstart : isTokenStart o '}' = false := by simp [isTokenStart, h]
  cases hd : frame.depth with
  | none =>
    simp [enter, waits, hmode, hstart, h, advance, turn, turnCode, quoteMode, backquote, hd,
      countBraces, readToken]
  | some n =>
    have hn : n ≠ 1 := fun hn => hdepth (hd.trans (congrArg some hn))
    simp [enter, waits, hmode, hstart, h, advance, turn, turnCode, quoteMode, backquote, hd,
      countBraces, readToken, hn]

theorem enter_double : enter o (frame :: below) '"' =
    ⟨{ mode := .double } :: frame :: below, .none⟩ := by
  have h := o.special '"' (by decide)
  have hstart : isTokenStart o '"' = false := by simp [isTokenStart, h]
  simp [enter, waits, hmode, hstart, h, advance, turn, turnCode, quoteMode]

end

/-- Code in which nothing goes on with the next character. -/
theorem read_code {done : Text} (h : Fits s done) (hcode : modeOf (settle o s) = .code)
    (hc : c ∈ ['{', '"']) : read o s c = enter o (settle o s) c := by
  have hne : c ≠ '/' ∧ c ≠ '*' := by revert hc; simp; rintro (rfl | rfl) <;> decide
  have hword : isTokenChar o c = false := by
    have hspecial := (o.special c (by revert hc; simp; rintro (rfl | rfl) <;> decide)).2.1
    simp only [isTokenChar, hspecial]
    revert hc; simp; rintro (rfl | rfl) <;> decide
  unfold read
  cases hp : s.pending with
  | none => simp only [settle, hp]
  | escaped =>
    rw [settle_eq (by simp [hp])] at hcode
    exact absurd hcode (h.escaped hp).2
  | slash => simp only [settle, hp, if_neg hne.1, if_neg hne.2]
  | star =>
    rw [settle_eq (by simp [hp]), h.star hp] at hcode
    cases hcode
  | dollar =>
    rw [settle_eq (by simp [hp]), (h.dollar hp).2] at hcode
    cases hcode
  | word => simp only [settle, hp, hword, Bool.false_eq_true, if_false]

theorem isTokenChar_of_space (h : o.isSpace c = true) : isTokenChar o c = false := by
  have hne : ∀ d ∈ ['_', '$'], c ≠ d := by
    rintro d hd rfl
    have hsub : ∀ d ∈ ['_', '$'], d ∈ backquote :: "\\'\"$\x7b\x7d/*[]_".toList :=
      @of_decide_eq_true _ (List.decidableBAll _ _) rfl
    rw [(o.special c (hsub c hd)).2.2] at h
    cases h
  simp [isTokenChar, o.not_alnum_of_space c h, hne '_' (by simp), hne '$' (by simp)]

theorem foldl_spaces {frame : Frame} {below : List Frame} (hmode : frame.mode = .code) {ws : Text}
    (hws : ∀ c ∈ ws, o.isSpace c = true) :
    ws.foldl (read o) ⟨frame :: below, .none⟩ = ⟨frame :: below, .none⟩ := by
  induction ws with
  | nil => rfl
  | cons c ws ih =>
    have hread : read o ⟨frame :: below, .none⟩ c = ⟨frame :: below, .none⟩ :=
      enter_space hmode (hws c List.mem_cons_self)
    rw [List.foldl_cons, hread, ih fun d hd => hws d (List.mem_cons_of_mem _ hd)]

theorem foldl_name (frame : Frame) (below : List Frame) {cs : Text}
    (hcs : ∀ c ∈ cs, isNameChar c = true) :
    ∃ token, cs.foldl (read o) ⟨frame :: below, .word⟩ =
      ⟨{ frame with token := token } :: below, .word⟩ := by
  induction cs generalizing frame with
  | nil => exact ⟨frame.token, rfl⟩
  | cons c cs ih =>
    have htoken : isTokenChar o c = true := by
      have hname := hcs c List.mem_cons_self
      simp only [isNameChar, Bool.or_eq_true, beq_iff_eq] at hname
      rcases hname with halnum | rfl
      · simp [isTokenChar, o.isAlnum_of_alphanum c halnum]
      · simp [isTokenChar]
    have hread : read o ⟨frame :: below, .word⟩ c = ⟨extend (frame :: below) c, .word⟩ :=
      if_pos htoken
    obtain ⟨token, heq⟩ := ih { frame with token := frame.token.map (· ++ [c]) }
      fun d hd => hcs d (List.mem_cons_of_mem _ hd)
    exact ⟨token, by rw [List.foldl_cons, hread, extend, heq]⟩

theorem isTokenStart_of_name (h : isNameStart c = true) :
    isTokenStart o c = true ∧ o.isSpace c = false := by
  simp only [isNameStart, Bool.or_eq_true, beq_iff_eq] at h
  rcases h with halpha | rfl
  · have hletter := o.isAlpha_of_letter c halpha
    refine ⟨by simp [isTokenStart, hletter], ?_⟩
    by_contra hspace
    rw [o.not_alpha_of_space c (by simpa using hspace)] at hletter
    cases hletter
  · exact ⟨by simp [isTokenStart], (o.special '_' (by decide)).2.2⟩

theorem foldl_closing {frame : Frame} {below : List Frame} (hmode : frame.mode = .code) {ws : Text}
    (hws : ∀ c ∈ ws, o.isSpace c = true) :
    (ws ++ ['}', '}']).foldl (read o) ⟨frame :: below, .word⟩ =
      ['}', '}'].foldl (read o) ⟨frame :: below, .none⟩ := by
  have hend : ∀ {c}, isTokenChar o c = false →
      read o ⟨frame :: below, .word⟩ c = read o ⟨frame :: below, .none⟩ c :=
    fun hc => if_neg (by rw [hc]; decide)
  cases ws with
  | nil =>
    have hbrace : isTokenChar o '}' = false := by
      simp [isTokenChar, (o.special '}' (by decide)).2.1]
    rw [List.nil_append, List.foldl_cons, hend hbrace]
    rfl
  | cons c ws =>
    rw [List.cons_append, List.foldl_cons, hend (isTokenChar_of_space (hws c List.mem_cons_self)),
      ← List.foldl_cons, ← List.cons_append, List.foldl_append, foldl_spaces hmode hws]

/-- The braces of a placeholder in code are closed again. -/
theorem Placeholder.foldl_code {text name : Text} (h : Placeholder o text name) {frame : Frame}
    {below : List Frame} (hmode : frame.mode = .code) (hdepth : frame.depth ≠ some 0)
    (hread : read o s '{' = enter o (frame :: below) '{') :
    text.foldl (read o) s = ⟨{ frame with token := some ['}'] } :: below, .none⟩ := by
  obtain ⟨⟨before, after, rfl, hbefore, hafter⟩, ⟨c, cs, rfl, hc⟩, hname⟩ := h
  obtain ⟨hstart, hspace⟩ := isTokenStart_of_name (o := o) hc
  obtain ⟨mode, depth, token, charClass⟩ := frame
  simp only at hmode hdepth
  subst hmode
  have hslash : c ≠ '/' := by rintro rfl; cases hc
  have hopen : ∀ depth token, read o ⟨⟨.code, depth, token, charClass⟩ :: below, .none⟩ '{' =
      ⟨⟨.code, depth.map (· + 1), some ['{'], charClass⟩ :: below, .none⟩ :=
    fun _ _ => enter_open rfl
  have hclose : ∀ depth token, depth ≠ some 1 →
      read o ⟨⟨.code, depth, token, charClass⟩ :: below, .none⟩ '}' =
        ⟨⟨.code, depth.map (· - 1), some ['}'], charClass⟩ :: below, .none⟩ :=
    fun _ _ hd => enter_close rfl hd
  have hword : ∀ depth token, read o ⟨⟨.code, depth, token, charClass⟩ :: below, .none⟩ c =
      ⟨⟨.code, depth, some [c], charClass⟩ :: below, .word⟩ := by
    intro depth token
    have hw : waits o (⟨.code, depth, token, charClass⟩ :: below) c = .word := by
      simp [waits, hspace, hslash, hstart]
    simp only [read, enter, hw, advance]
    rw [turn_word rfl hstart hspace]
    rfl
  obtain ⟨token', hrest⟩ := foldl_name (o := o)
    ⟨.code, (depth.map (· + 1)).map (· + 1), some [c], charClass⟩ below
    fun d hd => hname d (List.mem_cons_of_mem _ hd)
  have hbraces : (['{', '{'] ++ before).foldl (read o) s =
      ⟨⟨.code, (depth.map (· + 1)).map (· + 1), some ['{'], charClass⟩ :: below, .none⟩ := by
    rw [List.foldl_append, List.foldl_cons, hread.trans (enter_open rfl), List.foldl_cons, hopen,
      List.foldl_nil, foldl_spaces rfl hbefore]
  rw [List.append_assoc _ after, List.append_assoc _ (c :: cs), List.foldl_append, hbraces,
    List.foldl_append, List.foldl_cons, hword, hrest, foldl_closing rfl hafter, List.foldl_cons,
    hclose, List.foldl_cons, hclose, List.foldl_nil]
  · cases depth <;> rfl
  · cases depth with
    | none => simp
    | some n =>
      have hn : n ≠ 0 := fun hn => hdepth (congrArg some hn)
      simpa using hn
  · cases depth <;> simp

/-! ## A value that is read -/

/-- The reader of a script and that of its template before the same piece. -/
def Matches (s s' : Reader) (next : Option Char) : Prop :=
  Alike s s' ∨ ∃ frames frames', FramesAlike frames frames' ∧
    Within frames s next ∧ Within frames' s' next

variable {next : Option Char} {done text name value : Text}

theorem Matches.settle (h : Matches s s' next) : FramesAlike (settle o s) (settle o s') := by
  rcases h with h | ⟨frames, frames', hframes, hs, hs'⟩
  · exact h.settle
  · rw [hs.settle_eq, hs'.settle_eq]
    exact hframes

theorem Matches.read (h : Matches s s' (some c)) : Alike (Worker.read o s c) (Worker.read o s' c) := by
  rcases h with h | ⟨frames, frames', hframes, hs, hs'⟩
  · exact h.read
  · rw [hs.read_eq, hs'.read_eq]
    exact hframes.enter

theorem Matches.alike (h : Matches s s' (some '{')) : Alike s s' := by
  rcases h with h | ⟨frames, frames', hframes, hs, hs'⟩
  · exact h
  · have hnone : ∀ {frames s}, Within frames s (some '{') → s.pending = .none := fun h =>
      h.waiting.resolve_right fun hp => hp.2.2 rfl
    refine ⟨?_, (hnone hs).trans (hnone hs').symm, fun hp => ?_⟩
    · rw [hs.place, hs'.place]
      exact hframes
    · rw [hnone hs] at hp
      cases hp

theorem FramesAlike.stacked (h : FramesAlike frames frames') (hs : Stacked frames') :
    Stacked frames := by
  induction hs generalizing frames with
  | bottom hmode hdepth =>
    cases h with
    | cons hframe hnil =>
      cases hnil
      exact .bottom (hframe.mode.trans hmode) (hframe.depth.trans hdepth)
  | above hdepth _ ih =>
    cases h with
    | cons hframe hbelow => exact .above (hframe.depth ▸ hdepth) (ih hbelow)

theorem Fits.alike (h : Alike s s') (hs : Fits s' done) : Fits s done := by
  have hmode := h.frames.modeOf_eq
  refine ⟨h.frames.stacked hs.stacked, ?_, ?_, ?_, ?_, ?_⟩
  all_goals rw [h.pending, hmode]
  exacts [hs.escaped, hs.slash, hs.star, hs.dollar, hs.word]

theorem quoteOf_advance_slash (h : modeOf frames = .code) :
    quoteOf (modeOf (advance o frames '/')) = none := by
  cases frames with
  | nil => rfl
  | cons frame below =>
    have hmode : frame.mode = .code := h
    obtain ⟨hspace, hstart⟩ := o.special_slash
    have hb : countBraces '/' frame.depth = some frame.depth := by
      cases frame.depth <;> rfl
    by_cases hr : frame.token ∈ regexPrefixTokens
    · simp [advance, turn, hmode, turnCode, hspace, hr, modeOf, quoteOf]
    · simp [advance, turn, hmode, turnCode, hspace, hr, show quoteMode '/' = none from rfl, hb,
        modeOf, quoteOf]

/-- Behind neither a backslash nor a dollar sign, a literal waits for nothing. -/
theorem Fits.pending_none (h : Fits s done) (hq : quoteOf (modeOf (settle o s)) = some quote)
    (hslash : done.getLast? ≠ some '\\') (hdollar : quote = backquote → done.getLast? ≠ some '$') :
    s.pending = .none := by
  cases hp : s.pending with
  | none => rfl
  | escaped => exact absurd (h.escaped hp).1 hslash
  | slash =>
    rw [settle, hp] at hq
    exact absurd ((quoteOf_advance_slash (h.slash hp)).symm.trans hq) (by simp)
  | star =>
    rw [settle_eq (by simp [hp]), h.star hp] at hq
    cases hq
  | dollar =>
    rw [settle_eq (by simp [hp]), (h.dollar hp).2] at hq
    exact absurd (h.dollar hp).1 (hdollar (Option.some.inj hq).symm)
  | word =>
    rw [settle_eq (by simp [hp]), h.word hp] at hq
    cases hq

theorem quoteOf_eq_backquote {mode : Mode} (h : quoteOf mode = some quote) :
    mode = .template ↔ quote = backquote := by
  cases mode <;> cases h <;> decide

theorem quoteOf_mem {mode : Mode} (h : quoteOf mode = some quote) :
    quote = '\'' ∨ quote = '"' ∨ quote = backquote := by
  cases mode <;> cases h <;> decide

/-- A value within a literal: neither it nor its placeholder leaves the literal. -/
theorem Alike.literal (h : Alike s s') (hs : Fits s' done)
    (hq : quoteOf (modeOf (Worker.settle o s')) = some quote)
    (hslash : done.getLast? ≠ some '\\')
    (hdollar : quote = backquote → done.getLast? ≠ some '$' ∧ next ≠ some '{')
    (hvalue : Literal quote value) (htext : Literal quote text) :
    Matches (value.foldl (Worker.read o) s) (text.foldl (Worker.read o) s') next ∧
      ∀ k, modeOf (Worker.settle o ((value.take k).foldl (Worker.read o) s)) =
        modeOf (Worker.settle o s') := by
  have hnone := hs.pending_none hq hslash fun hb => (hdollar hb).1
  have hnone' : s.pending = .none := h.pending.trans hnone
  have hplace : Worker.settle o s' = s'.frames := settle_eq (by simp [hnone])
  have hmode : modeOf s.frames = modeOf s'.frames := h.frames.modeOf_eq
  rw [hplace] at hq ⊢
  have hwithin : ∀ t : Text, Within s.frames s t.head? := fun _ => ⟨rfl, .inl hnone'⟩
  have hwithin' : ∀ t : Text, Within s'.frames s' t.head? := fun _ => ⟨rfl, .inl hnone⟩
  obtain ⟨hend, hfront⟩ := hvalue.foldl (o := o) (hmode ▸ hq) (hwithin _)
  obtain ⟨hend', -⟩ := htext.foldl (o := o) hq (hwithin' _)
  have hnext : modeOf s'.frames = .template → next ≠ some '{' := fun ht =>
    (hdollar ((quoteOf_eq_backquote hq).mp ht)).2
  refine ⟨.inr ⟨_, _, h.frames, hend next (hmode ▸ hnext), hend' next hnext⟩, fun k => ?_⟩
  rw [hfront, hmode]

theorem Fits.settle_cons (h : Fits s done) : ∃ frame below, settle o s = frame :: below ∧
    frame.depth ≠ some 0 := by
  have hstacked : Stacked (settle o s) := by
    unfold settle
    split
    · exact h.stacked.advance
    · exact h.stacked
  cases hf : settle o s with
  | nil =>
    rw [hf] at hstacked
    cases hstacked
  | cons frame below => exact ⟨frame, below, rfl, (hf ▸ hstacked).depth⟩

/-- A value in code: a string literal of its own. -/
theorem Alike.code (h : Alike s s') (hs : Fits s' done)
    (hcode : modeOf (Worker.settle o s') = .code) (hvalue : Literal '"' value)
    (htext : Placeholder o text name) :
    Alike (('"' :: value ++ ['"']).foldl (Worker.read o) s) (text.foldl (Worker.read o) s') ∧
      ∀ k, 0 < k → k ≤ value.length + 1 →
        modeOf (Worker.settle o ((('"' :: value ++ ['"']).take k).foldl (Worker.read o) s)) =
          .double := by
  have hframes : FramesAlike (Worker.settle o s) (Worker.settle o s') := h.settle
  have hcode' : modeOf (Worker.settle o s) = .code := hframes.modeOf_eq.trans hcode
  have hquote := read_code (hs.alike h) hcode' (c := '"') (by simp)
  have hbrace := read_code hs hcode (c := '{') (by simp)
  obtain ⟨frame, below, hf, -⟩ := (hs.alike h).settle_cons (o := o)
  obtain ⟨frame', below', hf', hdepth⟩ := hs.settle_cons (o := o)
  rw [hf, hf'] at hframes
  rw [hf] at hcode' hquote
  rw [hf'] at hcode hbrace
  obtain ⟨halike, hbelow⟩ := List.forall₂_cons.mp hframes
  rw [enter_double hcode'] at hquote
  have hquoted : quoteOf (modeOf ({ mode := .double } :: frame :: below)) = some '"' := rfl
  obtain ⟨hend, hfront⟩ := hvalue.foldl (o := o) hquoted
    (s := ⟨{ mode := .double } :: frame :: below, .none⟩) ⟨rfl, .inl rfl⟩
  have hlast : Worker.read o (value.foldl (Worker.read o)
      ⟨{ mode := .double } :: frame :: below, .none⟩) '"' = ⟨setValue (frame :: below), .none⟩ :=
    (hend (some '"') fun hmode => nomatch hmode).read_eq.trans (enter_quote hquoted)
  constructor
  · rw [List.cons_append, List.foldl_cons, hquote, List.foldl_append, List.foldl_cons, hlast,
      htext.foldl_code hcode hdepth hbrace]
    have hvalueToken : some "value".toList ∉ regexPrefixTokens := by decide
    have hbraceToken : some ['}'] ∉ regexPrefixTokens := by decide
    exact ⟨.cons ⟨halike.mode, halike.depth, halike.charClass, .inr ⟨hvalueToken, hbraceToken⟩⟩
      hbelow, rfl, nofun⟩
  · intro k hk hle
    obtain ⟨k, rfl⟩ : ∃ j, k = j + 1 := ⟨k - 1, by omega⟩
    rw [List.cons_append, List.take_succ_cons, List.take_append_of_le_length (by omega),
      List.foldl_cons, hquote, hfront]
    rfl

/-! ## The structure of a script -/

theorem subFrom_append (sub : Nat → Text → Text → Text) (start : Nat) (a b : List Piece) :
    subFrom sub start (a ++ b) = subFrom sub start a ++ subFrom sub (start + (sourceOf a).length) b := by
  induction a generalizing start with
  | nil => rfl
  | cons p a ih =>
    rw [sourceOf_cons, List.length_append, ← Nat.add_assoc]
    cases p with
    | char c => exact congrArg (c :: ·) (ih _)
    | «variable» text name =>
      show sub start text name ++ subFrom sub _ (a ++ b) = _
      rw [ih, ← List.append_assoc]
      rfl

variable (o) in
/-- The result up to a piece. -/
def rendered (vars : Text → Option Text) (template : Text) (before : List Piece) : Text :=
  subFrom (subJavascript o vars template) 0 before

variable (o) in
/-- What comes next is no placeholder that is replaced right behind a backslash of a literal or, in
    a template literal, behind a dollar sign or before a brace. -/
def FreeAt (vars : Text → Option Text) (template : Text) (before : List Piece) : List Piece → Prop
  | .variable _ name :: after =>
    vars name ≠ none →
      ∀ quote ∈ quoteOf (javascriptContextAt o template (sourceOf before).length),
        (sourceOf before).getLast? ≠ some '\\' ∧
          (quote = backquote →
            (sourceOf before).getLast? ≠ some '$' ∧ (sourceOf after).head? ≠ some '{')
  | _ => True

instance FreeAt.instDecidable (vars : Text → Option Text) (template : Text) (before : List Piece) :
    (after : List Piece) → Decidable (FreeAt o vars template before after)
  | [] | .char _ :: _ => inferInstanceAs (Decidable True)
  | .variable _ name :: after =>
    -- Named, as otherwise the instance that tries every character may be found.
    have := Option.decidableForallMem (p := fun quote => (sourceOf before).getLast? ≠ some '\\' ∧
      (quote = backquote →
        (sourceOf before).getLast? ≠ some '$' ∧ (sourceOf after).head? ≠ some '{'))
      (quoteOf (javascriptContextAt o template (sourceOf before).length))
    inferInstanceAs (Decidable (_ → _))

variable (o) in
def StandsFree (vars : Text → Option Text) (template : Text) : Prop :=
  ∀ before after, pieces o template = before ++ after → FreeAt o vars template before after

instance StandsFree.instDecidable (vars : Text → Option Text) (template : Text) :
    Decidable (StandsFree o vars template) :=
  decidable_of_iff (∀ i ≤ (pieces o template).length,
      FreeAt o vars template ((pieces o template).take i) ((pieces o template).drop i)) <| by
    constructor
    · intro h before after hpieces
      have hi := h before.length (by rw [hpieces]; simp)
      rwa [hpieces, List.take_left, List.drop_left] at hi
    · intro h i _
      exact h _ _ (List.take_append_drop i _).symm

theorem StandsFree.at_variable {vars : Text → Option Text} {template : Text}
    {before after : List Piece} (h : StandsFree o vars template)
    (hpieces : pieces o template = before ++ .variable text name :: after)
    (hname : vars name ≠ none)
    (hq : quoteOf (javascriptContextAt o template (sourceOf before).length) = some quote) :
    (sourceOf before).getLast? ≠ some '\\' ∧
      (quote = backquote →
        (sourceOf before).getLast? ≠ some '$' ∧ (sourceOf after).head? ≠ some '{') :=
  h _ _ hpieces hname quote hq

variable {vars : Text → Option Text} {template : Text} {before after : List Piece}

theorem take_template (h : pieces o template = before ++ after) :
    template.take (sourceOf before).length = sourceOf before := by
  rw [← sourceOf_pieces (o := o) template, h, sourceOf_append]
  exact List.take_left

theorem context_template (h : pieces o template = before ++ after) :
    javascriptContextAt o template (sourceOf before).length =
      modeOf (settle o (readAll o (sourceOf before))) := by
  rw [javascriptContextAt_eq, take_template h]

/-- What one placeholder does to the two readers. -/
theorem Alike.variable (hfree : StandsFree o vars template)
    (hpieces : pieces o template = before ++ .variable text name :: after)
    (h : Alike s (readAll o (sourceOf before))) :
    Matches ((subJavascript o vars template (sourceOf before).length text name).foldl
      (Worker.read o) s) (readAll o (sourceOf before ++ text)) (sourceOf after).head? := by
  have hcontext := context_template hpieces
  have hfits := fits_readAll (o := o) (sourceOf before)
  have htext : Placeholder o text name := placeholder_of_mem (by rw [hpieces]; simp)
  rw [readAll_append]
  unfold subJavascript
  cases hval : vars name with
  | none => exact .inl (h.foldl text)
  | some raw =>
    simp only [encode]
    cases hq : quoteOf (javascriptContextAt o template (sourceOf before).length) with
    | some quote =>
      obtain ⟨hslash, hdollar⟩ := hfree.at_variable hpieces (by simp [hval]) hq
      exact (h.literal hfits (hcontext ▸ hq) hslash hdollar (literal_escape _ (quoteOf_mem hq))
        (htext.literal (quoteOf_mem hq))).1
    | none =>
      simp only
      split
      · exact .inl (h.code hfits (hcontext.symm.trans ‹_›)
          ((quoted_dump _).literal (by decide)) htext).1
      · exact .inl (h.foldl text)

theorem Matches.at_variable (hpieces : pieces o template = before ++ .variable text name :: after)
    (h : Matches s s' (sourceOf (.variable text name :: after)).head?) : Alike s s' := by
  have hmem : Piece.variable text name ∈ pieces o template := by simp [hpieces]
  obtain ⟨_, _, hparts, -⟩ := (placeholder_of_mem hmem).parts
  have hbrace : (sourceOf (.variable text name :: after)).head? = some '{' := by
    rw [sourceOf_cons, Piece.source, hparts]
    rfl
  exact (hbrace ▸ h).alike

/-- The reader of the result matches that of the template before every piece. -/
theorem matches_rendered (hfree : StandsFree o vars template)
    (hpieces : pieces o template = before ++ after) :
    Matches (readAll o (rendered o vars template before)) (readAll o (sourceOf before))
      (sourceOf after).head? := by
  induction before using List.reverseRecOn generalizing after with
  | nil => exact .inl (.refl _)
  | append_singleton before p ih =>
    rw [List.append_assoc, List.singleton_append] at hpieces
    have hmatches := ih hpieces
    have hsource : sourceOf (before ++ [p]) = sourceOf before ++ p.source := by
      rw [sourceOf_append, sourceOf_cons]
      exact congrArg _ (List.append_nil _)
    rw [hsource, rendered, subFrom_append, Nat.zero_add]
    cases p with
    | char c =>
      rw [readAll_append, readAll_append]
      exact .inl hmatches.read
    | «variable» text name =>
      have hone : ∀ sub start, subFrom sub start [.variable text name] = sub start text name :=
        fun _ _ => List.append_nil _
      rw [hone, readAll_append]
      exact (hmatches.at_variable hpieces).variable hfree hpieces

/-- The result up to a place within a value. -/
theorem take_result (hpieces : pieces o template = before ++ .variable text name :: after) {k : Nat}
    (hk : k ≤ (subJavascript o vars template (sourceOf before).length text name).length) :
    (resolveJavascript o vars template).take ((rendered o vars template before).length + k) =
      rendered o vars template before ++
        (subJavascript o vars template (sourceOf before).length text name).take k := by
  rw [resolveJavascript, hpieces, subFrom_append, Nat.zero_add, subFrom, rendered, List.take_append,
    List.take_of_length_le (by omega), Nat.add_sub_cancel_left, List.take_append_of_le_length hk]

theorem readAll_at (hpieces : pieces o template = before ++ .variable text name :: after) {k : Nat}
    (hk : k ≤ (subJavascript o vars template (sourceOf before).length text name).length) :
    javascriptContextAt o (resolveJavascript o vars template)
        ((rendered o vars template before).length + k) =
      modeOf (settle o (((subJavascript o vars template (sourceOf before).length text name).take
        k).foldl (read o) (readAll o (rendered o vars template before)))) := by
  rw [javascriptContextAt_eq, take_result hpieces hk, readAll_append]

/-- A script with values has the structure of its template: what stands behind a placeholder is in
    the same kind of place as before, and the value itself does not leave its literal, the one
    around it or, in code, its own. -/
theorem resolveJavascript_structure (hfree : StandsFree o vars template)
    (hpieces : pieces o template = before ++ after) :
    javascriptContextAt o (resolveJavascript o vars template)
        (rendered o vars template before).length =
      javascriptContextAt o template (sourceOf before).length ∧
    ∀ text name rest, after = .variable text name :: rest → vars name ≠ none →
      ∀ k, 0 < k → k < (subJavascript o vars template (sourceOf before).length text name).length →
        let place := javascriptContextAt o template (sourceOf before).length
        let inside := javascriptContextAt o (resolveJavascript o vars template)
          ((rendered o vars template before).length + k)
        (quoteOf place ≠ none → inside = place) ∧ (place = .code → inside = .double) := by
  have hmatches := matches_rendered hfree hpieces
  have hcontext := context_template hpieces
  constructor
  · rw [hcontext, ← hmatches.settle.modeOf_eq, javascriptContextAt_eq, resolveJavascript, hpieces,
      subFrom_append, rendered, List.take_left]
  · rintro text name rest rfl hname k hpos hk
    obtain ⟨raw, hval⟩ := Option.ne_none_iff_exists'.mp hname
    have halike := hmatches.at_variable hpieces
    have hfits := fits_readAll (o := o) (sourceOf before)
    have htext : Placeholder o text name := placeholder_of_mem (by rw [hpieces]; simp)
    simp only
    rw [readAll_at hpieces hk.le]
    constructor
    · intro hplace
      obtain ⟨quote, hq⟩ := Option.ne_none_iff_exists'.mp hplace
      obtain ⟨hslash, hdollar⟩ := hfree.at_variable hpieces hname hq
      have hvalue : subJavascript o vars template (sourceOf before).length text name =
          escapeJavascriptString (resolve o vars raw) quote := by
        simp [subJavascript, hval, encode, hq]
      rw [hvalue, (halike.literal hfits (hcontext ▸ hq) hslash hdollar
        (literal_escape _ (quoteOf_mem hq)) (htext.literal (quoteOf_mem hq))).2 k, hcontext]
    · intro hplace
      have hvalue : subJavascript o vars template (sourceOf before).length text name =
          '"' :: (resolve o vars raw).flatMap dumpChar ++ ['"'] := by
        simp [subJavascript, hval, encode, hplace, quoteOf, jsonDumps]
      rw [hvalue] at hk ⊢
      refine (halike.code hfits (hcontext.symm.trans hplace)
        ((quoted_dump _).literal (by decide)) htext).2 k hpos ?_
      simp only [List.length_append, List.length_cons, List.length_nil] at hk
      omega

/-- What stands for a placeholder denotes the value of its variable. -/
theorem resolveJavascript_denotes (hpieces : pieces o template = before ++ .variable text name :: after)
    {raw : Text} (hval : vars name = some raw)
    (hplace : javascriptContextAt o template (sourceOf before).length ∈
      [.code, .single, .double, .template]) :
    ∃ written rest,
      resolveJavascript o vars template = rendered o vars template before ++ written ++ rest ∧
        denoted (javascriptContextAt o template (sourceOf before).length) written =
          some (resolve o vars raw) := by
  have hwritten : subJavascript o vars template (sourceOf before).length text name =
      encode text (resolve o vars raw)
        (javascriptContextAt o template (sourceOf before).length) := by
    rw [subJavascript, hval]
  refine ⟨subJavascript o vars template (sourceOf before).length text name,
    subFrom (subJavascript o vars template) ((sourceOf before).length + text.length) after, ?_, ?_⟩
  · rw [resolveJavascript, hpieces, subFrom_append, Nat.zero_add, subFrom, ← List.append_assoc]
    rfl
  · rw [hwritten]
    exact denoted_encode hplace text _

end

def sampleVars (name : Text) : Option Text :=
  if name = "X".toList then some "'\"$\x7b1".toList else none

def sampleScript : Text := "f(".toList ++ ['{', '{', 'X', '}', '}'] ++ ",'".toList ++
  ['{', '{', 'X', '}', '}'] ++ "')".toList

/-- The second placeholder is within quotes, and so is the third character of its value. -/
theorem resolveJavascript_structure_sample :
    javascriptContextAt asciiClasses (resolveJavascript asciiClasses sampleVars sampleScript) 12 =
        .single ∧
      javascriptContextAt asciiClasses (resolveJavascript asciiClasses sampleVars sampleScript) 14 =
        .single := by
  have hfree : StandsFree asciiClasses sampleVars sampleScript := by decide
  have hpieces : pieces asciiClasses sampleScript = (pieces asciiClasses sampleScript).take 5 ++
      .variable ['{', '{', 'X', '}', '}'] ['X'] :: [.char '\'', .char ')'] := by decide
  have hplace : javascriptContextAt asciiClasses sampleScript
      (sourceOf ((pieces asciiClasses sampleScript).take 5)).length = .single := by decide
  obtain ⟨hat, hinside⟩ := resolveJavascript_structure hfree hpieces
  have hin := (hinside _ _ _ rfl (by decide) 2 (by decide) (by decide)).1 (by rw [hplace]; decide)
  rw [hplace] at hat hin
  have hlen : (rendered asciiClasses sampleVars sampleScript
      ((pieces asciiClasses sampleScript).take 5)).length = 12 := by decide
  rw [hlen] at hat hin
  exact ⟨hat, hin⟩

theorem resolveJavascript_denotes_sample : ∃ written rest,
    resolveJavascript asciiClasses sampleVars sampleScript =
      rendered asciiClasses sampleVars sampleScript ((pieces asciiClasses sampleScript).take 5) ++
        written ++ rest ∧
      denoted .single written = some "'\"$\x7b1".toList := by
  have hpieces : pieces asciiClasses sampleScript = (pieces asciiClasses sampleScript).take 5 ++
      .variable ['{', '{', 'X', '}', '}'] ['X'] :: [.char '\'', .char ')'] := by decide
  have hplace : javascriptContextAt asciiClasses sampleScript
      (sourceOf ((pieces asciiClasses sampleScript).take 5)).length = .single := by decide
  have hvalue : resolve asciiClasses sampleVars "'\"$\x7b1".toList = "'\"$\x7b1".toList := by decide
  have hval : sampleVars ['X'] = some "'\"$\x7b1".toList := rfl
  have h := resolveJavascript_denotes hpieces hval (by rw [hplace]; decide)
  rw [hplace, hvalue] at h
  exact h

/-- Behind a dollar sign of a template literal a value can begin an expression. -/
example :
    let script := backquote :: '$' :: ['{', '{', 'X', '}', '}'] ++ [backquote]
    javascriptContextAt asciiClasses script 2 = .template ∧
      javascriptContextAt asciiClasses
        (resolveJavascript asciiClasses (fun _ => some "\x7b1\x7d".toList) script) 3 = .code := by
  decide

end CampusAuth.Worker
