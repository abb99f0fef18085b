import CampusAuth.Ai.Llm

/- How an answer is cut into chunks, and when a request may be sent again.

   Two cuts of one stream can come to different results in two ways. What stands behind `[DONE]`
   in the same chunk is read as if it were the open line at the end of the stream, so it matters
   how much of it came with that chunk. And the limit of the buffer is tested before the lines in
   it are handed on, so a stream that is longer than the buffer is cut short at its first byte by
   one cut and later by another. `decode_agrees` says that nothing else depends on the cut. -/
namespace CampusAuth.Ai
open Lib

variable (parse : Text → Option Json)

/-- `stream_chat_response` on a stream that is cut into `cuts`; then the service closes it, or
    something interrupts it. -/
def decode (ending : Option Interruption) (cuts : List (List UInt8)) : Outcome :=
  streamChatResponse parse (cuts.map .chunk ++ ending.toList.map .stop)

/-- The same result, and the same text was passed on. -/
def Same (a b : Outcome) : Prop := a.1 = b.1 ∧ a.2.flatten = b.2.flatten

def contentIn (line : List UInt8) : Text :=
  match readSseLine parse line with
  | .ok (.data _ content) => content
  | _ => []

/-- The lines, and the open one. -/
def linesOf (stream : List UInt8) : List (List UInt8) :=
  (splitLines 10 stream).1 ++ [(splitLines 10 stream).2]

def isDone (line : List UInt8) : Bool := decide (readSseLine parse line = .ok .done)

/-- What the lines before the first `[DONE]` say. -/
def told (lines : List (List UInt8)) : Text :=
  (lines.takeWhile fun line => !isDone parse line).flatMap (contentIn parse)

/-- Every cut comes to the same, and a text that is returned is the one that was passed on and
    the one of the stream. -/
structure ChunkingFree (ending : Option Interruption) (stream : List UInt8) : Prop where
  same : ∀ cuts cuts', cuts.flatten = stream → cuts'.flatten = stream →
    Same (decode parse ending cuts) (decode parse ending cuts')
  text : ∀ cuts text, cuts.flatten = stream → (decode parse ending cuts).1 = .ok text →
    (decode parse ending cuts).2.flatten = text ∧ text = told parse (linesOf stream)

/-- Nothing has been said. -/
def Sse.Silent (s : Sse) : Prop := s.full = []

/-- The line is read and is not `[DONE]`. -/
def Plain (line : List UInt8) : Prop :=
  ∃ said, readSseLine parse line = .ok said ∧ said ≠ .done

/-- The line is read and says nothing. -/
def Neutral (line : List UInt8) : Prop :=
  (∃ said, readSseLine parse line = .ok said) ∧ contentIn parse line = []

/-- The stream reaches a `[DONE]`, and `rest` stands behind that line. -/
def DoneBefore (stream rest : List UInt8) : Prop :=
  ∃ lines line, stream = joinLines 10 (lines ++ [line]) rest ∧
    (∀ l ∈ lines ++ [line], 10 ∉ l) ∧ (∀ l ∈ lines, Plain parse l) ∧ isDone parse line ∧
    (bytes (lines.flatMap (contentIn parse))).length ≤ maxResponseBytes

/-- When it does not matter how the stream is cut. One that fits the buffer has behind its
    `[DONE]` nothing of which a beginning could be read as a line that fails or says something.
    One that does not fit has a line that does not fit either, and nothing was said before it. -/
def Clear (stream : List UInt8) : Prop :=
  if maxSseBufferBytes < stream.length then
    Clogs (sseStep parse) 10 maxSseBufferBytes Sse.Silent {} stream
  else ∀ rest, DoneBefore parse stream rest → ∀ start, start <+: rest → Neutral parse start

variable {parse}

/-! ## What is passed on -/

/-- What was passed on is the text, and whether there is one is known. -/
structure Sse.Sound (s : Sse) : Prop where
  deltas : s.deltas.flatten = s.full
  nonempty : s.full = [] → s.deltas = []
  emitted : s.emitted = !s.full.isEmpty
  reason : s.reason ≠ some "length".toList

theorem sound_start : Sse.Sound {} := ⟨rfl, fun _ => rfl, rfl, by simp⟩

@[simp] theorem full_note (s : Sse) (reason : Option Text) : (s.note reason).full = s.full := by
  cases reason with
  | none => rfl
  | some r =>
    unfold Sse.note
    dsimp only
    split <;> rfl

@[simp] theorem deltas_note (s : Sse) (reason : Option Text) :
    (s.note reason).deltas = s.deltas := by
  cases reason with
  | none => rfl
  | some r =>
    unfold Sse.note
    dsimp only
    split <;> rfl

@[simp] theorem full_push (s : Sse) (content : Text) : (s.push content).full = s.full ++ content := by
  unfold Sse.push
  split
  next h => simp [h]
  next => rfl

theorem readData_reason {data : Text} {reason : Option Text} {content : Text}
    (h : readData parse data = .ok (.data reason content)) : reason ≠ some "length".toList := by
  unfold readData at h
  split at h
  · simp at h
  split at h
  · simp at h
  dsimp only at h
  split at h
  · simp at h
  next hreason =>
    simp only [Except.ok.injEq, SseLine.data.injEq] at h
    rw [← h.1]
    exact hreason

/-- The lines that are cut off by the service are errors. -/
theorem readSseLine_reason {line : List UInt8} {reason : Option Text} {content : Text}
    (h : readSseLine parse line = .ok (.data reason content)) : reason ≠ some "length".toList := by
  unfold readSseLine at h
  split at h
  · simp at h
  dsimp only at h
  split at h
  · simp at h
  split at h
  · simp at h
  · exact readData_reason h

/-- The errors a line can come to. -/
theorem readSseLine_error {line : List UInt8} {e : AiError}
    (h : readSseLine parse line = .error e) : e = .invalidStreamUtf8 ∨ e = .truncated := by
  unfold readSseLine at h
  split at h
  · simp at h
    exact .inl h.symm
  dsimp only at h
  split at h
  · simp at h
  split at h
  · simp at h
  unfold readData at h
  split at h
  · simp at h
  split at h
  · simp at h
  dsimp only at h
  split at h
  · simp at h
    exact .inr h.symm
  · simp at h

/-- What consuming a line does to the text. -/
structure Consumed (s s' : Sse) (content : Text) : Prop where
  full : s'.full = s.full ++ content
  sound : s.Sound → s'.mark.Sound

theorem consumed_refl (s : Sse) : Consumed s s [] where
  full := (List.append_nil _).symm
  sound h := ⟨h.deltas, h.nonempty, rfl, h.reason⟩

theorem consumed_data (s : Sse) {reason : Option Text} (hreason : reason ≠ some "length".toList)
    (content : Text) : Consumed s ((s.note reason).push content) content where
  full := by simp
  sound h := by
    have hnote : (s.note reason).reason ≠ some "length".toList := by
      cases reason with
      | none => exact h.reason
      | some r =>
        unfold Sse.note
        dsimp only
        split
        · exact hreason
        · exact h.reason
    by_cases hc : content = []
    · subst hc
      refine ⟨?_, ?_, rfl, hnote⟩
      · simpa [Sse.push, Sse.mark] using h.deltas
      · simpa [Sse.push, Sse.mark] using h.nonempty
    · refine ⟨?_, ?_, rfl, ?_⟩
      · simp [Sse.push, Sse.mark, hc, h.deltas]
      · simp [Sse.push, Sse.mark, hc]
      · simpa [Sse.push, Sse.mark, hc] using hnote

theorem consumeSseLine_ok {line : List UInt8} {s s' : Sse} {done : Bool}
    (h : consumeSseLine parse line s = .ok (done, s')) :
    done = isDone parse line ∧ Consumed s s' (contentIn parse line) ∧
      ∃ said, readSseLine parse line = .ok said := by
  unfold consumeSseLine at h
  unfold isDone contentIn
  cases hread : readSseLine parse line with
  | error e => simp [hread] at h
  | ok said =>
    rw [hread] at h
    cases said with
    | skip =>
      simp only [Except.ok.injEq, Prod.mk.injEq] at h
      obtain ⟨rfl, rfl⟩ := h
      exact ⟨by simp, consumed_refl s, _, rfl⟩
    | done =>
      simp only [Except.ok.injEq, Prod.mk.injEq] at h
      obtain ⟨rfl, rfl⟩ := h
      exact ⟨by simp, consumed_refl s, _, rfl⟩
    | data reason content =>
      simp only [Except.ok.injEq, Prod.mk.injEq] at h
      obtain ⟨rfl, rfl⟩ := h
      exact ⟨by simp, consumed_data s (readSseLine_reason hread) content, _, rfl⟩

theorem consumeSseLine_error {line : List UInt8} {s : Sse} {e : AiError}
    (h : consumeSseLine parse line s = .error e) : readSseLine parse line = .error e := by
  unfold consumeSseLine at h
  cases hread : readSseLine parse line with
  | error e' => simpa [hread] using h
  | ok said =>
    rw [hread] at h
    cases said <;> simp at h

/-! ## One line -/

/-- All that a line can come to. -/
inductive StepCase (parse : Text → Option Json) (s : Sse) (line : List UInt8) :
    LineResult Sse AiError → Prop
  | fails (e : AiError) : readSseLine parse line = .error e → StepCase parse s line (.fail e s)
  | full (s' : Sse) : s'.full = s.full ++ contentIn parse line → (s.Sound → s'.Sound) →
      maxResponseBytes < (bytes s'.full).length →
      StepCase parse s line (.fail .responseTooLarge s')
  | done (s' : Sse) : s'.full = s.full ++ contentIn parse line → (s.Sound → s'.Sound) →
      (bytes s'.full).length ≤ maxResponseBytes → isDone parse line →
      StepCase parse s line (.stop s')
  | plain (s' : Sse) : s'.full = s.full ++ contentIn parse line → (s.Sound → s'.Sound) →
      (bytes s'.full).length ≤ maxResponseBytes → Plain parse line → StepCase parse s line (.next s')

variable (parse) in
theorem sseStep_cases (s : Sse) (line : List UInt8) :
    StepCase parse s line (sseStep parse s line) := by
  unfold sseStep
  cases hline : consumeSseLine parse line s with
  | error e => exact .fails e (consumeSseLine_error hline)
  | ok result =>
    obtain ⟨done, s'⟩ := result
    obtain ⟨hdone, hconsumed, said, hsaid⟩ := consumeSseLine_ok hline
    dsimp only
    by_cases hbig : maxResponseBytes < (bytes s'.mark.full).length
    · rw [if_pos hbig]
      exact .full s'.mark hconsumed.full hconsumed.sound hbig
    rw [if_neg hbig]
    cases done with
    | true =>
      exact .done s'.mark hconsumed.full hconsumed.sound (Nat.not_lt.mp hbig) hdone.symm
    | false =>
      refine .plain s'.mark hconsumed.full hconsumed.sound (Nat.not_lt.mp hbig) ⟨said, hsaid, ?_⟩
      rintro rfl
      simp [isDone, hsaid] at hdone

/-- A text that is not empty stays so. -/
theorem silentBefore : QuietBefore (sseStep parse) Sse.Silent := by
  intro s line s' h hs'
  have hcases := sseStep_cases parse s line
  rw [h] at hcases
  cases hcases with
  | plain _ hfull _ _ _ => exact (List.append_eq_nil_iff.mp (hfull.symm.trans hs')).1

/-! ## The lines of a buffer -/

theorem contentIn_done {line : List UInt8} (h : isDone parse line) : contentIn parse line = [] := by
  simp [contentIn, of_decide_eq_true h]

theorem not_done_of_plain {line : List UInt8} (h : Plain parse line) : isDone parse line = false := by
  obtain ⟨said, hsaid, hne⟩ := h
  simp [isDone, hsaid, hne]

/-- All that draining the lines can come to. -/
inductive DrainCase (parse : Text → Option Json) (lines : List (List UInt8)) (left : List UInt8)
    (s : Sse) : Drained UInt8 Sse AiError → Prop
  | more (t : Sse) : t.Sound → t.full = s.full ++ lines.flatMap (contentIn parse) →
      (∀ l ∈ lines, Plain parse l) → DrainCase parse lines left s (.more left t)
  | finished (before : List (List UInt8)) (line : List UInt8) (behind : List (List UInt8)) (t : Sse) :
      lines = before ++ line :: behind → t.Sound →
      t.full = s.full ++ before.flatMap (contentIn parse) → (∀ l ∈ before, Plain parse l) →
      isDone parse line → (bytes t.full).length ≤ maxResponseBytes →
      DrainCase parse lines left s (.finished (joinLines 10 behind left) t)
  | failed (e : AiError) (t : Sse) : t.Sound → (e = .responseTooLarge → t.full ≠ []) →
      DrainCase parse lines left s (.failed e t)

variable (parse) in
theorem drainLines_cases : ∀ (lines : List (List UInt8)) (left : List UInt8) (s : Sse), s.Sound →
    DrainCase parse lines left s (drainLines (sseStep parse) 10 lines left s)
  | [], left, s, hs => .more s hs (List.append_nil _).symm (by simp)
  | line :: lines, left, s, hs => by
    unfold drainLines
    cases hstep : sseStep parse s line with
    | fail e t =>
      have hcases := sseStep_cases parse s line
      rw [hstep] at hcases
      cases hcases with
      | fails _ herror =>
        refine .failed e s hs ?_
        rintro rfl
        rcases readSseLine_error herror with h | h <;> cases h
      | full _ _ hsound hbig =>
        refine .failed _ t (hsound hs) fun _ hnil => ?_
        rw [hnil] at hbig
        exact absurd hbig (by decide)
    | stop t =>
      have hcases := sseStep_cases parse s line
      rw [hstep] at hcases
      cases hcases with
      | done _ hfull hsound hfits hdone =>
        rw [contentIn_done hdone] at hfull
        exact .finished [] line lines t rfl (hsound hs) hfull (by simp) hdone hfits
    | next t =>
      have hcases := sseStep_cases parse s line
      rw [hstep] at hcases
      cases hcases with
      | plain _ hfull hsound _ hplain =>
        dsimp only
        have hrest := drainLines_cases lines left t (hsound hs)
        generalize drainLines (sseStep parse) 10 lines left t = result at hrest
        cases hrest with
        | more u hu hufull hall =>
          refine .more u hu ?_ ?_
          · rw [hufull, hfull, List.flatMap_cons, List.append_assoc]
          · exact List.forall_mem_cons.mpr ⟨hplain, hall⟩
        | finished before done behind u hlines hu hufull hall hdone hfits =>
          refine .finished (line :: before) done behind u ?_ hu ?_ ?_ hdone hfits
          · rw [hlines, List.cons_append]
          · rw [hufull, hfull, List.flatMap_cons, List.append_assoc]
          · exact List.forall_mem_cons.mpr ⟨hplain, hall⟩
        | failed e u hu hbig => exact .failed e u hu hbig

theorem length_bytes_le_append (a b : Text) : (bytes a).length ≤ (bytes (a ++ b)).length := by
  simp

/-- Plain lines of which the text is not too long are passed over. -/
theorem drain_plain : ∀ (lines : List (List UInt8)) (line rest : List UInt8) (s : Sse),
    (∀ l ∈ lines ++ [line], 10 ∉ l) → (∀ l ∈ lines, Plain parse l) → isDone parse line →
    (bytes (s.full ++ lines.flatMap (contentIn parse))).length ≤ maxResponseBytes →
    ∃ t, drainBuffer parse (joinLines 10 (lines ++ [line]) rest) s = .finished rest t
  | [], line, rest, s, hlines, _, hdone, hfits => by
    have hjoin : joinLines 10 ([] ++ [line]) rest = line ++ 10 :: rest := by simp [joinLines]
    rw [hjoin, drainBuffer, drain_line (hlines line (by simp))]
    have hcases := sseStep_cases parse s line
    cases hstep : sseStep parse s line with
    | fail e t =>
      rw [hstep] at hcases
      cases hcases with
      | fails _ herror => simp [isDone, herror] at hdone
      | full _ hfull _ hbig =>
        rw [hfull, contentIn_done hdone] at hbig
        exact absurd hfits (Nat.not_le.mpr hbig)
    | stop t => exact ⟨t, rfl⟩
    | next t =>
      rw [hstep] at hcases
      cases hcases with
      | plain _ _ _ _ hplain => simp [not_done_of_plain hplain] at hdone
  | first :: lines, line, rest, s, hlines, hplain, hdone, hfits => by
    have hjoin : joinLines 10 (first :: lines ++ [line]) rest =
        first ++ 10 :: joinLines 10 (lines ++ [line]) rest := by
      simp [joinLines]
    obtain ⟨hfirst, hplain⟩ := List.forall_mem_cons.mp hplain
    rw [List.flatMap_cons, ← List.append_assoc] at hfits
    rw [hjoin, drainBuffer, drain_line (hlines first (by simp))]
    have hcases := sseStep_cases parse s first
    cases hstep : sseStep parse s first with
    | fail e t =>
      rw [hstep] at hcases
      cases hcases with
      | fails _ herror =>
        obtain ⟨said, hsaid, _⟩ := hfirst
        simp [hsaid] at herror
      | full _ hfull _ hbig =>
        rw [hfull] at hbig
        have hle := length_bytes_le_append (s.full ++ contentIn parse first)
          (lines.flatMap (contentIn parse))
        omega
    | stop t =>
      rw [hstep] at hcases
      cases hcases with
      | done _ _ _ _ hstop => simp [not_done_of_plain hfirst] at hstop
    | next t =>
      rw [hstep] at hcases
      cases hcases with
      | plain _ hfull _ _ _ =>
        refine drain_plain lines line rest t (fun l hl => hlines l ?_) hplain hdone ?_
        · exact List.mem_cons_of_mem _ hl
        · rw [hfull]
          exact hfits

variable (parse) in
theorem drain_cases (buf : List UInt8) :
    DrainCase parse (splitLines 10 buf).1 (splitLines 10 buf).2 {} (drainBuffer parse buf {}) :=
  drainLines_cases parse _ _ _ sound_start

theorem not_mem_lines {sep : UInt8} {xs : List UInt8} : ∀ l ∈ (splitLines sep xs).1, sep ∉ l := by
  induction xs using lines_induction sep with
  | hopen left hleft =>
    rw [splitLines_of_not_mem hleft]
    simp
  | hline line rest hline ih =>
    rw [splitLines_line hline]
    exact List.forall_mem_cons.mpr ⟨hline, ih⟩

theorem drain_finished_iff {stream rest : List UInt8} :
    (∃ s, drainBuffer parse stream {} = .finished rest s) ↔ DoneBefore parse stream rest := by
  constructor
  · rintro ⟨s, h⟩
    have hcases := drain_cases parse stream
    rw [h] at hcases
    generalize hlines : (splitLines 10 stream).1 = lines at hcases
    cases hcases with
    | finished before line behind _ hsplit _ hfull hplain hdone hfits =>
      have hnot : ∀ l ∈ lines, 10 ∉ l := hlines ▸ not_mem_lines
      refine ⟨before, line, ?_, ?_, hplain, hdone, ?_⟩
      · have hjoin := joinLines_splitLines 10 stream
        rw [hlines, hsplit] at hjoin
        refine hjoin.symm.trans ?_
        simp [joinLines]
      · intro l hl
        refine hnot l (hsplit ▸ ?_)
        rw [← List.singleton_append, ← List.append_assoc]
        exact List.mem_append_left _ hl
      · rw [hfull] at hfits
        exact hfits
  · rintro ⟨lines, line, rfl, hnot, hplain, hdone, hfits⟩
    exact drain_plain lines line rest {} hnot hplain hdone hfits

/-! ## The end of a stream -/

theorem lineText_bytes (text : Text) : lineText (bytes text) = some text := by
  unfold lineText String.fromUTF8?
  have hvalid : (bytes text).toByteArray.IsValidUTF8 := ⟨text, rfl⟩
  rw [dif_pos hvalid]
  have hfrom : String.fromUTF8 (bytes text).toByteArray hvalid = String.ofList text := by
    rw [← String.toByteArray_inj, String.toByteArray_ofList]
    rfl
  rw [hfrom, Option.map_some, String.toList_ofList]

theorem strip_blank {text : Text} (h : ∀ c ∈ text, isWhitespace c = true) : strip text = [] := by
  have hdrop : text.dropWhile isWhitespace = [] := List.dropWhile_eq_nil_iff.mpr h
  simp [strip, hdrop]

theorem blank_text : ∀ (line : List UInt8), line.all isAsciiWhitespace = true →
    ∃ text, bytes text = line ∧ ∀ c ∈ text, isWhitespace c = true
  | [], _ => ⟨[], rfl, by simp⟩
  | b :: line, h => by
    rw [List.all_cons, Bool.and_eq_true] at h
    obtain ⟨hb, hline⟩ := h
    obtain ⟨text, rfl, htext⟩ := blank_text line hline
    have hchar : ∃ c, String.utf8EncodeChar c = [b] ∧ isWhitespace c = true := by
      simp only [isAsciiWhitespace, Bool.or_eq_true, beq_iff_eq] at hb
      rcases hb with (((rfl | rfl) | rfl) | rfl) | rfl
      · exact ⟨Char.ofNat 9, by decide, by decide⟩
      · exact ⟨Char.ofNat 10, by decide, by decide⟩
      · exact ⟨Char.ofNat 12, by decide, by decide⟩
      · exact ⟨Char.ofNat 13, by decide, by decide⟩
      · exact ⟨Char.ofNat 32, by decide, by decide⟩
    obtain ⟨c, hc, hwhite⟩ := hchar
    refine ⟨c :: text, by rw [bytes_cons, hc, List.singleton_append], ?_⟩
    exact List.forall_mem_cons.mpr ⟨hwhite, htext⟩

variable (parse) in
/-- A blank line says nothing. -/
theorem readSseLine_blank {line : List UInt8} (h : line.all isAsciiWhitespace = true) :
    readSseLine parse line = .ok .skip := by
  obtain ⟨text, rfl, htext⟩ := blank_text line h
  simp [readSseLine, lineText_bytes, strip_blank htext]

theorem closing_sound {s : Sse} (hs : s.Sound) :
    closing s = if s.full = [] then (.error (.emptyStream, false), []) else (.ok s.full, s.deltas) := by
  unfold closing
  by_cases hfull : s.full = []
  · simp [hfull, failed, hs.nonempty hfull, hs.emitted]
  · rw [if_neg hfull, if_neg hfull, if_neg hs.reason]

variable (parse) in
/-- The open line is an error, or adds what it says. -/
theorem conclude_cases (s : Sse) (hs : s.Sound) (open' : List UInt8) :
    (∃ e, readSseLine parse open' = .error e ∧ conclude parse open' s = failed e s) ∨
      ∃ s', s'.Sound ∧ s'.full = s.full ++ contentIn parse open' ∧
        conclude parse open' s = closing s' ∧ ∃ said, readSseLine parse open' = .ok said := by
  unfold conclude consumeTail
  by_cases hblank : open'.all isAsciiWhitespace = true
  · rw [if_pos hblank]
    have hread := readSseLine_blank parse hblank
    exact .inr ⟨s, hs, by simp [contentIn, hread], rfl, _, hread⟩
  rw [if_neg hblank]
  cases hline : consumeSseLine parse open' s with
  | error e => exact .inl ⟨e, consumeSseLine_error hline, rfl⟩
  | ok result =>
    obtain ⟨done, s'⟩ := result
    obtain ⟨_, hconsumed, hsaid⟩ := consumeSseLine_ok hline
    exact .inr ⟨s'.mark, hconsumed.sound hs, hconsumed.full, rfl, hsaid⟩

theorem conclude_neutral {s : Sse} (hs : s.Sound) {open' : List UInt8} (h : Neutral parse open') :
    (conclude parse open' s).1 = (closing s).1 ∧
      (conclude parse open' s).2.flatten = (closing s).2.flatten := by
  obtain ⟨⟨said, hsaid⟩, hcontent⟩ := h
  obtain ⟨e, herror, _⟩ | ⟨s', hs', hfull, hconclude, _⟩ := conclude_cases parse s hs open'
  · rw [hsaid] at herror
    cases herror
  rw [hcontent, List.append_nil] at hfull
  rw [hconclude, closing_sound hs', closing_sound hs, hfull]
  by_cases hnil : s.full = []
  · simp [hnil]
  · simp [hnil, hs'.deltas, hs.deltas, hfull]

variable (parse) in
theorem neutral_nil : Neutral parse [] := by
  have hread : readSseLine parse [] = .ok .skip := readSseLine_blank parse rfl
  exact ⟨⟨_, hread⟩, by simp [contentIn, hread]⟩

/-- If a line behind the end changes nothing, it says nothing. -/
theorem neutral_of_same {s : Sse} (hs : s.Sound) {open' : List UInt8}
    (h : Same (conclude parse [] s) (conclude parse open' s)) : Neutral parse open' := by
  have hclosing := conclude_neutral hs (neutral_nil parse)
  obtain ⟨hresult, htext⟩ := h
  rw [hclosing.1, closing_sound hs] at hresult
  rw [hclosing.2, closing_sound hs] at htext
  obtain ⟨e, herror, hconclude⟩ | ⟨s', hs', hfull, hconclude, hsaid⟩ := conclude_cases parse s hs open'
  · rw [hconclude] at hresult
    have hkind := readSseLine_error herror
    by_cases hnil : s.full = []
    · simp only [hnil, if_true, failed, Except.error.injEq, Prod.mk.injEq] at hresult
      rcases hkind with rfl | rfl <;> cases hresult.1
    · simp [hnil, failed] at hresult
  · refine ⟨hsaid, ?_⟩
    rw [hconclude, closing_sound hs', hfull] at htext
    by_cases hnil : s.full = []
    · by_cases hcontent : contentIn parse open' = []
      · exact hcontent
      · simp [hnil, hcontent, hs'.deltas, hfull] at htext
    · simpa [hnil, hs.deltas, hs'.deltas, hfull] using htext

/-! ## All cuts -/

/-- What the reading of a stream comes to in the end. -/
def settleStream (parse : Text → Option Json) (ending : Option Interruption) :
    Stopped UInt8 Sse AiError → Outcome
  | .overflow s => failed .responseTooLarge s
  | .ended left s =>
    match ending with
    | none => conclude parse left s
    | some why => failed why.error s
  | .finished rest s => conclude parse rest s
  | .failed e s => failed e s

theorem pullChunks_eq (ending : Option Interruption) : ∀ (cuts : List (List UInt8)) (buf : List UInt8)
    (s : Sse), pullChunks parse (cuts.map .chunk ++ ending.toList.map .stop) buf s =
      settleStream parse ending (readChunks (sseStep parse) 10 maxSseBufferBytes cuts buf s)
  | [], buf, s => by
    cases ending <;> rfl
  | cut :: cuts, buf, s => by
    rw [List.map_cons, List.cons_append, pullChunks, readChunks]
    by_cases hover : maxSseBufferBytes < (buf ++ cut).length
    · rw [if_pos hover, if_pos hover]
      rfl
    rw [if_neg hover, if_neg hover, drainBuffer]
    cases drain (sseStep parse) 10 (buf ++ cut) s with
    | more left t => exact pullChunks_eq ending cuts left t
    | finished rest t => rfl
    | failed e t => rfl

theorem decode_eq (ending : Option Interruption) (cuts : List (List UInt8)) :
    decode parse ending cuts =
      settleStream parse ending (readChunks (sseStep parse) 10 maxSseBufferBytes cuts [] {}) :=
  pullChunks_eq ending cuts [] {}

variable (parse) in
/-- Cuts of a stream that fits the buffer differ at most in how much stands behind `[DONE]`. -/
theorem decode_agrees {stream : List UInt8} (hfits : stream.length ≤ maxSseBufferBytes)
    {cuts : List (List UInt8)} (hcuts : cuts.flatten = stream) :
    Agrees (drainBuffer parse stream {})
      (readChunks (sseStep parse) 10 maxSseBufferBytes cuts [] {}) := by
  have h := @read_fits _ _ _ _ (sseStep parse) 10 maxSseBufferBytes cuts [] {}
    List.not_mem_nil (by simpa [hcuts] using hfits)
  rwa [List.nil_append, hcuts] at h

/-- What holds of every result of reading. -/
def ReadSound : Stopped UInt8 Sse AiError → Prop
  | .overflow t | .ended _ t | .finished _ t => t.Sound
  | .failed e t => t.Sound ∧ (e = .responseTooLarge → t.full ≠ [])

variable (parse) in
theorem read_sound : ∀ (cuts : List (List UInt8)) (buf : List UInt8) (s : Sse), s.Sound →
    ReadSound (readChunks (sseStep parse) 10 maxSseBufferBytes cuts buf s)
  | [], buf, s, hs => hs
  | cut :: cuts, buf, s, hs => by
    rw [readChunks]
    by_cases hover : maxSseBufferBytes < (buf ++ cut).length
    · rw [if_pos hover]
      exact hs
    rw [if_neg hover, drain]
    have hcases := drainLines_cases parse (splitLines 10 (buf ++ cut)).1
      (splitLines 10 (buf ++ cut)).2 s hs
    generalize drainLines (sseStep parse) 10 (splitLines 10 (buf ++ cut)).1
      (splitLines 10 (buf ++ cut)).2 s = result at hcases
    cases hcases with
    | more t ht _ _ => exact read_sound cuts _ t ht
    | finished _ _ _ t _ ht _ _ _ _ => exact ht
    | failed e t ht hbig => exact ⟨ht, hbig⟩

theorem told_plain {before : List (List UInt8)} (h : ∀ l ∈ before, Plain parse l)
    (behind : List (List UInt8)) :
    told parse (before ++ behind) = before.flatMap (contentIn parse) ++ told parse behind := by
  induction before with
  | nil => rfl
  | cons line before ih =>
    obtain ⟨hline, hbefore⟩ := List.forall_mem_cons.mp h
    have hnot := not_done_of_plain hline
    have hrest := ih hbefore
    unfold told at hrest ⊢
    simp [hnot, hrest]

theorem told_open (line : List UInt8) : told parse [line] = contentIn parse line := by
  cases hdone : isDone parse line with
  | true => simp [told, hdone, contentIn_done hdone]
  | false => simp [told, hdone]

theorem told_done {line : List UInt8} (h : isDone parse line) (behind : List (List UInt8)) :
    told parse (line :: behind) = [] := by
  simp [told, h]

theorem closing_ok {s : Sse} (hs : s.Sound) {text : Text} (h : (closing s).1 = .ok text) :
    (closing s).2.flatten = text ∧ text = s.full := by
  rw [closing_sound hs] at h ⊢
  by_cases hnil : s.full = []
  · simp [hnil] at h
  · simp only [if_neg hnil, Except.ok.injEq] at h ⊢
    exact ⟨hs.deltas.trans h, h.symm⟩

/-- A stream that clogs is cut short in silence, however it is cut. -/
theorem free_of_clogs (ending : Option Interruption) {stream : List UInt8}
    (h : Clogs (sseStep parse) 10 maxSseBufferBytes Sse.Silent {} stream) :
    ChunkingFree parse ending stream := by
  have hall : ∀ cuts, cuts.flatten = stream →
      decode parse ending cuts = (.error (.responseTooLarge, false), []) := by
    intro cuts hcuts
    have hclogs : Clogs (sseStep parse) 10 maxSseBufferBytes Sse.Silent {} ([] ++ cuts.flatten) := by
      rwa [List.nil_append, hcuts]
    obtain ⟨s, hread, hsilent⟩ := @Clogs.read _ _ _ _ (sseStep parse) 10 maxSseBufferBytes Sse.Silent
      cuts [] {} List.not_mem_nil (Nat.zero_le _) rfl hclogs
    have hs := read_sound parse cuts [] {} sound_start
    rw [hread] at hs
    rw [decode_eq, hread]
    show (Except.error (AiError.responseTooLarge, s.emitted), s.deltas) = _
    rw [hs.emitted, hs.nonempty hsilent, show s.full = [] from hsilent]
    rfl
  constructor
  · intro cuts cuts' hcuts hcuts'
    rw [hall cuts hcuts, hall cuts' hcuts']
    exact ⟨rfl, rfl⟩
  · intro cuts text hcuts htext
    rw [hall cuts hcuts] at htext
    cases htext

/-- A stream that fits comes to the same under every cut if nothing behind `[DONE]` matters. -/
theorem free_of_fits (ending : Option Interruption) {stream : List UInt8}
    (hfits : stream.length ≤ maxSseBufferBytes)
    (h : ∀ rest, DoneBefore parse stream rest → ∀ start, start <+: rest → Neutral parse start) :
    ChunkingFree parse ending stream := by
  have hcases := drain_cases parse stream
  have hagrees := fun (cuts : List (List UInt8)) (hcuts : cuts.flatten = stream) =>
    decode_agrees parse hfits hcuts
  have hrest := fun rest hdrain start hstart =>
    h rest (drain_finished_iff.mp hdrain) start hstart
  generalize hlines : (splitLines 10 stream).1 = lines at hcases
  generalize hdrain : drainBuffer parse stream {} = result at hcases hagrees hrest
  cases hcases with
  | more t ht hfull hplain =>
    have hall : ∀ cuts, cuts.flatten = stream →
        decode parse ending cuts = settleStream parse ending (.ended (splitLines 10 stream).2 t) := by
      intro cuts hcuts
      rw [decode_eq, hagrees cuts hcuts]
    constructor
    · intro cuts cuts' hcuts hcuts'
      rw [hall cuts hcuts, hall cuts' hcuts']
      exact ⟨rfl, rfl⟩
    · intro cuts text hcuts htext
      rw [hall cuts hcuts] at htext ⊢
      cases ending with
      | some why => cases htext
      | none =>
        dsimp only [settleStream] at htext ⊢
        obtain ⟨e, _, hconclude⟩ | ⟨s, hs, hsfull, hconclude, _⟩ :=
          conclude_cases parse t ht (splitLines 10 stream).2
        · rw [hconclude] at htext
          cases htext
        rw [hconclude] at htext ⊢
        obtain ⟨hdeltas, htext⟩ := closing_ok hs htext
        refine ⟨hdeltas, ?_⟩
        rw [htext, hsfull, hfull, linesOf, hlines, told_plain hplain, told_open]
        rfl
  | finished before line behind t hsplit ht hfull hplain hdone _ =>
    have hall : ∀ cuts, cuts.flatten = stream → Same (decode parse ending cuts) (closing t) := by
      intro cuts hcuts
      obtain ⟨start, hstart, hread⟩ := hagrees cuts hcuts
      rw [decode_eq, hread]
      exact conclude_neutral ht (hrest _ ⟨t, rfl⟩ start hstart)
    constructor
    · intro cuts cuts' hcuts hcuts'
      obtain ⟨hresult, htext⟩ := hall cuts hcuts
      obtain ⟨hresult', htext'⟩ := hall cuts' hcuts'
      exact ⟨hresult.trans hresult'.symm, htext.trans htext'.symm⟩
    · intro cuts text hcuts htext
      obtain ⟨hresult, hdeltas⟩ := hall cuts hcuts
      obtain ⟨hclosing, hfull'⟩ := closing_ok ht (hresult.symm.trans htext)
      refine ⟨hdeltas.trans hclosing, ?_⟩
      rw [hfull', hfull, linesOf, hlines, hsplit, List.append_assoc, List.cons_append,
        told_plain hplain, told_done hdone, List.append_nil]
      rfl
  | failed e t _ _ =>
    have hall : ∀ cuts, cuts.flatten = stream → decode parse ending cuts = failed e t := by
      intro cuts hcuts
      rw [decode_eq, hagrees cuts hcuts]
      rfl
    constructor
    · intro cuts cuts' hcuts hcuts'
      rw [hall cuts hcuts, hall cuts' hcuts']
      exact ⟨rfl, rfl⟩
    · intro cuts text hcuts htext
      rw [hall cuts hcuts] at htext
      cases htext

/-! ## Two cuts that tell streams apart -/

theorem flatten_singletons (xs : List UInt8) : (xs.map fun x => [x]).flatten = xs := by
  induction xs with
  | nil => rfl
  | cons x xs ih => rw [List.map_cons, List.flatten_cons, ih, List.singleton_append]

/-- A stream that does not fit, in one chunk and byte by byte. -/
theorem clogs_of_free {ending : Option Interruption} {stream : List UInt8}
    (hlong : maxSseBufferBytes < stream.length) (h : ChunkingFree parse ending stream) :
    Clogs (sseStep parse) 10 maxSseBufferBytes Sse.Silent {} stream := by
  have hone : decode parse ending [stream] = (.error (.responseTooLarge, false), []) := by
    rw [decode_eq, readChunks, List.nil_append, if_pos hlong]
    rfl
  obtain ⟨hresult, -⟩ := h.same (stream.map fun x => [x]) [stream] (flatten_singletons stream)
    (List.flatten_singleton ..)
  rw [hone, decode_eq] at hresult
  have hsound := read_sound parse (stream.map fun x => [x]) [] {} sound_start
  have hconclude : ∀ left t, t.Sound →
      (conclude parse left t).1 ≠ .error (.responseTooLarge, false) := by
    intro left t ht heq
    obtain ⟨e, herror, hfails⟩ | ⟨s, hs, _, hcloses, _⟩ := conclude_cases parse t ht left
    · rw [hfails] at heq
      simp only [failed, Except.error.injEq, Prod.mk.injEq] at heq
      rcases readSseLine_error herror with rfl | rfl <;> cases heq.1
    · rw [hcloses, closing_sound hs] at heq
      by_cases hnil : s.full = []
      · simp [hnil] at heq
      · simp [hnil] at heq
  cases hread : readChunks (sseStep parse) 10 maxSseBufferBytes (stream.map fun x => [x]) [] {} with
  | overflow t =>
    rw [hread] at hresult hsound
    simp only [settleStream, failed, Except.error.injEq, Prod.mk.injEq, true_and] at hresult
    have hsilent : t.Silent := by
      have hemitted := (hsound : t.Sound).emitted
      rw [hresult] at hemitted
      simpa [Sse.Silent] using hemitted
    exact (clogs_of_read silentBefore stream [] {} t List.not_mem_nil (Nat.zero_le _) hread
      hsilent).2
  | ended left t =>
    rw [hread] at hresult hsound
    cases ending with
    | none => exact absurd hresult (hconclude left t hsound)
    | some why =>
      simp only [settleStream, failed, Except.error.injEq, Prod.mk.injEq] at hresult
      cases why <;> cases hresult.1
  | finished rest t =>
    rw [hread] at hresult hsound
    exact absurd hresult (hconclude rest t hsound)
  | failed e t =>
    rw [hread] at hresult hsound
    obtain ⟨ht, hbig⟩ := hsound
    simp only [settleStream, failed, Except.error.injEq, Prod.mk.injEq] at hresult
    have hfull : t.full = [] := by
      have hemitted := ht.emitted
      rw [hresult.2] at hemitted
      simpa using hemitted
    exact absurd hfull (hbig hresult.1)

/-- What stands behind `[DONE]`, in a chunk of its own and partly in the chunk of that line. -/
theorem neutral_of_free {ending : Option Interruption} {stream rest start : List UInt8}
    (hfits : stream.length ≤ maxSseBufferBytes) (h : ChunkingFree parse ending stream)
    (hdone : DoneBefore parse stream rest) (hstart : start <+: rest) : Neutral parse start := by
  obtain ⟨s, hdrain⟩ := drain_finished_iff.mpr hdone
  obtain ⟨before, rfl, hbefore⟩ := drain_finished hdrain
  obtain ⟨behind, rfl⟩ := hstart
  have hread : ∀ p q, p ++ q = start ++ behind →
      decode parse ending [before ++ p, q] = conclude parse p s := by
    intro p q hpq
    have hroom : ¬maxSseBufferBytes < (before ++ p).length := by
      rw [← hpq, ← List.append_assoc, List.length_append] at hfits
      omega
    rw [decode_eq, readChunks, List.nil_append, if_neg hroom, hbefore]
    rfl
  have hsound : s.Sound := by
    have hall := read_sound parse [before ++ (start ++ behind)] [] {} sound_start
    rw [readChunks, List.nil_append, if_neg (Nat.not_lt.mpr hfits), hbefore] at hall
    exact hall
  have hsame := h.same [before ++ [], start ++ behind] [before ++ start, behind] (by simp) (by simp)
  rw [hread [] (start ++ behind) rfl, hread start behind rfl] at hsame
  exact neutral_of_same hsound hsame

theorem chunking_free_iff (ending : Option Interruption) (stream : List UInt8) :
    ChunkingFree parse ending stream ↔ Clear parse stream := by
  unfold Clear
  by_cases hlong : maxSseBufferBytes < stream.length
  · rw [if_pos hlong]
    exact ⟨clogs_of_free hlong, free_of_clogs ending⟩
  · rw [if_neg hlong]
    have hfits := Nat.not_lt.mp hlong
    refine ⟨fun h rest hdone start hstart => ?_, free_of_fits ending hfits⟩
    exact neutral_of_free hfits h hdone hstart

/-! ## Requests -/

/-- An error that denies that anything was passed on tells the truth. -/
def Honest (outcome : Outcome) : Prop := ∀ e, outcome.1 = .error (e, false) → outcome.2 = []

theorem honest_failed (e : AiError) {s : Sse} (hs : s.Sound) : Honest (failed e s) := by
  intro e' h
  simp only [failed, Except.error.injEq, Prod.mk.injEq] at h
  have hemitted := hs.emitted
  rw [h.2] at hemitted
  exact hs.nonempty (by simpa using hemitted)

theorem honest_closing {s : Sse} (hs : s.Sound) : Honest (closing s) := by
  intro e h
  rw [closing_sound hs] at h ⊢
  by_cases hnil : s.full = []
  · rw [if_pos hnil]
  · simp [hnil] at h

theorem honest_conclude (left : List UInt8) {s : Sse} (hs : s.Sound) :
    Honest (conclude parse left s) := by
  obtain ⟨e, _, hconclude⟩ | ⟨s', hs', _, hconclude, _⟩ := conclude_cases parse s hs left
  · rw [hconclude]
    exact honest_failed e hs
  · rw [hconclude]
    exact honest_closing hs'

theorem honest_pull : ∀ (pulled : List Pulled) (buf : List UInt8) (s : Sse), s.Sound →
    Honest (pullChunks parse pulled buf s)
  | [], buf, s, hs => honest_conclude buf hs
  | .stop why :: _, _, s, hs => honest_failed why.error hs
  | .chunk chunk :: pulled, buf, s, hs => by
    rw [pullChunks]
    by_cases hover : maxSseBufferBytes < (buf ++ chunk).length
    · rw [if_pos hover]
      exact honest_failed _ hs
    rw [if_neg hover, drainBuffer, drain]
    have hcases := drainLines_cases parse (splitLines 10 (buf ++ chunk)).1
      (splitLines 10 (buf ++ chunk)).2 s hs
    generalize drainLines (sseStep parse) 10 (splitLines 10 (buf ++ chunk)).1
      (splitLines 10 (buf ++ chunk)).2 s = result at hcases
    cases hcases with
    | more t ht _ _ => exact honest_pull pulled _ t ht
    | finished _ _ _ t _ ht _ _ _ _ => exact honest_conclude _ ht
    | failed e t ht _ => exact honest_failed e ht

/-- No request comes after a delta. -/
def RequestsFirst (events : List ChatEvent) : Prop :=
  events.Pairwise fun earlier later => later = .request → ∀ content, earlier ≠ .delta content

theorem requestsFirst_deltas (deltas : List Text) :
    RequestsFirst (.request :: deltas.map .delta) := by
  refine List.pairwise_cons.mpr ⟨fun _ _ _ _ => by simp, ?_⟩
  refine List.pairwise_map.mpr (List.pairwise_of_forall fun _ _ h => ?_)
  simp at h

theorem requestsFirst_attempt (attempt : Attempt) : RequestsFirst (runAttempt parse attempt).1 := by
  cases attempt with
  | cancelledBefore => exact List.Pairwise.nil
  | answered pulled => exact requestsFirst_deltas _
  | cancelled => exact requestsFirst_deltas []
  | sendFailed e wasCancelled => exact requestsFirst_deltas []
  | refused status snippet => exact requestsFirst_deltas []

/-- After an attempt that may be made again nothing has been passed on. -/
theorem attempt_again {attempt : Attempt} {e : AiError}
    (h : (runAttempt parse attempt).2 = .error (e, true)) :
    ∀ event ∈ (runAttempt parse attempt).1, event = .request := by
  cases attempt with
  | cancelledBefore => simp [runAttempt]
  | answered pulled =>
    have hhonest : Honest (streamChatResponse parse pulled) := honest_pull pulled [] {} sound_start
    unfold runAttempt at h ⊢
    cases hresult : (streamChatResponse parse pulled).1 with
    | ok text => simp [hresult] at h
    | error failure =>
      obtain ⟨e', emitted⟩ := failure
      simp only [hresult, Except.error.injEq, Prod.mk.injEq, Bool.not_eq_true'] at h
      simp [hhonest e' (h.2 ▸ hresult)]
  | cancelled => simp [runAttempt]
  | sendFailed e wasCancelled => simp [runAttempt]
  | refused status snippet => simp [runAttempt]

theorem requestsFirst_append {first events : List ChatEvent} (hfirst : ∀ event ∈ first, event = .request)
    (hevents : RequestsFirst events) : RequestsFirst (first ++ events) := by
  refine List.pairwise_append.mpr ⟨?_, hevents, ?_⟩
  · refine List.pairwise_of_forall_mem_list fun a ha b _ _ content => ?_
    simp [hfirst a ha]
  · intro a ha b _ _ content
    simp [hfirst a ha]

theorem requestsFirst_chat (attempts : Nat → Attempt) : ∀ left attempt,
    RequestsFirst (chatFrom parse attempts left attempt).1
  | 0, attempt => requestsFirst_attempt (attempts attempt)
  | left + 1, attempt => by
    have hattempt : RequestsFirst (runAttempt parse (attempts attempt)).1 := requestsFirst_attempt _
    rw [chatFrom]
    cases hresult : (runAttempt parse (attempts attempt)).2 with
    | ok text =>
      simp only [hresult]
      exact hattempt
    | error failure =>
      obtain ⟨e, again⟩ := failure
      simp only [hresult]
      by_cases hretry : (again && e.isRetryable) = true
      · rw [if_pos hretry]
        obtain ⟨rfl, _⟩ := Bool.and_eq_true_iff.mp hretry
        exact requestsFirst_append (attempt_again hresult)
          (requestsFirst_chat attempts left (attempt + 1))
      · rw [if_neg hretry]
        exact hattempt

/-! ## The decoder -/

variable (parse)

/-- A stream is decoded alike under every cut exactly when it is clear, and no request is sent
    after something was passed on. -/
theorem stream_decoding :
    (∀ ending stream, ChunkingFree parse ending stream ↔ Clear parse stream) ∧
      ∀ attempts, RequestsFirst (chatCompletionWithStream parse attempts).1 :=
  ⟨chunking_free_iff, fun attempts => requestsFirst_chat attempts chatMaxRetries 0⟩

/-- An answer of one character. -/
def answerText : Text := "\x7b\"choices\":[\x7b\"delta\":\x7b\"content\":\"!\"\x7d\x7d]\x7d".toList

def parseAnswer (text : Text) : Option Json :=
  if text = answerText then
    some (.obj [("choices", .arr [.obj [("delta", .obj [("content", .str "!")])]])])
  else none

/-- Behind `[DONE]` another answer begins: in one chunk its text is returned, with a chunk of its
    own it is not read. -/
theorem read_behind_done :
    decode parseAnswer none [bytes ("data: [DONE]\ndata: ".toList ++ answerText)] =
        (.ok ['!'], [['!']]) ∧
      decode parseAnswer none [bytes "data: [DONE]\n".toList, bytes ("data: ".toList ++ answerText)] =
        (.error (.emptyStream, false), []) := by
  decide +kernel

theorem cut_behind_done :
    ¬ChunkingFree parseAnswer none (bytes ("data: [DONE]\ndata: ".toList ++ answerText)) := by
  intro h
  have hsame := h.same [bytes ("data: [DONE]\ndata: ".toList ++ answerText)]
    [bytes "data: [DONE]\n".toList, bytes ("data: ".toList ++ answerText)] (List.flatten_singleton ..)
    (by decide +kernel)
  rw [read_behind_done.1, read_behind_done.2] at hsame
  simp [Same] at hsame

end CampusAuth.Ai
