import CampusAuth.Bridge.LeadingId
import Mathlib.Data.List.Forall2

/- What the reader sends depends on the bytes of the stream alone, line by line.

   `Yields` is what a line is to yield: the message it is, if it is within the limit, and above the
   limit the settlement of the request whose id it begins with. The reader looks for that id in the
   first 512 bytes, which it takes to be text: `HeadTells` says when they tell the id the line has.
   In the line at the end they stop in the middle of a character, and the request is not settled. -/
namespace CampusAuth.Bridge.Process
open Lib

/-! ## What a line yields -/

/-- What a text yields: the message it is. -/
inductive TextYields (serde : Serde) (text : String) : List Output → Prop
  | response {v id : Json} {response : IpcResponse} (hv : serde.parse text = .ok v)
      (hid : v.get "id" = some id) (hresponse : serde.response v = .ok response) :
      TextYields serde text [.send (.response response)]
  | unreadable {v id : Json} {n : Nat} {e : String} (hv : serde.parse text = .ok v)
      (hid : v.get "id" = some id) (he : serde.response v = .error e) (hn : asU64 id = some n) :
      TextYields serde text [.send (.responseError n e)]
  | nobodys {v id : Json} {e : String} (hv : serde.parse text = .ok v)
      (hid : v.get "id" = some id) (he : serde.response v = .error e) (hn : asU64 id = none) :
      TextYields serde text []
  | event {v kind : Json} {event : IpcEvent} (hv : serde.parse text = .ok v)
      (hid : v.get "id" = none) (hkind : v.get "event" = some kind)
      (hevent : serde.event v = .ok event) : TextYields serde text [.send (.event event)]
  | noEvent {v kind : Json} {e : String} (hv : serde.parse text = .ok v)
      (hid : v.get "id" = none) (hkind : v.get "event" = some kind)
      (he : serde.event v = .error e) : TextYields serde text []
  | unknown {v : Json} (hv : serde.parse text = .ok v) (hid : v.get "id" = none)
      (hkind : v.get "event" = none) : TextYields serde text []
  | noJson {e : String} (he : serde.parse text = .error e) : TextYields serde text [.countInvalid]

/-- What a line within the limit yields. -/
inductive ShortYields (serde : Serde) (line : List UInt8) : List Output → Prop
  | noText (htext : fromUtf8 line = none) : ShortYields serde line []
  | blank {text : String} (htext : fromUtf8 line = some text) (hblank : trimLineEnds text = "") :
      ShortYields serde line []
  | text {text : String} {os : List Output} (htext : fromUtf8 line = some text)
      (hblank : trimLineEnds text ≠ "") (hos : TextYields serde (trimLineEnds text) os) :
      ShortYields serde line os

/-- What an ended line yields. -/
inductive Yields (serde : Serde) (line : List UInt8) : List Output → Prop
  | short {os : List Output} (hshort : line.length ≤ ipcMaxLineLen)
      (hos : ShortYields serde line os) : Yields serde line os
  | settled {opening digits rest : List UInt8} (hlong : ipcMaxLineLen < line.length)
      (hnumber : LeadingNumber line opening digits rest) (hid : IsRequestId digits rest) :
      Yields serde line [.send (.response (oversizedResponse (number digits)))]
  | lost (hlong : ipcMaxLineLen < line.length)
      (hnone : ∀ opening digits rest, LeadingNumber line opening digits rest →
        ¬IsRequestId digits rest) : Yields serde line []

/-- What is yielded at the end of the stream, for a line that has not ended. -/
inductive EndYields (serde : Serde) (left : List UInt8) : StreamEnd → List Output → Prop
  | short {os : List Output} (hshort : left.length ≤ ipcMaxLineLen)
      (hos : ShortYields serde left os) : EndYields serde left .eof os
  | long (hlong : ipcMaxLineLen < left.length) : EndYields serde left .eof []
  | failed : EndYields serde left .failed []

/-- The stream arrives in these pieces, none of them empty. -/
def Cuts (pieces : List (List UInt8)) (bytes : List UInt8) : Prop :=
  pieces.flatten = bytes ∧ ∀ piece ∈ pieces, piece ≠ []

/-- The reader depends on the bytes alone, and every line yields what it is to yield. -/
structure Framed (serde : Serde) (bytes : List UInt8) (ends : StreamEnd) : Prop where
  pieces : ∀ pieces pieces', Cuts pieces bytes → Cuts pieces' bytes →
    stdoutReaderTask serde pieces ends = stdoutReaderTask serde pieces' ends
  lines : ∀ pieces, Cuts pieces bytes → ∃ outs last,
    stdoutReaderTask serde pieces ends = outs ++ [last] ∧
      List.Forall₂ (Yields serde) (splitLines ipcDelimiter bytes).1 outs ∧
      EndYields serde (splitLines ipcDelimiter bytes).2 ends last

/-- The first 512 bytes of the line are text and hold its number, as far as that matters: what is
    cut off does not change it, and a number that is no id does not look like one. -/
def HeadTells (line : List UInt8) : Prop :=
  ∀ opening digits rest, LeadingNumber line opening digits rest →
    (IsRequestId digits rest → (fromUtf8 (line.take headLen)).isSome = true ∧
      opening.length < headLen ∧ number (digits.take (headLen - opening.length)) = number digits) ∧
    (¬IsRequestId digits rest → (fromUtf8 (line.take headLen)).isSome = true →
      opening.length < headLen → UInt64.size ≤ number (digits.take (headLen - opening.length)))

/-! ## The pieces of a line -/

/-- What is kept of a line of which these bytes are there. -/
def LineBuf.of (bytes : List UInt8) : LineBuf :=
  { bytes := bytes.take ipcMaxLineLen, exceeded := decide (ipcMaxLineLen < bytes.length) }

theorem LineBuf.of_nil : LineBuf.of [] = {} := rfl

theorem LineBuf.extend_of (bytes available : List UInt8) :
    (LineBuf.of bytes).extend available = .of (bytes ++ available) := by
  by_cases hlong : ipcMaxLineLen < bytes.length
  · -- The rest of a line above the limit is dropped.
    have hmore : ipcMaxLineLen < (bytes ++ available).length := by
      rw [List.length_append]
      omega
    unfold LineBuf.extend LineBuf.of
    rw [decide_eq_true hlong, decide_eq_true hmore, List.take_append_of_le_length (Nat.le_of_lt hlong)]
    rfl
  · have htake : bytes.take ipcMaxLineLen = bytes := List.take_of_length_le (Nat.not_lt.mp hlong)
    unfold LineBuf.extend LineBuf.of
    rw [decide_eq_false hlong, htake]
    by_cases hmore : ipcMaxLineLen < bytes.length + available.length
    · have hkeep : available.take (min (ipcMaxLineLen - bytes.length) available.length) =
          available.take (ipcMaxLineLen - bytes.length) := by
        rw [List.take_eq_take_iff]
        simp
      simp [hmore, hkeep, List.take_append, htake]
    · have hall : (bytes ++ available).take ipcMaxLineLen = bytes ++ available := by
        rw [← List.length_append] at hmore
        exact List.take_of_length_le (Nat.not_lt.mp hmore)
      simp [hmore, hall]

/-- Reading a piece cuts what there is of the open line and the piece into lines. -/
theorem readAvailable_of (serde : Serde) (bytes available : List UInt8)
    (hopen : ipcDelimiter ∉ bytes) :
    readAvailable serde (.of bytes) available =
      ((splitLines ipcDelimiter (bytes ++ available)).1.map fun line =>
          (LineBuf.of line).finish serde,
        .of (splitLines ipcDelimiter (bytes ++ available)).2) := by
  induction hn : available.length using Nat.strongRecOn generalizing bytes available with
  | _ n ih =>
    rcases line_cases ipcDelimiter available with hnot | ⟨line, rest, hnot, rfl⟩
    · have hnone : available.dropWhile (· ≠ ipcDelimiter) = [] := by
        rw [List.dropWhile_eq_nil_iff]
        intro x hx
        exact decide_eq_true fun heq => hnot (heq ▸ hx)
      have hmem : ipcDelimiter ∉ bytes ++ available := by
        rw [List.mem_append]
        exact fun h => h.elim hopen hnot
      unfold readAvailable
      split
      · rw [splitLines_of_not_mem hmem, LineBuf.extend_of]
        rfl
      next heq =>
        rw [hnone] at heq
        cases heq
    · have hall : ∀ x ∈ line, decide (x ≠ ipcDelimiter) = true :=
        fun x hx => decide_eq_true fun heq => hnot (heq ▸ hx)
      have hdrop : (line ++ ipcDelimiter :: rest).dropWhile (· ≠ ipcDelimiter) =
          ipcDelimiter :: rest := by
        rw [List.dropWhile_append_of_pos hall, List.dropWhile_cons_of_neg (by simp)]
      have htake : (line ++ ipcDelimiter :: rest).takeWhile (· ≠ ipcDelimiter) = line := by
        rw [List.takeWhile_append_of_pos hall, List.takeWhile_cons_of_neg (by simp), List.append_nil]
      have hmem : ipcDelimiter ∉ bytes ++ line := by
        rw [List.mem_append]
        exact fun h => h.elim hopen hnot
      have hlt : rest.length < n := by
        rw [← hn, List.length_append, List.length_cons]
        omega
      unfold readAvailable
      split
      next heq =>
        rw [hdrop] at heq
        cases heq
      next heq =>
        rw [hdrop] at heq
        cases heq
        have hrest := ih rest.length hlt [] rest (by simp) rfl
        rw [LineBuf.of_nil, List.nil_append] at hrest
        simp only [htake, LineBuf.extend_of, hrest]
        rw [← List.append_assoc, splitLines_line hmem]
        rfl

theorem readPieces_of (serde : Serde) (pieces : List (List UInt8)) (bytes : List UInt8)
    (hopen : ipcDelimiter ∉ bytes) :
    readPieces serde (.of bytes) pieces =
      ((splitLines ipcDelimiter (bytes ++ pieces.flatten)).1.map fun line =>
          (LineBuf.of line).finish serde,
        .of (splitLines ipcDelimiter (bytes ++ pieces.flatten)).2) := by
  induction pieces generalizing bytes with
  | nil =>
    rw [List.flatten_nil, List.append_nil, splitLines_of_not_mem hopen]
    rfl
  | cons piece pieces ih =>
    have hleft := sep_not_mem_left ipcDelimiter (bytes ++ piece)
    simp only [readPieces, readAvailable_of serde bytes piece hopen, ih _ hleft]
    rw [List.flatten_cons, ← List.append_assoc, splitLines_append (bytes ++ piece), List.map_append]

/-- The reader goes by the lines of the stream, whatever the pieces. -/
theorem stdoutReaderTask_eq (serde : Serde) {pieces : List (List UInt8)} {bytes : List UInt8}
    (hcuts : Cuts pieces bytes) (ends : StreamEnd) :
    stdoutReaderTask serde pieces ends =
      ((splitLines ipcDelimiter bytes).1.map fun line => (LineBuf.of line).finish serde) ++
        [(LineBuf.of (splitLines ipcDelimiter bytes).2).flush serde ends] := by
  have hread := readPieces_of serde pieces [] (by simp)
  rw [LineBuf.of_nil, List.nil_append, hcuts.1] at hread
  unfold stdoutReaderTask
  rw [hread]

/-! ## Line by line -/

section
variable {serde : Serde} {line : List UInt8}

theorem textYields (serde : Serde) (text : String) :
    TextYields serde text (parseAndSendLine serde text) := by
  unfold parseAndSendLine
  split
  next v hv =>
    split
    next id hid =>
      split
      next response hresponse => exact .response hv hid hresponse
      next e he =>
        split
        next n hn => exact .unreadable hv hid he hn
        next hn => exact .nobodys hv hid he hn
    next hid =>
      split
      next kind hkind =>
        split
        next event hevent => exact .event hv hid hkind hevent
        next e he => exact .noEvent hv hid hkind he
      next hkind => exact .unknown hv hid hkind
  next e he => exact .noJson he

theorem shortYields (serde : Serde) (line : List UInt8) :
    ShortYields serde line (sendText serde line) := by
  unfold sendText
  split
  next htext => exact .noText htext
  next text htext =>
    split
    next hblank => exact .blank htext (by simpa using hblank)
    next hblank => exact .text htext (by simpa using hblank) (textYields serde _)

/-- The settlement looks at the first bytes of the line alone. -/
theorem settleOversizedLine_take (line : List UInt8) :
    settleOversizedLine (line.take ipcMaxLineLen) = settleOversizedLine line := by
  have htake : (line.take ipcMaxLineLen).take headLen = line.take headLen := by
    rw [List.take_take, Nat.min_eq_left (by decide)]
  unfold settleOversizedLine
  rw [htake]

/-- What a line above the limit comes to, by its number. -/
theorem settle_number {opening digits rest : List UInt8}
    (h : LeadingNumber line opening digits rest) :
    settleOversizedLine line =
      if (fromUtf8 (line.take headLen)).isSome = true ∧ opening.length < headLen ∧
          number (digits.take (headLen - opening.length)) < UInt64.size then
        [.send (.response (oversizedResponse (number (digits.take (headLen - opening.length)))))]
      else [] := by
  unfold settleOversizedLine
  rw [h.extract_take headLen]
  cases fromUtf8 (line.take headLen) with
  | none => simp
  | some text =>
    by_cases hlt : opening.length < headLen
    · unfold parseU64
      by_cases hfits : number (digits.take (headLen - opening.length)) < UInt64.size
      · simp only [if_pos hlt, if_pos hfits]
        exact (if_pos ⟨rfl, hlt, hfits⟩).symm
      · simp only [if_pos hlt, if_neg hfits]
        exact (if_neg fun h => hfits h.2.2).symm
    · simp [hlt]

theorem settle_none (hnone : ∀ opening digits rest, ¬LeadingNumber line opening digits rest) :
    settleOversizedLine line = [] := by
  unfold settleOversizedLine
  rw [extract_take_none hnone headLen]
  split <;> rfl

/-- A line above the limit with the id of a request has that request settled, and no other. -/
theorem yields_settled_iff {opening digits rest : List UInt8} {os : List Output}
    (hlong : ipcMaxLineLen < line.length) (h : LeadingNumber line opening digits rest)
    (hid : IsRequestId digits rest) :
    Yields serde line os ↔ os = [.send (.response (oversizedResponse (number digits)))] := by
  constructor
  · intro hyields
    cases hyields with
    | short hshort => omega
    | settled _ h' =>
      obtain ⟨-, rfl, -⟩ := h.unique h'
      rfl
    | lost _ hnone => exact absurd hid (hnone _ _ _ h)
  · rintro rfl
    exact .settled hlong h hid

theorem yields_lost_iff {os : List Output} (hlong : ipcMaxLineLen < line.length)
    (hnone : ∀ opening digits rest, LeadingNumber line opening digits rest →
      ¬IsRequestId digits rest) : Yields serde line os ↔ os = [] := by
  constructor
  · intro hyields
    cases hyields with
    | short hshort => omega
    | settled _ h hid => exact absurd hid (hnone _ _ _ h)
    | lost => rfl
  · rintro rfl
    exact .lost hlong hnone

/-- The id of a request is found exactly when the first bytes of the line tell it. -/
theorem yields_long_iff (hlong : ipcMaxLineLen < line.length) :
    Yields serde line (settleOversizedLine line) ↔ HeadTells line := by
  by_cases hsome : ∃ opening digits rest, LeadingNumber line opening digits rest
  · obtain ⟨opening, digits, rest, h⟩ := hsome
    have honly : HeadTells line ↔
        (IsRequestId digits rest → (fromUtf8 (line.take headLen)).isSome = true ∧
          opening.length < headLen ∧
            number (digits.take (headLen - opening.length)) = number digits) ∧
        (¬IsRequestId digits rest → (fromUtf8 (line.take headLen)).isSome = true →
          opening.length < headLen → UInt64.size ≤ number (digits.take (headLen - opening.length))) := by
      constructor
      · exact fun htells => htells _ _ _ h
      · intro htells o d r h'
        obtain ⟨rfl, rfl, rfl⟩ := h.unique h'
        exact htells
    rw [honly, settle_number h]
    by_cases hid : IsRequestId digits rest
    · rw [yields_settled_iff hlong h hid]
      constructor
      · intro heq
        refine ⟨fun _ => ?_, fun hnot => absurd hid hnot⟩
        split at heq
        next hcond =>
          simp only [List.cons.injEq, Output.send.injEq, ParsedMessage.response.injEq, and_true] at heq
          exact ⟨hcond.1, hcond.2.1, congrArg IpcResponse.id heq⟩
        next => cases heq
      · rintro ⟨hfound, -⟩
        obtain ⟨htext, hlt, hsame⟩ := hfound hid
        rw [if_pos ⟨htext, hlt, hsame ▸ hid.1⟩, hsame]
    · have hnone : ∀ o d r, LeadingNumber line o d r → ¬IsRequestId d r := by
        intro o d r h'
        obtain ⟨-, rfl, rfl⟩ := h.unique h'
        exact hid
      rw [yields_lost_iff hlong hnone]
      constructor
      · intro heq
        refine ⟨fun hyes => absurd hyes hid, fun _ htext hlt => ?_⟩
        split at heq
        next => cases heq
        next hcond => exact Nat.not_lt.mp fun hfits => hcond ⟨htext, hlt, hfits⟩
      · rintro ⟨-, hover⟩
        rw [if_neg]
        rintro ⟨htext, hlt, hfits⟩
        exact absurd hfits (Nat.not_lt.mpr (hover hid htext hlt))
  · have hnone : ∀ o d r, ¬LeadingNumber line o d r := fun o d r h => hsome ⟨o, d, r, h⟩
    have htells : HeadTells line := fun o d r h => absurd h (hnone o d r)
    rw [settle_none hnone]
    exact iff_of_true (.lost hlong fun o d r h => absurd h (hnone o d r)) htells

theorem yields_iff : Yields serde line ((LineBuf.of line).finish serde) ↔
    (ipcMaxLineLen < line.length → HeadTells line) := by
  unfold LineBuf.finish LineBuf.of
  by_cases hlong : ipcMaxLineLen < line.length
  · rw [decide_eq_true hlong, if_pos rfl, settleOversizedLine_take, yields_long_iff hlong]
    exact ⟨fun h _ => h, fun h => h hlong⟩
  · have hall : line.take ipcMaxLineLen = line := List.take_of_length_le (Nat.not_lt.mp hlong)
    rw [decide_eq_false hlong, if_neg (by simp), hall]
    exact iff_of_true (.short (Nat.not_lt.mp hlong) (shortYields serde line))
      fun h => absurd h hlong

theorem endYields (serde : Serde) (left : List UInt8) (ends : StreamEnd) :
    EndYields serde left ends ((LineBuf.of left).flush serde ends) := by
  cases ends with
  | failed => exact .failed
  | eof =>
    unfold LineBuf.flush LineBuf.of
    by_cases hlong : ipcMaxLineLen < left.length
    · simp only [decide_eq_true hlong, if_true]
      exact .long hlong
    · have hall : left.take ipcMaxLineLen = left := List.take_of_length_le (Nat.not_lt.mp hlong)
      simp only [decide_eq_false hlong, hall, Bool.false_eq_true, if_false]
      exact .short (Nat.not_lt.mp hlong) (shortYields serde left)

end

/-! ## The stream -/

/-- The stream in one piece. -/
theorem cuts_self (bytes : List UInt8) : ∃ pieces, Cuts pieces bytes := by
  cases bytes with
  | nil => exact ⟨[], rfl, fun piece h => (by cases h)⟩
  | cons b rest =>
    refine ⟨[b :: rest], by simp, fun piece h => ?_⟩
    rw [List.mem_singleton.mp h]
    simp

theorem Framed.tells {serde : Serde} {bytes : List UInt8} {ends : StreamEnd}
    (h : Framed serde bytes ends) {line : List UInt8}
    (hline : line ∈ (splitLines ipcDelimiter bytes).1) (hlong : ipcMaxLineLen < line.length) :
    HeadTells line := by
  obtain ⟨pieces, hcuts⟩ := cuts_self bytes
  obtain ⟨outs, last, hread, houts, -⟩ := h.lines pieces hcuts
  rw [stdoutReaderTask_eq serde hcuts] at hread
  rw [← List.append_inj_left' hread rfl, List.forall₂_map_right_iff, List.forall₂_same] at houts
  exact yields_iff.mp (houts line hline) hlong

/-- However the stream is cut into pieces, what is sent is the same; and it is what each line is to
    yield, exactly when the first 512 bytes of every ended line above the limit tell its id. -/
theorem framed_iff (serde : Serde) (bytes : List UInt8) (ends : StreamEnd) :
    Framed serde bytes ends ↔ ∀ line ∈ (splitLines ipcDelimiter bytes).1,
      ipcMaxLineLen < line.length → HeadTells line := by
  constructor
  · exact fun hframed line hline hlong => hframed.tells hline hlong
  · intro htells
    refine ⟨fun pieces pieces' hcuts hcuts' => ?_, fun pieces hcuts => ?_⟩
    · rw [stdoutReaderTask_eq serde hcuts, stdoutReaderTask_eq serde hcuts']
    · refine ⟨_, _, stdoutReaderTask_eq serde hcuts ends, ?_, endYields serde _ ends⟩
      rw [List.forall₂_map_right_iff, List.forall₂_same]
      exact fun line hline => yields_iff.mpr (htells line hline)

/-! ## A character that is cut in two -/

/-- The start of the answer to request 7, with a text in it. -/
def answerStart : List UInt8 :=
  [0x7B, 0x22, 0x69, 0x64, 0x22, 0x3A] ++ [0x37] ++ [0x2C, 0x22, 0x64, 0x22, 0x3A, 0x22]

/-- The answer to request 7 in one long line: the 512th byte is the first of the two bytes of a
    character. -/
def cutAnswer : List UInt8 :=
  answerStart ++ (List.replicate 498 0x61 ++ 0xC3 :: 0xA9 :: List.replicate ipcMaxLineLen 0x61)

theorem cutAnswer_long : ipcMaxLineLen < cutAnswer.length := by
  unfold cutAnswer
  rw [List.length_append, List.length_append, List.length_cons, List.length_cons,
    List.length_replicate, List.length_replicate]
  omega

theorem cutAnswer_open : ipcDelimiter ∉ cutAnswer := by
  unfold cutAnswer
  simp only [List.mem_append, List.mem_cons, List.mem_replicate]
  decide

theorem cutAnswer_head :
    cutAnswer.take headLen = (answerStart ++ List.replicate 498 0x61) ++ [0xC3] := by
  have hlength : (answerStart ++ List.replicate 498 (0x61 : UInt8)).length = 511 := by
    rw [List.length_append, List.length_replicate]
    rfl
  unfold cutAnswer headLen
  rw [← List.append_assoc, List.take_append, hlength, List.take_of_length_le (by rw [hlength]; omega)]
  rfl

/-- No character ends with the first byte of a longer one. -/
theorem last_byte_of_char (c : Char) : ∀ b ∈ (String.utf8EncodeChar c).getLast?, b ≠ 0xC3 := by
  intro b hb heq
  have hnat : b.toNat = 0xC3 := by rw [heq]; rfl
  unfold String.utf8EncodeChar at hb
  simp only at hb
  split at hb
  next hascii =>
    have hlast : b = UInt8.ofNat c.val.toNat := by
      cases hb
      rfl
    rw [hlast, UInt8.toNat_ofNat'] at hnat
    omega
  next =>
    -- The last of several bytes is below 0xC0.
    have hlast : b = UInt8.ofNat (c.val.toNat % 0x40 + 0x80) := by
      split at hb
      · cases hb
        rfl
      · split at hb <;> cases hb <;> rfl
    rw [hlast, UInt8.toNat_ofNat'] at hnat
    omega

theorem fromUtf8_cut (bytes : List UInt8) : fromUtf8 (bytes ++ [0xC3]) = none := by
  unfold fromUtf8 String.fromUTF8?
  rw [dif_neg]
  rintro ⟨m, hm⟩
  have hbytes : bytes ++ [0xC3] = m.flatMap String.utf8EncodeChar := List.toByteArray_inj.mp hm
  rcases List.eq_nil_or_concat m with rfl | ⟨front, c, rfl⟩
  · simp at hbytes
  · rw [List.concat_eq_append, List.flatMap_append, List.flatMap_singleton] at hbytes
    have hlast := congrArg List.getLast? hbytes
    rw [List.getLast?_concat, List.getLast?_append_of_ne_nil _ String.utf8EncodeChar_ne_nil] at hlast
    exact last_byte_of_char c 0xC3 hlast.symm rfl

/-- The line begins with the id of request 7. -/
theorem cutAnswer_number : ∃ rest, LeadingNumber cutAnswer
    [0x7B, 0x22, 0x69, 0x64, 0x22, 0x3A] [0x37] rest ∧ IsRequestId [0x37] rest := by
  refine ⟨_, ⟨List.append_assoc _ _ _, ⟨[], [], [], [], by simp, rfl⟩, by simp, ?_, ?_⟩, ?_⟩
  · intro x hx
    rw [List.mem_singleton.mp hx]
    rfl
  · intro x hx
    cases hx
    rfl
  · refine ⟨by decide, fun x hx => ?_⟩
    cases hx
    decide

/-- The answer to request 7 is not settled, though the line begins with its id. -/
theorem cut_character_loses_id :
    ¬∀ (serde : Serde) (bytes : List UInt8) (ends : StreamEnd), Framed serde bytes ends := by
  intro hall
  let serde : Serde := ⟨fun _ => .error "", fun _ => .error "", fun _ => .error ""⟩
  have hline : cutAnswer ∈ (splitLines ipcDelimiter (cutAnswer ++ [ipcDelimiter])).1 := by
    rw [splitLines_line cutAnswer_open]
    exact List.mem_cons_self
  have htells := (hall serde _ .eof).tells hline cutAnswer_long
  obtain ⟨rest, hnumber, hid⟩ := cutAnswer_number
  have htext := ((htells _ _ _ hnumber).1 hid).1
  rw [cutAnswer_head, fromUtf8_cut] at htext
  cases htext

end CampusAuth.Bridge.Process
