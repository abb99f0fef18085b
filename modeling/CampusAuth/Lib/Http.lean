import Mathlib.Data.List.Basic
import Mathlib.Data.List.DropRight
import Mathlib.Data.List.Infix

/- Where an HTTP/1.1 message ends.

   A head goes through the first blank line. Its fields say how far the body goes
   (`requestExtent`, `responseExtent`): nowhere, a number of bytes, a row of chunks, or until the
   connection is closed. Fields that are not plain, conflicting lengths and several transfer codings
   give no extent. Any body but the last kind ends at one place only, whatever follows
   (`Message.unique`). -/
namespace CampusAuth.Lib.Http

abbrev Bytes := List UInt8

/-- The bytes of a text that is ASCII. -/
def ascii (s : String) : Bytes := s.toList.map fun c => UInt8.ofNat c.toNat

def crlf : Bytes := [13, 10]

/-- The end of a line and an empty line. -/
def blank : Bytes := [13, 10, 13, 10]

/-! ## The first end -/

/-- `pat` ends here for the first time. -/
structure EndsFirst (pat a : Bytes) : Prop where
  ends : pat <:+ a
  first : ∀ p, p <+: a → p ≠ a → ¬pat <:+ p

theorem EndsFirst.unique {pat a b r t : Bytes} (ha : EndsFirst pat a) (hb : EndsFirst pat b)
    (h : a ++ r = b ++ t) : a = b := by
  have hb' : b <+: a ++ r := by rw [h]; exact List.prefix_append b t
  rcases List.prefix_or_prefix_of_prefix (List.prefix_append a r) hb' with hpre | hpre
  · by_contra hne
    exact hb.first a hpre hne ha.ends
  · by_contra hne
    exact ha.first b hpre (fun heq => hne heq.symm) hb.ends

/-! ## Lines and fields -/

/-- The text between the line ends. -/
def crlfLines : Bytes → List Bytes
  | [] => [[]]
  | [b] => [[b]]
  | b :: c :: s =>
    if b = 13 ∧ c = 10 then [] :: crlfLines s
    else
      match crlfLines (c :: s) with
      | [] => [[b]]
      | line :: lines => (b :: line) :: lines

/-- Before and after the first `c`. -/
def splitByte (c : UInt8) (s : Bytes) : Option (Bytes × Bytes) :=
  match s.dropWhile (· != c) with
  | [] => none
  | _ :: rest => some (s.takeWhile (· != c), rest)

/-- Optional white space: a space or a tab. -/
def isOws (b : UInt8) : Bool := b == 32 || b == 9

theorem isOws_cases {b : UInt8} (h : isOws b = true) : b = 32 ∨ b = 9 := by
  simpa [isOws] using h

def trimOws (s : Bytes) : Bytes := (s.dropWhile isOws).rdropWhile isOws

def lower (b : UInt8) : UInt8 := if 65 ≤ b ∧ b ≤ 90 then b + 32 else b

def sameName (a b : Bytes) : Bool := a.map lower == b.map lower

abbrev Fields := List (Bytes × Bytes)

/-- A line without a stray line end, that does not continue the one before, and with no white space
    before the colon. -/
def plain (line : Bytes) : Bool :=
  !line.contains 13 && !line.contains 10 && !line.head?.any isOws &&
    !((splitByte 58 line).bind (·.1.getLast?)).any isOws

/-- The lines of a head behind the first one. -/
def fieldLines (head : Bytes) : List Bytes := (crlfLines head).tail.filter (!·.isEmpty)

def fieldsOf (head : Bytes) : Option Fields :=
  if (fieldLines head).all plain then
    some ((fieldLines head).filterMap fun line => (splitByte 58 line).map fun f => (f.1, trimOws f.2))
  else none

def Fields.values (fields : Fields) (name : String) : List Bytes :=
  (fields.filter fun f => sameName f.1 (ascii name)).map (·.2)

/-! ## How far a body goes -/

inductive Extent
  | empty
  | length (n : Nat)
  | chunked
  | untilClose

def isDigit (b : UInt8) : Bool := 48 ≤ b && b ≤ 57

def decimal (digits : Bytes) : Nat := digits.foldl (fun n d => 10 * n + (d.toNat - 48)) 0

/-- The elements of a list in a field. -/
def elements (v : Bytes) : List Bytes := (v.splitOn 44).map trimOws

/-- The length that the fields agree on: `none` when they do not give one, `some none` when there
    are none. -/
def contentLength (fields : Fields) : Option (Option Nat) :=
  match (fields.values "content-length").flatMap elements with
  | [] => some none
  | v :: vs =>
    if !v.isEmpty && v.all isDigit && vs.all (· == v) then some (some (decimal v)) else none

/-- Chunks are the last coding. -/
def finalChunked (v : Bytes) : Bool :=
  ((elements v).filter (!·.isEmpty)).getLast?.any (sameName · (ascii "chunked"))

/-- The extent, where `otherwise` stands for a message with neither kind of field, and `coded` for
    one whose last coding is not chunks. -/
def extentOf (otherwise : Extent) (coded : Option Extent) (fields : Fields) : Option Extent :=
  match fields.values "transfer-encoding", contentLength fields with
  | [], some (some n) => some (.length n)
  | [], some none => some otherwise
  | [v], some none => if finalChunked v then some .chunked else coded
  | _, _ => none

def requestExtent (_head : Bytes) : Fields → Option Extent := extentOf .empty none

/-- The number in a status line; its first digit is the class of the response. -/
def statusCode (head : Bytes) : Option Nat :=
  match head.drop 7 with
  | v :: 32 :: x :: y :: z :: e :: _ =>
    if (ascii "HTTP/1.").isPrefixOf head && [v, x, y, z].all isDigit && x != 48 &&
        (e == 32 || e == 13) then
      some (decimal [x, y, z])
    else none
  | _ => none

def headRequest (head : Bytes) : Bool := (ascii "HEAD ").isPrefixOf head

/-- `isHead` for the answers to a HEAD request. -/
def responseExtent (isHead : Bool) (head : Bytes) (fields : Fields) : Option Extent :=
  (statusCode head).bind fun status =>
    if isHead || status < 200 || status == 204 || status == 304 then some .empty
    else extentOf .untilClose (some .untilClose) fields

/-! ## Chunks -/

def hexValue (b : UInt8) : Option Nat :=
  if 48 ≤ b ∧ b ≤ 57 then some (b.toNat - 48)
  else if 97 ≤ b ∧ b ≤ 102 then some (b.toNat - 87)
  else if 65 ≤ b ∧ b ≤ 70 then some (b.toNat - 55)
  else none

def hexadecimal (digits : Bytes) : Nat :=
  digits.foldl (fun n d => 16 * n + (hexValue d).getD 0) 0

def isHex (b : UInt8) : Bool := (hexValue b).isSome

/-- The size at the start of a line, before its end or its extensions. -/
def chunkSize (line : Bytes) : Option Nat :=
  let digits := line.takeWhile isHex
  let rest := line.dropWhile isHex
  if digits = [] then none
  else if rest = crlf || (rest.dropWhile isOws).head? == some 59 then some (hexadecimal digits)
  else none

/-- The fields behind the last chunk, if any, and the empty line. -/
def IsTrailer (t : Bytes) : Prop := t = crlf ∨ ¬crlf <+: t ∧ EndsFirst blank t

inductive Chunked : Bytes → Prop
  | last {line trailer : Bytes} (hline : EndsFirst crlf line) (hsize : chunkSize line = some 0)
      (htrailer : IsTrailer trailer) : Chunked (line ++ trailer)
  | chunk {line data rest : Bytes} (hline : EndsFirst crlf line)
      (hsize : chunkSize line = some data.length) (hdata : data ≠ []) (hrest : Chunked rest) :
      Chunked (line ++ (data ++ (crlf ++ rest)))

theorem EndsFirst.length_le {pat a : Bytes} (h : EndsFirst pat a) : pat.length ≤ a.length :=
  h.ends.length_le

/-- An empty line is all there is of a trailer that begins with one. -/
theorem not_empty_line {b r t : Bytes} (hb : ¬crlf <+: b) (hends : EndsFirst blank b) :
    crlf ++ r ≠ b ++ t := by
  intro h
  have hcrlf : crlf <+: b ++ t := by rw [← h]; exact List.prefix_append crlf r
  have hlen : crlf.length ≤ b.length := Nat.le_trans (by decide) hends.length_le
  exact hb (List.prefix_of_prefix_length_le hcrlf (List.prefix_append b t) hlen)

theorem not_isTrailer_nil : ¬IsTrailer [] := by
  rintro (h | ⟨-, h⟩)
  · cases h
  · exact absurd h.length_le (by decide)

theorem IsTrailer.unique {a b r t : Bytes} (ha : IsTrailer a) (hb : IsTrailer b)
    (h : a ++ r = b ++ t) : a = b := by
  rcases ha with rfl | ⟨hna, ha⟩
  · rcases hb with rfl | ⟨hnb, hb⟩
    · rfl
    · exact absurd h (not_empty_line hnb hb)
  · rcases hb with rfl | ⟨hnb, hb⟩
    · exact absurd h.symm (not_empty_line hna ha)
    · exact ha.unique hb h

/-- Chunks end at one place only. -/
theorem Chunked.unique {a b r t : Bytes} (ha : Chunked a) (hb : Chunked b)
    (h : a ++ r = b ++ t) : a = b := by
  induction ha generalizing b with
  | @last line trailer hline hsize htrailer =>
    cases hb with
    | @last line' trailer' hline' hsize' htrailer' =>
      simp only [List.append_assoc] at h
      obtain rfl := hline.unique hline' h
      rw [htrailer.unique htrailer' (List.append_cancel_left h)]
    | @chunk line' data rest hline' hsize' hdata hrest =>
      simp only [List.append_assoc] at h
      obtain rfl := hline.unique hline' h
      rw [hsize] at hsize'
      exact absurd (List.length_eq_zero_iff.mp (Option.some.inj hsize').symm) hdata
  | @chunk line data rest hline hsize hdata hrest ih =>
    cases hb with
    | @last line' trailer' hline' hsize' htrailer' =>
      simp only [List.append_assoc] at h
      obtain rfl := hline.unique hline' h
      rw [hsize'] at hsize
      exact absurd (List.length_eq_zero_iff.mp (Option.some.inj hsize).symm) hdata
    | @chunk line' data' rest' hline' hsize' hdata' hrest' =>
      simp only [List.append_assoc] at h
      obtain rfl := hline.unique hline' h
      have hlen : data.length = data'.length := Option.some.inj (hsize.symm.trans hsize')
      obtain ⟨rfl, hrow⟩ := List.append_inj (List.append_cancel_left h) hlen
      rw [ih hrest' (List.append_cancel_left hrow)]

/-- A line that begins a row of chunks begins each of them. -/
theorem Chunked.after_line {line rest : Bytes} (hline : EndsFirst crlf line) {size : Nat}
    (hsize : chunkSize line = some size) {p : Bytes} (hp : p <+: line ++ rest) (h : Chunked p) :
    ∃ q, p = line ++ q ∧ q <+: rest ∧ (size = 0 → IsTrailer q) ∧
      (size ≠ 0 → ∃ data more, q = data ++ (crlf ++ more) ∧ data.length = size ∧
        Chunked more) := by
  obtain ⟨t, ht⟩ := hp
  cases h with
  | @last line' trailer hline' hsize' htrailer =>
    rw [List.append_assoc] at ht
    obtain rfl := hline.unique hline' ht.symm
    cases hsize.symm.trans hsize'
    exact ⟨trailer, rfl, ⟨t, List.append_cancel_left ht⟩, fun _ => htrailer,
      fun hne => absurd rfl hne⟩
  | @chunk line' data more hline' hsize' hdata hmore =>
    rw [List.append_assoc] at ht
    obtain rfl := hline.unique hline' ht.symm
    cases hsize.symm.trans hsize'
    exact ⟨data ++ (crlf ++ more), rfl, ⟨t, List.append_cancel_left ht⟩,
      fun h0 => absurd (List.length_eq_zero_iff.mp h0) hdata, fun _ => ⟨data, more, rfl, rfl, hmore⟩⟩

/-! ## Messages -/

/-- The body goes as far as the extent says; `closed` when the connection is closed behind it. -/
def Extent.Fits (closed : Bool) (body : Bytes) : Extent → Prop
  | .empty => body = []
  | .length n => body.length = n
  | .chunked => Chunked body
  | .untilClose => closed = true

structure Message (extent : Bytes → Fields → Option Extent) (closed : Bool)
    (head body : Bytes) : Prop where
  blank : EndsFirst Http.blank head
  body : ∃ fields e, fieldsOf head = some fields ∧ extent head fields = some e ∧
    e.Fits closed body

/-- On a connection that stays open a message ends at one place only. -/
theorem Message.unique {extent : Bytes → Fields → Option Extent} {head head' body body' r t : Bytes}
    (h : Message extent false head body) (h' : Message extent false head' body')
    (heq : head ++ (body ++ r) = head' ++ (body' ++ t)) : head = head' ∧ body = body' := by
  obtain rfl := h.blank.unique h'.blank heq
  have hbody := List.append_cancel_left heq
  refine ⟨rfl, ?_⟩
  obtain ⟨fields, e, hfields, hextent, hfits⟩ := h.body
  obtain ⟨fields', e', hfields', hextent', hfits'⟩ := h'.body
  cases hfields.symm.trans hfields'
  cases hextent.symm.trans hextent'
  cases e with
  | empty => exact hfits.trans hfits'.symm
  | length n => exact (List.append_inj hbody (hfits.trans hfits'.symm)).1
  | chunked => exact hfits.unique hfits' hbody
  | untilClose => cases hfits

theorem Extent.Fits.mono {body : Bytes} {e : Extent} (h : e.Fits false body) (closed : Bool) :
    e.Fits closed body := by
  cases e with
  | untilClose => cases h
  | empty => exact h
  | length n => exact h
  | chunked => exact h

theorem Message.mono {extent : Bytes → Fields → Option Extent} {closed : Bool} {head body : Bytes}
    (h : Message extent closed head body) : Message extent true head body where
  blank := h.blank
  body := by
    obtain ⟨fields, e, hfields, he, hfits⟩ := h.body
    cases closed with
    | true => exact ⟨fields, e, hfields, he, hfits⟩
    | false => exact ⟨fields, e, hfields, he, hfits.mono true⟩

theorem requestExtent_ends {head : Bytes} {fields : Fields} {e : Extent}
    (h : requestExtent head fields = some e) : e ≠ .untilClose := by
  rintro rfl
  unfold requestExtent extentOf at h
  split at h
  · cases h
  · cases h
  · split at h <;> cases h
  · cases h

/-- A request ends where it does, whether or not the connection is closed behind it. -/
theorem Message.request_ends {closed : Bool} {head body : Bytes}
    (h : Message requestExtent closed head body) : Message requestExtent false head body where
  blank := h.blank
  body := by
    obtain ⟨fields, e, hfields, he, hfits⟩ := h.body
    refine ⟨fields, e, hfields, he, ?_⟩
    cases e with
    | untilClose => exact absurd rfl (requestExtent_ends he)
    | empty => exact hfits
    | length n => exact hfits
    | chunked => exact hfits

/-- Chunks begin with a line. -/
theorem not_chunked_nil : ¬Chunked [] := by
  intro h
  generalize hbody : ([] : Bytes) = body at h
  cases h with
  | last hline hsize htrailer =>
    obtain ⟨rfl, -⟩ := List.append_eq_nil_iff.mp hbody.symm
    exact absurd hline.length_le (by decide)
  | chunk hline hsize hdata hrest =>
    obtain ⟨rfl, -⟩ := List.append_eq_nil_iff.mp hbody.symm
    exact absurd hline.length_le (by decide)

/-! ## Values -/

theorem trimOws_eq_self {s : Bytes} (h : ∀ b ∈ s, isOws b = false) : trimOws s = s := by
  have hfront : s.dropWhile isOws = s := by
    cases s with
    | nil => rfl
    | cons b s => rw [List.dropWhile_cons_of_neg (by simp [h b List.mem_cons_self])]
  rw [trimOws, hfront, List.rdropWhile_eq_self_iff]
  intro hne
  simp [h _ (List.getLast_mem hne)]

theorem elements_single {v : Bytes} (hcomma : 44 ∉ v) (hows : ∀ b ∈ v, isOws b = false) :
    elements v = [v] := by
  rw [elements, List.splitOn_eq_singleton hcomma, List.map_singleton, trimOws_eq_self hows]

theorem elements_digits {v : Bytes} (h : v.all isDigit = true) : elements v = [v] := by
  have hall : ∀ b ∈ v, isDigit b = true := List.all_eq_true.mp h
  refine elements_single (fun hmem => absurd (hall 44 hmem) (by decide)) fun b hb => ?_
  by_contra hows
  rcases isOws_cases (by simpa using hows) with rfl | rfl <;>
    exact absurd (hall _ hb) (by decide)

theorem contentLength_digits {fields : Fields} {v : Bytes}
    (hv : fields.values "content-length" = [v]) (hne : v ≠ []) (h : v.all isDigit = true) :
    contentLength fields = some (some (decimal v)) := by
  have hlist : (fields.values "content-length").flatMap elements = [v] := by
    rw [hv, List.flatMap_singleton, elements_digits h]
  rw [contentLength, hlist]
  simp [hne, h]

/-- The name stands alone in the value. -/
theorem finalChunked_of_sameName {v : Bytes} (h : sameName v (ascii "chunked") = true) :
    finalChunked v = true := by
  have hlower : v.map lower = (ascii "chunked").map lower := by simpa [sameName] using h
  have hletter : ∀ b ∈ v, b ≠ 44 ∧ isOws b = false := by
    intro b hb
    have hmem : lower b ∈ (ascii "chunked").map lower := hlower ▸ List.mem_map_of_mem hb
    have hnot : ∀ c : UInt8, c = 44 ∨ c = 32 ∨ c = 9 → lower c ∉ (ascii "chunked").map lower := by
      rintro c (rfl | rfl | rfl) <;> decide
    refine ⟨fun heq => hnot b (.inl heq) hmem, ?_⟩
    by_contra hows
    exact hnot b (.inr (isOws_cases (by simpa using hows))) hmem
  have hne : v.isEmpty = false := by
    cases v with
    | nil => cases hlower
    | cons b v => rfl
  have hlist : elements v = [v] :=
    elements_single (fun hmem => (hletter 44 hmem).1 rfl) fun b hb => (hletter b hb).2
  rw [finalChunked, hlist]
  simpa [hne] using h

/-! ## A head made of lines -/

/-- The lines, each with its end, and the empty line. -/
def headOf (lines : List Bytes) : Bytes := lines.flatMap (· ++ crlf) ++ crlf

theorem headOf_cons (line : Bytes) (lines : List Bytes) :
    headOf (line :: lines) = line ++ (crlf ++ headOf lines) := by
  simp [headOf]

theorem crlfLines_line {line : Bytes} (h : 13 ∉ line) (s : Bytes) :
    crlfLines (line ++ (crlf ++ s)) = line :: crlfLines s := by
  induction line with
  | nil => cases s <;> rfl
  | cons b line ih =>
    have hb : b ≠ 13 := fun heq => h (heq ▸ List.mem_cons_self)
    have hline := ih fun hmem => h (List.mem_cons_of_mem _ hmem)
    cases line with
    | nil =>
      show crlfLines (b :: 13 :: 10 :: s) = _
      rw [crlfLines, if_neg fun hend => hb hend.1]
      have hrest : crlfLines (13 :: 10 :: s) = [] :: crlfLines s := hline
      rw [hrest]
    | cons c line =>
      rw [List.cons_append, List.cons_append, crlfLines, if_neg fun hend => hb hend.1]
      rw [List.cons_append] at hline
      rw [hline]

theorem crlfLines_cons {b : UInt8} (hb : b ≠ 13) (s : Bytes) :
    (crlfLines (b :: s)).headD [] = b :: (crlfLines s).headD [] := by
  cases s with
  | nil => rfl
  | cons c s =>
    rw [crlfLines, if_neg fun hend => hb hend.1]
    cases crlfLines (c :: s) <;> rfl

/-- The first line begins with what stands before the first line end. -/
theorem crlfLines_front {a : Bytes} (h : 13 ∉ a) (s : Bytes) :
    (crlfLines (a ++ s)).headD [] = a ++ (crlfLines s).headD [] := by
  induction a with
  | nil => rfl
  | cons b a ih =>
    have hb : b ≠ 13 := fun heq => h (heq ▸ List.mem_cons_self)
    rw [List.cons_append, crlfLines_cons hb, ih fun hmem => h (List.mem_cons_of_mem _ hmem)]
    rfl

theorem crlfLines_first (e : UInt8) (s : Bytes) :
    (crlfLines (e :: s)).headD [] = [] ∨ ∃ l, (crlfLines (e :: s)).headD [] = e :: l := by
  cases s with
  | nil => exact .inr ⟨[], rfl⟩
  | cons c s =>
    rw [crlfLines]
    split
    · exact .inl rfl
    · split
      · exact .inr ⟨[], rfl⟩
      · exact .inr ⟨_, rfl⟩

theorem crlfLines_headOf {lines : List Bytes} (h : ∀ line ∈ lines, 13 ∉ line) :
    crlfLines (headOf lines) = lines ++ [[], []] := by
  induction lines with
  | nil => rfl
  | cons line lines ih =>
    rw [headOf_cons, crlfLines_line (h line List.mem_cons_self),
      ih fun l hl => h l (List.mem_cons_of_mem _ hl)]
    rfl

theorem fieldLines_headOf {first : Bytes} {lines : List Bytes} (hfirst : 13 ∉ first)
    (h : ∀ line ∈ lines, line ≠ [] ∧ 13 ∉ line) : fieldLines (headOf (first :: lines)) = lines := by
  have hall : ∀ line ∈ first :: lines, 13 ∉ line :=
    List.forall_mem_cons.mpr ⟨hfirst, fun line hline => (h line hline).2⟩
  rw [fieldLines, crlfLines_headOf hall, List.cons_append, List.tail_cons, List.filter_append]
  have hkeep : lines.filter (!·.isEmpty) = lines :=
    List.filter_eq_self.mpr fun line hline => by simp [(h line hline).1]
  rw [hkeep]
  exact List.append_nil lines

/-- A blank line comes behind the last line only. -/
theorem blank_in_headOf {lines : List Bytes} (h : ∀ line ∈ lines, line ≠ [] ∧ 13 ∉ line)
    {u v : Bytes} (heq : headOf lines = u ++ (blank ++ v)) : v = [] := by
  induction lines generalizing u with
  | nil =>
    have hlen := congrArg List.length heq
    simp only [headOf, List.flatMap_nil, List.nil_append, List.length_append] at hlen
    have : crlf.length = 2 := rfl
    have : blank.length = 4 := rfl
    omega
  | cons line lines ih =>
    obtain ⟨hne, hline⟩ := h line List.mem_cons_self
    have hlines : ∀ l ∈ lines, l ≠ [] ∧ 13 ∉ l := fun l hl => h l (List.mem_cons_of_mem _ hl)
    -- the rest begins with a line, not with the end of one, unless there is no line left
    have hstart : ∀ v, headOf lines = 13 :: 10 :: v → v = [] := by
      intro v hnext
      cases lines with
      | nil => exact (List.cons.inj (List.cons.inj hnext).2).2.symm
      | cons l ls =>
        obtain ⟨hl, hl13⟩ := hlines l List.mem_cons_self
        rw [headOf_cons] at hnext
        cases l with
        | nil => exact absurd rfl hl
        | cons b l =>
          have hb : b = 13 := (List.cons.inj hnext).1
          exact absurd (hb ▸ List.mem_cons_self) hl13
    rw [headOf_cons] at heq
    rcases List.append_eq_append_iff.mp heq with ⟨w, rfl, hrest⟩ | ⟨w, rfl, hrest⟩
    · -- the blank line begins at the end of the line or behind it
      match w with
      | [] => exact hstart v (List.cons.inj (List.cons.inj hrest).2).2
      | [b] => cases (List.cons.inj (List.cons.inj hrest).2).1
      | b :: c :: w => exact ih hlines (List.cons.inj (List.cons.inj hrest).2).2
    · -- it would begin inside the line
      cases w with
      | nil => exact hstart v (List.cons.inj (List.cons.inj hrest).2).2.symm
      | cons b w =>
        have hb : 13 = b := (List.cons.inj hrest).1
        exact absurd (List.mem_append_right _ (hb ▸ List.mem_cons_self)) hline

theorem endsFirst_headOf {lines : List Bytes} (hne : lines ≠ [])
    (h : ∀ line ∈ lines, line ≠ [] ∧ 13 ∉ line) : EndsFirst blank (headOf lines) := by
  constructor
  · induction lines with
    | nil => exact absurd rfl hne
    | cons line lines ih =>
      rw [headOf_cons]
      cases lines with
      | nil => exact List.suffix_append line blank
      | cons l ls =>
        have hrest := ih (List.cons_ne_nil l ls) fun l' hl' => h l' (List.mem_cons_of_mem _ hl')
        exact (hrest.trans (List.suffix_append crlf _)).trans (List.suffix_append line _)
  · rintro p ⟨q, hq⟩ hne' ⟨u, rfl⟩
    have hnil : q = [] := blank_in_headOf h (by rw [← hq, List.append_assoc])
    rw [hnil, List.append_nil] at hq
    exact hne' hq

end CampusAuth.Lib.Http
