import CampusAuth.Lib.Numerals

/- The weekdays of a cron expression (`scheduler/cron_loop.rs`, `normalize_weekday`).

   Users number the days from 0 or 7 for Sunday, the cron library from 1. The source writes the
   days of each item out, in the other numbering: the days that the library reads are those the
   field selects (`weekdays_kept`). An item that is not made of numbers, a name, stays as it is; and
   a field with numbers that make no sense stays as it is altogether. -/
namespace CampusAuth.Scheduler
open Lib

/-! ## The source -/

def parseUsize (text : Text) : Option Nat := parseUnsigned (2 ^ 64) text

/-- `to_string` -/
def toDecimal (n : Nat) : Text := (toString n).toList

/-- What is made of an item. -/
inductive PartReading where
  | refused
  | kept
  | days (days : List Nat)
  deriving DecidableEq

/-- The base of an item and its step; nothing when the step is no positive number. -/
def baseAndStep (part : Text) : Option (Text × Nat) :=
  match splitOnce '/' part with
  | some (base, step) =>
    match parseUsize step with
    | some step => if 0 < step then some (base, step) else none
    | none => none
  | none => some (part, 1)

/-- The first and the last day of a base, when it is made of numbers. -/
def rangeOf (stepped : Bool) (base : Text) : Option (Nat × Nat) :=
  if base = ['*'] then some (0, 7)
  else
    match splitOnce '-' base with
    | some (first, last) =>
      match parseUsize first, parseUsize last with
      | some first, some last => some (first, last)
      | _, _ => none
    | none => (parseUsize base).map fun n => (n, if stepped then 7 else n)

/-- `(first..=last).step_by(step)` -/
def stepBy (first last step : Nat) : List Nat :=
  List.range' first ((last - first) / step + 1) step

def readPart (part : Text) : PartReading :=
  match baseAndStep part with
  | none => .refused
  | some (base, step) =>
    match rangeOf (part.contains '/') base with
    | none => .kept
    | some (first, last) =>
      if 7 < first ∨ 7 < last ∨ last < first then .refused else .days (stepBy first last step)

/-- The day in the numbering of the library. -/
def crateDay (day : Nat) : Nat := day % 7 + 1

/-- The items that are written for an item. -/
def writtenFor (part : Text) : List Text :=
  match readPart part with
  | .days days => days.map fun day => toDecimal (crateDay day)
  | _ => [part]

def joinItems (items : List Text) : Text := [','].intercalate items

def normalizeWeekday (field : Text) : Text :=
  if field = ['*'] then field
  else if (field.splitOn ',').any fun part => readPart part = .refused then field
  else joinItems ((field.splitOn ',').flatMap writtenFor)

/-! ## What fields mean -/

inductive WeekBase where
  | all
  | day (n : Nat)
  | range (first last : Nat)

structure WeekItem where
  base : WeekBase
  step : Option Nat := none

namespace WeekItem
variable (item : WeekItem)

def first : Nat :=
  match item.base with
  | .all => 0
  | .day n => n
  | .range first _ => first

/-- A day with a step goes on to the end of the week. -/
def last : Nat :=
  match item.base with
  | .all => 7
  | .day n => if item.step.isSome then 7 else n
  | .range _ last => last

/-- From the first day in steps to the last; 7 is 0. -/
def Selects (day : Nat) : Prop :=
  ∃ k, item.first + k * item.step.getD 1 ≤ item.last ∧
    day = (item.first + k * item.step.getD 1) % 7

structure Valid : Prop where
  last : item.last ≤ 7
  ordered : item.first ≤ item.last
  step : ∀ step ∈ item.step, 0 < step

end WeekItem

/-- How a base is written; its numbers are ones of 64 bits. -/
inductive BaseText : WeekBase → Text → Prop
  | all : BaseText .all ['*']
  | day {n : Nat} {text : Text} : Numeral (2 ^ 64) text n → BaseText (.day n) text
  | range {first last : Nat} {a b : Text} : Numeral (2 ^ 64) a first → Numeral (2 ^ 64) b last →
      BaseText (.range first last) (a ++ '-' :: b)

inductive ItemText : WeekItem → Text → Prop
  | plain {base : WeekBase} {text : Text} : BaseText base text → ItemText ⟨base, none⟩ text
  | stepped {base : WeekBase} {step : Nat} {text a : Text} : BaseText base text →
      Numeral (2 ^ 64) a step → ItemText ⟨base, some step⟩ (text ++ '/' :: a)

/-- A field of these items. -/
structure FieldText (items : List WeekItem) (field : Text) : Prop where
  valid : ∀ item ∈ items, item.Valid
  written : ∃ parts, List.Forall₂ ItemText items parts ∧ parts ≠ [] ∧ field = joinItems parts

/-- What the cron library makes of the fields that are written, in its own numbering. -/
structure CrateWeekdays (selects : Text → Nat → Prop) : Prop where
  all : ∀ day, selects ['*'] day ↔ 1 ≤ day ∧ day ≤ 7
  list : ∀ days : List Nat, days ≠ [] → (∀ day ∈ days, 1 ≤ day ∧ day ≤ 7) →
    ∀ day, selects (joinItems (days.map toDecimal)) day ↔ day ∈ days

/-! ## One item -/

theorem mem_stepBy {first last step day : Nat} (hle : first ≤ last) (hstep : 0 < step) :
    day ∈ stepBy first last step ↔ ∃ k, first + k * step ≤ last ∧ day = first + k * step := by
  unfold stepBy
  rw [List.mem_range']
  constructor
  · rintro ⟨k, hk, rfl⟩
    have hmul : k * step ≤ last - first := (Nat.le_div_iff_mul_le hstep).mp (Nat.lt_succ_iff.mp hk)
    refine ⟨k, by omega, by rw [Nat.mul_comm]⟩
  · rintro ⟨k, hk, rfl⟩
    refine ⟨k, Nat.lt_succ_iff.mpr ((Nat.le_div_iff_mul_le hstep).mpr ?_), by rw [Nat.mul_comm]⟩
    omega

/-- The characters of a base that is made of numbers. -/
theorem not_mem_base {base : WeekBase} {text : Text} {c : Char} (h : BaseText base text)
    (hdigit : c.isDigit = false) (hstar : c ≠ '*') (hdash : c ≠ '-') : c ∉ text := by
  cases h with
  | all => simpa using hstar
  | day hn => exact hn.not_mem hdigit
  | range ha hb =>
    rw [List.mem_append, List.mem_cons]
    rintro (hmem | rfl | hmem)
    · exact ha.not_mem hdigit hmem
    · exact hdash rfl
    · exact hb.not_mem hdigit hmem

theorem not_star {n : Nat} {text : Text} (h : Numeral (2 ^ 64) text n) (rest : Text) :
    text ++ rest ≠ ['*'] := by
  obtain ⟨c, cs, rfl⟩ := List.exists_cons_of_ne_nil h.nonempty
  intro heq
  have hc : c = '*' := (List.cons.inj heq).1
  exact absurd (h.digits c List.mem_cons_self) (by rw [hc]; decide)

theorem rangeOf_base {base : WeekBase} {text : Text} (h : BaseText base text) (step : Option Nat) :
    rangeOf step.isSome text = some (WeekItem.first ⟨base, step⟩, WeekItem.last ⟨base, step⟩) := by
  unfold rangeOf
  cases h with
  | all => rfl
  | @day n _ hn =>
    have hstar : text ≠ ['*'] := by simpa using not_star hn []
    rw [if_neg hstar, splitOnce_of_not_mem (hn.not_mem (by decide)), parseUsize,
      parseUnsigned_numeral hn]
    rfl
  | @range first last a b ha hb =>
    rw [if_neg (not_star ha _), splitOnce_append (ha.not_mem (by decide))]
    dsimp only
    rw [parseUsize, parseUsize, parseUnsigned_numeral ha, parseUnsigned_numeral hb]
    rfl

theorem valid_range {item : WeekItem} (h : item.Valid) :
    ¬(7 < item.first ∨ 7 < item.last ∨ item.last < item.first) := by
  have hlast := h.last
  have hordered := h.ordered
  omega

/-- An item of numbers is read as its days. -/
theorem readPart_item {item : WeekItem} {part : Text} (h : ItemText item part) (hvalid : item.Valid) :
    readPart part = .days (stepBy item.first item.last (item.step.getD 1)) := by
  unfold readPart baseAndStep
  cases h with
  | @plain base _ hbase =>
    have hslash : '/' ∉ part := not_mem_base hbase (by decide) (by decide) (by decide)
    have hcontains : part.contains '/' = false := by simpa using hslash
    rw [splitOnce_of_not_mem hslash]
    dsimp only
    rw [hcontains]
    have hrange := rangeOf_base hbase none
    rw [show Option.isSome (none : Option Nat) = false from rfl] at hrange
    rw [hrange]
    exact if_neg (valid_range hvalid)
  | @stepped base step text a hbase ha =>
    have hslash : '/' ∉ text := not_mem_base hbase (by decide) (by decide) (by decide)
    have hcontains : (text ++ '/' :: a).contains '/' = true := by simp
    rw [splitOnce_append hslash]
    dsimp only
    rw [parseUsize, parseUnsigned_numeral ha]
    dsimp only
    rw [if_pos (hvalid.step step rfl)]
    dsimp only
    rw [hcontains]
    have hrange := rangeOf_base hbase (some step)
    rw [show Option.isSome (some step) = true from rfl] at hrange
    rw [hrange]
    exact if_neg (valid_range hvalid)

theorem comma_not_mem {item : WeekItem} {part : Text} (h : ItemText item part) : ',' ∉ part := by
  cases h with
  | plain hbase => exact not_mem_base hbase (by decide) (by decide) (by decide)
  | stepped hbase ha =>
    rw [List.mem_append, List.mem_cons]
    rintro (hmem | hmem | hmem)
    · exact not_mem_base hbase (by decide) (by decide) (by decide) hmem
    · exact absurd hmem (by decide)
    · exact ha.not_mem (by decide) hmem

/-- The days of an item, in the numbering of the library. -/
def crateDays (item : WeekItem) : List Nat :=
  (stepBy item.first item.last (item.step.getD 1)).map crateDay

theorem writtenFor_item {item : WeekItem} {part : Text} (h : ItemText item part)
    (hvalid : item.Valid) : writtenFor part = (crateDays item).map toDecimal := by
  simp [writtenFor, readPart_item h hvalid, crateDays]

theorem mem_crateDays {item : WeekItem} (hvalid : item.Valid) {day : Nat} :
    day + 1 ∈ crateDays item ↔ item.Selects day := by
  have hstep : 0 < item.step.getD 1 := by
    cases hstep : item.step with
    | none => exact Nat.one_pos
    | some step => exact hvalid.step step hstep
  unfold crateDays WeekItem.Selects crateDay
  rw [List.mem_map]
  constructor
  · rintro ⟨n, hn, hday⟩
    obtain ⟨k, hk, rfl⟩ := (mem_stepBy hvalid.ordered hstep).mp hn
    exact ⟨k, hk, (Nat.succ.inj hday).symm⟩
  · rintro ⟨k, hk, rfl⟩
    exact ⟨_, (mem_stepBy hvalid.ordered hstep).mpr ⟨k, hk, rfl⟩, rfl⟩

theorem crateDays_range (item : WeekItem) : ∀ day ∈ crateDays item, 1 ≤ day ∧ day ≤ 7 := by
  intro day hday
  obtain ⟨n, _, rfl⟩ := List.mem_map.mp hday
  have hlt := Nat.mod_lt n (show 0 < 7 by decide)
  unfold crateDay
  omega

/-! ## Fields -/

theorem items_written {items : List WeekItem} {parts : List Text}
    (h : List.Forall₂ ItemText items parts) (hvalid : ∀ item ∈ items, item.Valid) :
    (∀ part ∈ parts, readPart part ≠ .refused) ∧
      parts.flatMap writtenFor = (items.flatMap crateDays).map toDecimal := by
  induction h with
  | nil => exact ⟨by simp, rfl⟩
  | @cons item part items parts hitem _ ih =>
    obtain ⟨hfirst, hrest⟩ := List.forall_mem_cons.mp hvalid
    obtain ⟨hread, hwritten⟩ := ih hrest
    refine ⟨List.forall_mem_cons.mpr ⟨?_, hread⟩, ?_⟩
    · rw [readPart_item hitem hfirst]
      simp
    · rw [List.flatMap_cons, List.flatMap_cons, List.map_append, hwritten,
        writtenFor_item hitem hfirst]

theorem splitOn_items {items : List WeekItem} {parts : List Text}
    (h : List.Forall₂ ItemText items parts) (hne : parts ≠ []) :
    (joinItems parts).splitOn ',' = parts := by
  refine List.splitOn_intercalate ',' ?_ hne
  clear hne
  induction h with
  | nil => simp
  | cons hitem _ ih => exact List.forall_mem_cons.mpr ⟨comma_not_mem hitem, ih⟩

/-- The field `*` alone. -/
theorem star_selects {items : List WeekItem} (h : FieldText items ['*']) {day : Nat} (hday : day < 7) :
    ∃ item ∈ items, item.Selects day := by
  obtain ⟨parts, hparts, hne, hfield⟩ := h.written
  have hsplit := splitOn_items hparts hne
  rw [← hfield] at hsplit
  have hone : parts = [['*']] := hsplit.symm.trans (by decide)
  subst hone
  cases hparts with
  | @cons item _ _ _ hitem hrest =>
    refine ⟨item, List.mem_cons_self, ?_⟩
    generalize hstar : ['*'] = part at hitem
    cases hitem with
    | plain hbase =>
      cases hbase with
      | all => exact ⟨day, by simp [WeekItem.first, WeekItem.last]; omega, by
          simp [WeekItem.first]; omega⟩
      | day hn => exact absurd hstar.symm (by simpa using not_star hn [])
      | range ha _ => exact absurd hstar.symm (not_star ha _)
    | @stepped base step text a _ _ =>
      have hmem : '/' ∈ ['*'] := hstar ▸ by simp
      exact absurd hmem (by decide)

/-- The days that the library reads are those the field selects. -/
theorem weekdays_of_items {selects : Text → Nat → Prop} (hcrate : CrateWeekdays selects)
    {items : List WeekItem} {field : Text} (h : FieldText items field) {day : Nat} (hday : day < 7) :
    selects (normalizeWeekday field) (day + 1) ↔ ∃ item ∈ items, item.Selects day := by
  by_cases hstar : field = ['*']
  · subst hstar
    have hnormal : normalizeWeekday ['*'] = ['*'] := if_pos rfl
    rw [hnormal, hcrate.all]
    exact ⟨fun _ => star_selects h hday, fun _ => by omega⟩
  obtain ⟨parts, hparts, hne, hfield⟩ := h.written
  obtain ⟨hread, hwritten⟩ := items_written hparts h.valid
  have hsplit : field.splitOn ',' = parts := hfield ▸ splitOn_items hparts hne
  have hnone : ¬((field.splitOn ',').any fun part => readPart part = .refused) = true := by
    rw [hsplit, List.any_eq_true]
    rintro ⟨part, hpart, hrefused⟩
    exact hread part hpart (of_decide_eq_true hrefused)
  have hnormal : normalizeWeekday field = joinItems ((items.flatMap crateDays).map toDecimal) := by
    rw [normalizeWeekday, if_neg hstar, if_neg hnone, hsplit, hwritten]
  have hdays : items.flatMap crateDays ≠ [] := by
    cases hparts with
    | nil => exact absurd rfl hne
    | @cons item part items parts hitem _ =>
      rw [List.flatMap_cons]
      simp [crateDays, stepBy]
  rw [hnormal, hcrate.list _ hdays]
  · rw [List.mem_flatMap]
    exact exists_congr fun item => and_congr_right fun hmem => mem_crateDays (h.valid item hmem)
  · intro n hn
    obtain ⟨item, _, hmem⟩ := List.mem_flatMap.mp hn
    exact crateDays_range item n hmem

/-- A field with a refused item stays as it is. -/
theorem normalizeWeekday_refused {field : Text}
    (h : ∃ part ∈ field.splitOn ',', readPart part = .refused) : normalizeWeekday field = field := by
  obtain ⟨part, hpart, hrefused⟩ := h
  have hany : ((field.splitOn ',').any fun part => readPart part = .refused) = true :=
    List.any_eq_true.mpr ⟨part, hpart, decide_eq_true hrefused⟩
  unfold normalizeWeekday
  rw [if_pos hany, ite_self]

theorem writtenFor_kept {part : Text} (h : readPart part = .kept) : writtenFor part = [part] := by
  simp [writtenFor, h]

/-- A field of names stays as it is. -/
theorem normalizeWeekday_kept {field : Text}
    (h : ∀ part ∈ field.splitOn ',', readPart part = .kept) : normalizeWeekday field = field := by
  have hany : ¬((field.splitOn ',').any fun part => readPart part = .refused) = true := by
    rw [List.any_eq_true]
    rintro ⟨part, hpart, hrefused⟩
    have hread : readPart part = .refused := of_decide_eq_true hrefused
    rw [h part hpart] at hread
    cases hread
  have hwritten : (field.splitOn ',').flatMap writtenFor = field.splitOn ',' := by
    rw [List.flatMap_congr fun part hpart => writtenFor_kept (h part hpart)]
    simp
  unfold normalizeWeekday
  rw [if_neg hany, hwritten, joinItems, List.intercalate_splitOn, ite_self]

theorem isDigit_of_mem_decimal {n : Nat} {c : Char} (h : c ∈ toDecimal n) : c.isDigit = true := by
  have hdigits : c ∈ Nat.toDigits 10 n := by simpa [toDecimal] using h
  exact Nat.isDigit_of_mem_toDigits (by decide) (by decide) hdigits

theorem comma_not_mem_decimal (n : Nat) : ',' ∉ toDecimal n :=
  fun h => absurd (isDigit_of_mem_decimal h) (by decide)

theorem comma_not_mem_written {field part item : Text} (hpart : part ∈ field.splitOn ',')
    (hitem : item ∈ writtenFor part) : ',' ∉ item := by
  unfold writtenFor at hitem
  split at hitem
  · obtain ⟨day, _, rfl⟩ := List.mem_map.mp hitem
    exact comma_not_mem_decimal _
  · intro hmem
    rw [List.mem_singleton.mp hitem] at hmem
    have hcomma := not_mem_of_mem_splitOnP field part hpart ',' hmem
    simp at hcomma

theorem writtenFor_ne_nil (part : Text) : writtenFor part ≠ [] := by
  unfold writtenFor
  split
  · next days hread =>
    have hdays : days ≠ [] := by
      unfold readPart at hread
      split at hread
      · cases hread
      split at hread
      · cases hread
      split at hread
      · cases hread
      cases hread
      simp [stepBy]
    simpa using hdays
  · exact List.cons_ne_nil _ _

/-- In a field that is written anew each item stands for itself. -/
theorem splitOn_normalizeWeekday {field : Text} (hstar : field ≠ ['*'])
    (h : ∀ part ∈ field.splitOn ',', readPart part ≠ .refused) :
    (normalizeWeekday field).splitOn ',' = (field.splitOn ',').flatMap writtenFor := by
  have hany : ¬((field.splitOn ',').any fun part => readPart part = .refused) = true := by
    rw [List.any_eq_true]
    rintro ⟨part, hpart, hrefused⟩
    exact h part hpart (of_decide_eq_true hrefused)
  unfold normalizeWeekday
  rw [if_neg hstar, if_neg hany]
  refine List.splitOn_intercalate ',' (fun item hitem => ?_) ?_
  · obtain ⟨part, hpart, hwritten⟩ := List.mem_flatMap.mp hitem
    exact comma_not_mem_written hpart hwritten
  · obtain ⟨part, rest, hparts⟩ := List.exists_cons_of_ne_nil (List.splitOnP_ne_nil (· == ',') field)
    rw [show field.splitOn ',' = part :: rest from hparts, List.flatMap_cons]
    exact List.append_ne_nil_of_left_ne_nil (writtenFor_ne_nil part) _

/-- A field of the grammar selects the days it did; one with an item that is refused stays as it
    is; in any other the items that are no numbers stay, and only they. -/
theorem weekdays_kept {selects : Text → Nat → Prop} (hcrate : CrateWeekdays selects) (field : Text) :
    (∀ items, FieldText items field → ∀ day < 7,
      (selects (normalizeWeekday field) (day + 1) ↔ ∃ item ∈ items, item.Selects day)) ∧
    ((∃ part ∈ field.splitOn ',', readPart part = .refused) → normalizeWeekday field = field) ∧
    ((∀ part ∈ field.splitOn ',', readPart part = .kept) → normalizeWeekday field = field) ∧
    (field ≠ ['*'] → (∀ part ∈ field.splitOn ',', readPart part ≠ .refused) →
      (normalizeWeekday field).splitOn ',' = (field.splitOn ',').flatMap writtenFor) :=
  ⟨fun _ hitems _ hday => weekdays_of_items hcrate hitems hday, normalizeWeekday_refused,
    normalizeWeekday_kept, splitOn_normalizeWeekday⟩

/-- The library at the fields that are written. -/
def crateSelects (field : Text) (day : Nat) : Prop :=
  1 ≤ day ∧ day ≤ 7 ∧ (field = ['*'] ∨ toDecimal day ∈ field.splitOn ',')

theorem toDecimal_week : ∀ a < 8, ∀ b < 8, toDecimal a = toDecimal b → a = b := by
  decide +kernel

theorem crateSelects_laws : CrateWeekdays crateSelects := by
  constructor
  · intro day
    simp [crateSelects]
  · intro days hne hrange day
    have hsplit : (joinItems (days.map toDecimal)).splitOn ',' = days.map toDecimal := by
      refine List.splitOn_intercalate ',' (fun item hitem => ?_) (by simpa using hne)
      obtain ⟨n, _, rfl⟩ := List.mem_map.mp hitem
      exact comma_not_mem_decimal n
    have hstar : joinItems (days.map toDecimal) ≠ ['*'] := by
      intro heq
      rw [heq] at hsplit
      have hmem : ['*'] ∈ days.map toDecimal := hsplit ▸ List.mem_singleton_self _
      obtain ⟨n, _, hn⟩ := List.mem_map.mp hmem
      exact absurd (isDigit_of_mem_decimal (hn ▸ List.mem_singleton_self _)) (by decide)
    unfold crateSelects
    rw [hsplit]
    constructor
    · rintro ⟨_, hle, hfield | hmem⟩
      · exact absurd hfield hstar
      · obtain ⟨n, hn, heq⟩ := List.mem_map.mp hmem
        have hday : n = day := toDecimal_week n (Nat.lt_succ_iff.mpr (hrange n hn).2) day
          (Nat.lt_succ_iff.mpr hle) heq
        exact hday ▸ hn
    · intro hmem
      exact ⟨(hrange day hmem).1, (hrange day hmem).2, .inr (List.mem_map_of_mem hmem)⟩

/-- `0,5-7/2` are Sunday and Friday. -/
theorem weekdays_kept_sample :
    CrateWeekdays crateSelects ∧
      FieldText [⟨.day 0, none⟩, ⟨.range 5 7, some 2⟩] "0,5-7/2".toList ∧
      (crateSelects (normalizeWeekday "0,5-7/2".toList) 6 ↔
        ∃ item ∈ [⟨.day 0, none⟩, ⟨.range 5 7, some 2⟩], WeekItem.Selects item 5) := by
  have hfield : FieldText [⟨.day 0, none⟩, ⟨.range 5 7, some 2⟩] "0,5-7/2".toList := by
    have hdigit : ∀ c n, c.isDigit = true ∧ digitsValue [c] = n ∧ n < 2 ^ 64 →
        Numeral (2 ^ 64) [c] n := fun c n h => ⟨List.cons_ne_nil _ _, by simpa using h.1, h.2.1, h.2.2⟩
    refine ⟨?_, ["0".toList, "5-7/2".toList], .cons ?_ (.cons ?_ .nil), by decide, by decide⟩
    · intro item hitem
      rcases List.mem_cons.mp hitem with rfl | hitem
      · exact ⟨by decide, by decide, by simp⟩
      · rw [List.mem_singleton.mp hitem]
        exact ⟨by decide, by decide, by simp⟩
    · exact .plain (.day (hdigit '0' 0 (by decide)))
    · have hrange : BaseText (.range 5 7) ['5', '-', '7'] :=
        .range (hdigit '5' 5 (by decide)) (hdigit '7' 7 (by decide))
      exact .stepped hrange (hdigit '2' 2 (by decide))
  exact ⟨crateSelects_laws, hfield,
    (weekdays_kept crateSelects_laws "0,5-7/2".toList).1 _ hfield 5 (by decide)⟩

/-- A name beside a number does not keep the field. -/
theorem name_beside_number :
    (¬∃ items, FieldText items "1,MON".toList) ∧
      normalizeWeekday "1,MON".toList = "2,MON".toList := by
  refine ⟨?_, by decide +kernel⟩
  rintro ⟨items, h⟩
  obtain ⟨parts, hparts, hne, hfield⟩ := h.written
  have hsplit := splitOn_items hparts hne
  rw [← hfield] at hsplit
  have htwo : parts = [['1'], "MON".toList] := hsplit.symm.trans (by decide +kernel)
  subst htwo
  cases hparts with
  | @cons _ _ items _ _ hrest =>
    cases hrest with
    | @cons item _ _ _ hname _ =>
      have hvalid := h.valid item (by simp)
      have hkept : readPart "MON".toList = .kept := by decide +kernel
      rw [readPart_item hname hvalid] at hkept
      cases hkept

end CampusAuth.Scheduler
