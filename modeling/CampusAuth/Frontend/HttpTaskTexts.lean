import CampusAuth.Frontend.HttpTask
import CampusAuth.Tasks.FlowChecks
import CampusAuth.Tasks.Meaning

/- The texts of a task as the editor and the backend look at them: each trims by its own notion
   of white space, and cuts addresses, sources and names its own way. -/
namespace CampusAuth.Frontend.HttpTask
open Lib Login Tasks
open ScheduledDraft (isSpace)

/-! ## Characters -/

theorem isWhitespace_of_control {c : Char} (hspace : isSpace c = true)
    (hcontrol : isControlOrBlank c = true) : isWhitespace c = true := by
  unfold isSpace at hspace
  unfold isControlOrBlank at hcontrol
  unfold isWhitespace
  simp only [Bool.or_eq_true, Bool.and_eq_true, decide_eq_true_eq, beq_iff_eq] at hspace hcontrol ⊢
  omega

/-- A character of a name. -/
def IsNameChar (c : Char) : Prop := c.isAlphanum = true ∨ c = '_' ∨ c = '-'

theorem toNat_of_isNameChar {c : Char} (h : IsNameChar c) :
    45 = c.toNat ∨ (48 ≤ c.toNat ∧ c.toNat ≤ 57) ∨ (65 ≤ c.toNat ∧ c.toNat ≤ 90) ∨
      95 = c.toNat ∨ (97 ≤ c.toNat ∧ c.toNat ≤ 122) := by
  rcases h with halnum | rfl | rfl
  · change ((decide (c.val ≥ 65 ∧ c.val ≤ 90) || decide (c.val ≥ 97) && decide (c.val ≤ 122)) ||
      decide (c.val ≥ 48) && decide (c.val ≤ 57)) = true at halnum
    simp only [Bool.or_eq_true, Bool.and_eq_true, decide_eq_true_eq, ge_iff_le,
      UInt32.le_iff_toNat_le] at halnum
    have hval : c.val.toNat = c.toNat := rfl
    simp only [hval] at halnum
    rcases halnum with (⟨hlow, hhigh⟩ | ⟨hlow, hhigh⟩) | ⟨hlow, hhigh⟩
    · exact .inr (.inr (.inl ⟨hlow, hhigh⟩))
    · exact .inr (.inr (.inr (.inr ⟨hlow, hhigh⟩)))
    · exact .inr (.inl ⟨hlow, hhigh⟩)
  · exact .inr (.inr (.inr (.inl rfl)))
  · exact .inl rfl

theorem not_space_of_name {c : Char} (h : IsNameChar c) : isSpace c = false := by
  have hrange := toNat_of_isNameChar h
  unfold isSpace
  simp only [Bool.or_eq_false_iff, Bool.and_eq_false_iff, decide_eq_false_iff_not,
    beq_eq_false_iff_ne]
  omega

theorem not_white_of_name {c : Char} (h : IsNameChar c) : isWhitespace c = false := by
  have hrange := toNat_of_isNameChar h
  unfold isWhitespace
  simp only [Bool.or_eq_false_iff, Bool.and_eq_false_iff, decide_eq_false_iff_not,
    beq_eq_false_iff_ne]
  omega

theorem utf8Size_of_name {c : Char} (h : IsNameChar c) : c.utf8Size = 1 := by
  have hrange := toNat_of_isNameChar h
  refine Char.utf8Size_eq_one_iff.mpr (UInt32.le_iff_toNat_le.mpr ?_)
  show c.toNat ≤ 127
  omega

/-! ## Trimmed twice -/

/-- The backend trims all that the editor trims. -/
def TrimmedAlike (text : Text) : Prop := ∀ c ∈ offBy isSpace text, isWhitespace c = true

theorem strip_trim_iff {text : Text} : strip (trim text) = strip text ↔ TrimmedAlike text :=
  trimBy_trimBy_eq_iff

theorem trimmedAlike_of_control {text : Text}
    (h : ∀ c ∈ offBy isSpace text, isControlOrBlank c = true) : TrimmedAlike text :=
  fun c hc => isWhitespace_of_control (off_of_mem_offBy c hc) (h c hc)

theorem byteLen_trim_le (text : Text) : byteLen (trim text) ≤ byteLen text :=
  ((trimBy_sublist isSpace text).map _).sum_le_sum fun _ _ => Nat.zero_le _

/-! ## Addresses -/

theorem hasHttpHost_iff {url : Text} : hasHttpHost url = true ↔ HttpAddress (trim url) := by
  unfold hasHttpHost HttpAddress cutUrl
  cases splitAt "://".toList (trim url) with
  | none => simp [isHttpScheme]
  | some parts =>
    obtain ⟨scheme, rest⟩ := parts
    simp

theorem splitAt_eq_some {pattern s before after : Text}
    (h : splitAt pattern s = some (before, after)) : s = before ++ (pattern ++ after) := by
  induction s generalizing before with
  | nil => cases h
  | cons c s ih =>
    rw [splitAt] at h
    split at h
    next rest hrest =>
      cases h
      obtain ⟨front, heq, hfront⟩ := List.dropPrefix?_eq_some_iff.mp hrest
      rw [heq, eq_of_beq hfront]
      rfl
    next =>
      obtain ⟨⟨front, back⟩, hparts, heq⟩ := Option.map_eq_some_iff.mp h
      cases heq
      rw [List.cons_append, ← ih hparts]

/-- A text with a character that is not trimmed is not trimmed to nothing. -/
theorem trim_ne_nil_of_address {url : Text} (h : HttpAddress (strip url)) : trim url ≠ [] := by
  have hcolon : ':' ∈ strip url := by
    unfold HttpAddress cutUrl at h
    cases hsplit : splitAt "://".toList (strip url) with
    | none =>
      rw [hsplit] at h
      exact absurd h.2 (by decide)
    | some parts =>
      obtain ⟨scheme, rest⟩ := parts
      rw [splitAt_eq_some hsplit]
      simp
  have hmem : ':' ∈ trim url := mem_trimBy (mem_of_mem_trimBy hcolon) (by decide)
  exact List.ne_nil_of_mem hmem

theorem not_placeholder_of_address {url : Text} (h : HttpAddress url) :
    url ≠ [] ∧ url ≠ httpTaskPlaceholderUrl := by
  constructor
  · rintro rfl
    exact absurd h.2 (by decide)
  · rintro rfl
    exact absurd h.2 (by decide)

theorem gap_eq_nil {missing : Bool} {message : Text} :
    gap missing message = [] ↔ missing = false := by
  cases missing <;> simp [gap]

theorem addressGaps_eq_nil {url blank message : Text} :
    (if ((trim url).isEmpty || trim url == httpTaskPlaceholderUrl) = true then [blank]
      else gap (!hasHttpHost url) message) = [] ↔ HttpAddress (trim url) := by
  constructor
  · intro h
    split at h
    · cases h
    · rw [gap_eq_nil, Bool.not_eq_false'] at h
      exact hasHttpHost_iff.mp h
  · intro h
    obtain ⟨hne, hplaceholder⟩ := not_placeholder_of_address h
    rw [if_neg (by simp [hne, hplaceholder]), gap_eq_nil, hasHttpHost_iff.mpr h]
    rfl

/-! ## Where a trimmed text starts -/

/-- The editor leaves nothing in front that only the backend trims. -/
def StartsAlike (text : Text) : Prop := (trim text).head? ≠ some '\u0085'

/-- The backend trims one character that the editor does not. -/
theorem eq_nextLine {c : Char} (hwhite : isWhitespace c = true) (hspace : isSpace c = false) :
    c = '\u0085' := by
  unfold isWhitespace at hwhite
  unfold isSpace at hspace
  simp only [Bool.or_eq_true, Bool.and_eq_true, decide_eq_true_eq, beq_iff_eq,
    Bool.or_eq_false_iff, Bool.and_eq_false_iff, decide_eq_false_iff_not,
    beq_eq_false_iff_ne] at hwhite hspace
  have hcode : c.toNat = 0x85 := by omega
  exact Char.ext (UInt32.toNat_inj.mp hcode)

theorem trim_eq_strip_append {text : Text} (halike : TrimmedAlike text)
    (hstart : StartsAlike text) :
    ∃ back, trim text = strip text ++ back := by
  obtain ⟨front, back, heq, hoff⟩ := exists_trimBy isWhitespace (trim text)
  rw [show trimBy isWhitespace (trim text) = strip text from strip_trim_iff.mpr halike] at heq
  cases front with
  | nil => exact ⟨back, heq⟩
  | cons c front =>
    have hhead : (trim text).head? = some c := by
      rw [heq]
      rfl
    have hwhite : isWhitespace c = true :=
      off_of_mem_offBy (l := trim text) c (by rw [hoff]; exact List.mem_cons_self)
    rw [eq_nextLine hwhite (head_trimBy hhead)] at hhead
    exact (hstart hhead).elim

theorem startsAlike_of_start {text front back : Text} (h : trim text = front ++ back)
    (hne : front ≠ []) (hplain : '\u0085' ∉ front) : StartsAlike text := by
  cases front with
  | nil => exact (hne rfl).elim
  | cons c front =>
    unfold StartsAlike
    rw [h]
    intro heq
    rw [show c = '\u0085' from Option.some.inj heq] at hplain
    exact hplain List.mem_cons_self

theorem isHttpScheme_plain {scheme : Text} (h : isHttpScheme scheme = true) :
    scheme ≠ [] ∧ '\u0085' ∉ scheme := by
  have hlower : ∀ c ∈ scheme, c.toLower ∈ "https".toList := by
    intro c hc
    have hmem := List.mem_map_of_mem (f := Char.toLower) hc
    simp only [isHttpScheme, Bool.or_eq_true, beq_iff_eq] at h
    rcases h with heq | heq
    · rw [heq] at hmem
      exact (by decide : "http".toList ⊆ "https".toList) hmem
    · rwa [heq] at hmem
  refine ⟨fun hnil => ?_, fun hmem => ?_⟩
  · rw [hnil] at h
    exact absurd h (by decide)
  · exact absurd (hlower '\u0085' hmem) (by decide)

theorem splitAt_append {pattern s before after : Text}
    (h : splitAt pattern s = some (before, after)) (back : Text) :
    splitAt pattern (s ++ back) = some (before, after ++ back) := by
  induction s generalizing before with
  | nil => cases h
  | cons c s ih =>
    rw [splitAt] at h
    rw [List.cons_append, splitAt]
    split at h
    next rest hrest =>
      cases h
      obtain ⟨front, heq, hfront⟩ := List.dropPrefix?_eq_some_iff.mp hrest
      have hkept : (c :: (s ++ back)).dropPrefix? pattern = some (after ++ back) :=
        List.dropPrefix?_eq_some_iff.mpr
          ⟨front, by rw [← List.cons_append, heq, List.append_assoc], hfront⟩
      rw [hkept]
    next hnone =>
      obtain ⟨⟨first, last⟩, hparts, heq⟩ := Option.map_eq_some_iff.mp h
      cases heq
      have hlate : (c :: (s ++ back)).dropPrefix? pattern = none := by
        by_contra hsome
        obtain ⟨rest, hrest⟩ := Option.ne_none_iff_exists'.mp hsome
        obtain ⟨front, heq, hfront⟩ := List.dropPrefix?_eq_some_iff.mp hrest
        obtain rfl := eq_of_beq hfront
        -- The pattern comes in `s`, so it is not longer than `s`.
        have hlen := congrArg List.length (splitAt_eq_some hparts)
        simp only [List.length_append] at hlen
        obtain ⟨tail, htail⟩ : front <+: c :: s :=
          List.prefix_of_prefix_length_le ⟨rest, heq.symm⟩ (List.prefix_append (c :: s) back)
            (by rw [List.length_cons]; omega)
        have hfound : (c :: s).dropPrefix? front = some tail :=
          List.dropPrefix?_eq_some_iff.mpr ⟨front, htail.symm, beq_self_eq_true front⟩
        rw [hnone] at hfound
        cases hfound
      rw [hlate, ih hparts]
      rfl

theorem httpAddress_append {url : Text} (h : HttpAddress url) (back : Text) :
    HttpAddress (url ++ back) := by
  unfold HttpAddress cutUrl at h ⊢
  cases hsplit : splitAt "://".toList url with
  | none =>
    rw [hsplit] at h
    exact absurd h.2 (by decide)
  | some parts =>
    obtain ⟨scheme, rest⟩ := parts
    rw [hsplit] at h
    rw [splitAt_append hsplit back]
    refine ⟨h.1, fun hnil => h.2 ?_⟩
    simp only [Option.getD_some] at hnil ⊢
    cases rest with
    | nil => rfl
    | cons c rest =>
      rw [List.cons_append, List.takeWhile_cons] at hnil
      rw [List.takeWhile_cons]
      split at hnil
      · cases hnil
      next hstop => rw [if_neg hstop]

theorem startsAlike_of_address {url : Text} (h : HttpAddress (trim url)) : StartsAlike url := by
  unfold HttpAddress cutUrl at h
  cases hsplit : splitAt "://".toList (trim url) with
  | none =>
    rw [hsplit] at h
    exact absurd h.2 (by decide)
  | some parts =>
    obtain ⟨scheme, rest⟩ := parts
    rw [hsplit] at h
    obtain ⟨hne, hplain⟩ := isHttpScheme_plain h.1
    exact startsAlike_of_start (splitAt_eq_some hsplit) hne hplain

/-- The editor takes an address the backend takes, when it trims the address alike. -/
theorem httpAddress_trim_iff {url : Text} (h : HttpAddress (strip url))
    (halike : TrimmedAlike url) :
    HttpAddress (trim url) ↔ StartsAlike url := by
  refine ⟨startsAlike_of_address, fun hstart => ?_⟩
  obtain ⟨back, heq⟩ := trim_eq_strip_append halike hstart
  rw [heq]
  exact httpAddress_append h back

theorem authUrl_trim_iff {url : Text} (h : AuthUrlAccepted url) (halike : TrimmedAlike url) :
    (trim url = [] ∨ HttpAddress (trim url)) ↔ StartsAlike url := by
  constructor
  · rintro (hblank | haddress)
    · unfold StartsAlike
      rw [hblank]
      simp
    · exact startsAlike_of_address haddress
  · intro hstart
    rcases h with hblank | haddress
    · refine .inl ?_
      have hwhite : strip (trim url) = [] := (strip_trim_iff.mpr halike).trans hblank
      cases htrim : trim url with
      | nil => rfl
      | cons c rest =>
        have hhead : (trim url).head? = some c := by rw [htrim]; rfl
        have hc := trimBy_eq_nil_iff.mp hwhite c (by rw [htrim]; exact List.mem_cons_self)
        rw [eq_nextLine hc (head_trimBy hhead)] at hhead
        exact (hstart hhead).elim
    · exact .inr ((httpAddress_trim_iff haddress halike).mpr hstart)

/-! ## Sources -/

/-- A source of a known kind, with something behind the colon. -/
def SourceShape (source : Text) (c : Char) : Prop :=
  ∃ kind ∈ sourceKinds, ∃ arg, source = kind ++ ':' :: c :: arg

theorem colon_not_mem_kind {kind : Text} (h : kind ∈ sourceKinds) : ':' ∉ kind := by
  revert kind
  decide

theorem nextLine_not_mem_kind {kind : Text} (h : kind ∈ sourceKinds) :
    kind ≠ [] ∧ '\u0085' ∉ kind := by
  revert kind
  decide

theorem matchesSource_trim_iff {source : Text} {c : Char} (h : SourceShape (strip source) c)
    (halike : TrimmedAlike source) :
    matchesSource (trim source) = true ↔ StartsAlike source ∧ isLineTerminator c = false := by
  obtain ⟨kind, hkind, arg, hshape⟩ := h
  have hcut : StartsAlike source → matchesSource (trim source) = !isLineTerminator c := by
    intro hstart
    obtain ⟨back, heq⟩ := trim_eq_strip_append halike hstart
    have hsplit : splitOnce ':' (trim source) = some (kind, c :: (arg ++ back)) := by
      rw [heq, hshape, List.append_assoc]
      exact splitOnce_append (colon_not_mem_kind hkind) _
    unfold matchesSource
    rw [hsplit]
    simp [hkind]
  constructor
  · intro hmatches
    have hstart : StartsAlike source := by
      unfold matchesSource at hmatches
      split at hmatches
      next kind' d rest hsplit =>
        rw [Bool.and_eq_true, List.contains_eq_mem, decide_eq_true_eq] at hmatches
        obtain ⟨hne, hplain⟩ := nextLine_not_mem_kind hmatches.1
        exact startsAlike_of_start (splitOnce_eq_some hsplit) hne hplain
      next => cases hmatches
    rw [hcut hstart] at hmatches
    exact ⟨hstart, by simpa using hmatches⟩
  · rintro ⟨hstart, hbreak⟩
    rw [hcut hstart, hbreak]
    rfl

theorem sourceShape_unique {source : Text} {c d : Char} (h : SourceShape source c)
    (h' : SourceShape source d) : c = d := by
  obtain ⟨kind, hkind, arg, rfl⟩ := h
  obtain ⟨kind', hkind', arg', heq⟩ := h'
  have hsplit := congrArg (splitOnce ':') heq
  rw [splitOnce_append (colon_not_mem_kind hkind), splitOnce_append (colon_not_mem_kind hkind')]
    at hsplit
  simp only [Option.some.injEq, Prod.mk.injEq, List.cons.injEq] at hsplit
  exact hsplit.2.1

/-- A rule that is accepted has a source of a known kind. -/
theorem shape_of_validate {o : Outside} {rule : HttpExtractRule} (h : rule.validate o = .ok ()) :
    ∃ c, SourceShape (strip rule.source) c := by
  simp only [HttpExtractRule.validate, refused_eq_ok] at h
  obtain ⟨-, h⟩ := h
  split at h
  next => cases h
  next kind arg hsplit =>
    rw [refused_eq_ok] at h
    obtain ⟨harg, h⟩ := h
    have hkind : kind ∈ sourceKinds := by
      split at h
      next hregex =>
        rw [eq_of_beq hregex]
        decide
      next =>
        rw [refused_eq_ok] at h
        have hknown := h.1
        simp only [List.any_cons, List.any_nil, Bool.or_false, Bool.not_eq_true', Bool.not_eq_false,
          Bool.or_eq_true, beq_iff_eq] at hknown
        simp only [sourceKinds, List.map_cons, List.map_nil, List.mem_cons]
        tauto
    cases arg with
    | nil => exact (harg rfl).elim
    | cons c arg => exact ⟨c, kind, hkind, arg, splitOnce_eq_some hsplit⟩

theorem shape_of_json {source rest : Text} (hjson : source = "json:".toList ++ rest)
    (hrest : strip rest ≠ []) : ∃ c, SourceShape source c := by
  cases rest with
  | nil => exact (hrest rfl).elim
  | cons c rest => exact ⟨c, "json".toList, by decide, rest, hjson⟩

/-- The editor looks for the kind of a single value in front. -/
theorem json_trim_iff {source rest : Text} (hjson : strip source = "json:".toList ++ rest)
    (halike : TrimmedAlike source) :
    "json:".toList.isPrefixOf (trim source) = true ↔ StartsAlike source := by
  rw [List.isPrefixOf_iff_prefix]
  constructor
  · rintro ⟨back, heq⟩
    exact startsAlike_of_start heq.symm (by decide) (by decide)
  · intro hstart
    obtain ⟨back, heq⟩ := trim_eq_strip_append halike hstart
    rw [heq, hjson, List.append_assoc]
    exact List.prefix_append _ _

/-! ## Names -/

theorem nameChars_of_isName {extra : List Char} {limit : Nat} {name : Text}
    (hextra : ∀ c ∈ extra, c = '_' ∨ c = '-') (h : isName extra limit name = true) :
    name ≠ [] ∧ ∀ c ∈ name, IsNameChar c := by
  unfold isName at h
  simp only [Bool.and_eq_true, List.all_eq_true, Bool.or_eq_true, List.contains_eq_mem,
    decide_eq_true_eq, Bool.not_eq_true', List.isEmpty_eq_false_iff] at h
  exact ⟨h.1.1, fun c hc => (h.2 c hc).imp_right (hextra c)⟩

theorem byteLen_of_nameChars {name : Text} (h : ∀ c ∈ name, IsNameChar c) :
    byteLen name = name.length := by
  unfold byteLen
  rw [List.map_congr_left fun c hc => utf8Size_of_name (h c hc)]
  simp

/-- The editor counts characters, the backend bytes; a name has no other than ASCII. -/
theorem matchesName_eq {extra : List Char} (hextra : ∀ c ∈ extra, c = '_' ∨ c = '-') (name : Text) :
    matchesName extra name = isName extra 64 name := by
  unfold matchesName isName
  cases hall : name.all fun c => c.isAlphanum || extra.contains c with
  | false => simp
  | true =>
    have hchars : ∀ c ∈ name, IsNameChar c := by
      intro c hc
      have hc := List.all_eq_true.mp hall c hc
      rw [Bool.or_eq_true] at hc
      exact hc.imp_right fun hmem => hextra c (by simpa using hmem)
    rw [byteLen_of_nameChars hchars]

theorem trim_of_nameChars {name : Text} (h : ∀ c ∈ name, IsNameChar c) : trim name = name :=
  trimBy_of_solid fun c hc => not_space_of_name (h c hc)

theorem strip_of_nameChars {name : Text} (h : ∀ c ∈ name, IsNameChar c) : strip name = name :=
  trimBy_of_solid fun c hc => not_white_of_name (h c hc)

theorem underscore_only : ∀ c ∈ ['_'], c = '_' ∨ c = '-' := by
  intro c hc
  exact .inl (List.mem_singleton.mp hc)

/-! ## The last part of a path -/

theorem lastPart_of_not_mem {text : Text} (h : '.' ∉ text) : lastPart text = text := by
  unfold lastPart
  rw [List.splitOn_eq_singleton h]
  rfl

theorem lastPart_append (front last : Text) :
    lastPart (front ++ '.' :: last) = lastPart last := by
  unfold lastPart
  rw [List.splitOn_append_cons_self, List.getLast?_append]
  cases hlast : (last.splitOn '.').getLast? with
  | none => exact absurd (List.getLast?_eq_none_iff.mp hlast) (List.splitOn_ne_nil _ _)
  | some part => rfl

theorem exists_lastPart {text : Text} (h : '.' ∈ text) :
    ∃ front, text = front ++ '.' :: lastPart text ∧ '.' ∉ lastPart text := by
  obtain ⟨back, front, heq, hback⟩ := List.eq_append_cons_of_mem (List.mem_reverse.mpr h)
  have htext : text = front.reverse ++ '.' :: back.reverse := by
    have hreverse := congrArg List.reverse heq
    simpa using hreverse
  have hnot : '.' ∉ back.reverse := by simpa using hback
  have hlast : lastPart text = back.reverse := by
    rw [htext, lastPart_append, lastPart_of_not_mem hnot]
  exact ⟨front.reverse, by rw [hlast]; exact htext, by rw [hlast]; exact hnot⟩

theorem lastPart_behind {front text : Text} (h : '.' ∈ text) :
    lastPart (front ++ text) = lastPart text := by
  obtain ⟨mid, heq, hnot⟩ := exists_lastPart h
  rw [heq, ← List.append_assoc, lastPart_append, lastPart_append]

/-- Trimming a text trims the end of its last part. -/
theorem lastPart_trimBy {out : Char → Bool} {text : Text} (hpoint : out '.' = false)
    (h : '.' ∈ text) : lastPart (trimBy out text) = (lastPart text).rdropWhile out := by
  obtain ⟨front, heq, hnot⟩ := exists_lastPart h
  obtain ⟨rest, htrim⟩ := trimBy_append_kept front (lastPart text) hpoint
  rw [← heq] at htrim
  rw [htrim, lastPart_append]
  refine lastPart_of_not_mem fun hmem => hnot ?_
  exact (List.rdropWhile_prefix out (lastPart text)).subset hmem

end CampusAuth.Frontend.HttpTask
