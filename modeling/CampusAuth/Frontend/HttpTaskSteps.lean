import CampusAuth.Frontend.HttpTaskTexts

/- Which steps of a task are sent as they were opened. A step is sent with its addresses, sources
   and names trimmed, and with a single value turned into a rule; `KeptStep` is that the step
   then has no gap, is accepted again and denotes what it did (`step_harmless_iff`). -/
namespace CampusAuth.Frontend.HttpTask
open Lib Login Tasks
open ScheduledDraft (isSpace)

/-! ## The name of a single value -/

theorem extractPath_eq_ok {pre : HttpPreRequest} {path : Text} :
    pre.extractPath = .ok path ↔
      ∃ rest, strip pre.extract = "json:".toList ++ rest ∧ strip rest ≠ [] ∧ path = strip rest := by
  unfold HttpPreRequest.extractPath
  constructor
  · intro h
    simp only at h
    split at h
    · cases h
    · split at h
      next rest hdrop =>
        split at h
        next => cases h
        next hsome =>
          cases h
          obtain ⟨front, heq, hfront⟩ := List.dropPrefix?_eq_some_iff.mp hdrop
          exact ⟨rest, by rw [heq, eq_of_beq hfront], by simpa using hsome, rfl⟩
      next => cases h
  · rintro ⟨rest, heq, hsome, rfl⟩
    have hdrop : (strip pre.extract).dropPrefix? "json:".toList = some rest := by
      rw [heq]
      exact List.dropPrefix?_eq_some_iff.mpr ⟨_, rfl, beq_self_eq_true _⟩
    simp only
    rw [if_neg (by simp [heq]), hdrop]
    simp only
    rw [if_neg (by simpa using hsome)]

theorem placeholderName_of_path {pre : HttpPreRequest} {path : Text} (hname : strip pre.name = [])
    (hpath : pre.extractPath = .ok path) : pre.placeholderName = lastPart path := by
  unfold HttpPreRequest.placeholderName lastPart
  simp only [hname, hpath, List.isEmpty_nil, if_true]
  cases hlast : (path.splitOn '.').getLast? with
  | none => exact absurd (List.getLast?_eq_none_iff.mp hlast) (List.splitOn_ne_nil _ _)
  | some part => rfl

section
variable {extract rest : Text}

/-- The name the backend derives: the last part of the extract, its end trimmed. -/
theorem lastPart_path (hjson : strip extract = "json:".toList ++ rest) (hpoint : '.' ∈ extract) :
    lastPart (strip rest) = (lastPart extract).rdropWhile isWhitespace := by
  have hrest : '.' ∈ rest := by
    have hmem : '.' ∈ strip extract := mem_trimBy hpoint (by decide)
    rw [hjson] at hmem
    exact (List.mem_append.mp hmem).resolve_left (by decide)
  calc lastPart (strip rest)
      = (lastPart rest).rdropWhile isWhitespace := lastPart_trimBy (by decide) hrest
    _ = (lastPart (strip extract)).rdropWhile isWhitespace := by
        rw [hjson, lastPart_behind hrest]
    _ = ((lastPart extract).rdropWhile isWhitespace).rdropWhile isWhitespace := by
        rw [show lastPart (strip extract) = _ from lastPart_trimBy (by decide) hpoint]
    _ = (lastPart extract).rdropWhile isWhitespace := List.rdropWhile_idempotent _ _

/-- Behind no point the editor takes the whole extract, which is no name. -/
theorem not_name_of_json {name : Text} (hcolon : ':' ∈ name) : isName ['_'] 64 name = false := by
  rw [Bool.eq_false_iff]
  intro hname
  have hrange := toNat_of_isNameChar ((nameChars_of_isName underscore_only hname).2 ':' hcolon)
  revert hrange
  decide

/-- The name the editor derives. -/
def derivedName (extract : Text) : Text := trim (orText (lastPart extract) "value".toList)

/-- A text that starts with a name is trimmed at its end only. -/
theorem trim_of_name_prefix {text name : Text} (hstart : name <+: text) (hne : name ≠ [])
    (hchars : ∀ c ∈ name, IsNameChar c) : trim text = text.rdropWhile isSpace := by
  obtain ⟨back, rfl⟩ := hstart
  cases name with
  | nil => exact (hne rfl).elim
  | cons c name =>
    unfold trim trimBy
    rw [List.cons_append, List.dropWhile_cons_of_neg]
    simp [not_space_of_name (hchars c List.mem_cons_self)]

theorem derivedName_of_ne_nil (h : lastPart extract ≠ []) :
    derivedName extract = trim (lastPart extract) := by
  unfold derivedName orText
  rw [if_neg (by simpa using h)]

theorem derived_name_iff (hjson : strip extract = "json:".toList ++ rest)
    (htrim : strip (trim extract) = strip extract) :
    (isName ['_'] 64 (derivedName extract) = true ∧ derivedName extract = lastPart (strip rest)) ↔
      isName ['_'] 64 (lastPart (trim extract)) = true := by
  have hstripped : ':' ∈ strip extract := by
    rw [hjson]
    simp
  have hcolon : ':' ∈ extract := mem_of_mem_trimBy hstripped
  by_cases hpoint : '.' ∈ extract
  · rw [lastPart_path hjson hpoint, show lastPart (trim extract) = _ from
      lastPart_trimBy (by decide) hpoint]
    constructor
    · rintro ⟨hname, heq⟩
      obtain ⟨hne, hchars⟩ := nameChars_of_isName underscore_only hname
      rw [heq] at hne hchars
      have hlast : lastPart extract ≠ [] := by
        intro hnil
        rw [hnil] at hne
        exact hne rfl
      have htrimmed := trim_of_name_prefix (List.rdropWhile_prefix _ _) hne hchars
      rwa [derivedName_of_ne_nil hlast, htrimmed] at hname
    · intro hname
      obtain ⟨hne, hchars⟩ := nameChars_of_isName underscore_only hname
      have hlast : lastPart extract ≠ [] := by
        intro hnil
        rw [hnil] at hne
        exact hne rfl
      have htrimmed := trim_of_name_prefix (List.rdropWhile_prefix _ _) hne hchars
      rw [derivedName_of_ne_nil hlast, htrimmed]
      refine ⟨hname, ?_⟩
      -- Both ways to trim the extract leave the same last part.
      have hkept : '.' ∈ trim extract := mem_trimBy hpoint (by decide)
      have hsolid : ((lastPart extract).rdropWhile isSpace).rdropWhile isWhitespace =
          (lastPart extract).rdropWhile isSpace :=
        List.rdropWhile_eq_self_iff.mpr fun hnil => by
          simp [not_white_of_name (hchars _ (List.getLast_mem hnil))]
      calc (lastPart extract).rdropWhile isSpace
          = ((lastPart extract).rdropWhile isSpace).rdropWhile isWhitespace := hsolid.symm
        _ = (lastPart (trim extract)).rdropWhile isWhitespace := by
            rw [show lastPart (trim extract) = _ from lastPart_trimBy (by decide) hpoint]
        _ = lastPart (strip (trim extract)) := (lastPart_trimBy (by decide) hkept).symm
        _ = lastPart (strip extract) := by rw [htrim]
        _ = (lastPart extract).rdropWhile isWhitespace := lastPart_trimBy (by decide) hpoint
  · have hnot : '.' ∉ trim extract := fun hmem => hpoint (mem_of_mem_trimBy hmem)
    have hkept : ':' ∈ trim extract := mem_trimBy hcolon (by decide)
    have hderived : derivedName extract = trim extract := by
      unfold derivedName orText
      rw [lastPart_of_not_mem hpoint, if_neg (by simp [List.ne_nil_of_mem hcolon])]
    rw [hderived, lastPart_of_not_mem hnot, not_name_of_json hkept]
    simp

end

/-- The name that is kept for a single value. -/
def givenName (step : Tasks.HttpFlowStep) : Text :=
  if step.extractAs.isEmpty then lastPart (trim step.extract) else step.extractAs

/-- What a single value is read by in the backend. -/
def singleRequest (step : Tasks.HttpFlowStep) : HttpPreRequest :=
  { extract := step.extract, name := step.extractAs }

theorem nameChars_of_all {name : Text} (h : name.all (fun c => c.isAlphanum || c == '_') = true) :
    ∀ c ∈ name, IsNameChar c := by
  intro c hc
  have hc := List.all_eq_true.mp h c hc
  simp only [Bool.or_eq_true, beq_iff_eq] at hc
  exact hc.imp_right .inl

theorem single_name_iff {step : Tasks.HttpFlowStep} {rest : Text}
    (hjson : strip step.extract = "json:".toList ++ rest) (hpath : strip rest ≠ [])
    (htrim : strip (trim step.extract) = strip step.extract)
    (hname : strip step.extractAs = [] ∨
      step.extractAs.all (fun c => c.isAlphanum || c == '_') = true) :
    (isName ['_'] 64 (trim (singleName step)) = true ∧
        trim (singleName step) = (singleRequest step).placeholderName) ↔
      isName ['_'] 64 (givenName step) = true := by
  unfold givenName singleName
  by_cases hnone : step.extractAs = []
  · have hplaceholder : (singleRequest step).placeholderName = lastPart (strip rest) := by
      refine placeholderName_of_path ?_ (extractPath_eq_ok.mpr ⟨rest, hjson, hpath, rfl⟩)
      show strip step.extractAs = []
      rw [hnone]
      rfl
    rw [hplaceholder, hnone]
    exact derived_name_iff hjson htrim
  · have hgiven : orText (orText step.extractAs (lastPart step.extract)) "value".toList =
        step.extractAs := by
      simp [orText, hnone]
    rw [hgiven, if_neg (by simpa using hnone)]
    rcases hname with hblank | hall
    · -- A blank name is trimmed to something that is no name.
      have hwhite : ∀ c ∈ step.extractAs, isWhitespace c = true := trimBy_eq_nil_iff.mp hblank
      have hnot : ∀ name : Text, (∀ c ∈ name, c ∈ step.extractAs) →
          ¬isName ['_'] 64 name = true := by
        intro name hsub hname
        obtain ⟨hne, hchars⟩ := nameChars_of_isName underscore_only hname
        obtain ⟨c, hc⟩ := List.exists_mem_of_ne_nil name hne
        have hfalse := not_white_of_name (hchars c hc)
        rw [hwhite c (hsub c hc)] at hfalse
        cases hfalse
      constructor
      · rintro ⟨hname, -⟩
        exact (hnot _ (fun c hc => mem_of_mem_trimBy hc) hname).elim
      · intro hname
        exact (hnot _ (fun c hc => hc) hname).elim
    · have hchars := nameChars_of_all hall
      have hplaceholder : (singleRequest step).placeholderName = step.extractAs := by
        unfold HttpPreRequest.placeholderName singleRequest
        simp only [strip_of_nameChars hchars]
        rw [if_neg (by simpa using hnone)]
      rw [trim_of_nameChars hchars, hplaceholder]
      exact and_iff_left rfl

/-! ## Values -/

/-- The source is trimmed alike, and no line ends right behind its colon. -/
def KeptSource (source : Text) : Prop :=
  TrimmedAlike source ∧ StartsAlike source ∧
    ∀ c, SourceShape (strip source) c → isLineTerminator c = false

theorem keptSource_iff {source : Text} (hshape : ∃ c, SourceShape (strip source) c) :
    KeptSource source ↔ TrimmedAlike source ∧ matchesSource (trim source) = true := by
  obtain ⟨c, hshape⟩ := hshape
  refine and_congr_right fun halike => ?_
  rw [matchesSource_trim_iff hshape halike]
  refine and_congr_right fun _ => ⟨fun h => h c hshape, fun h d hd => ?_⟩
  rwa [← sourceShape_unique hshape hd]

def KeptValues (step : Tasks.HttpFlowStep) : Prop :=
  if step.extracts ≠ [] then ∀ rule ∈ step.extracts, KeptSource rule.source
  else if strip step.extract ≠ [] then
    KeptSource step.extract ∧ byteLen (strip step.extract) ≤ 1024 ∧
      isName ['_'] 64 (givenName step) = true
  else trim step.extract = []

theorem ruleGaps_eq_nil {label : Text} {index : Nat} {names : List Text}
    {rules : List HttpExtractRule} :
    ruleGaps label index names rules = [] ↔
      (∀ rule ∈ rules, matchesSource (trim rule.source) = true ∧
        isName ['_'] 64 (trim rule.name) = true) ∧
        Fresh names (rules.map fun rule => trim rule.name) := by
  induction rules generalizing index names with
  | nil => simp [ruleGaps, fresh_nil]
  | cons rule rules ih =>
    unfold ruleGaps
    simp only [List.append_eq_nil_iff, gap_eq_nil, ih, List.map_cons, fresh_cons,
      List.forall_mem_cons, matchesName_eq underscore_only, Bool.or_eq_false_iff,
      Bool.not_eq_false', List.contains_eq_mem, decide_eq_false_iff_not]
    tauto

/-- A step as it is sent. -/
def sent (step : Tasks.HttpFlowStep) : Tasks.HttpFlowStep := payloadStep (draftStep step)

/-- The values of a step are sent without a gap, are accepted and are those of the step. -/
structure HarmlessValues (o : Outside) (step : Tasks.HttpFlowStep) : Prop where
  gaps : ∀ rule ∈ (draftStep step).extracts, matchesSource (trim rule.source) = true ∧
    isName ['_'] 64 (trim rule.name) = true
  fresh : Fresh [] ((sent step).extracts.map (·.name))
  count : (sent step).extracts.length ≤ 12
  valid : ∀ rule ∈ (sent step).extracts, rule.validate o = .ok ()
  same : (sent step).readings = step.readings

variable {o : Outside} {step : Tasks.HttpFlowStep}

/-- A rule as it is sent. -/
def sentRule (rule : HttpExtractRule) : HttpExtractRule := ⟨trim rule.source, trim rule.name⟩

theorem sent_extracts (step : Tasks.HttpFlowStep) :
    (sent step).extracts = (draftStep step).extracts.map sentRule := rfl

theorem sent_readings (step : Tasks.HttpFlowStep) :
    (sent step).readings =
      (draftStep step).extracts.map fun rule => (strip (trim rule.source), trim rule.name) := by
  unfold HttpFlowStep.readings
  rw [sent_extracts]
  cases (draftStep step).extracts with
  | nil => rfl
  | cons rule rules => simp [sentRule]

theorem rules_harmless_iff (h : RequestAccepted o step) (hrules : step.extracts ≠ []) :
    HarmlessValues o step ↔ ∀ rule ∈ step.extracts, KeptSource rule.source := by
  have hshape : ∀ rule ∈ step.extracts, (KeptSource rule.source ↔
      TrimmedAlike rule.source ∧ matchesSource (trim rule.source) = true) :=
    fun rule hrule => keptSource_iff (shape_of_validate (h.rules rule hrule))
  rw [forall₂_congr hshape]
  have hdraft : (draftStep step).extracts = step.extracts := if_neg (by simpa using hrules)
  have hname : ∀ rule ∈ step.extracts, trim rule.name = rule.name ∧
      isName ['_'] 64 rule.name = true := by
    intro rule hrule
    have hvalid := (size_and_name_of_validate (h.rules rule hrule)).2
    exact ⟨trim_of_nameChars (nameChars_of_isName underscore_only hvalid).2, hvalid⟩
  have hreadings : step.readings = step.extracts.map fun rule => (strip rule.source, rule.name) :=
    if_neg (by simpa using hrules)
  have hsame : (sent step).readings = step.readings ↔
      ∀ rule ∈ step.extracts, TrimmedAlike rule.source := by
    rw [sent_readings, hdraft, hreadings, List.map_inj_left]
    refine forall₂_congr fun rule hrule => ?_
    rw [(hname rule hrule).1, Prod.mk.injEq, ← strip_trim_iff]
    exact and_iff_left rfl
  constructor
  · intro hharmless
    have halike := hsame.mp hharmless.same
    have hgaps := hharmless.gaps
    rw [hdraft] at hgaps
    exact fun rule hrule => ⟨halike rule hrule, (hgaps rule hrule).1⟩
  · intro hkept
    refine ⟨?_, ?_, ?_, ?_, hsame.mpr fun rule hrule => (hkept rule hrule).1⟩
    · rw [hdraft]
      intro rule hrule
      rw [(hname rule hrule).1]
      exact ⟨(hkept rule hrule).2, (hname rule hrule).2⟩
    · have hnames : (sent step).extracts.map (·.name) = step.extracts.map (·.name) := by
        rw [sent_extracts, hdraft, List.map_map, List.map_inj_left]
        exact fun rule hrule => (hname rule hrule).1
      rw [hnames]
      exact h.names
    · rw [sent_extracts, hdraft, List.length_map]
      exact h.count
    · rw [sent_extracts, hdraft]
      intro rule hrule
      obtain ⟨old, hold, rfl⟩ := List.mem_map.mp hrule
      have hcongr : (sentRule old).validate o = old.validate o :=
        validate_rule_congr (strip_trim_iff.mpr (hkept old hold).1) (hname old hold).1
      rw [hcongr]
      exact h.rules old hold

theorem single_harmless_iff (h : RequestAccepted o step) (hrules : step.extracts = [])
    (hsingle : strip step.extract ≠ []) :
    HarmlessValues o step ↔ KeptSource step.extract ∧ byteLen (strip step.extract) ≤ 1024 ∧
      isName ['_'] 64 (givenName step) = true := by
  obtain ⟨path, hpath⟩ := h.single hsingle
  obtain ⟨rest, hjson, hrest, -⟩ := extractPath_eq_ok.mp hpath
  rw [keptSource_iff (shape_of_json hjson hrest)]
  have hkept : trim step.extract ≠ [] := by
    have hcolon : ':' ∈ strip step.extract := by
      rw [show strip step.extract = _ from hjson]
      simp
    exact List.ne_nil_of_mem (mem_trimBy (mem_of_mem_trimBy hcolon) (by decide))
  have hdraft : (draftStep step).extracts = [⟨step.extract, singleName step⟩] := by
    show (if step.extracts.isEmpty then singleRule step else step.extracts) = _
    rw [hrules, if_pos List.isEmpty_nil]
    exact if_neg (by simpa using hkept)
  have hreadings : step.readings =
      [(strip step.extract, (singleRequest step).placeholderName)] := by
    unfold HttpFlowStep.readings
    rw [hrules, if_pos List.isEmpty_nil, if_neg (by simpa using hsingle)]
    rfl
  have hsame : (sent step).readings = step.readings ↔ TrimmedAlike step.extract ∧
      trim (singleName step) = (singleRequest step).placeholderName := by
    rw [sent_readings, hdraft, hreadings, ← strip_trim_iff]
    simp
  constructor
  · intro hharmless
    obtain ⟨halike, hname⟩ := hsame.mp hharmless.same
    have hgaps := hharmless.gaps
    have hvalid := hharmless.valid
    rw [sent_extracts] at hvalid
    rw [hdraft] at hgaps hvalid
    obtain ⟨hsource, hsent⟩ := hgaps _ (List.mem_singleton_self _)
    have hsize := (size_and_name_of_validate (hvalid _ (List.mem_singleton_self _))).1
    have htrim := strip_trim_iff.mpr halike
    refine ⟨⟨halike, hsource⟩, ?_, (single_name_iff hjson hrest htrim h.name).mp ⟨hsent, hname⟩⟩
    rwa [show strip (sentRule ⟨step.extract, singleName step⟩).source = _ from htrim] at hsize
  · rintro ⟨⟨halike, hsource⟩, hsize, hgiven⟩
    have htrim := strip_trim_iff.mpr halike
    obtain ⟨hsent, hname⟩ := (single_name_iff hjson hrest htrim h.name).mpr hgiven
    refine ⟨?_, ?_, ?_, ?_, hsame.mpr ⟨halike, hname⟩⟩
    · rw [hdraft]
      intro rule hrule
      rw [List.mem_singleton.mp hrule]
      exact ⟨hsource, hsent⟩
    · rw [sent_extracts, hdraft]
      exact ⟨List.nodup_singleton _, by simp⟩
    · rw [sent_extracts, hdraft]
      simp
    · rw [sent_extracts, hdraft]
      intro rule hrule
      rw [List.mem_singleton.mp hrule]
      refine validate_json_rule rest ?_ hrest ?_ hsent
      · exact htrim.trans hjson
      · rwa [show strip (sentRule ⟨step.extract, singleName step⟩).source = _ from htrim]

theorem blank_harmless_iff (hrules : step.extracts = []) (hblank : strip step.extract = []) :
    HarmlessValues o step ↔ trim step.extract = [] := by
  have hreadings : step.readings = [] := by
    unfold HttpFlowStep.readings
    rw [hrules, hblank]
    rfl
  have hdraft : (draftStep step).extracts = singleRule step := by
    show (if step.extracts.isEmpty then singleRule step else step.extracts) = _
    rw [hrules]
    rfl
  constructor
  · intro hharmless
    have hsame := hharmless.same
    rw [sent_readings, hdraft, hreadings, List.map_eq_nil_iff] at hsame
    unfold singleRule at hsame
    by_contra hkept
    rw [if_neg (by simpa using hkept)] at hsame
    cases hsame
  · intro htrim
    have hnone : (draftStep step).extracts = [] := by
      rw [hdraft]
      exact if_pos (by rw [htrim]; rfl)
    refine ⟨?_, ?_, ?_, ?_, ?_⟩
    · simp [hnone]
    · rw [sent_extracts, hnone]
      exact fresh_nil []
    · rw [sent_extracts, hnone]
      simp
    · rw [sent_extracts, hnone]
      simp
    · rw [sent_readings, hnone, hreadings]
      rfl

theorem values_harmless_iff (h : RequestAccepted o step) :
    HarmlessValues o step ↔ KeptValues step := by
  unfold KeptValues
  by_cases hrules : step.extracts = []
  · rw [if_neg (by simpa using hrules)]
    by_cases hblank : strip step.extract = []
    · rw [if_neg (by simpa using hblank)]
      exact blank_harmless_iff hrules hblank
    · rw [if_pos hblank]
      exact single_harmless_iff h hrules hblank
  · rw [if_pos hrules]
    exact rules_harmless_iff h hrules

/-! ## Steps -/

/-- The address is trimmed of what its parser takes off anyway. -/
def SentAlike (url : Text) : Prop := ∀ c ∈ offBy isSpace url, isControlOrBlank c = true

def KeptUrl (url : Text) : Prop := SentAlike url ∧ StartsAlike url

theorem keptUrl_iff {url : Text} (h : HttpAddress (strip url)) :
    KeptUrl url ↔ SentAlike url ∧ HttpAddress (trim url) :=
  and_congr_right fun halike => (httpAddress_trim_iff h (trimmedAlike_of_control halike)).symm

def KeptStep (step : Tasks.HttpFlowStep) : Prop :=
  match step.kind with
  | .request => KeptUrl step.url ∧ KeptValues step
  | .transform => trim step.extract = [] ∧ trim step.script ≠ []

theorem SentAlike.strip_trim {url : Text} (h : SentAlike url) : strip (trim url) = strip url :=
  strip_trim_iff.mpr (trimmedAlike_of_control h)

/-- A request is the same with its address trimmed. -/
theorem sentRequest_trim_iff {method : HttpRequestMethod} {url headers body : Text} :
    sentRequest method (trim url) headers body = sentRequest method url headers body ↔
      SentAlike url := by
  unfold sentRequest SentAlike
  rw [Tasks.Request.mk.injEq, ← trimBy_trimBy_eq_iff]
  simp [trim]

structure RequestGapFree (step : Tasks.HttpFlowStep) : Prop where
  address : HttpAddress (trim step.url)
  count : step.extracts.length ≤ 12
  rules : ∀ rule ∈ step.extracts, matchesSource (trim rule.source) = true ∧
    isName ['_'] 64 (trim rule.name) = true
  names : Fresh [] (step.extracts.map fun rule => trim rule.name)
  wait : 0 ≤ step.waitSecs ∧ step.waitSecs ≤ 30

theorem requestGaps_eq_nil {label : Text} : requestGaps label step = [] ↔ RequestGapFree step := by
  unfold requestGaps
  simp only [List.append_eq_nil_iff, addressGaps_eq_nil, gap_eq_nil, ruleGaps_eq_nil,
    Bool.or_eq_false_iff, decide_eq_false_iff_not, Nat.not_lt, Rat.not_lt]
  constructor
  · rintro ⟨⟨⟨haddress, hcount⟩, hrules, hnames⟩, hwait⟩
    exact ⟨haddress, hcount, hrules, hnames, hwait⟩
  · intro h
    exact ⟨⟨⟨h.address, h.count⟩, h.rules, h.names⟩, h.wait⟩

/-- The gaps of a step, whatever it is called. -/
def GapFree (step : Tasks.HttpFlowStep) : Prop :=
  match step.kind with
  | .request => RequestGapFree step
  | .transform => trim step.script ≠ []

theorem stepGaps_eq_nil {label : Text} : stepGaps label step = [] ↔ GapFree step := by
  unfold stepGaps GapFree
  cases step.kind with
  | request => exact requestGaps_eq_nil
  | transform => simp [gap_eq_nil]

/-- A step is sent without a gap, is accepted again and denotes what it did. -/
structure HarmlessStep (o : Outside) (step : Tasks.HttpFlowStep) : Prop where
  gaps : GapFree (draftStep step)
  valid : (sent step).validate o = .ok ()
  same : (sent step).action = step.action

theorem action_request (step : Tasks.HttpFlowStep) (hkind : step.kind = .request) :
    step.action = .request step.id step.name
      (sentRequest step.method step.url step.headers step.body) step.readings
      step.stopOnRedirect step.onError step.waitSecs := by
  unfold HttpFlowStep.action
  rw [hkind]

theorem request_same_iff (hkind : step.kind = .request) :
    (sent step).action = step.action ↔
      SentAlike step.url ∧ (sent step).readings = step.readings := by
  rw [action_request step hkind, action_request (sent step) hkind, Action.request.injEq]
  show (_ ∧ _ ∧ sentRequest step.method (trim step.url) step.headers step.body = _ ∧ _) ↔ _
  rw [sentRequest_trim_iff]
  exact ⟨fun h => ⟨h.2.2.1, h.2.2.2.1⟩, fun h => ⟨rfl, rfl, h.1, h.2, rfl, rfl, rfl⟩⟩

theorem request_harmless_iff (h : StepAccepted o step) (hkind : step.kind = .request) :
    HarmlessStep o step ↔ KeptUrl step.url ∧ KeptValues step := by
  have haccepted := h.request hkind
  rw [keptUrl_iff haccepted.address]
  have hnames : (draftStep step).extracts.map (fun rule => trim rule.name) =
      (sent step).extracts.map (·.name) := by
    rw [sent_extracts, List.map_map]
    rfl
  constructor
  · intro hharmless
    have hgaps : RequestGapFree (draftStep step) := by
      have hfree := hharmless.gaps
      unfold GapFree at hfree
      rwa [show (draftStep step).kind = .request from hkind] at hfree
    obtain ⟨hurl, hreadings⟩ := (request_same_iff hkind).mp hharmless.same
    have hvalid := (validate_step_eq_ok.mp hharmless.valid).request hkind
    refine ⟨⟨hurl, hgaps.address⟩, (values_harmless_iff haccepted).mp ?_⟩
    exact ⟨hgaps.rules, hvalid.names, hvalid.count, hvalid.rules, hreadings⟩
  · rintro ⟨hurl, hvalues⟩
    have hvalues := (values_harmless_iff haccepted).mpr hvalues
    have hsizes := haccepted.sizes
    refine ⟨?_, ?_, (request_same_iff hkind).mpr ⟨hurl.1, hvalues.same⟩⟩
    · unfold GapFree
      rw [show (draftStep step).kind = .request from hkind]
      refine ⟨hurl.2, ?_, hvalues.gaps, ?_, haccepted.wait⟩
      · have hcount := hvalues.count
        rwa [sent_extracts, List.length_map] at hcount
      · rw [hnames]
        exact hvalues.fresh
    · refine validate_step_eq_ok.mpr ⟨h.id, h.name, fun _ => ?_, fun heq => ?_⟩
      · exact {
          script := haccepted.script
          address := by
            show HttpAddress (strip (trim step.url))
            rw [hurl.1.strip_trim]
            exact haccepted.address
          sizes := ⟨(byteLen_trim_le step.url).trans hsizes.1, hsizes.2.1, hsizes.2.2.1,
            Nat.zero_le _, Nat.zero_le _⟩
          count := hvalues.count
          rules := hvalues.valid
          names := hvalues.fresh
          exclusive := .inr rfl
          single := fun hne => (hne rfl).elim
          unnamed := fun _ => rfl
          name := .inl rfl
          wait := haccepted.wait }
      · rw [show (sent step).kind = .request from hkind] at heq
        cases heq

theorem transform_harmless_iff (h : StepAccepted o step) (hkind : step.kind = .transform) :
    HarmlessStep o step ↔ trim step.extract = [] ∧ trim step.script ≠ [] := by
  have haccepted := h.transform hkind
  have hgaps : GapFree (draftStep step) ↔ trim step.script ≠ [] := by
    unfold GapFree
    rw [show (draftStep step).kind = .transform from hkind]
    rfl
  have hsame : (sent step).action = step.action := by
    unfold HttpFlowStep.action
    rw [hkind, show (sent step).kind = .transform from hkind]
    rfl
  have hdraft : (draftStep step).extracts = singleRule step := by
    show (if step.extracts.isEmpty then singleRule step else step.extracts) = _
    rw [haccepted.extracts]
    rfl
  have hnone : (sent step).extracts = [] ↔ trim step.extract = [] := by
    rw [sent_extracts, hdraft, List.map_eq_nil_iff]
    unfold singleRule
    by_cases hblank : trim step.extract = []
    · simp [hblank]
    · simp [hblank]
  have hurl : strip (trim step.url) = [] :=
    trimBy_eq_nil_iff.mpr fun c hc => trimBy_eq_nil_iff.mp haccepted.url c (mem_of_mem_trimBy hc)
  constructor
  · intro hharmless
    have hvalid := (validate_step_eq_ok.mp hharmless.valid).transform hkind
    exact ⟨hnone.mp hvalid.extracts, hgaps.mp hharmless.gaps⟩
  · rintro ⟨hblank, hscript⟩
    refine ⟨hgaps.mpr hscript, ?_, hsame⟩
    refine validate_step_eq_ok.mpr ⟨h.id, h.name, fun heq => ?_, fun _ => ?_⟩
    · rw [show (sent step).kind = .transform from hkind] at heq
      cases heq
    · exact {
        url := hurl
        headers := haccepted.headers
        body := haccepted.body
        extract := rfl
        extractAs := rfl
        extracts := hnone.mpr hblank
        stopOnRedirect := haccepted.stopOnRedirect
        onError := haccepted.onError
        wait := haccepted.wait
        script := haccepted.script
        size := haccepted.size }

theorem step_harmless_iff (h : step.validate o = .ok ()) : HarmlessStep o step ↔ KeptStep step := by
  have haccepted := validate_step_eq_ok.mp h
  unfold KeptStep
  cases hkind : step.kind with
  | request => exact request_harmless_iff haccepted hkind
  | transform => exact transform_harmless_iff haccepted hkind

end CampusAuth.Frontend.HttpTask
