import CampusAuth.Frontend.HttpTaskOpened
import CampusAuth.Tasks.SavedRuns

/- Which tasks are not harmed by being opened and sent untouched: a flow when each of its steps is
   kept, a task without steps when its requests are, and both when the rest of them is
   (`opening_harmless_iff`). -/
namespace CampusAuth.Frontend.HttpTask
open Lib Login Tasks
open ScheduledDraft (isSpace)

variable {o : Outside}

/-! ## Flows -/

theorem stepsGaps_eq_nil {index : Nat} {ids : List Text} {steps : List Tasks.HttpFlowStep} :
    stepsGaps index ids steps = [] ↔
      (∀ step ∈ steps, isName ['_', '-'] 64 step.id = true ∧ GapFree step) ∧
        Fresh ids (steps.map (·.id)) := by
  have hextra : ∀ c ∈ ['_', '-'], c = '_' ∨ c = '-' := by simp
  induction steps generalizing index ids with
  | nil => simp [stepsGaps, fresh_nil]
  | cons step steps ih =>
    unfold stepsGaps
    simp only [List.append_eq_nil_iff, gap_eq_nil, stepGaps_eq_nil, ih, List.map_cons, fresh_cons,
      List.forall_mem_cons, matchesId, matchesName_eq hextra, Bool.or_eq_false_iff,
      Bool.not_eq_false', List.contains_eq_mem, decide_eq_false_iff_not]
    constructor
    · rintro ⟨⟨⟨hid, hnew⟩, hfree⟩, hrest, hfresh⟩
      exact ⟨⟨⟨hid, hfree⟩, hrest⟩, hnew, hfresh⟩
    · rintro ⟨⟨⟨hid, hfree⟩, hrest⟩, hnew, hfresh⟩
      exact ⟨⟨⟨hid, hnew⟩, hfree⟩, hrest, hfresh⟩

section
variable {task : Tasks.HttpTaskConfig}

theorem flow_gaps_iff {draft : HttpTaskDraft} (hsteps : task.steps ≠ [])
    (hchecked : FlowChecked o task) (hdraft : draft.steps = task.steps.map draftStep)
    (hresult : draft.resultStepId = task.selected) :
    flowGaps draft = [] ↔ ∀ step ∈ task.steps, GapFree (draftStep step) := by
  unfold flowGaps
  rw [hdraft, hresult, List.append_eq_nil_iff, List.append_eq_nil_iff, gap_eq_nil,
    stepsGaps_eq_nil, List.map_map]
  constructor
  · rintro ⟨⟨-, hgaps, -⟩, -⟩ step hstep
    exact (hgaps (draftStep step) (List.mem_map_of_mem hstep)).2
  · intro hfree
    refine ⟨⟨?_, ?_, hchecked.ids⟩, ?_⟩
    · have hcount := hchecked.count
      simp [hsteps, hcount]
    · intro step hstep
      obtain ⟨old, hold, rfl⟩ := List.mem_map.mp hstep
      exact ⟨(validate_step_eq_ok.mp (hchecked.steps old hold)).id, hfree old hold⟩
    · obtain ⟨⟨judged, hmem, hid, hkind⟩, hstops⟩ := hchecked.judges
      split
      next hnone =>
        have hmiss := List.find?_eq_none.mp hnone (draftStep judged) (List.mem_map_of_mem hmem)
        have hkind : (draftStep judged).kind = .request := hkind
        have hid : (draftStep judged).id = task.selected := hid
        simp [hkind, hid] at hmiss
      next found hfound =>
        have hpasses := List.find?_some hfound
        simp only [Bool.and_eq_true, beq_iff_eq] at hpasses
        obtain ⟨old, hold, rfl⟩ := List.mem_map.mp (List.mem_of_find?_eq_some hfound)
        have hstop : (draftStep old).onError ≠ .continue := hstops old hold hpasses.2
        rw [gap_eq_nil]
        simpa using hstop

/-- The step that is judged has an id. -/
theorem selected_ne_nil (hchecked : FlowChecked o task) : task.selected ≠ [] := by
  obtain ⟨step, hstep, hid, -⟩ := hchecked.judges.1
  have hname := (validate_step_eq_ok.mp (hchecked.steps step hstep)).id
  rw [hid] at hname
  exact (nameChars_of_isName (by simp) hname).1

theorem selected_sentFlow (hchecked : FlowChecked o task) :
    (sentFlow task).selected = task.selected := by
  have hgiven : ¬task.selected.isEmpty = true := by simpa using selected_ne_nil hchecked
  exact if_neg hgiven

theorem flowChecked_sent (hchecked : FlowChecked o task) :
    FlowChecked o (sentFlow task) ↔ ∀ step ∈ task.steps, (sent step).validate o = .ok () := by
  constructor
  · exact fun h step hstep => h.steps (sent step) (List.mem_map_of_mem hstep)
  · intro hvalid
    refine ⟨rfl, ?_, ?_, ?_, ?_⟩
    · show (task.steps.map sent).length ≤ 16
      rw [List.length_map]
      exact hchecked.count
    · intro step hstep
      obtain ⟨old, hold, rfl⟩ := List.mem_map.mp hstep
      exact hvalid old hold
    · show Fresh [] ((task.steps.map sent).map (·.id))
      rw [List.map_map]
      exact hchecked.ids
    · rw [selected_sentFlow hchecked]
      obtain ⟨⟨judged, hmem, hid, hkind⟩, hstops⟩ := hchecked.judges
      refine ⟨⟨sent judged, List.mem_map_of_mem hmem, hid, hkind⟩, fun step hstep => ?_⟩
      obtain ⟨old, hold, rfl⟩ := List.mem_map.mp hstep
      exact hstops old hold

theorem resultStep_id (hjudges : Judges task.steps task.selected) :
    task.resultStep.map (·.id) = some task.selected := by
  obtain ⟨⟨step, hstep, hid, hkind⟩, -⟩ := hjudges
  unfold Tasks.HttpTaskConfig.resultStep
  by_cases hempty : task.resultStepId.isEmpty = true
  · rw [if_pos hempty]
    have hselected : task.selected = (lastRequest task.steps).getD [] := if_pos hempty
    rw [hselected]
    show lastRequest task.steps = _
    cases hlast : lastRequest task.steps with
    | none => exact (kind_of_lastRequest_none hlast step hstep hkind).elim
    | some id => rfl
  · rw [if_neg hempty]
    have hselected : task.selected = task.resultStepId := if_neg hempty
    rw [hselected] at hid ⊢
    cases hfound : task.steps.find? fun step => step.id == task.resultStepId &&
        step.kind == .request with
    | none =>
      have hmiss := List.find?_eq_none.mp hfound step hstep
      simp [hid, hkind] at hmiss
    | some found =>
      have hpasses := List.find?_some hfound
      simp only [Bool.and_eq_true, beq_iff_eq] at hpasses
      exact congrArg some hpasses.1

theorem sequence_flow (hsteps : task.steps ≠ []) (hjudges : Judges task.steps task.selected) :
    task.sequence = .flow (task.steps.map HttpFlowStep.action) (some task.selected) := by
  unfold Tasks.HttpTaskConfig.sequence
  rw [if_neg (by simpa using hsteps), resultStep_id hjudges]

theorem meaning_sentFlow_iff (hsteps : task.steps ≠ []) (hchecked : FlowChecked o task)
    (hsent : FlowChecked o (sentFlow task)) :
    (sentFlow task).meaning = task.meaning ↔
      (∀ step ∈ task.steps, (sent step).action = step.action) ∧ TrimmedAlike task.authUrl := by
  have hsentSteps : (sentFlow task).steps ≠ [] := by
    show task.steps.map sent ≠ []
    simpa using hsteps
  have hsequence : (sentFlow task).sequence =
      .flow (task.steps.map fun step => (sent step).action) (some task.selected) := by
    rw [sequence_flow hsentSteps hsent.judges, selected_sentFlow hchecked]
    show Sequence.flow ((task.steps.map sent).map HttpFlowStep.action) _ = _
    rw [List.map_map]
    rfl
  unfold Tasks.HttpTaskConfig.meaning
  rw [hsequence, sequence_flow hsteps hchecked.judges, ← strip_trim_iff, Meaning.mk.injEq,
    Sequence.flow.injEq, List.map_inj_left]
  constructor
  · rintro ⟨-, ⟨hactions, -⟩, hauth, -⟩
    exact ⟨hactions, hauth⟩
  · rintro ⟨hactions, hauth⟩
    exact ⟨rfl, ⟨hactions, rfl⟩, hauth, rfl, rfl, rfl, rfl, rfl⟩

theorem flow_harmless_iff {stored : Stored} (print : NumberPrinter o)
    (hsteps : stored.task.steps ≠ []) (haccepted : FlowAccepted o stored.task)
    (hname : strip stored.task.common.name ≠ []) (hid : stored.task.common.taskId ≠ defaultTaskId)
    (hdoubles : ∀ step ∈ stored.task.steps, IsDouble o step.waitSecs) :
    Harmless print stored ↔ Kept stored := by
  have hchecked := (validateFlow_eq_ok_iff hsteps).mp haccepted.flow
  obtain ⟨henabled, hopened, hresult⟩ := opened_flow hsteps
  have hsentSteps : (sentFlow stored.task).steps ≠ [] := by
    show stored.task.steps.map sent ≠ []
    simpa using hsteps
  have hgaps : httpTaskDraftGaps stored.opened = [] ↔
      (trim stored.task.authUrl = [] ∨ HttpAddress (trim stored.task.authUrl)) ∧
        ∀ step ∈ stored.task.steps, GapFree (draftStep step) := by
    rw [draftGaps_eq_nil rfl, if_pos henabled, flow_gaps_iff hsteps hchecked hopened hresult]
    rfl
  rw [harmless_iff print (doubles_flow hsteps hdoubles), meant_flow hsteps, hgaps]
  constructor
  · rintro ⟨⟨hauth, hfree⟩, ⟨hsentName, -, hvalid⟩, hmeaning, hmetadata⟩
    have hsent : FlowChecked o (sentFlow stored.task) := by
      cases hvalid with
      | flow _ haccepted => exact (validateFlow_eq_ok_iff hsentSteps).mp haccepted.flow
      | legacy hnil => exact (hsentSteps hnil).elim
    obtain ⟨hactions, halike⟩ := (meaning_sentFlow_iff hsteps hchecked hsent).mp hmeaning
    have hvalid := (flowChecked_sent hchecked).mp hsent
    refine ⟨hmetadata, (sentName_iff hname).mp hsentName,
      ⟨halike, (authUrl_trim_iff haccepted.authUrl halike).mp hauth⟩, fun step hstep => ?_,
      fun hnil => (hsteps hnil).elim⟩
    exact (step_harmless_iff (hchecked.steps step hstep)).mp
      ⟨hfree step hstep, hvalid step hstep, hactions step hstep⟩
  · intro hkept
    have hharmless : ∀ step ∈ stored.task.steps, HarmlessStep o step := fun step hstep =>
      (step_harmless_iff (hchecked.steps step hstep)).mpr (hkept.steps step hstep)
    have hsent := (flowChecked_sent hchecked).mpr fun step hstep => (hharmless step hstep).valid
    have hauth := (authUrl_trim_iff haccepted.authUrl hkept.authUrl.1).mpr hkept.authUrl.2
    refine ⟨⟨hauth, fun step hstep => (hharmless step hstep).gaps⟩,
      ⟨(sentName_iff hname).mpr hkept.name, hid, .flow hsentSteps ?_⟩, ?_, hkept.metadata⟩
    · exact {
        flow := (validateFlow_eq_ok_iff hsentSteps).mpr hsent
        authUrl := authUrl_sent haccepted.authUrl hkept.authUrl.1
        authUrlSize := (byteLen_trim_le _).trans haccepted.authUrlSize
        successPattern := haccepted.successPattern
        failurePattern := haccepted.failurePattern }
    · exact (meaning_sentFlow_iff hsteps hchecked hsent).mpr
        ⟨fun step hstep => (hharmless step hstep).same, hkept.authUrl.1⟩

/-! ## Fixed requests -/

theorem preRequestGaps_eq_nil {stored : Stored}
    (h : ∀ pre, stored.task.preRequest = some pre → trim pre.url ≠ []) :
    preRequestGaps stored.opened = [] ↔ ∀ pre, stored.task.preRequest = some pre →
      HttpAddress (trim pre.url) ∧ "json:".toList.isPrefixOf (trim pre.extract) = true := by
  have hurl : stored.opened.preRequestUrl = (stored.task.preRequest.map (·.url)).getD [] := rfl
  have hextract : stored.opened.preRequestExtract =
    (stored.task.preRequest.map (·.extract)).getD [] := rfl
  unfold preRequestGaps
  rw [hurl, hextract]
  cases heq : stored.task.preRequest with
  | none =>
    simp [gap_eq_nil, trim, trimBy]
  | some pre =>
    have hjson : ((if (trim pre.extract).isEmpty = true then
          ["前置请求的取值方式（如 json:csrf_token）".toList]
        else gap (!"json:".toList.isPrefixOf (trim pre.extract))
          "前置请求的取值方式需以 json: 开头（如 json:data.token）".toList) = []) ↔
        "json:".toList.isPrefixOf (trim pre.extract) = true := by
      by_cases hblank : trim pre.extract = []
      · simp [hblank]
      · simp [hblank, gap_eq_nil]
    simp only [Option.map_some, Option.getD_some]
    rw [if_neg (by simpa using h pre heq), List.append_eq_nil_iff, gap_eq_nil, hjson,
      Bool.not_eq_false', hasHttpHost_iff]
    simp

theorem logoutGaps_eq_nil {stored : Stored} (h : ∀ logout,
      stored.task.logoutRequest = some logout → trim logout.url ≠ [] ∧
        0 ≤ logout.waitSecs ∧ logout.waitSecs ≤ 30) :
    logoutGaps stored.opened = [] ↔ ∀ logout, stored.task.logoutRequest = some logout →
      HttpAddress (trim logout.url) := by
  have hurl : stored.opened.logoutUrl = (stored.task.logoutRequest.map (·.url)).getD [] := rfl
  have hsecs : stored.opened.logoutWaitSecs =
    ((stored.task.logoutRequest.map (·.waitSecs)).filter (0 < ·)).getD 0 := rfl
  unfold logoutGaps
  rw [hurl, hsecs]
  cases heq : stored.task.logoutRequest with
  | none => simp [trim, trimBy]
  | some logout =>
    obtain ⟨hne, hlow, hhigh⟩ := h logout heq
    have hwait : (decide (((some logout.waitSecs).filter (0 < ·)).getD 0 < 0) ||
        decide (30 < ((some logout.waitSecs).filter (0 < ·)).getD 0)) = false := by
      by_cases hpos : 0 < logout.waitSecs
      · simp [Option.filter, hpos, Rat.not_lt.mpr hlow, Rat.not_lt.mpr hhigh]
      · simp [Option.filter, hpos]
    simp only [Option.map_some, Option.getD_some] at hwait ⊢
    rw [if_neg (by simpa using hne), List.append_eq_nil_iff, gap_eq_nil, gap_eq_nil,
      Bool.not_eq_false', hwait, hasHttpHost_iff]
    simp

/-- The variable of a request is named by its trimmed extract and its name. -/
theorem placeholderName_congr (pre pre' : HttpPreRequest)
    (hextract : strip pre.extract = strip pre'.extract) (hname : pre.name = pre'.name) :
    pre.placeholderName = pre'.placeholderName := by
  unfold HttpPreRequest.placeholderName HttpPreRequest.extractPath
  rw [hextract, hname]

/-- The request reads the same value under the same name when it is sent. -/
def PreRequestAlike (pre : HttpPreRequest) : Prop :=
  SentAlike pre.url ∧ TrimmedAlike pre.extract ∧
    HttpPreRequest.placeholderName { pre with name := trim pre.name } = pre.placeholderName

theorem preRequest_same_iff {pre : HttpPreRequest} :
    (sentRequest (sentPreRequest pre).method (sentPreRequest pre).url (sentPreRequest pre).headers
        (sentPreRequest pre).body, strip (sentPreRequest pre).extract,
        (sentPreRequest pre).placeholderName) =
      (sentRequest pre.method pre.url pre.headers pre.body, strip pre.extract,
        pre.placeholderName) ↔ PreRequestAlike pre := by
  rw [Prod.mk.injEq, Prod.mk.injEq]
  show sentRequest pre.method (trim pre.url) pre.headers pre.body = _ ∧
    strip (trim pre.extract) = _ ∧ _ ↔ _
  rw [sentRequest_trim_iff, strip_trim_iff]
  refine and_congr_right fun _ => and_congr_right fun halike => ?_
  rw [placeholderName_congr (sentPreRequest pre) { pre with name := trim pre.name }
    (strip_trim_iff.mpr halike) rfl]

theorem logoutRequest_same_iff {logout : HttpActionRequest} :
    (sentRequest (sentLogoutRequest logout).method (sentLogoutRequest logout).url
        (sentLogoutRequest logout).headers (sentLogoutRequest logout).body,
        (sentLogoutRequest logout).waitSecs) =
      (sentRequest logout.method logout.url logout.headers logout.body, logout.waitSecs) ↔
      SentAlike logout.url := by
  rw [Prod.mk.injEq]
  exact (and_iff_left rfl).trans sentRequest_trim_iff

theorem map_map_eq_iff {α β : Type} {f : α → β} {g : α → α} {x : Option α} :
    (x.map g).map f = x.map f ↔ ∀ a, x = some a → f (g a) = f a := by
  cases x with
  | none => simp
  | some a => simp

theorem meaning_sentFixed_iff (hsteps : task.steps = []) :
    (sentFixed task).meaning = task.meaning ↔
      ((∀ logout, task.logoutRequest = some logout → SentAlike logout.url) ∧
        (∀ pre, task.preRequest = some pre → PreRequestAlike pre) ∧ TrimmedAlike task.url) ∧
      TrimmedAlike task.authUrl := by
  have hsequence : (sentFixed task).sequence = task.sequence ↔
      (∀ logout, task.logoutRequest = some logout → SentAlike logout.url) ∧
        (∀ pre, task.preRequest = some pre → PreRequestAlike pre) ∧ TrimmedAlike task.url := by
    unfold Tasks.HttpTaskConfig.sequence
    rw [if_pos (show (sentFixed task).steps.isEmpty = true from rfl), if_pos (by simp [hsteps]),
      Sequence.fixed.injEq]
    show (task.logoutRequest.map sentLogoutRequest).map _ = _ ∧ _ ∧
      (task.preRequest.map sentPreRequest).map _ = _ ∧ _ ↔ _
    rw [map_map_eq_iff, map_map_eq_iff, Tasks.Request.mk.injEq, ← strip_trim_iff]
    simp only [preRequest_same_iff, logoutRequest_same_iff]
    constructor
    · rintro ⟨hlogout, -, hpre, -, hurl, -⟩
      exact ⟨hlogout, hpre, hurl⟩
    · rintro ⟨hlogout, hpre, hurl⟩
      exact ⟨hlogout, rfl, hpre, rfl, hurl, rfl, rfl⟩
  have hauth : TrimmedAlike task.authUrl ↔ strip (trim task.authUrl) = strip task.authUrl :=
    strip_trim_iff.symm
  unfold Tasks.HttpTaskConfig.meaning
  rw [Meaning.mk.injEq, hsequence, hauth]
  constructor
  · rintro ⟨-, hsame, hauth, -⟩
    exact ⟨hsame, hauth⟩
  · rintro ⟨hsame, hauth⟩
    exact ⟨rfl, hsame, hauth, rfl, rfl, rfl, rfl, rfl⟩

theorem preRequest_sent_accepted {pre : HttpPreRequest} (h : PreRequestAccepted pre)
    (halike : PreRequestAlike pre) : PreRequestAccepted (sentPreRequest pre) := by
  obtain ⟨path, hpath⟩ := h.path
  obtain ⟨rest, hjson, hrest, -⟩ := extractPath_eq_ok.mp hpath
  have hurl : strip (trim pre.url) = strip pre.url :=
    strip_trim_iff.mpr (trimmedAlike_of_control halike.1)
  have hextract : strip (trim pre.extract) = strip pre.extract := strip_trim_iff.mpr halike.2.1
  exact {
    address := by
      show HttpAddress (strip (trim pre.url))
      rw [hurl]
      exact h.address
    path := ⟨strip rest, extractPath_eq_ok.mpr ⟨rest, hextract.trans hjson, hrest, rfl⟩⟩
    url := (byteLen_trim_le pre.url).trans h.url
    headers := h.headers
    body := h.body }

theorem logoutRequest_sent_accepted {logout : HttpActionRequest} (h : LogoutRequestAccepted logout)
    (halike : SentAlike logout.url) : LogoutRequestAccepted (sentLogoutRequest logout) := by
  have hurl : strip (trim logout.url) = strip logout.url :=
    strip_trim_iff.mpr (trimmedAlike_of_control halike)
  exact {
    address := by
      show HttpAddress (strip (trim logout.url))
      rw [hurl]
      exact h.address
    wait := h.wait
    url := (byteLen_trim_le logout.url).trans h.url
    headers := h.headers
    body := h.body }

/-- What is sent of a task that is kept is accepted. -/
theorem legacyAccepted_sent (haccepted : LegacyAccepted o task)
    (hurl : TrimmedAlike task.url) (hauth : TrimmedAlike task.authUrl)
    (hpre : ∀ pre, task.preRequest = some pre → PreRequestAlike pre)
    (hlogout : ∀ logout, task.logoutRequest = some logout → SentAlike logout.url) :
    LegacyAccepted o (sentFixed task) where
  present := by
    show strip (trim task.url) ≠ []
    rw [strip_trim_iff.mpr hurl]
    exact haccepted.present
  authUrl := authUrl_sent haccepted.authUrl hauth
  cryptoScript := haccepted.cryptoScript
  url := (byteLen_trim_le task.url).trans haccepted.url
  headers := haccepted.headers
  body := haccepted.body
  preRequest pre hsome := by
    obtain ⟨old, hold, rfl⟩ := Option.map_eq_some_iff.mp hsome
    have hold' := preRequestErrors_eq_nil_iff.mp (haccepted.preRequest old hold)
    exact preRequestErrors_eq_nil_iff.mpr (preRequest_sent_accepted hold' (hpre old hold))
  logoutRequest logout hsome := by
    obtain ⟨old, hold, rfl⟩ := Option.map_eq_some_iff.mp hsome
    have hold' := logoutRequestErrors_eq_nil_iff.mp (haccepted.logoutRequest old hold)
    exact logoutRequestErrors_eq_nil_iff.mpr (logoutRequest_sent_accepted hold' (hlogout old hold))

theorem fixed_harmless_iff {stored : Stored} (print : NumberPrinter o)
    (hsteps : stored.task.steps = []) (hversion : stored.task.schemaVersion = 1)
    (haccepted : LegacyAccepted o stored.task)
    (hname : strip stored.task.common.name ≠ []) (hid : stored.task.common.taskId ≠ defaultTaskId)
    (hdoubles : ∀ logout, stored.task.logoutRequest = some logout → IsDouble o logout.waitSecs) :
    Harmless print stored ↔ Kept stored := by
  have hpre : ∀ pre, stored.task.preRequest = some pre → trim pre.url ≠ [] := fun pre hsome =>
    trim_ne_nil_of_address (preRequestErrors_eq_nil_iff.mp (haccepted.preRequest pre hsome)).address
  have hlogout : ∀ logout, stored.task.logoutRequest = some logout →
      trim logout.url ≠ [] ∧ 0 ≤ logout.waitSecs ∧ logout.waitSecs ≤ 30 := by
    intro logout hsome
    have hlogout := logoutRequestErrors_eq_nil_iff.mp (haccepted.logoutRequest logout hsome)
    exact ⟨trim_ne_nil_of_address hlogout.address, hlogout.wait⟩
  have hlow : ∀ logout, stored.task.logoutRequest = some logout →
      trim logout.url ≠ [] ∧ 0 ≤ logout.waitSecs := fun logout hsome =>
    ⟨(hlogout logout hsome).1, (hlogout logout hsome).2.1⟩
  have hdisabled := opened_fixed hsteps hversion
  have hpreAccepted : ∀ pre, stored.task.preRequest = some pre → PreRequestAccepted pre :=
    fun pre hsome => preRequestErrors_eq_nil_iff.mp (haccepted.preRequest pre hsome)
  have hlogoutAddress : ∀ logout, stored.task.logoutRequest = some logout →
      HttpAddress (strip logout.url) := fun logout hsome =>
    (logoutRequestErrors_eq_nil_iff.mp (haccepted.logoutRequest logout hsome)).address
  have hgaps : httpTaskDraftGaps stored.opened = [] ↔
      (trim stored.task.authUrl = [] ∨ HttpAddress (trim stored.task.authUrl)) ∧
        (HttpAddress (trim stored.task.url) ∧
          ∀ pre, stored.task.preRequest = some pre → HttpAddress (trim pre.url) ∧
            "json:".toList.isPrefixOf (trim pre.extract) = true) ∧
          ∀ logout, stored.task.logoutRequest = some logout → HttpAddress (trim logout.url) := by
    rw [draftGaps_eq_nil rfl, if_neg (by simp [hdisabled]), List.append_eq_nil_iff,
      List.append_eq_nil_iff, addressGaps_eq_nil, preRequestGaps_eq_nil hpre,
      logoutGaps_eq_nil hlogout]
    rfl
  rw [harmless_iff print (doubles_fixed hsteps hversion hlow hdoubles),
    meant_fixed hsteps hversion hpre hlow, hgaps, meaning_sentFixed_iff hsteps]
  constructor
  · rintro ⟨⟨hauthGap, ⟨hurlGap, hpreGap⟩, hlogoutGap⟩, ⟨hsentName, -⟩,
      ⟨⟨hlogoutAlike, hpreAlike, hurlAlike⟩, hauthAlike⟩, hmetadata⟩
    refine ⟨hmetadata, (sentName_iff hname).mp hsentName,
      ⟨hauthAlike, (authUrl_trim_iff haccepted.authUrl hauthAlike).mp hauthGap⟩, ?_, fun _ => ?_⟩
    · rw [hsteps]
      simp
    · refine ⟨⟨hurlAlike, hurlGap⟩, fun pre hsome => ?_, fun logout hsome => ?_⟩
      · obtain ⟨hurl, hextract, hname⟩ := hpreAlike pre hsome
        obtain ⟨haddress, hjson⟩ := hpreGap pre hsome
        obtain ⟨path, hpath⟩ := (hpreAccepted pre hsome).path
        obtain ⟨rest, hrest, -⟩ := extractPath_eq_ok.mp hpath
        exact ⟨(keptUrl_iff (hpreAccepted pre hsome).address).mpr ⟨hurl, haddress⟩,
          ⟨hextract, (json_trim_iff hrest hextract).mp hjson⟩, hname⟩
      · exact (keptUrl_iff (hlogoutAddress logout hsome)).mpr
          ⟨hlogoutAlike logout hsome, hlogoutGap logout hsome⟩
  · intro hkept
    have hfixed := hkept.fixed hsteps
    have hpreAlike : ∀ pre, stored.task.preRequest = some pre → PreRequestAlike pre :=
      fun pre hsome =>
        let hpre := hfixed.preRequest pre hsome
        ⟨hpre.url.1, hpre.extract.1, hpre.name⟩
    have hlogoutAlike : ∀ logout, stored.task.logoutRequest = some logout → SentAlike logout.url :=
      fun logout hsome => (hfixed.logoutRequest logout hsome).1
    have hauth := (authUrl_trim_iff haccepted.authUrl hkept.authUrl.1).mpr hkept.authUrl.2
    refine ⟨⟨hauth, ⟨hfixed.url.2, fun pre hsome => ?_⟩, fun logout hsome => ?_⟩,
      ⟨(sentName_iff hname).mpr hkept.name, hid, .legacy rfl rfl ?_⟩,
      ⟨⟨hlogoutAlike, hpreAlike, hfixed.url.1⟩, hkept.authUrl.1⟩, hkept.metadata⟩
    · have hkeptPre := hfixed.preRequest pre hsome
      obtain ⟨path, hpath⟩ := (hpreAccepted pre hsome).path
      obtain ⟨rest, hrest, -⟩ := extractPath_eq_ok.mp hpath
      exact ⟨((keptUrl_iff (hpreAccepted pre hsome).address).mp hkeptPre.url).2,
        (json_trim_iff hrest hkeptPre.extract.1).mpr hkeptPre.extract.2⟩
    · exact ((keptUrl_iff (hlogoutAddress logout hsome)).mp (hfixed.logoutRequest logout hsome)).2
    · exact legacyAccepted_sent haccepted hfixed.url.1 hkept.authUrl.1 hpreAlike hlogoutAlike

end

/-! ## Every document -/

theorem name_of_accepted {members : List (String × Json)} {task : Tasks.HttpTaskConfig}
    (h : ReadFrom o members task) (hname : strip (member (.obj members) "name") ≠ []) :
    strip task.common.name ≠ [] := by
  obtain ⟨taskId, -, hrest⟩ := Option.bind_eq_some_iff.mp h.common
  obtain ⟨name, hread, hrest⟩ := Option.bind_eq_some_iff.mp hrest
  obtain ⟨description, -, hrest⟩ := Option.bind_eq_some_iff.mp hrest
  rw [← Option.some.inj hrest]
  show strip name ≠ []
  cases hlookup : members.lookup "name" with
  | none =>
    have hblank : member (.obj members) "name" = [] := by
      show (((members.lookup "name").bind Json.asStr).getD "").toList = []
      rw [hlookup]
      rfl
    rw [hblank] at hname
    exact (hname rfl).elim
  | some v =>
    have hsome : Json.field Json.readText [] members "name" = some name := by
      unfold Json.field at hread ⊢
      rw [hlookup] at hread ⊢
      exact hread
    rwa [show member (.obj members) "name" = name from Json.text_of_field hsome] at hname

theorem opening_harmless_iff (o : Outside) (print : NumberPrinter o) (config : Json)
    (stored : Stored) (haccepted : validateHttpTask o config = [])
    (hload : Stored.load o config = some stored) : Harmless print stored ↔ Kept stored := by
  obtain ⟨task, htask, rfl⟩ := Option.map_eq_some_iff.mp hload
  unfold loadHttpTask at htask
  split at htask
  next =>
    cases config with
    | obj members =>
      have hread := readFrom_of_read htask
      obtain ⟨hsteps, hlogout⟩ := isDouble_of_readFrom hread
      obtain ⟨hname, hid, hform⟩ := (validateHttpTask_eq_nil_iff htask).mp haccepted
      have hname := name_of_accepted hread hname
      cases hform with
      | flow hsome hflow => exact flow_harmless_iff print hsome hflow hname hid hsteps
      | legacy hnone hversion hlegacy =>
        exact fixed_harmless_iff print hnone hversion hlegacy hname hid hlogout
    | null | bool | number | str | arr => cases htask
  next => cases htask

/-- Numbers that are all 0. -/
def plainPrinter : NumberPrinter .plain where
  literal _ := "0"
  reads q h := by
    show (0 : Rat) = q
    rcases h with hzero | ⟨literal, hliteral⟩
    · exact hzero.symm
    · exact hliteral

/-- A flow of one request with a single value, which is not named. -/
def singleDocument (extract : String) : Json :=
  .obj [("type", .str "http"), ("name", .str "Portal"), ("schema_version", .number "2"),
    ("steps", .arr [.obj [("id", .str "login"), ("url", .str "http://10.0.0.1/login"),
      ("extract", .str extract)]])]

def singleStored (extract : String) : Stored where
  task := {
    common := { name := "Portal".toList }
    schemaVersion := 2
    steps := [{
      id := "login".toList
      name := []
      kind := .request
      url := "http://10.0.0.1/login".toList
      extract := extract.toList }] }
  metadata := .obj []

theorem opening_harmless_nested : Kept (singleStored "json:data.token") ∧
    Harmless plainPrinter (singleStored "json:data.token") := by
  have hsource : KeptSource "json:data.token".toList := by
    refine ⟨?_, ?_, fun c hshape => ?_⟩
    · have hall : (offBy isSpace "json:data.token".toList).all isWhitespace = true := by decide
      exact List.all_eq_true.mp hall
    · show (trim "json:data.token".toList).head? ≠ some '\u0085'
      decide
    · have hd : SourceShape (strip "json:data.token".toList) 'd' :=
        ⟨"json".toList, by decide, "ata.token".toList, by decide⟩
      rw [sourceShape_unique hshape hd]
      decide
  have hkept : Kept (singleStored "json:data.token") := by
    refine ⟨rfl, .inr (by decide), ⟨?_, ?_⟩, fun step hstep => ?_, fun hnil => nomatch hnil⟩
    · exact fun c hc => nomatch hc
    · show (trim []).head? ≠ some '\u0085'
      decide
    · obtain rfl := List.mem_singleton.mp hstep
      refine ⟨⟨?_, ?_⟩, hsource, by decide, by decide⟩
      · have hall : (offBy isSpace "http://10.0.0.1/login".toList).all isControlOrBlank = true := by
          decide
        exact List.all_eq_true.mp hall
      · show (trim "http://10.0.0.1/login".toList).head? ≠ some '\u0085'
        decide
  exact ⟨hkept, (opening_harmless_iff .plain plainPrinter (singleDocument "json:data.token") _
    rfl rfl).mpr hkept⟩

/-- A path of one part: the name the editor derives is the whole extract, which is no name. -/
theorem one_part_path_gap : ¬∀ (o : Outside) (print : NumberPrinter o) (config : Json)
    (stored : Stored), validateHttpTask o config = [] → Stored.load o config = some stored →
      Harmless print stored := by
  intro hall
  have hharmless := hall .plain plainPrinter (singleDocument "json:token")
    (singleStored "json:token") rfl rfl
  have hgaps : httpTaskDraftGaps (singleStored "json:token").opened =
      ["步骤 1 第 1 条变量名（需唯一）".toList] := by decide
  have hnone := hharmless.gaps
  rw [hgaps] at hnone
  cases hnone

end CampusAuth.Frontend.HttpTask
