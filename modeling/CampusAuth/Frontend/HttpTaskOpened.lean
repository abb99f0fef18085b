import CampusAuth.Frontend.HttpTaskForms
import CampusAuth.Frontend.HttpTaskSteps

/- Opening a direct login task in the editor and sending it untouched. `Harmless` is that the
   draft has no gap and that what is sent is accepted and denotes the task that was opened;
   `Kept` says which tasks that holds of (`opening_harmless_iff`). -/
namespace CampusAuth.Frontend.HttpTask
open Lib Login Tasks
open ScheduledDraft (isSpace)

variable {o : Outside}

/-- The document that is sent of a task that was opened and not touched. -/
def Stored.resent (print : NumberPrinter o) (stored : Stored) : Json :=
  .obj (stringify print (httpTaskPayload stored.opened))

structure Harmless (print : NumberPrinter o) (stored : Stored) : Prop where
  gaps : httpTaskDraftGaps stored.opened = []
  accepted : validateHttpTask o (stored.resent print) = []
  same : ∃ saved, Stored.load o (stored.resent print) = some saved ∧
    saved.task.meaning = stored.task.meaning ∧ saved.metadata = stored.metadata

/-! ## Which tasks are kept -/

def sentPreRequest (pre : HttpPreRequest) : HttpPreRequest :=
  { pre with url := trim pre.url, extract := trim pre.extract, name := trim pre.name }

def sentLogoutRequest (logout : HttpActionRequest) : HttpActionRequest :=
  { logout with url := trim logout.url }

structure KeptPreRequest (pre : HttpPreRequest) : Prop where
  url : KeptUrl pre.url
  extract : TrimmedAlike pre.extract ∧ StartsAlike pre.extract
  name : HttpPreRequest.placeholderName { pre with name := trim pre.name } = pre.placeholderName

/-- The requests of a task without steps. -/
structure KeptFixed (task : Tasks.HttpTaskConfig) : Prop where
  url : TrimmedAlike task.url ∧ HttpAddress (trim task.url)
  preRequest : ∀ pre, task.preRequest = some pre → KeptPreRequest pre
  logoutRequest : ∀ logout, task.logoutRequest = some logout → KeptUrl logout.url

structure Kept (stored : Stored) : Prop where
  metadata : stored.metadata = .obj []
  name : trim stored.task.common.name = [] ∨ strip (trim stored.task.common.name) ≠ []
  authUrl : TrimmedAlike stored.task.authUrl ∧ StartsAlike stored.task.authUrl
  steps : ∀ step ∈ stored.task.steps, KeptStep step
  fixed : stored.task.steps = [] → KeptFixed stored.task

/-! ## The task that is sent -/

def sentName (name : Text) : Text :=
  orText (trim (orText name httpTaskDefaultName)) httpTaskDefaultName

def sentCommon (common : CommonFields) : CommonFields where
  taskId := common.taskId
  name := sentName common.name
  description := trim common.description

/-- A flow as it is sent. -/
def sentFlow (task : Tasks.HttpTaskConfig) : Tasks.HttpTaskConfig where
  common := sentCommon task.common
  schemaVersion := 2
  steps := task.steps.map sent
  resultStepId := task.selected
  authUrl := trim task.authUrl
  successPattern := task.successPattern
  failurePattern := task.failurePattern
  failureAction := task.failureAction
  successCheck := task.successCheck
  ignoreHttpsErrors := task.ignoreHttpsErrors

/-- A task without steps as it is sent. -/
def sentFixed (task : Tasks.HttpTaskConfig) : Tasks.HttpTaskConfig where
  common := sentCommon task.common
  method := task.method
  url := trim task.url
  authUrl := trim task.authUrl
  headers := task.headers
  body := task.body
  successPattern := task.successPattern
  failurePattern := task.failurePattern
  failureAction := task.failureAction
  successCheck := task.successCheck
  cryptoScript := task.cryptoScript
  preRequest := task.preRequest.map sentPreRequest
  logoutRequest := task.logoutRequest.map sentLogoutRequest
  ignoreHttpsErrors := task.ignoreHttpsErrors

section
variable {stored : Stored}

theorem opened_flow (hsteps : stored.task.steps ≠ []) :
    stored.opened.flowEnabled = true ∧ stored.opened.steps = stored.task.steps.map draftStep ∧
      stored.opened.resultStepId = stored.task.selected := by
  have hempty : stored.task.steps.isEmpty = false := by simpa using hsteps
  refine ⟨?_, ?_, ?_⟩
  · show (!stored.task.steps.isEmpty || _) = true
    rw [hempty]
    rfl
  · show (if stored.task.steps.isEmpty then _ else _) = _
    rw [hempty]
    rfl
  · show orText stored.task.resultStepId (if stored.task.steps.isEmpty then _ else _) = _
    rw [hempty]
    rfl

theorem opened_fixed (hsteps : stored.task.steps = []) (hversion : stored.task.schemaVersion = 1) :
    stored.opened.flowEnabled = false := by
  show (!stored.task.steps.isEmpty || decide (1 < stored.task.schemaVersion)) = false
  rw [hsteps, hversion]
  rfl

theorem meant_flow (hsteps : stored.task.steps ≠ []) :
    (httpTaskPayload stored.opened).meant = sentFlow stored.task := by
  obtain ⟨henabled, hopened, hresult⟩ := opened_flow hsteps
  unfold httpTaskPayload
  rw [if_pos henabled, hopened, hresult, List.map_map]
  rfl

/-- What is sent of a request beside the login request: nothing, or the request trimmed. -/
theorem sent_preRequest (h : ∀ pre, stored.task.preRequest = some pre → trim pre.url ≠ []) :
    (if (trim stored.opened.preRequestUrl).isEmpty then none
      else some {
        method := stored.opened.preRequestMethod
        url := trim stored.opened.preRequestUrl
        headers := stored.opened.preRequestHeaders
        body := stored.opened.preRequestBody
        extract := trim stored.opened.preRequestExtract
        name := trim stored.opened.preRequestName }) =
      stored.task.preRequest.map sentPreRequest := by
  have hurl : stored.opened.preRequestUrl = (stored.task.preRequest.map (·.url)).getD [] := rfl
  rw [hurl]
  cases heq : stored.task.preRequest with
  | none => rfl
  | some pre =>
    rw [if_neg (by simpa using h pre heq)]
    show some (HttpPreRequest.mk ((stored.task.preRequest.map (·.method)).getD .get)
      (trim ((some pre.url).getD [])) ((stored.task.preRequest.map (·.headers)).getD [])
      ((stored.task.preRequest.map (·.body)).getD [])
      (trim ((stored.task.preRequest.map (·.extract)).getD []))
      (trim ((stored.task.preRequest.map (·.name)).getD []))) = _
    rw [heq]
    rfl

theorem sent_logoutRequest (h : ∀ logout, stored.task.logoutRequest = some logout →
      trim logout.url ≠ [] ∧ 0 ≤ logout.waitSecs) :
    (if (trim stored.opened.logoutUrl).isEmpty then none
      else some {
        method := stored.opened.logoutMethod
        url := trim stored.opened.logoutUrl
        headers := stored.opened.logoutHeaders
        body := stored.opened.logoutBody
        waitSecs :=
          if 0 < stored.opened.logoutWaitSecs then stored.opened.logoutWaitSecs else 0 }) =
      stored.task.logoutRequest.map sentLogoutRequest := by
  have hurl : stored.opened.logoutUrl = (stored.task.logoutRequest.map (·.url)).getD [] := rfl
  have hsecs : stored.opened.logoutWaitSecs =
    ((stored.task.logoutRequest.map (·.waitSecs)).filter (0 < ·)).getD 0 := rfl
  rw [hurl, hsecs]
  cases heq : stored.task.logoutRequest with
  | none => rfl
  | some logout =>
    obtain ⟨hne, hwait⟩ := h logout heq
    have hkept : (if 0 < (((some logout.waitSecs).filter (0 < ·)).getD 0) then
        ((some logout.waitSecs).filter (0 < ·)).getD 0 else 0) = logout.waitSecs := by
      by_cases hpos : 0 < logout.waitSecs
      · simp [Option.filter, hpos]
      · have hzero : logout.waitSecs = 0 := Rat.le_antisymm (Rat.not_lt.mp hpos) hwait
        simp [Option.filter, hzero]
    rw [if_neg (by simpa using hne)]
    show some (HttpActionRequest.mk ((stored.task.logoutRequest.map (·.method)).getD .get)
      (trim ((some logout.url).getD [])) ((stored.task.logoutRequest.map (·.headers)).getD [])
      ((stored.task.logoutRequest.map (·.body)).getD [])
      (if 0 < (((some logout.waitSecs).filter (0 < ·)).getD 0) then
        ((some logout.waitSecs).filter (0 < ·)).getD 0 else 0)) = _
    rw [heq, hkept]
    rfl

theorem meant_fixed (hsteps : stored.task.steps = []) (hversion : stored.task.schemaVersion = 1)
    (hpre : ∀ pre, stored.task.preRequest = some pre → trim pre.url ≠ [])
    (hlogout : ∀ logout, stored.task.logoutRequest = some logout →
      trim logout.url ≠ [] ∧ 0 ≤ logout.waitSecs) :
    (httpTaskPayload stored.opened).meant = sentFixed stored.task := by
  have hdisabled : ¬stored.opened.flowEnabled = true := by
    simp [opened_fixed hsteps hversion]
  unfold httpTaskPayload
  rw [if_neg hdisabled, sent_preRequest hpre, sent_logoutRequest hlogout]
  rfl

/-! ## What is sent is read again -/

theorem doubles_flow (hsteps : stored.task.steps ≠ [])
    (h : ∀ step ∈ stored.task.steps, IsDouble o step.waitSecs) :
    (httpTaskPayload stored.opened).Doubles o := by
  obtain ⟨henabled, hopened, -⟩ := opened_flow hsteps
  unfold httpTaskPayload
  rw [if_pos henabled]
  refine ⟨fun n hn => (Option.some.inj hn).symm, fun steps hsome => ?_,
    fun _ hnone => nomatch hnone⟩
  rw [← Option.some.inj hsome, hopened, List.map_map]
  intro step hstep
  obtain ⟨old, hold, rfl⟩ := List.mem_map.mp hstep
  exact h old hold

theorem doubles_fixed (hsteps : stored.task.steps = []) (hversion : stored.task.schemaVersion = 1)
    (hlogout : ∀ logout, stored.task.logoutRequest = some logout →
      trim logout.url ≠ [] ∧ 0 ≤ logout.waitSecs)
    (h : ∀ logout, stored.task.logoutRequest = some logout → IsDouble o logout.waitSecs) :
    (httpTaskPayload stored.opened).Doubles o := by
  have hdisabled : ¬stored.opened.flowEnabled = true := by
    simp [opened_fixed hsteps hversion]
  unfold httpTaskPayload
  rw [if_neg hdisabled, sent_logoutRequest hlogout]
  refine ⟨(fun _ hnone => nomatch hnone), (fun _ hnone => nomatch hnone),
    fun logout hsome => ?_⟩
  obtain ⟨old, hold, rfl⟩ := Option.map_eq_some_iff.mp hsome
  exact h old hold

theorem load_resent (print : NumberPrinter o)
    (hdoubles : (httpTaskPayload stored.opened).Doubles o) :
    Stored.load o (stored.resent print) =
      some ⟨(httpTaskPayload stored.opened).meant, .obj []⟩ := by
  have htype : ((stored.resent print).get "type").bind Json.asStr = some "http" := by
    show ((stringify print (httpTaskPayload stored.opened)).lookup "type").bind Json.asStr = _
    rw [lookup_stringify]
    rfl
  have hmetadata : (stored.resent print).get "metadata" = none := by
    show (stringify print (httpTaskPayload stored.opened)).lookup "metadata" = none
    rw [lookup_stringify]
    show (some (httpTaskPayload stored.opened).metadata).join = none
    unfold httpTaskPayload
    split <;> rfl
  unfold Stored.load loadHttpTask
  rw [if_pos htype, hmetadata, show Tasks.HttpTaskConfig.read o (stored.resent print) = _ from
    read_stringify print hdoubles]
  rfl

theorem harmless_iff (print : NumberPrinter o)
    (hdoubles : (httpTaskPayload stored.opened).Doubles o) :
    Harmless print stored ↔ httpTaskDraftGaps stored.opened = [] ∧
      (strip (httpTaskPayload stored.opened).meant.common.name ≠ [] ∧
        (httpTaskPayload stored.opened).meant.common.taskId ≠ defaultTaskId ∧
        TaskAccepted o (httpTaskPayload stored.opened).meant) ∧
      (httpTaskPayload stored.opened).meant.meaning = stored.task.meaning ∧
      stored.metadata = .obj [] := by
  have hload := load_resent print hdoubles
  have hname : member (stored.resent print) "name" =
      (httpTaskPayload stored.opened).meant.common.name :=
    Json.text_of_field (field_member_text (httpTaskPayload stored.opened).name rfl)
  have haccepted := validateHttpTask_eq_nil_iff (read_stringify print hdoubles)
  rw [show member (.obj (stringify print (httpTaskPayload stored.opened))) "name" = _ from hname]
    at haccepted
  constructor
  · intro h
    obtain ⟨saved, hsaved, hmeaning, hmetadata⟩ := h.same
    obtain rfl := Option.some.inj (hload.symm.trans hsaved)
    exact ⟨h.gaps, haccepted.mp h.accepted, hmeaning, hmetadata.symm⟩
  · rintro ⟨hgaps, hvalid, hmeaning, hmetadata⟩
    exact ⟨hgaps, haccepted.mpr hvalid, _, hload, hmeaning, hmetadata.symm⟩

end

/-! ## The address of the login page and the name -/

theorem draftGaps_eq_nil {draft : HttpTaskDraft} (hnew : draft.isNew = false) :
    httpTaskDraftGaps draft = [] ↔
      (trim draft.authUrl = [] ∨ HttpAddress (trim draft.authUrl)) ∧
        if draft.flowEnabled then flowGaps draft = []
        else ((if (trim draft.url).isEmpty || trim draft.url == httpTaskPlaceholderUrl then
            ["请求地址".toList]
          else gap (!hasHttpHost draft.url) "请求地址（需为带主机名的 http/https URL）".toList) ++
          preRequestGaps draft ++ logoutGaps draft) = [] := by
  have hauth : (!(trim draft.authUrl).isEmpty && !hasHttpHost draft.authUrl) = false ↔
      (trim draft.authUrl = [] ∨ HttpAddress (trim draft.authUrl)) := by
    rw [← hasHttpHost_iff]
    simp [or_iff_not_imp_left]
  unfold httpTaskDraftGaps
  rw [List.append_eq_nil_iff, List.append_eq_nil_iff, gap_eq_nil, gap_eq_nil, hauth, hnew]
  simp only [Bool.false_and, true_and]
  split <;> rfl

theorem authUrl_sent {url : Text} (h : AuthUrlAccepted url) (halike : TrimmedAlike url) :
    AuthUrlAccepted (trim url) := by
  unfold AuthUrlAccepted
  rwa [strip_trim_iff.mpr halike]

theorem sentName_iff {name : Text} (hname : strip name ≠ []) :
    strip (sentName name) ≠ [] ↔ trim name = [] ∨ strip (trim name) ≠ [] := by
  have hne : name ≠ [] := by
    rintro rfl
    exact hname rfl
  have hsent : sentName name = orText (trim name) httpTaskDefaultName := by
    unfold sentName
    rw [show orText name httpTaskDefaultName = name from if_neg (by simpa using hne)]
  have hdefault : strip httpTaskDefaultName ≠ [] := by decide
  rw [hsent]
  unfold orText
  by_cases hblank : trim name = []
  · simp [hblank, hdefault]
  · simp [hblank]

end CampusAuth.Frontend.HttpTask
