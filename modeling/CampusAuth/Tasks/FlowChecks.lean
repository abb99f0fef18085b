import CampusAuth.Tasks.Accepted

/- What the check of a flow says of its steps: each step by itself, and that no two have the
   same id (`validateFlow_eq_ok_iff`). -/
namespace CampusAuth.Tasks
open Lib Login

variable {o : Outside}

/-- The keys are distinct and none has been seen. -/
def Fresh (seen keys : List Text) : Prop := keys.Nodup ∧ ∀ key ∈ keys, key ∉ seen

theorem fresh_nil (seen : List Text) : Fresh seen [] := ⟨List.nodup_nil, by simp⟩

theorem fresh_cons {seen keys : List Text} {key : Text} :
    Fresh seen (key :: keys) ↔ key ∉ seen ∧ Fresh (key :: seen) keys := by
  unfold Fresh
  rw [List.nodup_cons, List.forall_mem_cons]
  simp only [List.mem_cons, not_or]
  constructor
  · rintro ⟨⟨hnew, hkeys⟩, hseen, hrest⟩
    exact ⟨hseen, hkeys, fun k hk => ⟨fun heq => hnew (heq ▸ hk), hrest k hk⟩⟩
  · rintro ⟨hseen, hkeys, hrest⟩
    exact ⟨⟨fun hmem => (hrest key hmem).1 rfl, hkeys⟩, hseen, fun k hk => (hrest k hk).2⟩

/-! ## Rules -/

/-- The check of a rule looks at its trimmed source and its name. -/
theorem validate_rule_congr {rule rule' : HttpExtractRule}
    (hsource : strip rule.source = strip rule'.source) (hname : rule.name = rule'.name) :
    rule.validate o = rule'.validate o := by
  unfold HttpExtractRule.validate
  rw [hsource, hname]

theorem size_and_name_of_validate {rule : HttpExtractRule} (h : rule.validate o = .ok ()) :
    byteLen (strip rule.source) ≤ 1024 ∧ isName ['_'] 64 rule.name = true := by
  simp only [HttpExtractRule.validate, refused_eq_ok] at h
  obtain ⟨hsize, h⟩ := h
  refine ⟨Nat.not_lt.mp hsize, ?_⟩
  split at h
  next => cases h
  next kind arg hsplit =>
    rw [refused_eq_ok] at h
    obtain ⟨-, h⟩ := h
    split at h
    · split at h
      · cases h
      · rw [refused_eq_ok, refused_last_eq_ok] at h
        simpa using h.2.1
    · rw [refused_eq_ok, refused_last_eq_ok] at h
      simpa using h.2.1

theorem validate_json_rule {rule : HttpExtractRule} (path : Text)
    (hsource : strip rule.source = "json:".toList ++ path) (hpath : strip path ≠ [])
    (hsize : byteLen (strip rule.source) ≤ 1024) (hname : isName ['_'] 64 rule.name = true) :
    rule.validate o = .ok () := by
  have hsplit : splitOnce ':' (strip rule.source) = some ("json".toList, path) := by
    rw [hsource]
    exact splitOnce_append (s := "json".toList) (by decide) path
  unfold HttpExtractRule.validate
  refine refused_eq_ok.mpr ⟨Nat.not_lt.mpr hsize, ?_⟩
  rw [hsplit]
  refine refused_eq_ok.mpr ⟨by simpa using hpath, ?_⟩
  rw [if_neg (by decide)]
  refine refused_eq_ok.mpr ⟨by decide, ?_⟩
  exact refused_last_eq_ok.mpr ⟨by simpa using hname, rfl⟩

theorem validateRules_eq_ok {names : List Text} {rules : List HttpExtractRule} :
    validateRules o names rules = .ok () ↔
      (∀ rule ∈ rules, rule.validate o = .ok ()) ∧ Fresh names (rules.map (·.name)) := by
  induction rules generalizing names with
  | nil => simp [validateRules, fresh_nil]
  | cons rule rules ih =>
    unfold validateRules
    rw [check_eq_ok, refused_eq_ok, ih, List.map_cons, fresh_cons, List.forall_mem_cons]
    simp only [List.contains_eq_mem, decide_eq_true_eq]
    tauto

/-! ## Steps -/

/-- The bounds on the texts of a request. -/
def RequestSizes (step : HttpFlowStep) : Prop :=
  byteLen step.url ≤ 8 * 1024 ∧ byteLen step.headers ≤ 64 * 1024 ∧
    byteLen step.body ≤ 256 * 1024 ∧ byteLen step.extract ≤ 8 * 1024 ∧
    byteLen step.extractAs ≤ 128

structure RequestAccepted (o : Outside) (step : HttpFlowStep) : Prop where
  script : strip step.script = []
  address : HttpAddress (strip step.url)
  sizes : RequestSizes step
  count : step.extracts.length ≤ 12
  rules : ∀ rule ∈ step.extracts, rule.validate o = .ok ()
  names : Fresh [] (step.extracts.map (·.name))
  exclusive : step.extracts = [] ∨ strip step.extract = []
  single : strip step.extract ≠ [] →
    ∃ path, HttpPreRequest.extractPath { extract := step.extract } = .ok path
  unnamed : strip step.extract = [] → strip step.extractAs = []
  name : strip step.extractAs = [] ∨
    step.extractAs.all (fun c => c.isAlphanum || c == '_') = true
  wait : 0 ≤ step.waitSecs ∧ step.waitSecs ≤ 30

theorem validateRequest_eq_ok {step : HttpFlowStep} :
    step.validateRequest o = .ok () ↔ RequestAccepted o step := by
  simp only [HttpFlowStep.validateRequest, refused_eq_ok, check_eq_ok, checkSizes_eq_ok,
    validateRules_eq_ok]
  have hsizes : WithinSizes [("请求地址", step.url, 8 * 1024), ("请求头", step.headers, 64 * 1024),
      ("请求体", step.body, 256 * 1024), ("取值方式", step.extract, 8 * 1024),
      ("占位符名", step.extractAs, 128)] ↔ RequestSizes step := by
    simp [WithinSizes, RequestSizes]
  rw [hsizes]
  constructor
  · rintro ⟨hscript, haddress, hsizes, hcount, ⟨hrules, hnames⟩, hexclusive, hrest⟩
    have hlast : ((strip step.extract ≠ [] →
          ∃ path, HttpPreRequest.extractPath { extract := step.extract } = .ok path) ∧
        (strip step.extract = [] → strip step.extractAs = [])) ∧
        ¬(!(strip step.extractAs).isEmpty &&
          !step.extractAs.all fun c => c.isAlphanum || c == '_') = true ∧
        ¬(decide (step.waitSecs < 0) || decide (step.waitSecs > 30)) = true := by
      split at hrest
      next hsome =>
        obtain ⟨path, hpath, hrest⟩ := bind_eq_ok.mp hrest
        rw [refused_eq_ok, refused_last_eq_ok] at hrest
        refine ⟨⟨fun _ => ⟨path, hpath⟩, fun hnone => ?_⟩, hrest.1, hrest.2.1⟩
        simp [hnone] at hsome
      next hnone =>
        rw [refused_eq_ok, refused_eq_ok, refused_last_eq_ok] at hrest
        refine ⟨⟨fun hsome => ?_, fun _ => by simpa using hrest.1⟩, hrest.2.1, hrest.2.2.1⟩
        simp [hsome] at hnone
    obtain ⟨⟨hsingle, hunnamed⟩, hname, hwait⟩ := hlast
    exact {
      script := by simpa using hscript
      address := by simpa [HttpAddress] using haddress
      sizes := hsizes
      count := Nat.not_lt.mp hcount
      rules := hrules
      names := hnames
      exclusive := by simpa [or_iff_not_imp_left] using hexclusive
      single := hsingle
      unnamed := hunnamed
      name := by simpa [or_iff_not_imp_left] using hname
      wait := by simpa [Rat.not_lt] using hwait }
  · intro h
    refine ⟨by simpa using h.script, by simpa [HttpAddress] using h.address, h.sizes,
      Nat.not_lt.mpr h.count, ⟨h.rules, h.names⟩,
      by simpa [or_iff_not_imp_left] using h.exclusive, ?_⟩
    have hname : ¬(!(strip step.extractAs).isEmpty &&
        !step.extractAs.all fun c => c.isAlphanum || c == '_') = true := by
      simpa [or_iff_not_imp_left] using h.name
    have hwait : ¬(decide (step.waitSecs < 0) || decide (step.waitSecs > 30)) = true := by
      simpa [Rat.not_lt] using h.wait
    by_cases hblank : strip step.extract = []
    · rw [if_neg (by simp [hblank])]
      have hunnamed := h.unnamed hblank
      exact refused_eq_ok.mpr ⟨by simpa using hunnamed,
        refused_eq_ok.mpr ⟨hname, refused_last_eq_ok.mpr ⟨hwait, rfl⟩⟩⟩
    · rw [if_pos (by simp [hblank]), bind_eq_ok]
      obtain ⟨path, hpath⟩ := h.single hblank
      exact ⟨path, hpath, refused_eq_ok.mpr ⟨hname, refused_last_eq_ok.mpr ⟨hwait, rfl⟩⟩⟩

structure TransformAccepted (step : HttpFlowStep) : Prop where
  url : strip step.url = []
  headers : strip step.headers = []
  body : strip step.body = []
  extract : strip step.extract = []
  extractAs : strip step.extractAs = []
  extracts : step.extracts = []
  stopOnRedirect : step.stopOnRedirect = false
  onError : step.onError = .stop
  wait : step.waitSecs = 0
  script : strip step.script ≠ []
  size : byteLen step.script ≤ 128 * 1024

theorem validateTransform_eq_ok {step : HttpFlowStep} :
    step.validateTransform = .ok () ↔ TransformAccepted step := by
  simp only [HttpFlowStep.validateTransform, refused_eq_ok, refused_last_eq_ok]
  constructor
  · rintro ⟨honly, hscript, hsize, -⟩
    simp only [Bool.or_eq_true, Bool.not_eq_true', List.isEmpty_eq_false_iff, bne_iff_ne,
      not_or, not_not, Bool.not_eq_true] at honly
    obtain ⟨⟨⟨⟨⟨⟨⟨⟨hurl, hheaders⟩, hbody⟩, hextract⟩, hextractAs⟩, hextracts⟩, hstop⟩,
      honError⟩, hwait⟩ := honly
    exact {
      url := hurl
      headers := hheaders
      body := hbody
      extract := hextract
      extractAs := hextractAs
      extracts := hextracts
      stopOnRedirect := hstop
      onError := honError
      wait := hwait
      script := by simpa using hscript
      size := Nat.not_lt.mp hsize }
  · intro h
    refine ⟨?_, by simpa using h.script, Nat.not_lt.mpr h.size, rfl⟩
    simp [h.url, h.headers, h.body, h.extract, h.extractAs, h.extracts, h.stopOnRedirect,
      h.onError, h.wait]

structure StepAccepted (o : Outside) (step : HttpFlowStep) : Prop where
  id : isName ['_', '-'] 64 step.id = true
  name : byteLen step.name ≤ 128
  request : step.kind = .request → RequestAccepted o step
  transform : step.kind = .transform → TransformAccepted step

theorem validate_step_eq_ok {step : HttpFlowStep} :
    step.validate o = .ok () ↔ StepAccepted o step := by
  simp only [HttpFlowStep.validate, refused_eq_ok]
  constructor
  · rintro ⟨hid, hname, hkind⟩
    refine ⟨by simpa using hid, Nat.not_lt.mp hname, fun heq => ?_, fun heq => ?_⟩
    · rw [heq] at hkind
      exact validateRequest_eq_ok.mp hkind
    · rw [heq] at hkind
      exact validateTransform_eq_ok.mp hkind
  · intro h
    refine ⟨by simpa using h.id, Nat.not_lt.mpr h.name, ?_⟩
    cases heq : step.kind with
    | request => exact validateRequest_eq_ok.mpr (h.request heq)
    | transform => exact validateTransform_eq_ok.mpr (h.transform heq)

/-! ## Flows -/

/-- The id of the last request, if there is one. -/
def lastRequest (steps : List HttpFlowStep) : Option Text :=
  (steps.reverse.find? (·.kind == .request)).map (·.id)

theorem kind_of_lastRequest_none {steps : List HttpFlowStep} (h : lastRequest steps = none) :
    ∀ step ∈ steps, step.kind ≠ .request := by
  intro step hstep hkind
  have hnone := List.find?_eq_none.mp (Option.map_eq_none_iff.mp h) step
    (List.mem_reverse.mpr hstep)
  simp [hkind] at hnone

theorem lastRequest_cons (step : HttpFlowStep) (steps : List HttpFlowStep) :
    lastRequest (step :: steps) =
      (lastRequest steps).or (if step.kind = .request then some step.id else none) := by
  unfold lastRequest
  rw [List.reverse_cons, List.find?_append]
  cases steps.reverse.find? (·.kind == .request) with
  | some found => rfl
  | none =>
    by_cases hkind : step.kind = .request
    · simp [hkind]
    · simp [hkind]

theorem validateSteps_eq_ok {index : Nat} {ids : List Text} {last r : Option Text}
    {steps : List HttpFlowStep} :
    HttpTaskConfig.validateSteps o index ids last steps = .ok r ↔
      (∀ step ∈ steps, step.validate o = .ok ()) ∧ Fresh ids (steps.map (·.id)) ∧
        r = (lastRequest steps).or last := by
  induction steps generalizing index ids last with
  | nil => simp [HttpTaskConfig.validateSteps, fresh_nil, lastRequest, eq_comm]
  | cons step steps ih =>
    have hnext : (lastRequest steps).or (if step.kind = .request then some step.id else last) =
        (lastRequest (step :: steps)).or last := by
      rw [lastRequest_cons, Option.or_assoc]
      split <;> rfl
    unfold HttpTaskConfig.validateSteps
    rw [List.forall_mem_cons, List.map_cons, fresh_cons, ← hnext]
    cases step.validate o with
    | error e => simp [bind, Except.bind]
    | ok =>
      show (if ids.contains step.id then _ >>= _ else _) = _ ↔ _
      rw [refused_eq_ok, ih]
      simp only [List.contains_eq_mem, decide_eq_true_eq]
      tauto

/-- The id of the step whose response is judged. -/
def HttpTaskConfig.selected (task : HttpTaskConfig) : Text :=
  if task.resultStepId.isEmpty then (lastRequest task.steps).getD [] else task.resultStepId

/-- The step whose response is judged is a request that is not skipped when it fails. -/
def Judges (steps : List HttpFlowStep) (selected : Text) : Prop :=
  (∃ step ∈ steps, step.id = selected ∧ step.kind = .request) ∧
    ∀ step ∈ steps, step.id = selected → step.onError ≠ .continue

theorem judges_iff {steps : List HttpFlowStep} {selected e e' : Text}
    {f : Unit → Except Text Unit} :
    (if (!steps.any fun step => step.id == selected && step.kind == .request) = true then
        Except.error e >>= f
      else if (steps.any fun step => step.id == selected && step.onError == .continue) = true then
        Except.error e'
      else pure ()) = .ok () ↔ Judges steps selected := by
  rw [refused_eq_ok, refused_last_eq_ok]
  simp [Judges, pure, Except.pure]

structure FlowChecked (o : Outside) (task : HttpTaskConfig) : Prop where
  version : task.schemaVersion = 2
  count : task.steps.length ≤ 16
  steps : ∀ step ∈ task.steps, step.validate o = .ok ()
  ids : Fresh [] (task.steps.map (·.id))
  judges : Judges task.steps task.selected

theorem validateFlow_eq_ok_iff {task : HttpTaskConfig} (hsteps : task.steps ≠ []) :
    task.validateFlow o = .ok () ↔ FlowChecked o task := by
  have hsome : ¬task.steps.isEmpty = true := by simpa using hsteps
  unfold HttpTaskConfig.validateFlow
  rw [if_neg hsome]
  show (if _ then _ >>= _ else if _ then _ >>= _ else _ >>= _) = _ ↔ _
  rw [refused_eq_ok, refused_eq_ok, bind_eq_ok]
  simp only [validateSteps_eq_ok, Option.or_none]
  constructor
  · rintro ⟨hversion, hcount, _, ⟨hvalid, hids, rfl⟩, hresult⟩
    refine ⟨by simpa using hversion, Nat.not_lt.mp hcount, hvalid, hids, ?_⟩
    unfold HttpTaskConfig.selected
    split at hresult
    next hempty =>
      rw [if_pos hempty]
      cases hlast : lastRequest task.steps with
      | none => rw [hlast] at hresult; cases hresult
      | some id => rw [hlast] at hresult; exact judges_iff.mp hresult
    next hgiven =>
      rw [if_neg hgiven]
      exact judges_iff.mp hresult
  · intro h
    refine ⟨by simp [h.version], Nat.not_lt.mpr h.count, _, ⟨h.steps, h.ids, rfl⟩, ?_⟩
    have hjudges := h.judges
    unfold HttpTaskConfig.selected at hjudges
    by_cases hempty : task.resultStepId.isEmpty = true
    · rw [if_pos hempty] at hjudges ⊢
      cases hlast : lastRequest task.steps with
      | none =>
        obtain ⟨⟨step, hstep, -, hkind⟩, -⟩ := hjudges
        exact (kind_of_lastRequest_none hlast step hstep hkind).elim
      | some id =>
        rw [hlast] at hjudges
        exact judges_iff.mpr hjudges
    · rw [if_neg hempty] at hjudges ⊢
      exact judges_iff.mpr hjudges

/-! ## Requests beside the login request -/

theorem checkAddress_eq_ok {what missing : String} {url : Text} :
    checkAddress what missing url = .ok () ↔ HttpAddress (strip url) := by
  simp only [checkAddress, refused_eq_ok, refused_last_eq_ok]
  constructor
  · rintro ⟨-, hscheme, hhost, -⟩
    exact ⟨by simpa using hscheme, by simpa using hhost⟩
  · intro h
    have hne : strip url ≠ [] := by
      intro hnil
      rw [hnil] at h
      exact absurd h.2 (by decide)
    exact ⟨by simpa using hne, by simpa using h.1, by simpa using h.2, rfl⟩

structure PreRequestAccepted (pre : HttpPreRequest) : Prop where
  address : HttpAddress (strip pre.url)
  path : ∃ path, pre.extractPath = .ok path
  url : byteLen pre.url ≤ maxHttpUrlBytes
  headers : byteLen pre.headers ≤ maxHttpHeadersBytes
  body : byteLen pre.body ≤ maxHttpBodyBytes

theorem preRequestErrors_eq_nil_iff {pre : HttpPreRequest} :
    preRequestErrors pre = [] ↔ PreRequestAccepted pre := by
  have hvalidate : pre.validate = .ok () ↔
      HttpAddress (strip pre.url) ∧ ∃ path, pre.extractPath = .ok path := by
    unfold HttpPreRequest.validate
    rw [check_eq_ok, checkAddress_eq_ok, bind_eq_ok]
    simp [pure, Except.pure]
  have hsizes : WithinSizes [("pre_request.url", pre.url, maxHttpUrlBytes),
      ("pre_request.headers", pre.headers, maxHttpHeadersBytes),
      ("pre_request.body", pre.body, maxHttpBodyBytes)] ↔
      byteLen pre.url ≤ maxHttpUrlBytes ∧ byteLen pre.headers ≤ maxHttpHeadersBytes ∧
        byteLen pre.body ≤ maxHttpBodyBytes := by
    simp [WithinSizes]
  unfold preRequestErrors
  rw [List.append_eq_nil_iff, reportResult_eq_nil, sizeErrors_eq_nil, hvalidate, hsizes]
  constructor
  · rintro ⟨⟨haddress, hpath⟩, hurl, hheaders, hbody⟩
    exact ⟨haddress, hpath, hurl, hheaders, hbody⟩
  · exact fun h => ⟨⟨h.address, h.path⟩, h.url, h.headers, h.body⟩

structure LogoutRequestAccepted (logout : HttpActionRequest) : Prop where
  address : HttpAddress (strip logout.url)
  wait : 0 ≤ logout.waitSecs ∧ logout.waitSecs ≤ 30
  url : byteLen logout.url ≤ maxHttpUrlBytes
  headers : byteLen logout.headers ≤ maxHttpHeadersBytes
  body : byteLen logout.body ≤ maxHttpBodyBytes

theorem logoutRequestErrors_eq_nil_iff {logout : HttpActionRequest} :
    logoutRequestErrors o logout = [] ↔ LogoutRequestAccepted logout := by
  have hvalidate : logout.validate o = .ok () ↔
      HttpAddress (strip logout.url) ∧ 0 ≤ logout.waitSecs ∧ logout.waitSecs ≤ 30 := by
    simp only [HttpActionRequest.validate, check_eq_ok, checkAddress_eq_ok, refused_eq_ok,
      refused_last_eq_ok, gt_iff_lt, Rat.not_lt]
    simp [pure, Except.pure]
  have hsizes : WithinSizes [("logout_request.url", logout.url, maxHttpUrlBytes),
      ("logout_request.headers", logout.headers, maxHttpHeadersBytes),
      ("logout_request.body", logout.body, maxHttpBodyBytes)] ↔
      byteLen logout.url ≤ maxHttpUrlBytes ∧ byteLen logout.headers ≤ maxHttpHeadersBytes ∧
        byteLen logout.body ≤ maxHttpBodyBytes := by
    simp [WithinSizes]
  unfold logoutRequestErrors
  rw [List.append_eq_nil_iff, reportResult_eq_nil, sizeErrors_eq_nil, hvalidate, hsizes]
  constructor
  · rintro ⟨⟨haddress, hwait⟩, hurl, hheaders, hbody⟩
    exact ⟨haddress, hwait, hurl, hheaders, hbody⟩
  · exact fun h => ⟨⟨h.address, h.wait⟩, h.url, h.headers, h.body⟩

end CampusAuth.Tasks
