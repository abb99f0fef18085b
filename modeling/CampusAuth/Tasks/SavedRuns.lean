import CampusAuth.Tasks.Accepted
import CampusAuth.Tasks.LoginRequest

/- What can be saved and what can be run. A document is checked when it is saved and its task
   once more when it is run, by checks that do not agree: the login asks for an address that a
   parser of URLs accepts where saving asks for one that is not blank, it bounds texts that
   saving leaves alone, and with steps it looks at a request that only a task without steps
   sends. `LoginFits` is the difference, and `saved_runs_iff` says that there is no other. -/
namespace CampusAuth.Tasks
open Lib Login

/-! ## What the login asks for -/

theorem validateUrl_strip (o : Outside) (url : Text) :
    validateUrl o (strip url) = validateUrl o url := by
  unfold validateUrl
  rw [strip_strip]

/-- The address, or the steps. -/
def AddressRuns (o : Outside) (task : HttpTaskConfig) : Prop :=
  if task.steps = [] then validateUrl o task.url = .ok () else task.validateFlow o = .ok ()

/-- The bounds of the login on the texts of its request. -/
def TextsRun (task : HttpTaskConfig) : Prop :=
  byteLen (strip task.url) ≤ maxUrlBytes ∧ byteLen task.headers ≤ maxHeadersBytes ∧
    byteLen task.body ≤ maxRequestBodyBytes ∧ byteLen task.successPattern ≤ maxPatternBytes ∧
    byteLen task.failurePattern ≤ maxPatternBytes ∧ byteLen task.cryptoScript ≤ maxScriptBytes

def PreRequestRuns (pre : HttpPreRequest) : Prop :=
  pre.validate = .ok () ∧ byteLen pre.url ≤ maxUrlBytes ∧ byteLen pre.headers ≤ maxHeadersBytes ∧
    byteLen pre.body ≤ maxRequestBodyBytes ∧ byteLen pre.extract ≤ maxPatternBytes ∧
    byteLen pre.name ≤ maxPatternBytes

def LogoutRequestRuns (o : Outside) (logout : HttpActionRequest) : Prop :=
  logout.validate o = .ok () ∧ byteLen logout.url ≤ maxUrlBytes ∧
    byteLen logout.headers ≤ maxHeadersBytes ∧ byteLen logout.body ≤ maxRequestBodyBytes

theorem validatePreRequest_eq_ok {pre : HttpPreRequest} :
    HttpLoginRequest.validatePreRequest pre = .ok () ↔ PreRequestRuns pre := by
  unfold HttpLoginRequest.validatePreRequest PreRequestRuns
  rw [check_eq_ok, checkSizes_eq_ok]
  simp [WithinSizes]

theorem validateLogoutRequest_eq_ok {o : Outside} {logout : HttpActionRequest} :
    HttpLoginRequest.validateLogoutRequest o logout = .ok () ↔ LogoutRequestRuns o logout := by
  unfold HttpLoginRequest.validateLogoutRequest LogoutRequestRuns
  rw [check_eq_ok, checkSizes_eq_ok]
  simp [WithinSizes]

theorem whenSome_eq_ok {α : Type} {check : α → Except Text Unit} {request : Option α} :
    HttpLoginRequest.whenSome check request = .ok () ↔
      ∀ r, request = some r → check r = .ok () := by
  cases request with
  | none => simp [HttpLoginRequest.whenSome]
  | some r => simp [HttpLoginRequest.whenSome]

/-- The flow of the request is the flow of the task, which has a version of its own. -/
theorem validateFlow_request {o : Outside} {task : HttpTaskConfig} (hsteps : task.steps ≠ [])
    (h : task.validateFlow o = .ok ()) :
    HttpTaskConfig.validateFlow o
      { schemaVersion := 2, steps := task.steps, resultStepId := task.resultStepId } = .ok () := by
  have hversion : task.schemaVersion = 2 := by
    by_contra hne
    unfold HttpTaskConfig.validateFlow at h
    simp [hsteps, hne, bind, Except.bind] at h
  unfold HttpTaskConfig.validateFlow at h ⊢
  rw [hversion] at h
  exact h

theorem validateTemplates_eq_ok {task : HttpTaskConfig} {who : Credentials} :
    HttpLoginRequest.validateTemplates (HttpLoginRequest.ofTask task who).url task.headers task.body
      task.successPattern task.failurePattern task.cryptoScript = .ok () ↔ TextsRun task := by
  unfold HttpLoginRequest.validateTemplates TextsRun
  rw [checkSizes_eq_ok]
  simp [WithinSizes, HttpLoginRequest.ofTask]

/-- The check of a request, once its task has been checked as a flow. -/
theorem validate_ofTask (o : Outside) (task : HttpTaskConfig) (who : Credentials)
    (hflow : task.validateFlow o = .ok ()) :
    (HttpLoginRequest.ofTask task who).validate o = .ok () ↔
      AddressRuns o task ∧ TextsRun task ∧
        (∀ pre, task.preRequest = some pre → PreRequestRuns pre) ∧
        ∀ logout, task.logoutRequest = some logout → LogoutRequestRuns o logout := by
  have hrest : HttpLoginRequest.validateTemplates (HttpLoginRequest.ofTask task who).url
      task.headers task.body task.successPattern task.failurePattern task.cryptoScript = .ok () ∧
      HttpLoginRequest.whenSome HttpLoginRequest.validatePreRequest task.preRequest = .ok () ∧
      HttpLoginRequest.whenSome (HttpLoginRequest.validateLogoutRequest o)
        task.logoutRequest = .ok () ↔
      TextsRun task ∧ (∀ pre, task.preRequest = some pre → PreRequestRuns pre) ∧
        ∀ logout, task.logoutRequest = some logout → LogoutRequestRuns o logout := by
    rw [validateTemplates_eq_ok, whenSome_eq_ok, whenSome_eq_ok]
    simp only [validatePreRequest_eq_ok, validateLogoutRequest_eq_ok]
  have hsteps : (HttpLoginRequest.ofTask task who).steps = task.steps := rfl
  unfold HttpLoginRequest.validate AddressRuns
  simp only [hsteps]
  by_cases hnil : task.steps = []
  · rw [if_pos hnil, if_pos (by rw [hnil]; rfl), check_eq_ok, check_eq_ok, check_eq_ok]
    refine and_congr ?_ hrest
    rw [← validateUrl_strip o task.url]
    rfl
  · have hsome : ¬task.steps.isEmpty = true := by simpa using hnil
    rw [if_neg hnil, if_neg hsome, check_eq_ok, check_eq_ok, check_eq_ok]
    exact and_congr ⟨fun _ => hflow, fun _ => validateFlow_request hnil hflow⟩ hrest

/-- What the login asks of a task, whoever logs in. -/
theorem fromTask_ok_iff (o : Outside) (task : HttpTaskConfig) (who : Credentials)
    (hurl : task.steps = [] → strip task.url ≠ []) :
    (∃ req, HttpLoginRequest.fromTask o task who = .ok req) ↔
      task.validateFlow o = .ok () ∧ AddressRuns o task ∧ TextsRun task ∧
        (∀ pre, task.preRequest = some pre → PreRequestRuns pre) ∧
        ∀ logout, task.logoutRequest = some logout → LogoutRequestRuns o logout := by
  have hpresent : ¬(task.steps.isEmpty && List.isEmpty (strip task.url)) = true := by
    intro hmissing
    rw [Bool.and_eq_true, List.isEmpty_iff, List.isEmpty_iff] at hmissing
    exact hurl hmissing.1 hmissing.2
  unfold HttpLoginRequest.fromTask
  simp only [if_neg hpresent]
  constructor
  · rintro ⟨req, hreq⟩
    obtain ⟨hflow, hreq⟩ := check_eq_ok.mp hreq
    refine ⟨hflow, (validate_ofTask o task who hflow).mp ?_⟩
    split at hreq
    · obtain ⟨-, hreq⟩ := check_eq_ok.mp hreq
      exact (check_eq_ok.mp hreq).1
    · exact (check_eq_ok.mp hreq).1
  · rintro ⟨hflow, hrest⟩
    refine ⟨HttpLoginRequest.ofTask task who, check_eq_ok.mpr ⟨hflow, ?_⟩⟩
    have hvalid := (validate_ofTask o task who hflow).mpr hrest
    split
    next hnil =>
      have haddress := hrest.1
      rw [AddressRuns, if_pos (List.isEmpty_iff.mp hnil)] at haddress
      exact check_eq_ok.mpr ⟨haddress, check_eq_ok.mpr ⟨hvalid, rfl⟩⟩
    next => exact check_eq_ok.mpr ⟨hvalid, rfl⟩

/-! ## What is checked when a task is saved -/

theorem preRequestErrors_eq_nil {pre : HttpPreRequest} (h : preRequestErrors pre = []) :
    pre.validate = .ok () ∧ byteLen pre.url ≤ maxHttpUrlBytes ∧
      byteLen pre.headers ≤ maxHttpHeadersBytes ∧ byteLen pre.body ≤ maxHttpBodyBytes := by
  unfold preRequestErrors at h
  obtain ⟨hshape, hsizes⟩ := List.append_eq_nil_iff.mp h
  have hsizes := sizeErrors_eq_nil.mp hsizes
  exact ⟨reportResult_eq_nil.mp hshape, by simpa [WithinSizes] using hsizes⟩

theorem logoutRequestErrors_eq_nil {o : Outside} {logout : HttpActionRequest}
    (h : logoutRequestErrors o logout = []) : LogoutRequestRuns o logout := by
  unfold logoutRequestErrors at h
  obtain ⟨hshape, hsizes⟩ := List.append_eq_nil_iff.mp h
  have hsizes := sizeErrors_eq_nil.mp hsizes
  -- The bounds of the login are those of the save.
  have hbounds : byteLen logout.url ≤ maxHttpUrlBytes ∧
      byteLen logout.headers ≤ maxHttpHeadersBytes ∧ byteLen logout.body ≤ maxHttpBodyBytes := by
    simpa [WithinSizes] using hsizes
  exact ⟨reportResult_eq_nil.mp hshape, hbounds⟩

/-- What a saved task without steps has been checked for. -/
structure SavedLegacy (o : Outside) (task : HttpTaskConfig) : Prop where
  present : strip task.url ≠ []
  url : byteLen task.url ≤ maxHttpUrlBytes
  headers : byteLen task.headers ≤ maxHttpHeadersBytes
  body : byteLen task.body ≤ maxHttpBodyBytes
  cryptoScript : byteLen task.cryptoScript ≤ maxHttpScriptBytes
  preRequest : ∀ pre, task.preRequest = some pre → pre.validate = .ok () ∧
    byteLen pre.url ≤ maxHttpUrlBytes ∧ byteLen pre.headers ≤ maxHttpHeadersBytes ∧
    byteLen pre.body ≤ maxHttpBodyBytes
  logoutRequest : ∀ logout, task.logoutRequest = some logout → LogoutRequestRuns o logout

theorem savedLegacy_of_accepted {o : Outside} {task : HttpTaskConfig} (h : LegacyAccepted o task) :
    SavedLegacy o task where
  present := h.present
  url := h.url
  headers := h.headers
  body := h.body
  cryptoScript := h.cryptoScript
  preRequest pre hsome := preRequestErrors_eq_nil (h.preRequest pre hsome)
  logoutRequest logout hsome := logoutRequestErrors_eq_nil (h.logoutRequest logout hsome)

theorem validateFlow_legacy (o : Outside) {task : HttpTaskConfig} (hnil : task.steps = [])
    (hversion : task.schemaVersion = 1) : task.validateFlow o = .ok () := by
  unfold HttpTaskConfig.validateFlow
  simp [hnil, hversion, pure, Except.pure]

/-! ## The difference -/

/-- A task without steps that was saved: what the login asks for beyond. -/
structure LegacyFits (o : Outside) (task : HttpTaskConfig) : Prop where
  url : validateUrl o task.url = .ok ()
  successPattern : byteLen task.successPattern ≤ maxPatternBytes
  failurePattern : byteLen task.failurePattern ≤ maxPatternBytes
  preRequest : ∀ pre, task.preRequest = some pre →
    byteLen pre.extract ≤ maxPatternBytes ∧ byteLen pre.name ≤ maxPatternBytes

/-- A task with steps that was saved: the login looks at the fields of the other form. -/
structure FlowFits (o : Outside) (task : HttpTaskConfig) : Prop where
  url : byteLen (strip task.url) ≤ maxUrlBytes
  headers : byteLen task.headers ≤ maxHeadersBytes
  body : byteLen task.body ≤ maxRequestBodyBytes
  cryptoScript : byteLen task.cryptoScript ≤ maxScriptBytes
  preRequest : ∀ pre, task.preRequest = some pre → PreRequestRuns pre
  logoutRequest : ∀ logout, task.logoutRequest = some logout → LogoutRequestRuns o logout

def LoginFits (o : Outside) (task : HttpTaskConfig) : Prop :=
  (task.steps = [] → LegacyFits o task) ∧ (task.steps ≠ [] → FlowFits o task)

variable {o : Outside} {task : HttpTaskConfig}

theorem legacy_runs_iff (hnil : task.steps = []) (hversion : task.schemaVersion = 1)
    (hsaved : SavedLegacy o task) :
    (∀ who, ∃ req, HttpLoginRequest.fromTask o task who = .ok req) ↔ LoginFits o task := by
  have hflow := validateFlow_legacy o hnil hversion
  have hlen := (byteLen_strip_le task.url).trans hsaved.url
  simp only [fromTask_ok_iff o task _ fun _ => hsaved.present, forall_const]
  constructor
  · rintro ⟨-, haddress, ⟨-, -, -, hsuccess, hfailure, -⟩, hpre, -⟩
    rw [AddressRuns, if_pos hnil] at haddress
    refine ⟨fun _ => ⟨haddress, hsuccess, hfailure, fun pre hsome => ?_⟩, fun h => (h hnil).elim⟩
    obtain ⟨-, -, -, -, hextract, hname⟩ := hpre pre hsome
    exact ⟨hextract, hname⟩
  · rintro ⟨hfits, -⟩
    obtain ⟨haddress, hsuccess, hfailure, hpre⟩ := hfits hnil
    refine ⟨hflow, by rwa [AddressRuns, if_pos hnil], ⟨hlen, hsaved.headers, hsaved.body, hsuccess,
      hfailure, hsaved.cryptoScript⟩, fun pre hsome => ?_, hsaved.logoutRequest⟩
    obtain ⟨hshape, hurl, hheaders, hbody⟩ := hsaved.preRequest pre hsome
    exact ⟨hshape, hurl, hheaders, hbody, hpre pre hsome⟩

theorem flow_runs_iff (hsteps : task.steps ≠ []) (hflow : task.validateFlow o = .ok ())
    (hsuccess : byteLen task.successPattern ≤ maxHttpUrlBytes)
    (hfailure : byteLen task.failurePattern ≤ maxHttpUrlBytes) :
    (∀ who, ∃ req, HttpLoginRequest.fromTask o task who = .ok req) ↔ LoginFits o task := by
  simp only [fromTask_ok_iff o task _ fun hnil => (hsteps hnil).elim, forall_const]
  constructor
  · rintro ⟨-, -, ⟨hurl, hheaders, hbody, -, -, hscript⟩, hpre, hlogout⟩
    exact ⟨fun hnil => (hsteps hnil).elim, fun _ => ⟨hurl, hheaders, hbody, hscript, hpre, hlogout⟩⟩
  · rintro ⟨-, hfits⟩
    obtain ⟨hurl, hheaders, hbody, hscript, hpre, hlogout⟩ := hfits hsteps
    exact ⟨hflow, by rwa [AddressRuns, if_neg hsteps],
      ⟨hurl, hheaders, hbody, hsuccess, hfailure, hscript⟩, hpre, hlogout⟩

/-- A document that is saved is run with any credentials exactly when its task has what only
    the login asks for. -/
theorem saved_runs_iff (o : Outside) (config : Json) (task : HttpTaskConfig)
    (hload : loadHttpTask o config = some task) (hsaved : validateHttpTask o config = []) :
    (∀ who, ∃ req, HttpLoginRequest.fromTask o task who = .ok req) ↔ LoginFits o task := by
  unfold loadHttpTask at hload
  split at hload
  next hhttp =>
    cases config with
    | obj m =>
      obtain ⟨-, -, haccepted⟩ := (validateHttpTask_eq_nil_iff hload).mp hsaved
      cases haccepted with
      | flow hsteps haccepted =>
        exact flow_runs_iff hsteps haccepted.flow haccepted.successPattern
          haccepted.failurePattern
      | legacy hnil hversion haccepted =>
        exact legacy_runs_iff hnil hversion (savedLegacy_of_accepted haccepted)
    | null | bool | number | str | arr => cases hload
  next => cases hload

/-- A parser of URLs that are no more than a scheme, a host and a path, beside a regular
    expression without groups and numbers that are all 0. -/
def Outside.plain : Outside where
  float _ := 0
  printFloat _ := ['0']
  parseUrl url :=
    match splitAt "://".toList url with
    | some (scheme, rest) => .ok (scheme.map Char.toLower, some (rest.takeWhile (· != '/')))
    | none => .error "relative URL without a base".toList
  captures _ := .ok 1
  typeError _ _ := []

def portalDocument (url : String) : Json :=
  .obj [("type", .str "http"), ("name", .str "Portal"), ("url", .str url)]

def portalTask (url : String) : HttpTaskConfig :=
  { common := { name := "Portal".toList }, url := url.toList }

theorem saved_runs_portal : LoginFits .plain (portalTask "http://10.0.0.1/login") ∧
    ∃ req, HttpLoginRequest.fromTask .plain (portalTask "http://10.0.0.1/login") default =
      .ok req := by
  have hfits : LoginFits .plain (portalTask "http://10.0.0.1/login") := by
    refine ⟨fun _ => ⟨rfl, by decide, by decide, ?_⟩, fun hsteps => (hsteps rfl).elim⟩
    intro pre hsome
    cases hsome
  exact ⟨hfits, (saved_runs_iff .plain (portalDocument "http://10.0.0.1/login") _ rfl rfl).mpr
    hfits default⟩

/-- An address without a scheme is saved, and no login takes it. -/
theorem saved_never_runs : ¬∀ o config task, loadHttpTask o config = some task →
    validateHttpTask o config = [] →
      ∀ who, ∃ req, HttpLoginRequest.fromTask o task who = .ok req := by
  intro hruns
  obtain ⟨req, hreq⟩ := hruns .plain (portalDocument "portal.example/login")
    (portalTask "portal.example/login") rfl rfl default
  have herror : HttpLoginRequest.fromTask .plain (portalTask "portal.example/login") default =
      .error "直连请求 URL 无法解析: relative URL without a base".toList := rfl
  rw [herror] at hreq
  cases hreq

end CampusAuth.Tasks
