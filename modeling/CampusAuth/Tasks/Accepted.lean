import Mathlib.Algebra.Order.BigOperators.Group.List
import Mathlib.Data.List.DropRight
import CampusAuth.Tasks.Loader

/- What the check of a document says of the task the document is read as. The check looks at the
   document as it is written, where a field may be missing or of another type; once the document
   is read, what it looked at are the fields of the task (`flowErrors_eq_nil_iff`,
   `legacyErrors_eq_nil_iff`). -/
namespace CampusAuth.Tasks
open Lib Login

/-! ## Checks that succeed -/

theorem report_eq_nil {wrong : Bool} {message : Text} :
    report wrong message = [] ↔ wrong = false := by
  cases wrong <;> simp [report]

theorem reportResult_eq_nil {r : Except Text Unit} : reportResult r = [] ↔ r = .ok () := by
  cases r <;> simp [reportResult]

/-- The bounds of a list of texts. -/
def WithinSizes (checks : List (String × Text × Nat)) : Prop :=
  ∀ check ∈ checks, byteLen check.2.1 ≤ check.2.2

theorem checkSizes_eq_ok {message : String → Nat → Text} {checks : List (String × Text × Nat)} :
    checkSizes message checks = .ok () ↔ WithinSizes checks := by
  unfold WithinSizes
  induction checks with
  | nil => simp [checkSizes]
  | cons check checks ih =>
    unfold checkSizes
    rw [List.forall_mem_cons]
    split
    next hlong => simp [Nat.not_le.mpr hlong]
    next hfits => rw [ih]; simp [Nat.not_lt.mp hfits]

theorem sizeErrors_eq_nil {checks : List (String × Text × Nat)} :
    sizeErrors checks = [] ↔ WithinSizes checks := by
  unfold sizeErrors WithinSizes
  rw [List.flatMap_eq_nil_iff]
  refine forall₂_congr fun check _ => ?_
  rw [report_eq_nil]
  simp

theorem byteLen_strip_le (s : Text) : byteLen (strip s) ≤ byteLen s := by
  have hfront := List.dropWhile_sublist isWhitespace (l := s)
  have hback := List.dropWhile_sublist isWhitespace (l := (s.dropWhile isWhitespace).reverse)
  have hsub : (strip s).Sublist s := (List.reverse_sublist.mpr hback).trans
    (by rwa [List.reverse_reverse])
  exact (hsub.map _).sum_le_sum fun _ _ => Nat.zero_le _

/-! ## The document and the task -/

/-- The fields of a task that are checked, as its document has them. -/
structure ReadFrom (o : Outside) (m : List (String × Json)) (task : HttpTaskConfig) : Prop where
  common : readCommon m = some task.common
  version : Json.field Json.readU32 1 m "schema_version" = some task.schemaVersion
  steps : Json.field (Json.readVec (readStep o)) [] m "steps" = some task.steps
  url : Json.field Json.readText [] m "url" = some task.url
  authUrl : Json.field Json.readText [] m "auth_url" = some task.authUrl
  headers : Json.field Json.readText [] m "headers" = some task.headers
  body : Json.field Json.readText [] m "body" = some task.body
  cryptoScript : Json.field Json.readText [] m "crypto_script" = some task.cryptoScript
  preRequest : Json.field (Json.readOption readPreRequest) none m "pre_request" =
    some task.preRequest
  logoutRequest : Json.field (Json.readOption (readActionRequest o)) none m "logout_request" =
    some task.logoutRequest

theorem readFrom_of_read {o : Outside} {m : List (String × Json)} {task : HttpTaskConfig}
    (h : HttpTaskConfig.read o (.obj m) = some task) : ReadFrom o m task := by
  obtain ⟨_, hcommon, h⟩ := Option.bind_eq_some_iff.mp h
  obtain ⟨_, hversion, h⟩ := Option.bind_eq_some_iff.mp h
  obtain ⟨_, hsteps, h⟩ := Option.bind_eq_some_iff.mp h
  obtain ⟨_, -, h⟩ := Option.bind_eq_some_iff.mp h
  obtain ⟨_, -, h⟩ := Option.bind_eq_some_iff.mp h
  obtain ⟨_, hurl, h⟩ := Option.bind_eq_some_iff.mp h
  obtain ⟨_, hauthUrl, h⟩ := Option.bind_eq_some_iff.mp h
  obtain ⟨_, hheaders, h⟩ := Option.bind_eq_some_iff.mp h
  obtain ⟨_, hbody, h⟩ := Option.bind_eq_some_iff.mp h
  obtain ⟨_, -, h⟩ := Option.bind_eq_some_iff.mp h
  obtain ⟨_, -, h⟩ := Option.bind_eq_some_iff.mp h
  obtain ⟨_, -, h⟩ := Option.bind_eq_some_iff.mp h
  obtain ⟨_, -, h⟩ := Option.bind_eq_some_iff.mp h
  obtain ⟨_, hscript, h⟩ := Option.bind_eq_some_iff.mp h
  obtain ⟨_, hpre, h⟩ := Option.bind_eq_some_iff.mp h
  obtain ⟨_, hlogout, h⟩ := Option.bind_eq_some_iff.mp h
  obtain ⟨_, -, h⟩ := Option.bind_eq_some_iff.mp h
  obtain rfl := Option.some.inj h
  exact {
    common := hcommon
    version := hversion
    steps := hsteps
    url := hurl
    authUrl := hauthUrl
    headers := hheaders
    body := hbody
    cryptoScript := hscript
    preRequest := hpre
    logoutRequest := hlogout }

section
variable {o : Outside} {m : List (String × Json)} {task : HttpTaskConfig}

theorem flow_steps_iff {steps : List HttpFlowStep}
    (h : Json.field (Json.readVec (readStep o)) [] m "steps" = some steps) :
    (m.lookup "steps").any (fun v => !v.isNull && !v.asArray.any List.isEmpty) = true ↔
      steps ≠ [] := by
  unfold Json.field at h
  cases hget : m.lookup "steps" with
  | none =>
    rw [hget] at h
    cases h
    simp
  | some v =>
    rw [hget] at h
    have hnull : v.isNull = false := by
      cases v with
      | null => cases h
      | bool | number | str | arr | obj => rfl
    rw [Option.any_some, hnull, ne_eq, Json.readVec_eq_nil h]
    simp

theorem flow_version_iff {version : Nat}
    (h : Json.field Json.readU32 1 m "schema_version" = some version) :
    (m.lookup "schema_version").any (fun v => !v.isNull && v.asU64 != some 1) = true ↔
      version ≠ 1 := by
  unfold Json.field at h
  cases hget : m.lookup "schema_version" with
  | none =>
    rw [hget] at h
    cases h
    simp
  | some v =>
    rw [hget] at h
    have hvalue : v.asU64 = some version := (Option.filter_eq_some_iff.mp h).1
    have hnull : v.isNull = false := by
      cases v with
      | null => cases h
      | bool | number | str | arr | obj => rfl
    rw [Option.any_some, hnull, hvalue]
    simp

theorem isFlowTask_iff (h : ReadFrom o m task) :
    isFlowTask (.obj m) = true ↔ task.steps ≠ [] ∨ task.schemaVersion ≠ 1 := by
  rw [← flow_steps_iff h.steps, ← flow_version_iff h.version]
  exact Bool.or_eq_true_iff

/-- A request of a document that may be missing is without errors, when it is there. -/
theorem requestErrors_eq_nil_iff {α : Type} {name type : String} {read : Json → Option α}
    {errors : α → List Text} {value : Option α}
    (hread : Json.field (Json.readOption read) none m name = some value) :
    requestErrors o (.obj m) name type read errors = [] ↔
      ∀ request, value = some request → errors request = [] := by
  have hvalue := Json.of_optional hread
  unfold requestErrors
  cases hraw : ((Json.obj m).get name).filter (fun v => !v.isNull) with
  | none =>
    rw [hraw] at hvalue
    rw [show value = none from hvalue]
    simp
  | some raw =>
    rw [hraw] at hvalue
    obtain ⟨request, hrequest, rfl⟩ := hvalue
    simp [hrequest]

/-! ## Accepted tasks -/

/-- An address with the scheme `http` or `https` and a host. -/
def HttpAddress (url : Text) : Prop := isHttpScheme (cutUrl url).1 = true ∧ (cutUrl url).2 ≠ []

def AuthUrlAccepted (url : Text) : Prop := strip url = [] ∨ HttpAddress (strip url)

structure FlowAccepted (o : Outside) (task : HttpTaskConfig) : Prop where
  flow : task.validateFlow o = .ok ()
  authUrl : AuthUrlAccepted task.authUrl
  authUrlSize : byteLen task.authUrl ≤ maxHttpUrlBytes
  successPattern : byteLen task.successPattern ≤ maxHttpUrlBytes
  failurePattern : byteLen task.failurePattern ≤ maxHttpUrlBytes

theorem flowErrors_eq_nil_iff {config : Json} (hread : HttpTaskConfig.read o config = some task) :
    flowErrors o config = [] ↔ FlowAccepted o task := by
  have hauth : (!(strip task.authUrl).isEmpty && (!isHttpScheme (cutUrl (strip task.authUrl)).1 ||
      (cutUrl (strip task.authUrl)).2.isEmpty)) = false ↔ AuthUrlAccepted task.authUrl := by
    simp [AuthUrlAccepted, HttpAddress, or_iff_not_imp_left]
  unfold flowErrors
  simp only [hread, List.append_eq_nil_iff, reportResult_eq_nil, report_eq_nil, sizeErrors_eq_nil,
    hauth]
  constructor
  · rintro ⟨⟨hflow, hurl⟩, hsizes⟩
    simp only [WithinSizes, List.forall_mem_cons] at hsizes
    exact ⟨hflow, hurl, hsizes.1, hsizes.2.1, hsizes.2.2.1⟩
  · intro h
    refine ⟨⟨h.flow, h.authUrl⟩, ?_⟩
    simp only [WithinSizes, List.forall_mem_cons]
    exact ⟨h.authUrlSize, h.successPattern, h.failurePattern, by simp⟩

structure LegacyAccepted (o : Outside) (task : HttpTaskConfig) : Prop where
  present : strip task.url ≠ []
  authUrl : AuthUrlAccepted task.authUrl
  cryptoScript : byteLen task.cryptoScript ≤ maxHttpScriptBytes
  url : byteLen task.url ≤ maxHttpUrlBytes
  headers : byteLen task.headers ≤ maxHttpHeadersBytes
  body : byteLen task.body ≤ maxHttpBodyBytes
  preRequest : ∀ pre, task.preRequest = some pre → preRequestErrors pre = []
  logoutRequest : ∀ logout, task.logoutRequest = some logout → logoutRequestErrors o logout = []

theorem legacyErrors_eq_nil_iff (h : ReadFrom o m task) :
    legacyErrors o (.obj m) = [] ↔ LegacyAccepted o task := by
  have hauth : (!(strip task.authUrl).isEmpty &&
        !isHttpScheme (cutUrl (strip task.authUrl)).1) = false ∧
      (!(strip task.authUrl).isEmpty && isHttpScheme (cutUrl (strip task.authUrl)).1 &&
        (cutUrl (strip task.authUrl)).2.isEmpty) = false ↔ AuthUrlAccepted task.authUrl := by
    unfold AuthUrlAccepted HttpAddress
    cases isHttpScheme (cutUrl (strip task.authUrl)).1 <;> simp [or_iff_not_imp_left]
  unfold legacyErrors member
  simp only [List.append_eq_nil_iff, report_eq_nil, sizeErrors_eq_nil,
    Json.text_of_field h.url, Json.text_of_field h.authUrl, Json.text_of_field h.headers,
    Json.text_of_field h.body, Json.text_of_field h.cryptoScript,
    requestErrors_eq_nil_iff h.preRequest, requestErrors_eq_nil_iff h.logoutRequest]
  constructor
  · rintro ⟨⟨⟨⟨⟨⟨hpresent, hscheme⟩, hhost⟩, hscript⟩, hsizes⟩, hpre⟩, hlogout⟩
    simp only [WithinSizes, List.forall_mem_cons] at hscript hsizes
    exact {
      present := by simpa using hpresent
      authUrl := hauth.mp ⟨hscheme, hhost⟩
      cryptoScript := hscript.1
      url := hsizes.1
      headers := hsizes.2.1
      body := hsizes.2.2.1
      preRequest := hpre
      logoutRequest := hlogout }
  · intro ha
    obtain ⟨hscheme, hhost⟩ := hauth.mpr ha.authUrl
    simp only [WithinSizes, List.forall_mem_cons]
    exact ⟨⟨⟨⟨⟨⟨by simpa using ha.present, hscheme⟩, hhost⟩, ha.cryptoScript, by simp⟩,
      ha.url, ha.headers, ha.body, by simp⟩, ha.preRequest⟩, ha.logoutRequest⟩

/-- A flow without steps is a task of the first version. -/
theorem version_of_validateFlow (hnil : task.steps = []) (h : task.validateFlow o = .ok ()) :
    task.schemaVersion = 1 := by
  by_contra hne
  unfold HttpTaskConfig.validateFlow at h
  simp [hnil, hne, bind, Except.bind] at h

/-- What the two forms of a task are checked for. -/
inductive TaskAccepted (o : Outside) (task : HttpTaskConfig) : Prop
  | flow (steps : task.steps ≠ []) (accepted : FlowAccepted o task)
  | legacy (steps : task.steps = []) (version : task.schemaVersion = 1)
      (accepted : LegacyAccepted o task)

theorem form_accepted_iff (hread : HttpTaskConfig.read o (.obj m) = some task) :
    (if isFlowTask (.obj m) then flowErrors o (.obj m) else legacyErrors o (.obj m)) = [] ↔
      TaskAccepted o task := by
  have h := readFrom_of_read hread
  have hform := isFlowTask_iff h
  constructor
  · intro haccepted
    by_cases hsteps : task.steps = []
    · by_cases hversion : task.schemaVersion = 1
      · rw [if_neg (by rw [hform]; simp [hsteps, hversion])] at haccepted
        exact .legacy hsteps hversion ((legacyErrors_eq_nil_iff h).mp haccepted)
      · rw [if_pos (hform.mpr (.inr hversion))] at haccepted
        have hflow := ((flowErrors_eq_nil_iff hread).mp haccepted).flow
        exact (hversion (version_of_validateFlow hsteps hflow)).elim
    · rw [if_pos (hform.mpr (.inl hsteps))] at haccepted
      exact .flow hsteps ((flowErrors_eq_nil_iff hread).mp haccepted)
  · intro haccepted
    cases haccepted with
    | flow hsteps haccepted =>
      rw [if_pos (hform.mpr (.inl hsteps))]
      exact (flowErrors_eq_nil_iff hread).mpr haccepted
    | legacy hsteps hversion haccepted =>
      rw [if_neg (by rw [hform]; simp [hsteps, hversion])]
      exact (legacyErrors_eq_nil_iff h).mpr haccepted

theorem taskId_of_read (h : ReadFrom o m task) :
    member (.obj m) "task_id" = task.common.taskId := by
  obtain ⟨taskId, hid, hrest⟩ := Option.bind_eq_some_iff.mp h.common
  obtain ⟨name, -, hrest⟩ := Option.bind_eq_some_iff.mp hrest
  obtain ⟨description, -, hrest⟩ := Option.bind_eq_some_iff.mp hrest
  rw [← Option.some.inj hrest]
  exact Json.text_of_field hid

theorem validateHttpTask_eq_nil_iff (hread : HttpTaskConfig.read o (.obj m) = some task) :
    validateHttpTask o (.obj m) = [] ↔ strip (member (.obj m) "name") ≠ [] ∧
      task.common.taskId ≠ defaultTaskId ∧ TaskAccepted o task := by
  unfold validateHttpTask
  rw [List.append_eq_nil_iff, List.append_eq_nil_iff, report_eq_nil, report_eq_nil,
    form_accepted_iff hread, taskId_of_read (readFrom_of_read hread), and_assoc]
  refine and_congr ?_ (and_congr ?_ Iff.rfl)
  · simp
  · simp

end

end CampusAuth.Tasks
