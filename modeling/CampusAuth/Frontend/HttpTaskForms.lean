import CampusAuth.Frontend.HttpTask
import CampusAuth.Lib.Assoc
import CampusAuth.Tasks.Accepted

/- A direct login task on its way to the editor and back: what the backend serves of a stored
   task, and the document the editor sends, which is read as a task again (`read_payload`). -/
namespace CampusAuth.Frontend.HttpTask
open Lib Login Tasks

/-! ## Served -/

/-- A task as it is stored; only its document keeps the metadata. -/
structure Stored where
  task : Tasks.HttpTaskConfig
  metadata : Json

def Stored.load (o : Outside) (config : Json) : Option Stored :=
  (loadHttpTask o config).map fun task => ⟨task, (config.get "metadata").getD (.obj [])⟩

/-- The details of a task: every field is written, but for a request that is not there. -/
def Stored.served (stored : Stored) : HttpTaskConfig :=
  let task := stored.task
  { schemaVersion := some task.schemaVersion
    steps := some task.steps
    resultStepId := some task.resultStepId
    taskId := task.common.taskId
    name := task.common.name
    description := task.common.description
    method := task.method
    url := task.url
    authUrl := task.authUrl
    headers := task.headers
    body := task.body
    successPattern := task.successPattern
    failurePattern := task.failurePattern
    failureAction := some task.failureAction
    cryptoScript := task.cryptoScript
    preRequest := task.preRequest
    logoutRequest := task.logoutRequest
    ignoreHttpsErrors := task.ignoreHttpsErrors
    successCheck := some task.successCheck
    metadata := some stored.metadata }

/-- The draft of a task that is opened. -/
def Stored.opened (stored : Stored) : HttpTaskDraft := httpTaskDraftFromConfig stored.served

/-! ## Numbers -/

/-- A number a document has, or the one for a number that is left out. -/
def IsDouble (o : Outside) (q : Rat) : Prop := q = 0 ∨ ∃ literal, o.float literal = q

/-- How numbers are written: a number that was read is read again. -/
structure NumberPrinter (o : Outside) where
  literal : Rat → String
  reads : ∀ q, IsDouble o q → o.float (literal q) = q

/-! ## Sent -/

variable {o : Outside}

def textJson (text : Text) : Json := .str (String.ofList text)

def methodJson : HttpRequestMethod → Json
  | .get => .str "GET"
  | .post => .str "POST"

def kindJson : HttpFlowStepKind → Json
  | .request => .str "request"
  | .transform => .str "transform"

def onErrorJson : HttpStepOnError → Json
  | .stop => .str "stop"
  | .continue => .str "continue"

def failureActionJson : HttpFailureAction → Json
  | .credential => .str "credential"
  | .retry => .str "retry"
  | .manual => .str "manual"

def successCheckJson : HttpSuccessCheck → Json
  | .response => .str "response"
  | .network => .str "network"

def ruleJson (rule : HttpExtractRule) : Json :=
  .obj [("source", textJson rule.source), ("name", textJson rule.name)]

def stepMembers (print : NumberPrinter o) (step : Tasks.HttpFlowStep) : List (String × Json) :=
  [("id", textJson step.id), ("name", textJson step.name), ("kind", kindJson step.kind),
    ("method", methodJson step.method), ("url", textJson step.url),
    ("headers", textJson step.headers), ("body", textJson step.body),
    ("extract", textJson step.extract), ("extract_as", textJson step.extractAs),
    ("extracts", .arr (step.extracts.map ruleJson)),
    ("stop_on_redirect", .bool step.stopOnRedirect), ("script", textJson step.script),
    ("on_error", onErrorJson step.onError),
    ("wait_secs", .number (print.literal step.waitSecs))]

def preRequestMembers (pre : HttpPreRequest) : List (String × Json) :=
  [("method", methodJson pre.method), ("url", textJson pre.url),
    ("headers", textJson pre.headers), ("body", textJson pre.body),
    ("extract", textJson pre.extract), ("name", textJson pre.name)]

def logoutRequestMembers (print : NumberPrinter o) (logout : HttpActionRequest) :
    List (String × Json) :=
  [("method", methodJson logout.method), ("url", textJson logout.url),
    ("headers", textJson logout.headers), ("body", textJson logout.body),
    ("wait_secs", .number (print.literal logout.waitSecs))]

def optionJson {α : Type} (write : α → Json) : Option α → Json
  | none => .null
  | some value => write value

/-- A member is left out when it is `undefined`. -/
def present (members : List (String × Option Json)) : List (String × Json) :=
  members.filterMap fun member => member.2.map fun value => (member.1, value)

def payloadMembers (print : NumberPrinter o) (config : HttpTaskConfig) :
    List (String × Option Json) :=
  [("type", some (.str "http")),
    ("schema_version", config.schemaVersion.map fun n => .number (toString n)),
    ("task_id", some (textJson config.taskId)), ("name", some (textJson config.name)),
    ("description", some (textJson config.description)),
    ("steps", config.steps.map fun steps =>
      .arr (steps.map fun step => .obj (stepMembers print step))),
    ("result_step_id", config.resultStepId.map textJson),
    ("method", some (methodJson config.method)), ("url", some (textJson config.url)),
    ("auth_url", some (textJson config.authUrl)), ("headers", some (textJson config.headers)),
    ("body", some (textJson config.body)),
    ("success_pattern", some (textJson config.successPattern)),
    ("failure_pattern", some (textJson config.failurePattern)),
    ("failure_action", config.failureAction.map failureActionJson),
    ("success_check", config.successCheck.map successCheckJson),
    ("crypto_script", some (textJson config.cryptoScript)),
    ("pre_request", some (optionJson (fun pre => .obj (preRequestMembers pre)) config.preRequest)),
    ("logout_request", some (optionJson (fun logout => .obj (logoutRequestMembers print logout))
      config.logoutRequest)),
    ("ignore_https_errors", some (optionJson Json.bool config.ignoreHttpsErrors)),
    ("metadata", config.metadata)]

/-- The document that is sent, with the type of the task. -/
def stringify (print : NumberPrinter o) (config : HttpTaskConfig) : List (String × Json) :=
  present (payloadMembers print config)

/-! ## Read again -/

/-- The task an interface object stands for. -/
def HttpTaskConfig.meant (config : HttpTaskConfig) : Tasks.HttpTaskConfig where
  common := { taskId := config.taskId, name := config.name, description := config.description }
  schemaVersion := config.schemaVersion.getD 1
  steps := config.steps.getD []
  resultStepId := config.resultStepId.getD []
  method := config.method
  url := config.url
  authUrl := config.authUrl
  headers := config.headers
  body := config.body
  successPattern := config.successPattern
  failurePattern := config.failurePattern
  failureAction := config.failureAction.getD .credential
  successCheck := config.successCheck.getD .response
  cryptoScript := config.cryptoScript
  preRequest := config.preRequest
  logoutRequest := config.logoutRequest
  ignoreHttpsErrors := config.ignoreHttpsErrors

@[simp]
theorem readText_textJson (text : Text) : Json.readText (textJson text) = some text := by
  simp [Json.readText, textJson, Json.asStr]

@[simp]
theorem readMethod_methodJson (method : HttpRequestMethod) :
    readMethod (methodJson method) = some method := by
  cases method <;> rfl

theorem readVec_map {α : Type} {read : Json → Option α} {write : α → Json} {items : List α}
    (h : ∀ item ∈ items, read (write item) = some item) :
    Json.readVec read (.arr (items.map write)) = some items := by
  show (items.map write).mapM read = some items
  induction items with
  | nil => rfl
  | cons item items ih =>
    rw [List.map_cons, List.mapM_cons, h item List.mem_cons_self,
      ih fun i hi => h i (List.mem_cons_of_mem _ hi)]
    rfl

theorem field_of_lookup {α : Type} {read : Json → Option α} {default : α}
    {members : List (String × Json)} {name : String} {v : Json} (h : members.lookup name = some v) :
    Json.field read default members name = read v := by
  unfold Json.field
  rw [h]

theorem field_text {default text : Text} {members : List (String × Json)} {name : String}
    (h : members.lookup name = some (textJson text)) :
    Json.field Json.readText default members name = some text := by
  rw [field_of_lookup h, readText_textJson]

theorem readRule_ruleJson (rule : HttpExtractRule) : readRule (ruleJson rule) = some rule := by
  unfold readRule ruleJson
  refine Option.bind_eq_some_iff.mpr ⟨_, rfl, ?_⟩
  refine Option.bind_eq_some_iff.mpr ⟨rule.source, field_text rfl, ?_⟩
  exact Option.bind_eq_some_iff.mpr ⟨rule.name, field_text rfl, rfl⟩

theorem readStep_stepMembers (print : NumberPrinter o) {step : Tasks.HttpFlowStep}
    (hwait : IsDouble o step.waitSecs) :
    readStep o (.obj (stepMembers print step)) = some step := by
  have hkind : Json.field (Json.readEnum [("request", HttpFlowStepKind.request),
      ("transform", .transform)]) .request (stepMembers print step) "kind" = some step.kind := by
    rw [field_of_lookup (v := kindJson step.kind) rfl]
    cases step.kind <;> rfl
  have hmethod : Json.field readMethod .get (stepMembers print step) "method" =
      some step.method := by
    rw [field_of_lookup (v := methodJson step.method) rfl, readMethod_methodJson]
  have hrules : Json.field (Json.readVec readRule) [] (stepMembers print step) "extracts" =
      some step.extracts := by
    rw [field_of_lookup (v := .arr (step.extracts.map ruleJson)) rfl]
    exact readVec_map fun rule _ => readRule_ruleJson rule
  have hstop : Json.field Json.asBool false (stepMembers print step) "stop_on_redirect" =
      some step.stopOnRedirect :=
    field_of_lookup (v := .bool step.stopOnRedirect) rfl
  have honError : Json.field (Json.readEnum [("stop", HttpStepOnError.stop),
      ("continue", .continue)]) .stop (stepMembers print step) "on_error" =
      some step.onError := by
    rw [field_of_lookup (v := onErrorJson step.onError) rfl]
    cases step.onError <;> rfl
  have hwaits : Json.field (Json.readNumber o.float) 0 (stepMembers print step) "wait_secs" =
      some step.waitSecs := by
    rw [field_of_lookup (v := .number (print.literal step.waitSecs)) rfl]
    exact congrArg some (print.reads step.waitSecs hwait)
  have htext : ∀ name text, (stepMembers print step).lookup name = some (textJson text) →
      Json.field Json.readText [] (stepMembers print step) name = some text :=
    fun _ _ => field_text
  unfold readStep
  refine Option.bind_eq_some_iff.mpr ⟨stepMembers print step, rfl, ?_⟩
  refine Option.bind_eq_some_iff.mpr ⟨_, htext "id" step.id rfl, ?_⟩
  refine Option.bind_eq_some_iff.mpr ⟨_, htext "name" step.name rfl, ?_⟩
  refine Option.bind_eq_some_iff.mpr ⟨_, hkind, ?_⟩
  refine Option.bind_eq_some_iff.mpr ⟨_, hmethod, ?_⟩
  refine Option.bind_eq_some_iff.mpr ⟨_, htext "url" step.url rfl, ?_⟩
  refine Option.bind_eq_some_iff.mpr ⟨_, htext "headers" step.headers rfl, ?_⟩
  refine Option.bind_eq_some_iff.mpr ⟨_, htext "body" step.body rfl, ?_⟩
  refine Option.bind_eq_some_iff.mpr ⟨_, htext "extract" step.extract rfl, ?_⟩
  refine Option.bind_eq_some_iff.mpr ⟨_, htext "extract_as" step.extractAs rfl, ?_⟩
  refine Option.bind_eq_some_iff.mpr ⟨_, hrules, ?_⟩
  refine Option.bind_eq_some_iff.mpr ⟨_, hstop, ?_⟩
  refine Option.bind_eq_some_iff.mpr ⟨_, htext "script" step.script rfl, ?_⟩
  refine Option.bind_eq_some_iff.mpr ⟨_, honError, ?_⟩
  exact Option.bind_eq_some_iff.mpr ⟨_, hwaits, rfl⟩

theorem readOption_optionJson {α : Type} {read : Json → Option α} {write : α → Json}
    {value : Option α} (hnull : ∀ a, write a ≠ .null)
    (h : ∀ a, value = some a → read (write a) = some a) :
    Json.readOption read (optionJson write value) = some value := by
  cases value with
  | none => rfl
  | some a =>
    have hread : Json.readOption read (write a) = (read (write a)).map some := by
      unfold Json.readOption
      split
      next hcase => exact (hnull a hcase).elim
      next => rfl
    rw [optionJson, hread, h a rfl]
    rfl

theorem readPreRequest_members (pre : HttpPreRequest) :
    readPreRequest (.obj (preRequestMembers pre)) = some pre := by
  have hmethod : Json.field readMethod .get (preRequestMembers pre) "method" = some pre.method := by
    rw [field_of_lookup (v := methodJson pre.method) rfl, readMethod_methodJson]
  have htext : ∀ name text, (preRequestMembers pre).lookup name = some (textJson text) →
      Json.field Json.readText [] (preRequestMembers pre) name = some text :=
    fun _ _ => field_text
  unfold readPreRequest
  simp only [Json.fields, Option.bind_eq_bind, Option.bind_some, Option.pure_def, hmethod,
    htext "url" pre.url rfl, htext "headers" pre.headers rfl, htext "body" pre.body rfl,
    htext "extract" pre.extract rfl, htext "name" pre.name rfl]

theorem readActionRequest_members (print : NumberPrinter o) {logout : HttpActionRequest}
    (hwait : IsDouble o logout.waitSecs) :
    readActionRequest o (.obj (logoutRequestMembers print logout)) = some logout := by
  have hmethod : Json.field readMethod .get (logoutRequestMembers print logout) "method" =
      some logout.method := by
    rw [field_of_lookup (v := methodJson logout.method) rfl, readMethod_methodJson]
  have htext : ∀ name text, (logoutRequestMembers print logout).lookup name =
      some (textJson text) →
      Json.field Json.readText [] (logoutRequestMembers print logout) name = some text :=
    fun _ _ => field_text
  have hwaits : Json.field (Json.readNumber o.float) 0 (logoutRequestMembers print logout)
      "wait_secs" = some logout.waitSecs := by
    rw [field_of_lookup (v := .number (print.literal logout.waitSecs)) rfl]
    exact congrArg some (print.reads logout.waitSecs hwait)
  unfold readActionRequest
  simp only [Json.fields, Option.bind_eq_bind, Option.bind_some, Option.pure_def, hmethod,
    htext "url" logout.url rfl, htext "headers" logout.headers rfl,
    htext "body" logout.body rfl, hwaits]

/-! ## The whole document -/

theorem lookup_present {members : List (String × Option Json)}
    (hkeys : (members.map (·.1)).Nodup) (name : String) :
    (present members).lookup name = (members.lookup name).join := by
  induction members with
  | nil => rfl
  | cons member members ih =>
    obtain ⟨key, value⟩ := member
    obtain ⟨hfresh, hrest⟩ := List.nodup_cons.mp hkeys
    rw [lookup_cons_ite]
    split
    next heq =>
      subst heq
      cases value with
      | some v =>
        show ((name, v) :: present members).lookup name = some v
        rw [lookup_cons_ite, if_pos rfl]
      | none =>
        show (present members).lookup name = none
        rw [ih hrest, lookup_eq_none_of_not_mem hfresh]
        rfl
    next hne =>
      cases value with
      | some v =>
        show ((key, v) :: present members).lookup name = _
        rw [lookup_cons_ite, if_neg hne, ih hrest]
      | none => exact ih hrest

theorem lookup_stringify (print : NumberPrinter o) (config : HttpTaskConfig) (name : String) :
    (stringify print config).lookup name = ((payloadMembers print config).lookup name).join := by
  refine lookup_present ?_ name
  show ["type", "schema_version", "task_id", "name", "description", "steps", "result_step_id",
    "method", "url", "auth_url", "headers", "body", "success_pattern", "failure_pattern",
    "failure_action", "success_check", "crypto_script", "pre_request", "logout_request",
    "ignore_https_errors", "metadata"].Nodup
  decide

/-- The numbers of what is sent are numbers a document has. -/
structure HttpTaskConfig.Doubles (o : Outside) (config : HttpTaskConfig) : Prop where
  version : ∀ n, config.schemaVersion = some n → n = 2
  steps : ∀ steps, config.steps = some steps → ∀ step ∈ steps, IsDouble o step.waitSecs
  logout : ∀ logout, config.logoutRequest = some logout → IsDouble o logout.waitSecs

section
variable {print : NumberPrinter o} {config : HttpTaskConfig} {name : String}

theorem field_member {α : Type} {read : Json → Option α} {default a : α} {v : Json}
    (hmember : (payloadMembers print config).lookup name = some (some v)) (h : read v = some a) :
    Json.field read default (stringify print config) name = some a := by
  rw [field_of_lookup (v := v) (by rw [lookup_stringify, hmember]; rfl), h]

/-- A member that may be left out has the value it is left out for. -/
theorem field_optional {α : Type} {read : Json → Option α} (write : α → Json) {default : α}
    {value : Option α}
    (hmember : (payloadMembers print config).lookup name = some (value.map write))
    (h : ∀ a, value = some a → read (write a) = some a) :
    Json.field read default (stringify print config) name = some (value.getD default) := by
  have hlookup : (stringify print config).lookup name = value.map write := by
    rw [lookup_stringify, hmember]
    rfl
  cases value with
  | none => unfold Json.field; rw [hlookup]; rfl
  | some a => rw [field_of_lookup hlookup, h a rfl]; rfl

theorem field_member_text {default : Text} (text : Text)
    (hmember : (payloadMembers print config).lookup name = some (some (textJson text))) :
    Json.field Json.readText default (stringify print config) name = some text :=
  field_member hmember (readText_textJson text)

/-- What is sent is read as the task it stands for. -/
theorem read_stringify (print : NumberPrinter o) (hdoubles : config.Doubles o) :
    Tasks.HttpTaskConfig.read o (.obj (stringify print config)) = some config.meant := by
  have hcommon : readCommon (stringify print config) = some config.meant.common := by
    unfold readCommon
    rw [field_member_text config.taskId rfl, field_member_text config.name rfl,
      field_member_text config.description rfl]
    rfl
  have hversion : Json.field Json.readU32 1 (stringify print config) "schema_version" =
      some (config.schemaVersion.getD 1) := by
    refine field_optional (fun n => .number (toString n)) rfl fun n hn => ?_
    rw [hdoubles.version n hn]
    rfl
  have hsteps : Json.field (Json.readVec (readStep o)) [] (stringify print config) "steps" =
      some (config.steps.getD []) := by
    refine field_optional (fun steps =>
      .arr (steps.map fun step => .obj (stepMembers print step))) rfl fun steps hsome => ?_
    exact readVec_map fun step hstep =>
      readStep_stepMembers print (hdoubles.steps steps hsome step hstep)
  have hresult : Json.field Json.readText [] (stringify print config) "result_step_id" =
      some (config.resultStepId.getD []) :=
    field_optional textJson rfl fun text _ => readText_textJson text
  have hmethod : Json.field readMethod .get (stringify print config) "method" =
      some config.method :=
    field_member (v := methodJson config.method) rfl (readMethod_methodJson _)
  have haction : Json.field (Json.readEnum [("credential", HttpFailureAction.credential),
      ("retry", .retry), ("manual", .manual)]) .credential (stringify print config)
      "failure_action" = some (config.failureAction.getD .credential) :=
    field_optional failureActionJson rfl fun action _ => by cases action <;> rfl
  have hcheck : Json.field (Json.readEnum [("response", HttpSuccessCheck.response),
      ("network", .network)]) .response (stringify print config) "success_check" =
      some (config.successCheck.getD .response) :=
    field_optional successCheckJson rfl fun check _ => by cases check <;> rfl
  have hpre : Json.field (Json.readOption readPreRequest) none (stringify print config)
      "pre_request" = some config.preRequest := by
    refine field_member (v := optionJson (fun pre => .obj (preRequestMembers pre))
      config.preRequest) rfl (readOption_optionJson (fun _ => by simp) ?_)
    exact fun pre _ => readPreRequest_members pre
  have hlogout : Json.field (Json.readOption (readActionRequest o)) none (stringify print config)
      "logout_request" = some config.logoutRequest := by
    refine field_member (v := optionJson (fun logout => .obj (logoutRequestMembers print logout))
      config.logoutRequest) rfl (readOption_optionJson (fun _ => by simp) ?_)
    exact fun logout hsome => readActionRequest_members print (hdoubles.logout logout hsome)
  have hignore : Json.field (Json.readOption Json.asBool) none (stringify print config)
      "ignore_https_errors" = some config.ignoreHttpsErrors :=
    field_member (v := optionJson Json.bool config.ignoreHttpsErrors) rfl
      (readOption_optionJson (fun _ => by simp) fun _ _ => rfl)
  have htext : ∀ name text,
      (payloadMembers print config).lookup name = some (some (textJson text)) →
      Json.field Json.readText [] (stringify print config) name = some text :=
    fun _ text => field_member_text text
  unfold Tasks.HttpTaskConfig.read
  simp only [Option.bind_eq_bind, Option.bind_some, Option.pure_def, hcommon, hversion, hsteps,
    hresult, hmethod, htext "url" config.url rfl, htext "auth_url" config.authUrl rfl,
    htext "headers" config.headers rfl, htext "body" config.body rfl,
    htext "success_pattern" config.successPattern rfl,
    htext "failure_pattern" config.failurePattern rfl, haction, hcheck,
    htext "crypto_script" config.cryptoScript rfl, hpre, hlogout, hignore]
  rfl

end

/-! ## The numbers of a task that was read -/

theorem isDouble_of_field {members : List (String × Json)} {name : String} {q : Rat}
    (h : Json.field (Json.readNumber o.float) 0 members name = some q) : IsDouble o q := by
  unfold Json.field at h
  split at h
  next v _ =>
    cases v with
    | number literal => exact .inr ⟨literal, Option.some.inj h⟩
    | null | bool | str | arr | obj => cases h
  next => exact .inl (Option.some.inj h).symm

theorem isDouble_of_readStep {j : Json} {step : Tasks.HttpFlowStep} (h : readStep o j = some step) :
    IsDouble o step.waitSecs := by
  obtain ⟨_, -, h⟩ := Option.bind_eq_some_iff.mp h
  obtain ⟨_, -, h⟩ := Option.bind_eq_some_iff.mp h
  obtain ⟨_, -, h⟩ := Option.bind_eq_some_iff.mp h
  obtain ⟨_, -, h⟩ := Option.bind_eq_some_iff.mp h
  obtain ⟨_, -, h⟩ := Option.bind_eq_some_iff.mp h
  obtain ⟨_, -, h⟩ := Option.bind_eq_some_iff.mp h
  obtain ⟨_, -, h⟩ := Option.bind_eq_some_iff.mp h
  obtain ⟨_, -, h⟩ := Option.bind_eq_some_iff.mp h
  obtain ⟨_, -, h⟩ := Option.bind_eq_some_iff.mp h
  obtain ⟨_, -, h⟩ := Option.bind_eq_some_iff.mp h
  obtain ⟨_, -, h⟩ := Option.bind_eq_some_iff.mp h
  obtain ⟨_, -, h⟩ := Option.bind_eq_some_iff.mp h
  obtain ⟨_, -, h⟩ := Option.bind_eq_some_iff.mp h
  obtain ⟨_, -, h⟩ := Option.bind_eq_some_iff.mp h
  obtain ⟨_, hwait, h⟩ := Option.bind_eq_some_iff.mp h
  rw [← Option.some.inj h]
  exact isDouble_of_field hwait

theorem isDouble_of_readActionRequest {j : Json} {logout : HttpActionRequest}
    (h : readActionRequest o j = some logout) : IsDouble o logout.waitSecs := by
  obtain ⟨_, -, h⟩ := Option.bind_eq_some_iff.mp h
  obtain ⟨_, -, h⟩ := Option.bind_eq_some_iff.mp h
  obtain ⟨_, -, h⟩ := Option.bind_eq_some_iff.mp h
  obtain ⟨_, -, h⟩ := Option.bind_eq_some_iff.mp h
  obtain ⟨_, -, h⟩ := Option.bind_eq_some_iff.mp h
  obtain ⟨_, hwait, h⟩ := Option.bind_eq_some_iff.mp h
  rw [← Option.some.inj h]
  exact isDouble_of_field hwait

theorem exists_read_of_mem {α : Type} {read : Json → Option α} {items : List Json} {values : List α}
    (h : items.mapM read = some values) : ∀ a ∈ values, ∃ j, read j = some a := by
  induction items generalizing values with
  | nil => cases h; simp
  | cons item items ih =>
    simp only [List.mapM_cons, Option.bind_eq_bind, Option.bind_eq_some_iff, Option.pure_def,
      Option.some.injEq] at h
    obtain ⟨first, hfirst, rest, hrest, rfl⟩ := h
    rw [List.forall_mem_cons]
    exact ⟨⟨item, hfirst⟩, ih hrest⟩

theorem isDouble_of_readFrom {members : List (String × Json)} {task : Tasks.HttpTaskConfig}
    (h : ReadFrom o members task) :
    (∀ step ∈ task.steps, IsDouble o step.waitSecs) ∧
      ∀ logout, task.logoutRequest = some logout → IsDouble o logout.waitSecs := by
  constructor
  · intro step hstep
    have hsteps := h.steps
    unfold Json.field at hsteps
    split at hsteps
    next v _ =>
      cases v with
      | arr items =>
        obtain ⟨j, hj⟩ := exists_read_of_mem hsteps step hstep
        exact isDouble_of_readStep hj
      | null | bool | number | str | obj => cases hsteps
    next =>
      rw [← Option.some.inj hsteps] at hstep
      cases hstep
  · intro logout hsome
    have hlogout := h.logoutRequest
    rw [hsome] at hlogout
    have hvalue := Json.of_optional hlogout
    split at hvalue
    next raw _ =>
      obtain ⟨request, hread, heq⟩ := hvalue
      rw [Option.some.inj heq]
      exact isDouble_of_readActionRequest hread
    next => cases hvalue

end CampusAuth.Frontend.HttpTask
