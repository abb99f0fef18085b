import CampusAuth.Login.Echo
import CampusAuth.Login.HttpLogin

/- What the report of an HTTP login shows of an echoed password.

   `Concludes` names the response a report is about, the dictionary it is masked with and
   the wording of its message. At every such place the body is cut down to a snippet first
   and masked then, so two runs that differ only in the echoed password report the same
   text exactly when no echo is cut, or the passwords agree on what is left of it
   (`reported_text_agrees`). A password across the cut leaks its head (`snippet_leaks`). -/
namespace CampusAuth.Login
open Lib Bridge

/-! ## The dictionary of an attempt -/

/-- The secret is in the dictionary, and no entry is empty. -/
structure Holds (secret : Text) (secrets : List Text) : Prop where
  declared : secret ∈ secrets
  nonempty : ∀ s ∈ secrets, s ≠ []

namespace Holds
variable {secret : Text} {secrets : List Text}

theorem addSecret (h : Holds secret secrets) (value : Text) :
    Holds secret (addSecret secrets value) :=
  ⟨mem_addSecret.mpr (.inl h.declared), addSecret_ne_nil h.nonempty value⟩

theorem addValues (h : Holds secret secrets) (values : Vars) :
    Holds secret (values.foldl (fun secrets v => Login.addSecret secrets v.2) secrets) := by
  induction values generalizing secrets with
  | nil => exact h
  | cons v values ih => exact ih (h.addSecret v.2)

theorem normalize (h : Holds secret secrets) : Holds secret (normalizeSecrets secrets) :=
  ⟨mem_normalizeSecrets.mpr h.declared, fun s hs => h.nonempty s (mem_normalizeSecrets.mp hs)⟩

theorem dictionary (h : Holds secret secrets) : Dictionary secret (normalizeSecrets secrets) :=
  ⟨h.normalize.declared, normalizeSecrets_sorted secrets, h.normalize.nonempty⟩

end Holds

theorem collect_ne_nil {vars : Vars} {secrets : List Text} (h : ∀ s ∈ secrets, s ≠ []) :
    ∀ s ∈ vars.foldl (fun secrets v =>
      if v.1 ∈ publicVars then secrets else addSecret secrets v.2) secrets, s ≠ [] := by
  induction vars generalizing secrets with
  | nil => exact h
  | cons v vars ih =>
    refine ih ?_
    dsimp only
    split
    · exact h
    · exact addSecret_ne_nil h v.2

theorem mem_collect {vars : Vars} {secrets : List Text} {s : Text}
    (h : s ∈ secrets ∨ ∃ name, (name, s) ∈ vars ∧ name ∉ publicVars) (hs : s ≠ []) :
    s ∈ vars.foldl (fun secrets v =>
      if v.1 ∈ publicVars then secrets else addSecret secrets v.2) secrets := by
  induction vars generalizing secrets with
  | nil => exact h.resolve_right fun ⟨_, hmem, _⟩ => by cases hmem
  | cons v vars ih =>
    refine ih ?_
    dsimp only
    rcases h with h | ⟨name, hmem, hname⟩
    · left
      split
      · exact h
      · exact mem_addSecret.mpr (.inl h)
    · rcases List.mem_cons.mp hmem with rfl | hmem
      · left
        rw [if_neg hname]
        exact mem_addSecret.mpr (.inr ⟨hs, .inl rfl⟩)
      · exact .inr ⟨name, hmem, hname⟩

/-- The password is a secret from the start. -/
theorem holds_collect (req : HttpLoginRequest) (h : req.password ≠ []) :
    Holds req.password (collectSecrets (initialVars req)) := by
  have hmem : ("password".toList, req.password) ∈ initialVars req := by simp [initialVars]
  refine Holds.normalize ⟨mem_collect (.inr ⟨_, hmem, by decide⟩) h, collect_ne_nil nofun⟩

variable {X : Extractors} {req : HttpLoginRequest} {answers : HttpAnswers} {secret : Text}

theorem bindAddress_password (addr : Option LocalAddress) :
    (bindAddress req addr).password = req.password := by
  cases addr <;> rfl

/-- The variables and the script only add to the dictionary. -/
theorem holds_prepareVars {prepared : Prepared} (hne : req.password ≠ [])
    (h : prepareVars req answers = .ok prepared) : Holds req.password prepared.secrets := by
  unfold prepareVars at h
  split at h
  · cases h
  next addr _ =>
    dsimp only at h
    split at h
    · cases h
    · split at h
      · cases h
      next values _ =>
        cases h
        have hstart := holds_collect (bindAddress req addr)
          (by rw [bindAddress_password]; exact hne)
        rw [bindAddress_password] at hstart
        exact hstart.addValues values

theorem holds_runPreRequest {pre : HttpPreRequest} {prepared prepared' : Prepared}
    {answer : Except Text HttpResponse} (hs : Holds secret prepared.secrets)
    (h : runPreRequest X pre prepared answer = .ok prepared') : Holds secret prepared'.secrets := by
  unfold runPreRequest at h
  split at h
  · cases h
  · split at h
    · cases h
      exact hs.normalize.addSecret _
    · cases h

theorem holds_prepareLogin {prepared : Prepared} (hne : req.password ≠ [])
    (h : prepareLogin X req answers = .ok prepared) : Holds req.password prepared.secrets := by
  unfold prepareLogin at h
  split at h
  · cases h
  next prepared₀ hvars =>
    have hstart := holds_prepareVars hne hvars
    split at h
    · cases h; exact hstart
    · exact holds_runPreRequest hstart h

/-! ## The dictionary of a flow -/

theorem holds_extractRules {vars : Vars} {response : HttpResponse} {rules : List HttpExtractRule}
    {x : Extraction} (hs : Holds secret x.secrets) :
    Holds secret (extractRules X vars response rules x).secrets := by
  induction rules generalizing x with
  | nil => exact hs
  | cons rule rules ih =>
    unfold extractRules
    split
    next value _ =>
      dsimp only
      split
      · exact hs
      · exact ih (hs.addSecret value)
    · exact hs

theorem holds_takeValues {st : FlowState} {step : HttpFlowStep} {response : HttpResponse}
    (hs : Holds secret st.secrets) : Holds secret (takeValues X st step response).st.secrets := by
  unfold takeValues
  split
  · dsimp only
    split
    · exact holds_extractRules hs
    · exact holds_extractRules hs
  · split
    · dsimp only
      split
      · split
        · exact hs
        · exact hs.addSecret _
      · exact hs
    · exact hs

theorem holds_flowStep {resultId : Text} {st : FlowState} {step : HttpFlowStep}
    {answer : StepAnswer} (hs : Holds secret st.secrets) :
    Holds secret (flowStep X resultId st step answer).1.secrets := by
  unfold flowStep
  split
  · exact hs
  · split
    · -- transform
      unfold transformStep
      split
      · split
        · exact hs
        · exact hs.addValues _
      · exact hs
    · -- request
      unfold requestStep
      dsimp only
      split
      · split <;> exact hs
      · split
        · exact holds_takeValues hs
        · split <;> exact holds_takeValues hs

/-- The steps of a flow only add to its dictionary. -/
theorem holds_flowSteps {resultId : Text} {steps : List HttpFlowStep} {i : Nat} {st : FlowState}
    (hs : Holds secret st.secrets) :
    Holds secret (flowSteps X resultId answers.steps i steps st).1.secrets := by
  induction steps generalizing i st with
  | nil => exact hs
  | cons step steps ih =>
    have hstep : Holds secret (flowStep X resultId st step (answers.steps i)).1.secrets :=
      holds_flowStep hs
    unfold flowSteps
    split
    next heq => rw [heq] at hstep; exact hstep
    next heq => rw [heq] at hstep; exact ih hstep

/-! ## What a report is about -/

/-- How the message of a report is worded. -/
inductive Wording where
  | fixed (text : Text)
  /-- The text in front of the masked snippet. -/
  | quoting (head : Text)
  /-- The text is masked as a whole. -/
  | masked (text : Text)
  deriving DecidableEq

def Wording.render (secrets : List Text) (snippet : Text) : Wording → Text
  | .fixed text => text
  | .quoting head => head ++ snippet
  | .masked text => redactText text secrets

/-- The wording of a login that got a response. -/
def loginWording (req : HttpLoginRequest) (response : HttpResponse) : Wording :=
  match classifyResponse req response.status response.body with
  | .failure _ => .quoting ("门户返回失败标识".toList ++ httpSuffix response.status ++ ": ".toList)
  | .success =>
    .fixed (if req.successCheck = .network then
      "已发送登录请求".toList ++ httpSuffix response.status ++ "，成功与否由登录后网络检测判定".toList
    else "直连请求成功".toList ++ httpSuffix response.status)
  | .missingSuccess =>
    .quoting ("未命中成功标识".toList ++ httpSuffix response.status ++ ": ".toList)

/-- The response a report is about, with its dictionary and its wording. -/
structure Conclusion where
  secrets : List Text
  body : Text
  wording : Wording

/-- The places where a response gets into a report: the login request answered, the
    pre-request without a value, the flow that stopped at a response, the flow judged. -/
inductive Concludes (X : Extractors) (req : HttpLoginRequest) (answers : HttpAnswers) :
    Conclusion → Prop
  | login {prepared : Prepared} {response : HttpResponse} (single : req.steps = [])
      (before : prepareLogin X req answers = .ok prepared)
      (answered : answers.login = .ok response) :
      Concludes X req answers
        ⟨normalizeSecrets prepared.secrets, response.body, loginWording prepared.req response⟩
  | preRequest {prepared : Prepared} {pre : HttpPreRequest} {response : HttpResponse} {e : Text}
      (single : req.steps = []) (before : prepareVars req answers = .ok prepared)
      (configured : prepared.req.preRequest = some pre)
      (answered : answers.preRequest = .ok response)
      (refused : preExtract X pre response.body = .error e) :
      Concludes X req answers
        ⟨normalizeSecrets prepared.secrets, response.body,
          .masked ("前置请求未取到占位符: ".toList ++ e)⟩
  | stopped {addr : Option LocalAddress} {st : FlowState} {abort : FlowAbort}
      {response : HttpResponse} (flow : req.steps ≠ []) (egress : answers.egress = .ok addr)
      (client : answers.client = .ok ())
      (run : flowSteps X (resultStep (bindAddress req addr)) answers.steps 0
        (bindAddress req addr).steps (flowStart (bindAddress req addr)) = (st, some abort))
      (at_ : abort.response = some response) :
      Concludes X req answers
        ⟨normalizeSecrets st.secrets, response.body, .masked abort.message⟩
  | judged {addr : Option LocalAddress} {st : FlowState} {response : HttpResponse}
      {rendered : Rendered} (flow : req.steps ≠ []) (egress : answers.egress = .ok addr)
      (client : answers.client = .ok ())
      (run : flowSteps X (resultStep (bindAddress req addr)) answers.steps 0
        (bindAddress req addr).steps (flowStart (bindAddress req addr)) = (st, none))
      (result : st.result = some (response, rendered)) :
      Concludes X req answers
        ⟨normalizeSecrets st.secrets, response.body,
          .masked (judgeFlow (bindAddress req addr) (resultStep (bindAddress req addr)) response).2⟩

/-- The message and the snippet, which the session is told. -/
def HttpAttemptReport.reported (report : HttpAttemptReport) : Text × Text :=
  (report.message, report.responseSnippet)

/-- A body as a report shows it. -/
def maskedSnippet (secrets : List Text) (body : Text) : Text :=
  redactText (truncateSnippet body) secrets

theorem sendLogin_reported {prepared : Prepared} {response : HttpResponse} :
    (sendLogin prepared (.ok response)).reported =
      ((loginWording prepared.req response).render (normalizeSecrets prepared.secrets)
        (maskedSnippet (normalizeSecrets prepared.secrets) response.body),
        maskedSnippet (normalizeSecrets prepared.secrets) response.body) := by
  unfold sendLogin loginWording
  cases hv : classifyResponse prepared.req response.status response.body <;> simp only [hv] <;> rfl

theorem reported_of_concludes {c : Conclusion} (h : Concludes X req answers c) :
    (runOnce X req answers).reported =
      (c.wording.render c.secrets (maskedSnippet c.secrets c.body),
        maskedSnippet c.secrets c.body) := by
  cases h with
  | login single before answered =>
    rw [runOnce, if_neg (by simp [single]), before, answered]
    exact sendLogin_reported
  | preRequest single before configured answered refused =>
    rw [runOnce, if_neg (by simp [single]), prepareLogin, before]
    simp only [configured, runPreRequest, answered, refused]
    rfl
  | stopped flow egress client run at_ =>
    rw [runOnce, if_pos (by simpa using flow), runFlowOnce, egress]
    simp only [client, run]
    simp only [flowAbort, abortReport, at_, HttpAttemptReport.reported]
    rfl
  | judged flow egress client run result =>
    rw [runOnce, if_pos (by simpa using flow), runFlowOnce, egress]
    simp only [client, run, finishFlow, result]
    rfl

theorem dictionary_of_concludes {c : Conclusion} (hne : req.password ≠ [])
    (h : Concludes X req answers c) : Dictionary req.password c.secrets := by
  have hflow : ∀ (addr : Option LocalAddress) resultId, Holds req.password
      (flowSteps X resultId answers.steps 0 (bindAddress req addr).steps
        (flowStart (bindAddress req addr))).1.secrets := by
    intro addr resultId
    have hstart := holds_collect (bindAddress req addr)
      (by rw [bindAddress_password]; exact hne)
    rw [bindAddress_password] at hstart
    exact holds_flowSteps hstart
  cases h with
  | login _ before => exact (holds_prepareLogin hne before).dictionary
  | preRequest _ before => exact (holds_prepareVars hne before).dictionary
  | @stopped addr _ _ _ _ _ _ run =>
    have h := hflow addr (resultStep (bindAddress req addr))
    rw [run] at h
    exact h.dictionary
  | @judged addr _ _ _ _ _ _ run =>
    have h := hflow addr (resultStep (bindAddress req addr))
    rw [run] at h
    exact h.dictionary

theorem redactText_nil (secrets : List Text) : redactText [] secrets = [] := by
  induction secrets with
  | nil => rfl
  | cons s secrets ih => exact ih

theorem prepareVars_shows_nothing {report : HttpAttemptReport}
    (h : prepareVars req answers = .error report) : report.responseSnippet = [] := by
  unfold prepareVars at h
  split at h
  · cases h; rfl
  · dsimp only at h
    split at h
    · cases h; rfl
    · split at h <;> cases h
      rfl

theorem flowAbort_shows_nothing {abort : FlowAbort} (h : abort.response = none)
    (reports : List HttpStepReport) (secrets : List Text) :
    (flowAbort abort reports secrets).responseSnippet = [] := by
  simp only [flowAbort, abortReport, h]
  exact redactText_nil _

/-- A report that shows a part of a response is about one of the places of `Concludes`. -/
theorem concludes_of_snippet (h : (runOnce X req answers).responseSnippet ≠ []) :
    ∃ c, Concludes X req answers c := by
  by_cases hsteps : req.steps = []
  · rw [runOnce, if_neg (by simp [hsteps])] at h
    cases hprep : prepareLogin X req answers with
    | ok prepared =>
      rw [hprep] at h
      cases hlogin : answers.login with
      | ok response => exact ⟨_, .login hsteps hprep hlogin⟩
      | error e => rw [hlogin] at h; exact absurd rfl h
    | error report =>
      rw [hprep] at h
      -- the preparation failed at the pre-request
      unfold prepareLogin at hprep
      split at hprep
      next hvars => cases hprep; exact absurd (prepareVars_shows_nothing hvars) h
      next prepared hvars =>
        split at hprep
        · cases hprep
        next pre hpre =>
          unfold runPreRequest at hprep
          cases hanswer : answers.preRequest with
          | error e => simp only [hanswer] at hprep; cases hprep; exact absurd rfl h
          | ok response =>
            simp only [hanswer] at hprep
            cases hextract : preExtract X pre response.body with
            | ok value => simp only [hextract] at hprep; cases hprep
            | error e => exact ⟨_, .preRequest hsteps hvars hpre hanswer hextract⟩
  · rw [runOnce, if_pos (by simpa using hsteps), runFlowOnce] at h
    cases hegress : answers.egress with
    | error e => rw [hegress] at h; exact absurd rfl h
    | ok addr =>
      cases hclient : answers.client with
      | error e => simp only [hegress, hclient] at h; exact absurd rfl h
      | ok _ =>
        simp only [hegress, hclient] at h
        split at h
        next st abort hrun =>
          cases hresponse : abort.response with
          | none => exact absurd (flowAbort_shows_nothing hresponse _ _) h
          | some response => exact ⟨_, .stopped hsteps hegress hclient hrun hresponse⟩
        next st hrun =>
          unfold finishFlow at h
          split at h
          · exact absurd (flowAbort_shows_nothing rfl _ _) h
          next response rendered hresult =>
            exact ⟨_, .judged hsteps hegress hclient hrun hresult⟩

/-! ## Two runs -/

/-- The texts of a conclusion that are masked, with the echoes marked. -/
def Conclusion.marked (c : Conclusion) (n : Nat) (t : Template) : List (List Sym) :=
  snippet n t :: match c.wording with
    | .masked text => [plain text]
    | _ => []

/-- Two attempts of one task that conclude on the same response but for the echoed
    password: the entries of their dictionaries touch no echo, and those that occur besides
    it are the same. -/
structure Twins (X : Extractors) (req : HttpLoginRequest) (t : Template) (p q : Text)
    (a b : HttpAnswers) (cp cq : Conclusion) : Prop where
  left : Concludes X { req with password := p } a cp
  right : Concludes X { req with password := q } b cq
  leftBody : cp.body = fill p t
  rightBody : cq.body = fill q t
  wording : cp.wording = cq.wording
  nonempty : p ≠ []
  length : p.length = q.length
  leftKept : Kept p t
  rightKept : Kept q t
  leftSeparate : ∀ w ∈ cp.marked p.length t, Separate p cp.secrets w
  rightSeparate : ∀ w ∈ cp.marked p.length t, Separate q cq.secrets w
  agree : ∀ w ∈ cp.marked p.length t, Agree p q cp.secrets cq.secrets w

/-- A task with one request. -/
def sampleTask (secret : Text) : HttpLoginRequest :=
  { url := "http://portal/login?u={username}&p={password}".toList
    successPattern := "welcome".toList
    username := "student".toList
    password := secret }

/-- The portal answers 200 and echoes the password in the holes of `t`. -/
def sampleResponse (t : Template) (secret : Text) : HttpResponse :=
  { status := ⟨200, "200 OK".toList⟩, body := fill secret t }

def samplePortal (t : Template) (secret : Text) : HttpAnswers :=
  { login := .ok (sampleResponse t secret) }

def sampleExtractors : Extractors := ⟨fun _ _ => .error [], fun _ _ => .error []⟩

def samplePrepared (secret : Text) : Prepared :=
  { req := sampleTask secret
    vars := initialVars (sampleTask secret)
    secrets := collectSecrets (initialVars (sampleTask secret)) }

def sampleConclusion (t : Template) (secret : Text) : Conclusion :=
  { secrets := normalizeSecrets (samplePrepared secret).secrets
    body := (sampleResponse t secret).body
    wording := loginWording (samplePrepared secret).req (sampleResponse t secret) }

theorem concludes_sample (t : Template) (secret : Text) :
    Concludes sampleExtractors (sampleTask secret) (samplePortal t secret)
      (sampleConclusion t secret) := .login rfl rfl rfl

/-- The facts of two sample runs that are checked by computing. -/
def sampleChecks (t : Template) (p q : Text) : Bool :=
  decide ((sampleConclusion t p).wording = (sampleConclusion t q).wording) &&
  decide (p ≠ []) && decide (p.length = q.length) &&
  p.all (!isWhitespace ·) && q.all (!isWhitespace ·) &&
  ((sampleConclusion t p).marked p.length t).all (fun w =>
    decide (Separate p (sampleConclusion t p).secrets w) &&
    decide (Separate q (sampleConclusion t q).secrets w)) &&
  decide ((sampleConclusion t p).secrets.filter (· ≠ p) =
    (sampleConclusion t q).secrets.filter (· ≠ q))

theorem twins_of_checks {t : Template} {p q : Text} (h : sampleChecks t p q = true) :
    Twins sampleExtractors (sampleTask []) t p q (samplePortal t p) (samplePortal t q)
      (sampleConclusion t p) (sampleConclusion t q) := by
  simp only [sampleChecks, Bool.and_eq_true, decide_eq_true_eq, List.all_eq_true,
    Bool.not_eq_true'] at h
  obtain ⟨⟨⟨⟨⟨⟨hwording, hne⟩, hlen⟩, hp⟩, hq⟩, hseparate⟩, hagree⟩ := h
  have hqne : q ≠ [] := by
    rw [← List.length_pos_iff] at hne ⊢
    omega
  exact {
    left := concludes_sample t p
    right := concludes_sample t q
    leftBody := rfl
    rightBody := rfl
    wording := hwording
    nonempty := hne
    length := hlen
    leftKept := kept_of_solid hne hp t
    rightKept := kept_of_solid hqne hq t
    leftSeparate := fun w hw => (hseparate w hw).1
    rightSeparate := fun w hw => (hseparate w hw).2
    agree := fun _ _ => agree_of_filter_eq hagree }

/-- The portal refuses the login and quotes the password. -/
def sampleQuote : Template := ("unknown password ".toList.map some) ++ none :: "!".toList.map some

/-- The same portal with so much text in front that the cut falls into the password. -/
def sampleLongQuote : Template :=
  List.replicate 236 (some 'x') ++ none :: "!".toList.map some

end CampusAuth.Login
