import Mathlib.Data.List.Infix
import CampusAuth.Bridge.Ipc
import CampusAuth.Login.Redaction

/- HTTP login tasks (`tasks/models.rs`, `login/http_login.rs`): the requests, the steps and
   the rules of a task with the credentials of a login, the variables of its templates, and
   how a response is judged. -/
namespace CampusAuth.Login
open Lib Bridge

inductive HttpRequestMethod where
  | get | post
  deriving DecidableEq, Repr

/-- A request that fetches a value for the login request. -/
structure HttpPreRequest where
  method : HttpRequestMethod := .get
  url : Text := []
  headers : Text := []
  body : Text := []
  extract : Text := []
  name : Text := []

namespace HttpPreRequest

/-- The path behind `json:`. -/
def extractPath (pre : HttpPreRequest) : Except Text Text :=
  let trimmed := strip pre.extract
  if trimmed.isEmpty then .error "前置请求缺少取值方式（例如 `json:csrf_token`）".toList
  else
    match trimmed.dropPrefix? "json:".toList with
    | some path =>
      if (strip path).isEmpty then
        .error "前置请求的取值方式缺少字段名（例如 `json:csrf_token`）".toList
      else .ok (strip path)
    | none =>
      .error ("前置请求的取值方式只支持 `json:字段路径`（当前为 `".toList ++ trimmed ++
        "`）".toList)

/-- The variable the value becomes: the given name, else the end of the path. -/
def placeholderName (pre : HttpPreRequest) : Text :=
  let explicit := strip pre.name
  if explicit.isEmpty then
    match pre.extractPath with
    | .ok path => (path.splitOn '.').getLast?.getD "pre".toList
    | .error _ => "pre".toList
  else explicit

end HttpPreRequest

structure HttpExtractRule where
  source : Text
  name : Text

inductive HttpFlowStepKind where
  | request | transform
  deriving DecidableEq, Repr

inductive HttpStepOnError where
  | stop | continue
  deriving DecidableEq, Repr

/-- A step of a flow; what a script computes is part of what answers it. -/
structure HttpFlowStep where
  id : Text
  name : Text
  kind : HttpFlowStepKind
  method : HttpRequestMethod := .get
  url : Text := []
  headers : Text := []
  body : Text := []
  extract : Text := []
  extractAs : Text := []
  extracts : List HttpExtractRule := []
  onError : HttpStepOnError := .stop

inductive HttpFailureAction where
  | credential | retry | manual
  deriving DecidableEq, Repr

inductive HttpSuccessCheck where
  | response | network
  deriving DecidableEq, Repr

structure LocalAddress where
  ipv4 : Text
  mac : Text

/-- One direct login attempt: the task and the credentials. -/
structure HttpLoginRequest where
  steps : List HttpFlowStep := []
  resultStepId : Text := []
  method : HttpRequestMethod := .get
  url : Text := []
  headers : Text := []
  body : Text := []
  successPattern : Text := []
  failurePattern : Text := []
  failureAction : HttpFailureAction := .credential
  successCheck : HttpSuccessCheck := .response
  cryptoScript : Text := []
  preRequest : Option HttpPreRequest := none
  username : Text
  password : Text
  isp : Text := []
  authUrl : Text := []
  localIp : Text := []
  localMac : Text := []

namespace HttpLoginRequest

/-- The script of a task without steps is run. -/
def usesCryptoScript (req : HttpLoginRequest) : Bool :=
  if req.steps.isEmpty then !(strip req.cryptoScript).isEmpty
  else req.steps.any (·.kind == .transform)

def withLocalAddress (req : HttpLoginRequest) (addr : LocalAddress) : HttpLoginRequest :=
  { req with localIp := addr.ipv4, localMac := addr.mac }

end HttpLoginRequest

/-! ## Variables -/

namespace Vars

def get (vars : Vars) (name : Text) : Option Text := vars.lookup name

/-- Writes a variable, at its place in the order of the keys. -/
def insert (name value : Text) : Vars → Vars
  | [] => [(name, value)]
  | v :: vars =>
    if name = v.1 then (name, value) :: vars
    else if name < v.1 then (name, value) :: v :: vars
    else v :: insert name value vars

def extend (vars values : Vars) : Vars := values.foldl (fun vars v => insert v.1 v.2 vars) vars

/-- The bytes of all values. -/
def totalLen (vars : Vars) : Nat := (vars.map fun v => byteLen v.2).sum

end Vars

/-- The variables every template may use. -/
def initialVars (req : HttpLoginRequest) : Vars :=
  [("auth_url".toList, req.authUrl), ("isp".toList, req.isp), ("local_ip".toList, req.localIp),
   ("local_mac".toList, req.localMac), ("password".toList, req.password),
   ("username".toList, req.username)]

def isPlaceholderName (name : Text) : Bool :=
  !name.isEmpty && name.all fun c => c.isAlphanum || c == '_' || c == '-' || c == '.'

/-- The value of the placeholder that begins with `c` and the length of its rest. -/
def placeholderAt (vars : Vars) (c : Char) (cs : Text) : Option (Text × Nat) :=
  if c = '{' then
    match cs.findIdx? (· == '}') with
    | some stop =>
      if isPlaceholderName (cs.take stop) then
        (Vars.get vars (cs.take stop)).map fun value => (value, stop + 1)
      else none
    | none => none
  else none

/-- The first number of characters belongs to a placeholder already replaced. -/
def substituteFrom (vars : Vars) : Nat → Text → Text
  | _, [] => []
  | skip + 1, _ :: cs => substituteFrom vars skip cs
  | 0, c :: cs =>
    match placeholderAt vars c cs with
    | some (value, rest) => value ++ substituteFrom vars rest cs
    | none => c :: substituteFrom vars 0 cs

/-- The template with its placeholders replaced, from the left and once. -/
def substitute (template : Text) (vars : Vars) : Text := substituteFrom vars 0 template

/-! ## Responses -/

/-- A status code with its text. -/
structure HttpStatus where
  code : Nat
  text : Text
  deriving DecidableEq, Repr

def HttpStatus.isSuccess (status : HttpStatus) : Bool := 200 ≤ status.code && status.code < 300

/-- A response as it was read: `body` is what was left of the body by the limit on its size. -/
structure HttpResponse where
  status : HttpStatus
  body : Text
  headers : List (Text × Text) := []
  headersText : Text := []
  finalUrl : Text := []

inductive HttpResponseVerdict where
  | failure (outcome : Outcome)
  | success
  | missingSuccess
  deriving DecidableEq, Repr

def classifyResponse (req : HttpLoginRequest) (status : HttpStatus) (body : Text) :
    HttpResponseVerdict :=
  let failurePattern := strip req.failurePattern
  if !failurePattern.isEmpty && decide (failurePattern <:+: body) then
    match req.failureAction with
    | .credential => .failure .invalidCredential
    | .retry => .failure .assertionFailed
    | .manual => .failure .manualRequired
  else if req.successCheck = .network then .success
  else
    let successPattern := strip req.successPattern
    if (successPattern.isEmpty && status.isSuccess) ||
        (!successPattern.isEmpty && decide (successPattern <:+: body)) then .success
    else .missingSuccess

end CampusAuth.Login
