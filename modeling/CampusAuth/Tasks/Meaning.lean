import CampusAuth.Lib.Trim
import CampusAuth.Tasks.Models

/- What a direct login task denotes, whatever its document looks like: the requests in their
   order, what is read from the responses and under which names, which response is judged and
   by what. Two documents that denote the same make the same logins. -/
namespace CampusAuth.Tasks
open Lib Login

/-- What the parser of addresses takes off both ends of one. -/
def isControlOrBlank (c : Char) : Bool := c.toNat ≤ 0x20

structure Request where
  method : HttpRequestMethod
  url : Text
  headers : Text
  body : Text

/-- What is read from a response: where it is, and the variable it becomes. -/
abbrev Reading := Text × Text

inductive Action where
  | request (id name : Text) (request : Request) (readings : List Reading) (stopOnRedirect : Bool)
      (onError : HttpStepOnError) (waitSecs : Rat)
  | transform (id name script : Text)

inductive Sequence where
  /-- Steps in their order, and the one whose response is judged. -/
  | flow (actions : List Action) (result : Option Text)
  /-- The fixed requests of a task without steps. -/
  | fixed (logout : Option (Request × Rat)) (script : Text) (prepare : Option (Request × Reading))
      (login : Request)

structure Meaning where
  taskId : Text
  sequence : Sequence
  authUrl : Text
  successPattern : Text
  failurePattern : Text
  failureAction : HttpFailureAction
  successCheck : HttpSuccessCheck
  ignoreHttpsErrors : Option Bool

/-- A request whose address is parsed as it is written. -/
def sentRequest (method : HttpRequestMethod) (url headers body : Text) : Request :=
  ⟨method, trimBy isControlOrBlank url, headers, body⟩

def HttpFlowStep.readings (step : HttpFlowStep) : List Reading :=
  if step.extracts.isEmpty then
    if (strip step.extract).isEmpty then []
    else [(strip step.extract,
      HttpPreRequest.placeholderName { extract := step.extract, name := step.extractAs })]
  else step.extracts.map fun rule => (strip rule.source, rule.name)

def HttpFlowStep.action (step : HttpFlowStep) : Action :=
  match step.kind with
  | .request => .request step.id step.name
      (sentRequest step.method step.url step.headers step.body) step.readings
      step.stopOnRedirect step.onError step.waitSecs
  | .transform => .transform step.id step.name step.script

namespace HttpTaskConfig

def resultStep (task : HttpTaskConfig) : Option HttpFlowStep :=
  if task.resultStepId.isEmpty then task.steps.reverse.find? (·.kind == .request)
  else task.steps.find? fun step => step.id == task.resultStepId && step.kind == .request

/-- The addresses of the task itself are trimmed before they are used. -/
def sequence (task : HttpTaskConfig) : Sequence :=
  if task.steps.isEmpty then
    .fixed
      (task.logoutRequest.map fun logout =>
        (sentRequest logout.method logout.url logout.headers logout.body, logout.waitSecs))
      task.cryptoScript
      (task.preRequest.map fun pre =>
        (sentRequest pre.method pre.url pre.headers pre.body,
          strip pre.extract, pre.placeholderName))
      ⟨task.method, strip task.url, task.headers, task.body⟩
  else .flow (task.steps.map HttpFlowStep.action) (task.resultStep.map (·.id))

def meaning (task : HttpTaskConfig) : Meaning where
  taskId := task.common.taskId
  sequence := task.sequence
  authUrl := strip task.authUrl
  successPattern := task.successPattern
  failurePattern := task.failurePattern
  failureAction := task.failureAction
  successCheck := task.successCheck
  ignoreHttpsErrors := task.ignoreHttpsErrors

end HttpTaskConfig
end CampusAuth.Tasks
