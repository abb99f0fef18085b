import Mathlib.Logic.Function.Basic
import CampusAuth.Config.ProfileId
import CampusAuth.Lib.Job
import CampusAuth.Lib.Json
import CampusAuth.Lib.Text

/- The migration from v9 to v10 (`config/migration.rs`, `migrate_v9_to_v10`): the HTTP login of
   a profile becomes a task of its own, to which the profile is bound.

   The migration is the list of the file operations it takes, in the order it takes them; each
   profile is decided on in the state its predecessors leave (`migrationJob`). A write that
   fails leaves the file as it is. -/
namespace CampusAuth.Config
open Lib

/-! ## The files -/

inductive TaskFile where
  | missing
  /-- The file is there, but is not read or is no JSON. -/
  | unreadable
  | task (v : Json)

/-- The order of two profile files in their directory. -/
def PathLt (a b : String) : Prop := (a ++ ".json").toList < (b ++ ".json").toList

instance (a b : String) : Decidable (PathLt a b) := inferInstanceAs (Decidable (_ < _))

/-- The files the migration looks at. The profile files come in the order of their paths. -/
structure TaskDirs where
  names : List String
  sorted : names.Pairwise PathLt
  /-- A profile file; nothing when it is not read or is no JSON. -/
  profile : String → Option Json
  browser : String → Bool
  scripts : String → Bool
  http : String → TaskFile
  /-- `.order.json`; nothing when it is missing or no JSON. -/
  order : Option Json

inductive FileOp where
  | task (id : String) (v : Json)
  | order (v : Json)
  | profile (id : String) (v : Json)

def TaskDirs.apply (d : TaskDirs) : FileOp → TaskDirs
  | .task id v => { d with http := Function.update d.http id (.task v) }
  | .order v => { d with order := some v }
  | .profile id v => { d with profile := Function.update d.profile id (some v) }

/-! ## Fields -/

/-- The fields of the HTTP login in a profile of v9. -/
def legacyHttpKeys : List String :=
  ["http_method", "http_url", "http_headers", "http_body", "http_success_pattern",
   "http_failure_pattern", "http_crypto_script", "http_ignore_https_errors"]

/-- The profile has an HTTP login: any of its fields says something. -/
def legacyHttpConfigPresent (profile : Json) : Bool :=
  ["http_url", "http_headers", "http_body", "http_success_pattern", "http_failure_pattern",
   "http_crypto_script"].any (fun key => !isBlank (profile.text key)) ||
    (profile.get "http_ignore_https_errors").any Json.isBoolean

/-- The profile is bound to an HTTP task. -/
def alreadyBound (profile : Json) : Bool :=
  ((profile.get "active_http_task").bind Json.asStr).any fun s => !isBlank s

/-! ## The id of the task -/

namespace TaskDirs
variable (d : TaskDirs)

def pathHasTask (id : String) : Bool :=
  match d.http id with
  | .missing => false
  | _ => true

/-- Some task of any kind has the id. -/
def taskIdTaken (id : String) : Bool := d.browser id || d.scripts id || d.pathHasTask id

/-- The texts in which an existing task is compared with a profile. -/
def comparedKeys : List (String × String) :=
  [("url", "http_url"), ("headers", "http_headers"), ("body", "http_body"),
   ("success_pattern", "http_success_pattern"), ("failure_pattern", "http_failure_pattern"),
   ("crypto_script", "http_crypto_script")]

/-- The task with the profile's id, when it is the profile's HTTP login. -/
def reusableExistingTask (id : String) (profile : Json) : Option String :=
  match d.http id with
  | .task existing =>
    if comparedKeys.all fun keys => existing.text keys.1 = profile.text keys.2 then some id
    else none
  | _ => none

/-- `<id>-2` to `<id>-20`. -/
def suffixedIds (id : String) : List String :=
  (List.range' 2 19).map fun n => id ++ ("-" ++ toString n)

def pickHttpTaskId (id : String) (profile : Json) : Except Text String :=
  match d.reusableExistingTask id profile with
  | some existing => .ok existing
  | none =>
    if !d.taskIdTaken id then .ok id
    else
      match (suffixedIds id).find? fun candidate => !d.taskIdTaken candidate with
      | some candidate => .ok candidate
      | none => .error (id.toList ++ " 及其 -2…-20 后缀的任务 ID 都已被占用".toList)

end TaskDirs

/-! ## What is written -/

def upperAscii (s : String) : String := String.ofList (s.toList.map Char.toUpper)

def buildLegacyHttpTask (taskId : String) (profile : Json) : Json :=
  let name := (((profile.get "name").bind Json.asStr).filter fun s => !isBlank s).getD taskId
  let method :=
    ((((profile.get "http_method").bind Json.asStr).map upperAscii).filter (· = "POST")).getD "GET"
  let ignore := ((profile.get "http_ignore_https_errors").filter Json.isBoolean).getD .null
  .obj [("type", .str "http"), ("task_id", .str taskId), ("name", .str (name ++ " 直连")),
    ("description", .str ("v10 迁移：由方案「" ++ name ++ "」的直连配置生成")),
    ("method", .str method), ("url", .str (profile.text "http_url")), ("auth_url", .str ""),
    ("headers", .str (profile.text "http_headers")),
    ("body", .str (profile.text "http_body")),
    ("success_pattern", .str (profile.text "http_success_pattern")),
    ("failure_pattern", .str (profile.text "http_failure_pattern")),
    ("crypto_script", .str (profile.text "http_crypto_script")),
    ("ignore_https_errors", ignore)]

/-- A task has the texts of its profile. -/
theorem buildLegacyHttpTask_text (taskId : String) (profile : Json) :
    ∀ keys ∈ TaskDirs.comparedKeys,
      (buildLegacyHttpTask taskId profile).text keys.1 = profile.text keys.2 := by
  unfold buildLegacyHttpTask TaskDirs.comparedKeys
  simp only [Json.text_cons]
  intro keys hkeys
  simp only [List.mem_cons, List.not_mem_nil, or_false] at hkeys
  rcases hkeys with rfl | rfl | rfl | rfl | rfl | rfl <;> rfl

/-- The profile without its HTTP login, bound to the task unless it is bound already. -/
def bindProfile (taskId : String) (profile : Json) : Json :=
  let bound :=
    if alreadyBound profile then profile else profile.insert "active_http_task" (.str taskId)
  legacyHttpKeys.foldl (fun j key => j.remove key) bound

/-- Which writes succeed. -/
structure MigrateIo where
  createDir : Bool := true
  writeTask : String → Bool := fun _ => true
  writeOrder : Bool := true
  writeProfile : String → Bool := fun _ => true

/-- The id goes to the end of the order of the tasks when it is not in it. -/
def appendToOrder (io : MigrateIo) (d : TaskDirs) (taskId : String) : List FileOp :=
  let order := ((d.order.bind (Json.get "order")).bind Json.asArray).getD []
  if order.any fun v => v.asStr = some taskId then []
  else if io.writeOrder then [.order (.obj [("order", .arr (order ++ [.str taskId]))])]
  else []

/-- The task of a profile: it is written unless its file is there. Nothing when the write
    fails. -/
def taskOps (io : MigrateIo) (d : TaskDirs) (taskId : String) (profile : Json) :
    Option (List FileOp) :=
  if d.pathHasTask taskId then some []
  else if !io.createDir then none
  else if !io.writeTask taskId then none
  else some (.task taskId (buildLegacyHttpTask taskId profile) :: appendToOrder io d taskId)

/-- The profile to be migrated under a name, with the id picked for its task. -/
def legacyProfile (d : TaskDirs) (id : String) : Option (String × Json) :=
  if !isValidProfileId id then none
  else
    match d.profile id with
    | none => none
    | some profile =>
      if !legacyHttpConfigPresent profile then none
      else
        match d.pickHttpTaskId id profile with
        | .error _ => none
        | .ok taskId => some (taskId, profile)

/-- What the migration does for one profile file. -/
def profileOps (io : MigrateIo) (d : TaskDirs) (id : String) : List FileOp :=
  match legacyProfile d id with
  | none => []
  | some (taskId, profile) =>
    match taskOps io d taskId profile with
    | none => []
    | some ops =>
      ops ++ if io.writeProfile id then [.profile id (bindProfile taskId profile)] else []

def migrationJob (io : MigrateIo) : Job TaskDirs String FileOp := ⟨TaskDirs.apply, profileOps io⟩

/-- The file operations of the migration. -/
def migrateV9ToV10 (io : MigrateIo) (d : TaskDirs) : List FileOp := (migrationJob io).work d d.names

end CampusAuth.Config
