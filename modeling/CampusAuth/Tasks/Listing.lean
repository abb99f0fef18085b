import CampusAuth.Lib.Lines
import CampusAuth.Lib.StableSort
import CampusAuth.Tasks.Loader

/- The tasks that are listed and what can be done with their ids (`tasks/loader.rs`).

   A listing reads whatever is in the three directories. What a call on a path of a directory
   says of an entry (whether it is there, its text, whether it can be removed) is kept with the
   entry; the order and other files are written without an error. -/
namespace CampusAuth.Tasks
open Lib Login

/-! ## The directories -/

inductive Bucket where
  | browser | scripts | http
  deriving DecidableEq

/-- An entry of a directory, as the calls on its path find it. -/
structure Entry where
  /-- The name as it is shown: what is no Unicode is replaced. -/
  name : Text
  unicode : Bool := true
  /-- `exists` -/
  found : Bool := true
  /-- `read_to_string` -/
  text : Option Text
  /-- `remove_file` succeeds. -/
  removable : Bool := true
  /-- The time of the last change, or nothing. -/
  modifiedAt : Text := []
  found_of_text : text.isSome → found = true
  replaced : unicode = false → Char.ofNat 0xFFFD ∈ name

/-- What of a name is compared. -/
def foldName (caseless : Bool) (name : Text) : Text :=
  if caseless then name.map Char.toLower else name

structure TaskFiles where
  entries : Bucket → List Entry
  caseless : Bool
  /-- The ids of `.order.json`, when it can be read. -/
  order : Option (List Text)
  distinct : ∀ b, (entries b).Pairwise fun e e' => e.unicode = true → e'.unicode = true →
    foldName caseless e.name ≠ foldName caseless e'.name

/-- What the library makes of texts. -/
structure Reads (κ : Type*) where
  json : Text → Option Json
  task : Json → Option κ
  /-- The task of a script file: id, name, description and content. -/
  script : Text → Text → Text → Text → κ

inductive TaskError where
  | invalidTaskId (id : Text)
  | taskNotFound (id : Text)
  | deleteDefaultTask
  | ioError
  | jsonError
  deriving DecidableEq

structure TaskSummary where
  id : Text
  name : Text
  description : Text
  taskType : Text
  url : Text
  httpMethod : Option HttpRequestMethod
  modifiedAt : Text

def isIdChar (c : Char) : Bool := c.isAlphanum || c == '_' || c == '-'

def isValidTaskId (id : Text) : Bool :=
  if id.isEmpty || byteLen id > 64 then false else id.all isIdChar

def isValidLegacyPyId (id : Text) : Bool :=
  byteLen id ≤ 128 && id.contains '.' &&
    (id.splitOn '.').all fun part => !part.isEmpty && part.all isIdChar

def stripBom (content : Text) : Text := (content.dropPrefix? [Char.ofNat 0xFEFF]).getD content

/-- `file_stem` and `extension` -/
def stemAndExtension (name : Text) : Text × Option Text :=
  if name = ['.', '.'] then (name, none)
  else
    match splitOnce '.' name.reverse with
    | some (extension, before) =>
      if before = [] then (name, none) else (before.reverse, some extension.reverse)
    | none => (name, none)

def jsonName (id : Text) : Text := id ++ ".json".toList

def pyName (id : Text) : Text := id ++ ".py".toList

def metaName (id : Text) : Text := id ++ ".meta.json".toList

namespace TaskFiles
variable (files : TaskFiles)

/-- The entry that a path leads to. -/
def find (b : Bucket) (name : Text) : Option Entry :=
  (files.entries b).find? fun e =>
    e.unicode && foldName files.caseless e.name == foldName files.caseless name

/-- The entry, when `exists` sees it. -/
def at? (b : Bucket) (name : Text) : Option Entry := (files.find b name).filter (·.found)

/-- The directory without the entry. -/
def without (b : Bucket) (name : Text) : TaskFiles where
  entries b' :=
    if b' = b then
      (files.entries b).filter fun e =>
        !(e.unicode && foldName files.caseless e.name == foldName files.caseless name)
    else files.entries b'
  caseless := files.caseless
  order := files.order
  distinct b' := by
    split
    · exact (files.distinct b).sublist List.filter_sublist
    · exact files.distinct b'

/-- `remove_file` -/
def removeFile (b : Bucket) (name : Text) : Option TaskFiles :=
  match files.find b name with
  | some e => if e.removable then some (files.without b name) else none
  | none => none

/-- The order without the id. -/
def dropOrder (id : Text) : TaskFiles :=
  { files with order := some ((files.order.getD []).filter (· ≠ id)) }

end TaskFiles

/-- The directories in the order in which they are searched. -/
def buckets : List Bucket := [.browser, .scripts, .http]

/-! ## Listing -/

section
variable {κ : Type*} (o : Reads κ) (files : TaskFiles)

def textLines (content : Text) : List Text :=
  let (lines, rest) := splitLines '\n' content
  let whole := lines.map fun line => if line.getLast? = some '\r' then line.dropLast else line
  if rest = [] then whole else whole ++ [rest]

/-- The name and the description in the comments of a script, as far as a line changes them. -/
def readHeaderLine (found : Text × Text) (line : Text) : Text × Text :=
  let t := line.dropWhile isWhitespace
  match t.dropPrefix? "# name:".toList with
  | some rest => (strip rest, found.2)
  | none =>
    match t.dropPrefix? "# description:".toList with
    | some rest => (found.1, strip rest)
    | none => found

def readHeader (content : Text) : Text × Text :=
  ((textLines content).take 10).foldl readHeaderLine ([], [])

/-- The name and the description of a script: those beside it come before those in it. -/
def pyTitle (name : Text) : Option (Text × Text) :=
  match files.at? .scripts (metaName (stemAndExtension name).1) with
  | some beside =>
    match (beside.text.map stripBom).bind o.json with
    | some v => some (member v "name", member v "description")
    | none => some ([], [])
  | none => ((files.find .scripts name).bind (·.text)).map readHeader

def readPySummary (name : Text) : Option TaskSummary :=
  let stem := (stemAndExtension name).1
  (pyTitle o files name).map fun title =>
    { id := stem, name := if title.1.isEmpty then stem else title.1, description := title.2,
      taskType := "script".toList, url := [], httpMethod := none,
      modifiedAt := ((files.find .scripts name).map (·.modifiedAt)).getD [] }

/-- The request that a task with steps shows. -/
def flowRequest (v : Json) : Option Json :=
  ((v.get "steps").bind Json.asArray).bind fun steps =>
    let isRequest := fun step : Json => (step.get "kind").bind Json.asStr == some "request"
    let selected := v.text "result_step_id"
    if selected.isEmpty then steps.reverse.find? isRequest
    else steps.find? fun step =>
      isRequest step && (step.get "id").bind Json.asStr == some selected

def summaryFromValue (v : Json) (e : Entry) (ttype : Text) : TaskSummary :=
  let isHttp := ttype == "http".toList
  let request := (if isHttp then flowRequest v else none).getD v
  { id := (stemAndExtension e.name).1,
    name := (((v.get "name").bind Json.asStr).map String.toList).getD "未命名任务".toList,
    description := member v "description", taskType := ttype, url := member request "url",
    httpMethod := if isHttp then (request.get "method").bind readMethod else none,
    modifiedAt := e.modifiedAt }

def readSummaryTyped (e : Entry) (ttype : Option Text) : Option TaskSummary :=
  ((e.text.map stripBom).bind o.json).map fun v =>
    let own := ((v.get "type").bind Json.asStr).map String.toList
    summaryFromValue v e ((ttype <|> own).getD "script".toList)

def isJsonTask (name : Text) : Bool :=
  (stemAndExtension name).2 == some "json".toList &&
    !(name == ".order.json".toList || ".meta.json".toList.isSuffixOf name)

def scanJsonBucket (dir : List Entry) (ttype : Option Text) : List TaskSummary :=
  dir.filterMap fun e => if isJsonTask e.name then readSummaryTyped o e ttype else none

/-- The scripts without a document of their name. -/
def scanPy (seen : List Text) : List TaskSummary :=
  (files.entries .scripts).filterMap fun e =>
    if (stemAndExtension e.name).2 = some "py".toList ∧ e.unicode ∧
        !seen.contains (stemAndExtension e.name).1 then readPySummary o files e.name
    else none

/-- The type that a directory gives its documents. -/
def dirType : Bucket → Option Text
  | .browser => some "browser".toList
  | .scripts => none
  | .http => some "http".toList

def scanJson : List TaskSummary :=
  buckets.flatMap fun b => scanJsonBucket o (files.entries b) (dirType b)

def scanAll : List TaskSummary :=
  scanJson o files ++ scanPy o files ((scanJson o files).map (·.id))

/-- `position(..).unwrap_or(usize::MAX)` -/
def orderKey (order : List Text) (s : TaskSummary) : Nat := (order.idxOf? s.id).getD (2 ^ 64 - 1)

def listAllTasks : List TaskSummary := sortByKey (orderKey (files.order.getD [])) (scanAll o files)

/-! ## Loading, deleting, ordering -/

def findTaskFile (id : Text) : Option Entry :=
  if isValidTaskId id then buckets.findSome? fun b => files.at? b (jsonName id) else none

def loadLegacyPyTask (id : Text) : Except TaskError κ :=
  match readPySummary o files (pyName id) with
  | none => .error (.taskNotFound id)
  | some summary =>
    match (files.find .scripts (pyName id)).bind (·.text) with
    | none => .error .ioError
    | some content => .ok (o.script id summary.name summary.description content)

def loadTask (id : Text) : Except TaskError κ :=
  if isValidLegacyPyId id then loadLegacyPyTask o files id
  else if !isValidTaskId id then .error (.invalidTaskId id)
  else
    match findTaskFile files id with
    | none => loadLegacyPyTask o files id
    | some e =>
      match e.text with
      | none => .error .ioError
      | some content =>
        match (o.json (stripBom content)).bind o.task with
        | some task => .ok task
        | none => .error .jsonError

/-- Removes a file that is there; nothing when it cannot be removed. -/
def removeThere (b : Bucket) (name : Text) : Option TaskFiles :=
  if (files.at? b name).isSome then files.removeFile b name else some files

def deleteLegacy (id : Text) : TaskFiles × Except TaskError Unit :=
  match files.removeFile .scripts (pyName id) with
  | none => (files, .error .ioError)
  | some files =>
    match removeThere files .scripts (metaName id) with
    | none => (files, .error .ioError)
    | some files => (files.dropOrder id, .ok ())

/-- Removes the documents of an id and says whether there was one. -/
def removeDocuments (id : Text) : List Bucket → Bool → TaskFiles → TaskFiles × Except TaskError Bool
  | [], found, files => (files, .ok found)
  | b :: bs, found, files =>
    match removeThere files b (jsonName id) with
    | none => (files, .error .ioError)
    | some files' => removeDocuments id bs (found || (files.at? b (jsonName id)).isSome) files'

/-- Removes what belongs to an id, as far as it can be, and says whether the script went. -/
def removeScript (id : Text) : TaskFiles × Bool :=
  let files := (removeThere files .scripts (metaName id)).getD files
  match removeThere files .scripts (pyName id) with
  | some files' => (files', (files.at? .scripts (pyName id)).isSome)
  | none => (files, false)

def deleteTask (id : Text) : TaskFiles × Except TaskError Unit :=
  if isValidLegacyPyId id then deleteLegacy files id
  else if !isValidTaskId id then (files, .error (.invalidTaskId id))
  else if id = defaultTaskId then (files, .error .deleteDefaultTask)
  else
    match removeDocuments id buckets false files with
    | (files, .error e) => (files, .error e)
    | (files, .ok found) =>
      let (files, script) := removeScript files id
      if found || script then (files.dropOrder id, .ok ()) else (files, .error (.taskNotFound id))

def saveOrder (order : List Text) : TaskFiles × Except TaskError Unit :=
  match order.find? fun id => !isValidTaskId id with
  | some invalid => (files, .error (.invalidTaskId invalid))
  | none => ({ files with order := some order }, .ok ())

end

end CampusAuth.Tasks
