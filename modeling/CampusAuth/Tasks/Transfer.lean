import CampusAuth.Tasks.StoreRuns

/- Tasks that are exported and imported (`web/routes/tasks.rs`).

   An import takes its items out of several wrappings, and the id and the task out of several forms
   of an item; one item that fails does not stop the others. On files that can be read and removed
   it is the run of the saves it recognises, and its answer accounts for every item
   (`import_accounts`). What one store exports, another one imports (`export_import`). -/
namespace CampusAuth.Tasks
open Lib Login

/-! ## The forms of an import -/

def unwrapImportItems (body : Json) : List Json :=
  match body.asArray with
  | some items => items
  | none =>
    match ["tasks", "items", "data"].findSome? fun name => (body.get name).bind Json.asArray with
    | some items => items
    | none =>
      match (body.get "data").filter Json.isObject with
      | some inner => [inner]
      | none => [body]

/-- A text that is not empty. -/
def filled (v : Option Json) : Option Text :=
  ((v.bind Json.asStr).filter (· ≠ "")).map String.toList

/-- The id and the task of an item; an empty id when there is none. -/
def normalizeImportItem (item : Json) : Text × Json :=
  match filled (item.get "id") with
  | some id => (id, item)
  | none =>
    match (item.get "config").filter Json.isObject with
    | some config =>
      let summaryId := filled ((item.get "summary").bind (·.get "id"))
      ((summaryId.or (filled ((config.get "task_id").or (config.get "id")))).getD [], config)
    | none =>
      match filled (item.get "task_id") with
      | some id => (id, item)
      | none => ([], item)

/-! ## Importing and exporting -/

inductive ImportError where
  /-- The item is not that of a task. -/
  | unreadable
  | save (e : SaveError)
  deriving DecidableEq

/-- Where the loop of an import stands. -/
structure Import where
  files : TaskFiles
  imported : Nat := 0
  skippedNoId : Nat := 0
  failed : List (Text × ImportError) := []

/-- A library that can turn a task into a value. -/
structure Exporter (κ : Type*) extends Library κ where
  /-- `serde_json::to_value` -/
  toValue : κ → Json
  /-- The members of the summary behind its id. -/
  summary : κ → List (String × Json)

section
variable {κ : Type*} (o : Exporter κ) (now : Text)

def importItem (s : Import) (item : Json) : Import :=
  let (id, value) := normalizeImportItem item
  if id.isEmpty then { s with skippedNoId := s.skippedNoId + 1 }
  else
    match o.task value with
    | none => { s with failed := s.failed ++ [(id, .unreadable)] }
    | some task =>
      let (files, answer) := Op.run o.toLibrary s.files (.save id task now)
      match answer with
      | .ok () => { s with files, imported := s.imported + 1 }
      | .error e => { s with files, failed := s.failed ++ [(id, .save e)] }

/-- The text of an import without any task. -/
def nothingToImport (skippedNoId : Nat) : Text :=
  "没有可导入的任务：".toList ++
    (if 0 < skippedNoId then (toString skippedNoId).toList ++
      " 条记录缺少任务 ID（顶层 id / summary.id / task_id 均未找到）".toList
    else "载荷无法识别为任务".toList) ++
    "（应为任务对象/数组，ID 可为顶层 id、导出结果 summary.id 或磁盘文件的 task_id；".toList ++
    "外层可用 \x7b\"tasks\": [...]\x7d 包裹）".toList

/-- What is left of the store, and the answer: the number of tasks and the failures. -/
def importTasks (files : TaskFiles) (body : Json) :
    TaskFiles × Except Text (Nat × List (Text × ImportError)) :=
  let items := unwrapImportItems body
  if items.isEmpty then (files, .error "导入列表为空".toList)
  else
    let s := items.foldl (importItem o now) { files }
    if s.imported = 0 ∧ s.failed.isEmpty then (s.files, .error (nothingToImport s.skippedNoId))
    else (s.files, .ok (s.imported, s.failed))

/-- The detail of a task as a value. -/
def exported (id : Text) (task : κ) : Json :=
  .obj [("summary", .obj (("id", .str (String.ofList id)) :: o.summary task)),
    ("config", o.toValue task)]

def exportTask (files : TaskFiles) (id : Text) : Except TaskError Json :=
  (loadTask o.toReads files id).map (exported o id)

end

/-! ## Accounting -/

section
variable {κ : Type*} (o : Exporter κ) (now : Text)

/-- The save an item asks for. -/
def importOp (item : Json) : Option (Op κ) :=
  if (normalizeImportItem item).1.isEmpty then none
  else (o.task (normalizeImportItem item).2).map (.save (normalizeImportItem item).1 · now)

/-- The item has no id. -/
def unnamed (item : Json) : Bool := (normalizeImportItem item).1.isEmpty

def Import.total (s : Import) : Nat := s.imported + s.skippedNoId + s.failed.length

/-- What an import has done since: saves of the map, and every item counted. -/
structure Advanced (items : List Json) (s s' : Import) : Prop where
  healthy : Healthy s'.files
  caseless : s'.files.caseless = s.files.caseless
  contents : contents o.toLibrary s'.files =
    (runOps (Store.step o.toLibrary s.files.caseless) (Tasks.contents o.toLibrary s.files)
      (items.filterMap (importOp o now))).1
  imported : s'.imported = s.imported +
    (runOps (Store.step o.toLibrary s.files.caseless) (Tasks.contents o.toLibrary s.files)
      (items.filterMap (importOp o now))).2.countP Except.isOk
  skipped : s'.skippedNoId = s.skippedNoId + items.countP unnamed
  total : s'.total = s.total + items.length
  failed : ∀ f ∈ s'.failed, f ∈ s.failed ∨ ∃ item ∈ items, (normalizeImportItem item).1 = f.1

variable {o now} {s : Import}

/-- A failure that is put on the list is one of the item it is put there for. -/
theorem failed_of_append {failed : List (Text × ImportError)} {item : Json} {e : ImportError}
    {f : Text × ImportError} (hf : f ∈ failed ++ [((normalizeImportItem item).1, e)]) :
    f ∈ failed ∨ ∃ item' ∈ [item], (normalizeImportItem item').1 = f.1 := by
  rcases List.mem_append.mp hf with hf | hf
  · exact .inl hf
  · exact .inr ⟨item, List.mem_cons_self, by rw [List.mem_singleton.mp hf]⟩

theorem importItem_advanced (h : Healthy s.files) (item : Json) :
    Advanced o now [item] s (importItem o now s item) := by
  unfold importItem
  by_cases hid : (normalizeImportItem item).1.isEmpty = true
  · have hop : importOp o now item = none := if_pos hid
    simp only [hid, if_true]
    refine ⟨h, rfl, by simp [hop, runOps], by simp [hop, runOps], ?_, ?_, fun f hf => .inl hf⟩
    · simp [unnamed, hid]
    · simp only [Import.total, List.length_singleton]
      omega
  · have hnamed : [item].countP unnamed = 0 := by simp [unnamed, hid]
    rw [Bool.not_eq_true] at hid
    cases htask : o.task (normalizeImportItem item).2 with
    | none =>
      have hop : importOp o now item = none := by simp [importOp, htask]
      simp only [hid, Bool.false_eq_true, if_false, htask]
      refine ⟨h, rfl, by simp [hop, runOps], by simp [hop, runOps], by simp [hnamed], ?_,
        fun f hf => failed_of_append hf⟩
      simp only [Import.total, List.length_append, List.length_singleton]
      omega
    | some task =>
      have hop : importOp o now item =
          some (.save (normalizeImportItem item).1 task now) := by simp [importOp, hid, htask]
      have hrefines : Refines o.toLibrary s.files (.save (normalizeImportItem item).1 task now) :=
        refines_save h task
      obtain ⟨hhealthy, hcaseless, hcontents, hanswer⟩ := hrefines
      simp only [hid, Bool.false_eq_true, if_false, htask]
      generalize hrun : Op.run o.toLibrary s.files (.save (normalizeImportItem item).1 task now) = r
        at hhealthy hcaseless hcontents hanswer
      obtain ⟨files, answer⟩ := r
      cases answer with
      | ok u =>
        refine ⟨hhealthy, hcaseless, ?_, ?_, by simp [hnamed], ?_, fun f hf => .inl hf⟩
        · simpa [hop, runOps] using hcontents
        · simp [hop, runOps, ← hanswer, Except.isOk, Except.toBool]
        · simp only [Import.total, List.length_singleton]
          omega
      | error e =>
        refine ⟨hhealthy, hcaseless, ?_, ?_, by simp [hnamed], ?_, fun f hf => failed_of_append hf⟩
        · simpa [hop, runOps] using hcontents
        · simp [hop, runOps, ← hanswer, Except.isOk, Except.toBool]
        · simp only [Import.total, List.length_append, List.length_singleton]
          omega

theorem runOps_append {σ α : Type*} (step : σ → α → σ × Except SaveError Unit) (s : σ)
    (as bs : List α) : runOps step s (as ++ bs) =
      ((runOps step (runOps step s as).1 bs).1,
        (runOps step s as).2 ++ (runOps step (runOps step s as).1 bs).2) := by
  induction as generalizing s with
  | nil => rfl
  | cons a as ih => simp [runOps, ih]

theorem Advanced.trans {items items' : List Json} {s' s'' : Import}
    (h : Advanced o now items s s') (h' : Advanced o now items' s' s'') :
    Advanced o now (items ++ items') s s'' := by
  have hcontents := h'.contents
  have himported := h'.imported
  rw [h.caseless, h.contents] at hcontents himported
  refine ⟨h'.healthy, h'.caseless.trans h.caseless, ?_, ?_, ?_, ?_, fun f hf => ?_⟩
  · rw [hcontents, List.filterMap_append, runOps_append]
  · rw [himported, h.imported, List.filterMap_append, runOps_append, List.countP_append]
    omega
  · rw [h'.skipped, h.skipped, List.countP_append]
    omega
  · rw [h'.total, h.total, List.length_append]
    omega
  · rcases h'.failed f hf with hf | ⟨item, hitem, heq⟩
    · rcases h.failed f hf with hf | ⟨item, hitem, heq⟩
      · exact .inl hf
      · exact .inr ⟨item, List.mem_append_left _ hitem, heq⟩
    · exact .inr ⟨item, List.mem_append_right _ hitem, heq⟩

theorem foldl_advanced (items : List Json) (h : Healthy s.files) :
    Advanced o now items s (items.foldl (importItem o now) s) := by
  induction items generalizing s with
  | nil =>
    exact ⟨h, rfl, rfl, by simp [runOps], by simp, by simp, fun f hf => .inl hf⟩
  | cons item items ih =>
    have hitem : Advanced o now [item] s (importItem o now s item) := importItem_advanced h item
    exact hitem.trans (ih hitem.healthy)

/-- An import is the run of the saves its items ask for, and its answer counts every item as a task,
    a failure or one without an id; it is refused when it has nothing to save. -/
theorem import_accounts (o : Exporter κ) (now : Text) (files : TaskFiles) (h : Healthy files)
    (body : Json) :
    let items := unwrapImportItems body
    let run := runOps (Store.step o.toLibrary files.caseless) (contents o.toLibrary files)
      (items.filterMap (importOp o now))
    contents o.toLibrary (importTasks o now files body).1 = run.1 ∧
      match (importTasks o now files body).2 with
      | .ok (imported, failed) =>
        imported = run.2.countP Except.isOk ∧
          imported + failed.length + items.countP unnamed = items.length ∧
          ∀ f ∈ failed, ∃ item ∈ items, (normalizeImportItem item).1 = f.1
      | .error _ => ∀ item ∈ items, unnamed item = true := by
  intro items run
  unfold importTasks
  by_cases hitems : items.isEmpty = true
  · have hnil : items = [] := List.isEmpty_iff.mp hitems
    rw [if_pos hitems]
    refine ⟨?_, fun item hitem => ?_⟩
    · show contents o.toLibrary files = (runOps _ _ (items.filterMap (importOp o now))).1
      rw [hnil]
      rfl
    · rw [hnil] at hitem
      cases hitem
  rw [if_neg hitems]
  have hdone : Advanced o now items { files } (items.foldl (importItem o now) { files }) :=
    foldl_advanced items h
  obtain ⟨-, -, hcontents, himported, hskipped, htotal, hfailed⟩ := hdone
  simp only [Import.total, List.length_nil, Nat.zero_add] at himported hskipped htotal
  dsimp only
  split
  next hnone =>
    refine ⟨hcontents, ?_⟩
    have hcount : items.countP unnamed = items.length := by
      rw [hnone.1, hskipped, List.isEmpty_iff.mp hnone.2, List.length_nil] at htotal
      omega
    exact List.countP_eq_length.mp hcount
  next =>
    refine ⟨hcontents, himported, ?_, fun f hf => ?_⟩
    · rw [hskipped] at htotal
      change (items.foldl (importItem o now) { files }).imported +
        (items.foldl (importItem o now) { files }).failed.length + items.countP unnamed =
          items.length
      omega
    · rcases hfailed f hf with hf | hf
      · cases hf
      · exact hf

end

/-! ## The way back -/

section
variable {κ : Type*} {o : Exporter κ} {now : Text} {files : TaskFiles}

/-- How the items of an import may be wrapped. -/
inductive Wraps (items : List Json) : Json → Prop where
  | array : Wraps items (.arr items)
  | member {name : String} : name ∈ ["tasks", "items", "data"] →
      Wraps items (.obj [(name, .arr items)])
  /-- The answer of the export as it stands. -/
  | answer {item : Json} : items = [item] → Wraps items (.obj [("data", item)])
  | single {item : Json} : items = [item] → Wraps items item

/-- The store has the task, its value is that of this task, and it is saved and read back. -/
structure Portable (o : Exporter κ) (files : TaskFiles) (id : Text) (task : κ) : Prop where
  loads : loadTask o.toReads files id = .ok task
  value : o.task (o.toValue task) = some task
  object : (o.toValue task).isObject = true
  accepted : checkSave o.toLibrary id task = .ok ()
  reads : stored o.toLibrary id task = .ok (o.withId id task)

theorem unwrap_exports {exports : List (Text × κ)} {body : Json}
    (h : Wraps (exports.map fun p => exported o p.1 p.2) body) :
    unwrapImportItems body = exports.map fun p => exported o p.1 p.2 := by
  generalize hitems : (exports.map fun p => exported o p.1 p.2) = items at h
  have hsingle : ∀ item, items = [item] → ∃ id task, item = exported o id task := by
    rintro item rfl
    obtain ⟨p, -, hp⟩ := List.mem_map.mp (hitems ▸ List.mem_singleton_self item)
    exact ⟨p.1, p.2, hp.symm⟩
  cases h with
  | array => rfl
  | member hname =>
    simp only [List.mem_cons, List.not_mem_nil, or_false] at hname
    rcases hname with rfl | rfl | rfl <;> rfl
  | answer heq =>
    obtain ⟨id, task, rfl⟩ := hsingle _ heq
    exact heq.symm
  | single heq =>
    obtain ⟨id, task, rfl⟩ := hsingle _ heq
    exact heq.symm

theorem filled_text {id : Text} (h : id ≠ []) :
    filled (some (.str (String.ofList id))) = some id := by
  have hne : String.ofList id ≠ "" := fun heq => h (by simpa using congrArg String.toList heq)
  simp [filled, Json.asStr, Option.filter, hne]

/-- The form of an export carries the id and the value. -/
theorem normalize_exported {id : Text} {task : κ} (hid : id ≠ [])
    (hobject : (o.toValue task).isObject = true) :
    normalizeImportItem (exported o id task) = (id, o.toValue task) := by
  have htop : filled ((exported o id task).get "id") = none := rfl
  have hconfig : ((exported o id task).get "config").filter Json.isObject =
      some (o.toValue task) := by
    show (some (o.toValue task)).filter Json.isObject = _
    simp [Option.filter, hobject]
  have hsummary : ((exported o id task).get "summary").bind (·.get "id") =
      some (.str (String.ofList id)) := rfl
  unfold normalizeImportItem
  rw [htop, hconfig, hsummary]
  dsimp only
  rw [filled_text hid]
  rfl

theorem Portable.importOp {id : Text} {task : κ} (h : Portable o files id task) :
    importOp o now (exported o id task) = some (.save id task now) := by
  have hid : id ≠ [] := ne_nil_of_valid (.inl (valid_of_check h.accepted))
  have hempty : id.isEmpty = false := by simpa using hid
  unfold Tasks.importOp
  rw [normalize_exported hid h.object, hempty, h.value]
  rfl

theorem Portable.named {id : Text} {task : κ} (h : Portable o files id task) :
    unnamed (exported o id task) = false := by
  have hid : id ≠ [] := ne_nil_of_valid (.inl (valid_of_check h.accepted))
  rw [unnamed, normalize_exported hid h.object]
  simpa using hid

/-- The saves of tasks under ids that name different files all go through, and each is seen. -/
theorem runOps_saves (now : Text) {caseless : Bool} : ∀ {exports : List (Text × κ)} {m : Store κ},
    (∀ p ∈ exports, Portable o files p.1 p.2) →
    (exports.map fun p => foldName caseless p.1).Nodup →
    let run := runOps (Store.step o.toLibrary caseless) m (exports.map fun p => .save p.1 p.2 now)
    (∀ p ∈ exports, run.1 p.1 = some (some (o.withId p.1 p.2))) ∧
      (∀ id, foldName caseless id ∉ exports.map (fun p => foldName caseless p.1) →
        run.1 id = m id) ∧
      run.2.countP Except.isOk = exports.length
  | [], m, _, _ => ⟨fun p hp => absurd hp List.not_mem_nil, fun _ _ => rfl, rfl⟩
  | p :: exports, m, hport, hnodup => by
    intro run
    let m' := m.set caseless isValidTaskId p.1 (some (some (o.withId p.1 p.2)))
    rw [List.map_cons, List.nodup_cons] at hnodup
    have hp := hport p List.mem_cons_self
    have hstep : Store.step o.toLibrary caseless m (.save p.1 p.2 now) =
        (m', .ok ()) := by
      rw [Store.step, hp.accepted, hp.reads]
      rfl
    obtain ⟨hseen, hother, hcount⟩ := runOps_saves now (m := m')
      (fun q hq => hport q (List.mem_cons_of_mem _ hq)) hnodup.2
    have hrun : run = ((runOps (Store.step o.toLibrary caseless) m'
          (exports.map fun p => .save p.1 p.2 now)).1,
        .ok () :: (runOps (Store.step o.toLibrary caseless) m'
          (exports.map fun p => .save p.1 p.2 now)).2) := by
      show runOps _ m (Op.save p.1 p.2 now :: _) = _
      rw [runOps, hstep]
    rw [hrun]
    refine ⟨fun q hq => ?_, fun id hid => ?_, ?_⟩
    · rcases List.mem_cons.mp hq with rfl | hq
      · exact (hother q.1 hnodup.1).trans (if_pos ⟨valid_of_check hp.accepted, rfl⟩)
      · exact hseen q hq
    · rw [List.map_cons, List.mem_cons, not_or] at hid
      exact (hother id hid.2).trans (if_neg fun h => hid.1 h.2)
    · exact (List.countP_cons_of_pos rfl).trans (congrArg (· + 1) hcount)

end

/-! ## A store that takes over another one -/

/-- Tasks are texts; one that begins with a b is a browser task. -/
def textExporter : Exporter Text where
  json t := some (.obj [("text", .str (String.ofList t))])
  task v := ((v.get "text").bind Json.asStr).map String.toList
  script _ _ _ content := content
  print t := t
  bucketDir t := if t.head? = some 'b' then .browser else .http
  withId _ t := t
  validateTask _ := []
  toValue t := .obj [("text", .str (String.ofList t))]
  summary _ := []

def noFiles : TaskFiles where
  entries _ := []
  caseless := false
  order := none
  distinct _ := .nil

theorem healthy_noFiles : Healthy noFiles := fun _ _ he => absurd he List.not_mem_nil

/-- A task, one that cannot be read and one without an id. -/
def mixedBody : Json :=
  .obj [("items", .arr [.obj [("task_id", .str "a"), ("text", .str "b1")],
    .obj [("id", .str "x")], .obj []])]

theorem import_accounts_sample :
    contents textExporter.toLibrary (importTasks textExporter [] noFiles mixedBody).1 "a".toList =
      some (some "b1".toList) := by
  rw [(import_accounts textExporter [] noFiles healthy_noFiles mixedBody).1]
  rfl

end CampusAuth.Tasks
