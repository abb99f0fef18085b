import CampusAuth.Tasks.ListedIds

/- The task files as a store (`tasks/loader.rs`, `save_task` and what reads it back).

   A task is one document in the directory of its kind. Saving writes that document at once, then
   removes the documents of the same id from the other directories, then puts the id at the end of
   the order; `Saved.moments` are the directories after each of these operations, which is what a
   crash can leave. An id owns the paths of `pathsOf`, and ids whose names differ own different
   ones (`pathsOf_disjoint`), so what is done to one id is not seen through another
   (`Touches.loadTask_eq`). -/
namespace CampusAuth.Tasks
open Lib Login

/-! ## Saving -/

inductive SaveError where
  | task (e : TaskError)
  | validationFailed (errors : List Text)
  deriving DecidableEq

/-- What the library makes of tasks. -/
structure Library (κ : Type*) extends Reads κ where
  /-- `to_string_pretty` -/
  print : κ → Text
  bucketDir : κ → Bucket
  /-- `common_mut().task_id = ..` -/
  withId : Text → κ → κ
  /-- The errors of `validate_task` on the document of the task. -/
  validateTask : κ → List Text

/-- The writes of a save that succeed. -/
structure Writes where
  document : Bool := true
  order : Bool := true

/-- A document just written. -/
def writtenEntry (name text now : Text) : Entry where
  name := name
  text := some text
  modifiedAt := now
  found_of_text _ := rfl
  replaced h := by cases h

namespace TaskFiles

/-- The directories with a document written anew. -/
def put (files : TaskFiles) (b : Bucket) (name text now : Text) : TaskFiles where
  entries b' :=
    if b' = b then writtenEntry name text now :: (files.without b name).entries b
    else files.entries b'
  caseless := files.caseless
  order := files.order
  distinct b' := by
    split
    · refine List.pairwise_cons.mpr ⟨fun e he _ hunicode hname => ?_, (files.without b name).distinct b⟩
      have he : e ∈ (files.entries b).filter fun e =>
          !(e.unicode && foldName files.caseless e.name == foldName files.caseless name) := by
        simpa [without] using he
      have hkept := (List.mem_filter.mp he).2
      simp only [hunicode, Bool.true_and, Bool.not_eq_true', beq_eq_false_iff_ne] at hkept
      exact hkept hname.symm
    · exact files.distinct b'

/-- The order with the id at its end, if it is not in it. -/
def appendOrder (files : TaskFiles) (id : Text) : TaskFiles :=
  if (files.order.getD []).contains id then files
  else { files with order := some (files.order.getD [] ++ [id]) }

end TaskFiles

structure Saved where
  /-- The directories before the save and after each operation of it. -/
  moments : List TaskFiles
  result : Except SaveError Unit

section
variable {κ : Type*} (o : Library κ)

/-- `other_bucket_paths` -/
def otherBuckets (task : κ) : List Bucket := buckets.filter (· ≠ o.bucketDir task)

/-- A stale document is removed when it is there and can be. -/
def removeStale (id : Text) (files : TaskFiles) (b : Bucket) : TaskFiles :=
  (removeThere files b (jsonName id)).getD files

/-- The directories from the written document to the last stale one. -/
def tidied (files : TaskFiles) (id : Text) (task : κ) (now : Text) : List TaskFiles :=
  (otherBuckets o task).scanl (removeStale id)
    (files.put (o.bucketDir task) (jsonName id) (o.print (o.withId id task)) now)

def checkSave (id : Text) (task : κ) : Except SaveError Unit :=
  if !isValidTaskId id then .error (.task (.invalidTaskId id))
  else if id = defaultTaskId ∧ o.bucketDir task ≠ .browser then
    .error (.validationFailed ["任务 ID「default」保留给内置浏览器任务，请换一个 ID".toList])
  else if o.validateTask task ≠ [] then .error (.validationFailed (o.validateTask task))
  else .ok ()

def saveTask (writes : Writes) (files : TaskFiles) (id : Text) (task : κ) (now : Text) : Saved :=
  match checkSave o id task with
  | .error e => ⟨[files], .error e⟩
  | .ok () =>
    if !writes.document then ⟨[files], .error (.task .ioError)⟩
    else
      let kept := files :: tidied o files id task now
      let last := kept.getLastD files
      if (last.order.getD []).contains id then ⟨kept, .ok ()⟩
      else if writes.order then ⟨kept ++ [last.appendOrder id], .ok ()⟩
      else ⟨kept, .error (.task .ioError)⟩

/-- The directories behind a save. -/
def Saved.final (s : Saved) (files : TaskFiles) : TaskFiles := s.moments.getLastD files

end

/-! ## The paths of an id -/

/-- The paths that loading and deleting an id look at. -/
def pathsOf (id : Text) : List (Bucket × Text) :=
  (if isValidTaskId id then buckets.map fun b => (b, jsonName id) else []) ++
    [(.scripts, pyName id), (.scripts, metaName id)]

/-- Only the paths of the id may lead to something else than before. -/
structure Touches (id : Text) (files files' : TaskFiles) : Prop where
  caseless : files'.caseless = files.caseless
  find : ∀ b name, (∀ p ∈ pathsOf id, p.1 = b →
    foldName files.caseless name ≠ foldName files.caseless p.2) → files'.find b name = files.find b name

section
variable {files files' files'' : TaskFiles} {id id' : Text}

theorem foldName_append (caseless : Bool) (a b : Text) :
    foldName caseless (a ++ b) = foldName caseless a ++ foldName caseless b := by
  unfold foldName
  split
  · exact List.map_append
  · rfl

theorem Touches.refl (id : Text) (files : TaskFiles) : Touches id files files :=
  ⟨rfl, fun _ _ _ => rfl⟩

theorem Touches.trans (h : Touches id files files') (h' : Touches id files' files'') :
    Touches id files files'' := by
  refine ⟨h'.caseless.trans h.caseless, fun b name hname => ?_⟩
  rw [h'.find b name (by rw [h.caseless]; exact hname), h.find b name hname]

theorem Touches.at? (h : Touches id files files') {b : Bucket} {name : Text}
    (hname : ∀ p ∈ pathsOf id, p.1 = b →
      foldName files.caseless name ≠ foldName files.caseless p.2) :
    files'.at? b name = files.at? b name := by
  unfold TaskFiles.at?
  rw [h.find b name hname]

theorem foldName_inj {caseless : Bool} {a b suffix : Text} (h : foldName caseless (a ++ suffix) =
    foldName caseless (b ++ suffix)) : foldName caseless a = foldName caseless b := by
  rw [foldName_append, foldName_append] at h
  exact List.append_cancel_right h

theorem dot_mem_foldName {caseless : Bool} : '.' ∈ foldName caseless id ↔ '.' ∈ id := by
  have hlower : ∀ c : Char, c.toLower = '.' ↔ c = '.' := by
    intro c
    refine ⟨fun hc => ?_, fun hc => by rw [hc]; rfl⟩
    unfold Char.toLower at hc
    split at hc
    next hupper =>
      have hhigh : c.val.toNat ≤ 90 := UInt32.le_iff_toNat_le.mp hupper.2
      have hlow : 65 ≤ c.val.toNat := UInt32.le_iff_toNat_le.mp hupper.1
      have hval : (c.val + ('a'.val - 'A'.val)).toNat = 46 :=
        congrArg (fun c : Char => c.val.toNat) hc
      rw [UInt32.toNat_add, show ('a'.val - 'A'.val).toNat = 32 from rfl] at hval
      omega
    next => exact hc
  unfold foldName
  split
  · simp [List.mem_map, hlower]
  · rfl

theorem dot_not_mem_of_valid (h : isValidTaskId id = true) : '.' ∉ id :=
  fun hmem => absurd (isIdChar_of_valid h '.' hmem) (by decide)

theorem getLast?_foldName {caseless : Bool} {a s : Text} (hs : s ≠ []) :
    (foldName caseless (a ++ s)).getLast? = (foldName caseless s).getLast? := by
  rw [foldName_append, List.getLast?_append]
  have hne : foldName caseless s ≠ [] := fun h => hs (List.length_eq_zero_iff.mp (by
    rw [← length_foldName caseless s, h]; rfl))
  cases hlast : (foldName caseless s).getLast? with
  | none => exact absurd (List.getLast?_eq_none_iff.mp hlast) hne
  | some c => rfl

theorem mem_pathsOf {p : Bucket × Text} (hp : p ∈ pathsOf id) :
    (isValidTaskId id = true ∧ p.2 = jsonName id) ∨ p.2 = pyName id ∨ p.2 = metaName id := by
  unfold pathsOf at hp
  rw [List.mem_append] at hp
  rcases hp with hp | hp
  · split at hp
    next hvalid =>
      obtain ⟨b, -, rfl⟩ := List.mem_map.mp hp
      exact .inl ⟨hvalid, rfl⟩
    next => cases hp
  · simp only [List.mem_cons, List.not_mem_nil, or_false] at hp
    rcases hp with rfl | rfl
    · exact .inr (.inl rfl)
    · exact .inr (.inr rfl)

theorem jsonName_ne_metaName {caseless : Bool} (h : isValidTaskId id = true) :
    foldName caseless (jsonName id) ≠ foldName caseless (metaName id') := by
  intro heq
  have hmeta : metaName id' = (id' ++ ".meta".toList) ++ ".json".toList := by
    simp [metaName]
  rw [hmeta] at heq
  have hdot : '.' ∈ foldName caseless id := by
    rw [foldName_inj heq, dot_mem_foldName]
    simp
  exact dot_not_mem_of_valid h (dot_mem_foldName.mp hdot)

theorem pyName_ne {caseless : Bool} {suffix : Text} (hs : suffix.getLast? = some 'n') :
    foldName caseless (pyName id) ≠ foldName caseless (id' ++ suffix) := by
  intro heq
  have hne : suffix ≠ [] := by rintro rfl; cases hs
  have hlast := congrArg List.getLast? heq
  rw [pyName, getLast?_foldName (by decide), getLast?_foldName hne] at hlast
  revert hlast
  cases caseless with
  | false =>
    simp only [foldName, Bool.false_eq_true, if_false, hs]
    decide
  | true =>
    simp only [foldName, if_true, List.getLast?_map, hs]
    decide

/-- Ids of different names own different paths. -/
theorem pathsOf_disjoint {caseless : Bool} (h : foldName caseless id ≠ foldName caseless id')
    {p p' : Bucket × Text} (hp : p ∈ pathsOf id) (hp' : p' ∈ pathsOf id') :
    foldName caseless p.2 ≠ foldName caseless p'.2 := by
  have hpy : ∀ {id id' : Text}, foldName caseless (pyName id) ≠ foldName caseless (jsonName id') ∧
      foldName caseless (pyName id) ≠ foldName caseless (metaName id') :=
    fun {_ _} => ⟨pyName_ne rfl, pyName_ne rfl⟩
  rcases mem_pathsOf hp with ⟨hvalid, heq⟩ | heq | heq <;>
    rcases mem_pathsOf hp' with ⟨hvalid', heq'⟩ | heq' | heq' <;> rw [heq, heq']
  · exact fun hname => h (foldName_inj hname)
  · exact hpy.1.symm
  · exact jsonName_ne_metaName hvalid
  · exact hpy.1
  · exact fun hname => h (foldName_inj hname)
  · exact hpy.2
  · exact (jsonName_ne_metaName hvalid').symm
  · exact hpy.2.symm
  · exact fun hname => h (foldName_inj hname)

/-! ## What an id sees of the others -/

theorem ne_nil_of_valid (h : isValidTaskId id = true ∨ isValidLegacyPyId id = true) : id ≠ [] := by
  rintro rfl
  rcases h with h | h <;> revert h <;> decide

theorem stem_pyName (h : id ≠ []) : (stemAndExtension (pyName id)).1 = id := by
  have hreverse : (pyName id).reverse = ['y', 'p'] ++ '.' :: id.reverse := by simp [pyName]
  have hdots : pyName id ≠ ['.', '.'] := by
    intro heq
    rw [heq] at hreverse
    cases hreverse
  unfold stemAndExtension
  rw [if_neg hdots, hreverse, splitOnce_append (by decide)]
  simp [h]

variable {κ : Type*} {o : Reads κ}

theorem loadLegacyPyTask_congr (hne : id ≠ [])
    (hpy : files'.find .scripts (pyName id) = files.find .scripts (pyName id))
    (hmeta : files'.find .scripts (metaName id) = files.find .scripts (metaName id)) :
    loadLegacyPyTask o files' id = loadLegacyPyTask o files id := by
  unfold loadLegacyPyTask readPySummary pyTitle TaskFiles.at?
  rw [stem_pyName hne, hpy, hmeta]

/-- Loading looks at the paths of the id and at no others. -/
theorem loadTask_congr (h : ∀ p ∈ pathsOf id, files'.find p.1 p.2 = files.find p.1 p.2) :
    loadTask o files' id = loadTask o files id := by
  have hpy := h (.scripts, pyName id) (List.mem_append_right _ (by simp))
  have hmeta := h (.scripts, metaName id) (List.mem_append_right _ (by simp))
  unfold loadTask
  cases hlegacy : isValidLegacyPyId id with
  | true => exact loadLegacyPyTask_congr (ne_nil_of_valid (.inr hlegacy)) hpy hmeta
  | false =>
    cases hvalid : isValidTaskId id with
    | false => rfl
    | true =>
      have hjson : findTaskFile files' id = findTaskFile files id := by
        rw [findTaskFile_valid hvalid, findTaskFile_valid hvalid]
        unfold documents TaskFiles.at?
        refine congrArg List.head? (List.filterMap_congr fun b hb => ?_)
        have hmem : (b, jsonName id) ∈ pathsOf id := by
          rw [pathsOf, if_pos hvalid]
          exact List.mem_append_left _ (List.mem_map_of_mem hb)
        exact congrArg (Option.filter _) (h _ hmem)
      simp only [Bool.false_eq_true, if_false, Bool.not_true, hjson,
        loadLegacyPyTask_congr (ne_nil_of_valid (.inl hvalid)) hpy hmeta]

/-- What is done to one id is not seen through another. -/
theorem Touches.loadTask_eq (h : Touches id files files')
    (hne : foldName files.caseless id' ≠ foldName files.caseless id) :
    loadTask o files' id' = loadTask o files id' :=
  loadTask_congr fun _ hp => h.find _ _ fun _ hp' _ => pathsOf_disjoint hne hp hp'

end

/-! ## What the operations touch -/

section
variable {files files' : TaskFiles} {id : Text} {b : Bucket} {name text now : Text}

theorem find_put_same :
    (files.put b name text now).find b name = some (writtenEntry name text now) :=
  find_eq_some.mpr ⟨by simp [TaskFiles.put], rfl, rfl⟩

theorem find_put_other {b' : Bucket} {name' : Text}
    (h : b' ≠ b ∨ foldName files.caseless name' ≠ foldName files.caseless name) :
    (files.put b name text now).find b' name' = files.find b' name' := by
  refine Option.ext fun e => ?_
  rw [← without_find h, find_eq_some, find_eq_some]
  show e ∈ (if b' = b then _ else files.entries b') ∧ _ ↔ _
  by_cases hb : b' = b
  · subst hb
    have hname := h.resolve_left fun hne => hne rfl
    rw [if_pos rfl, List.mem_cons]
    constructor
    · rintro ⟨rfl | hmem, hunicode, hfold⟩
      · exact absurd hfold.symm hname
      · exact ⟨hmem, hunicode, hfold⟩
    · exact fun ⟨hmem, hkept⟩ => ⟨.inr hmem, hkept⟩
  · rw [if_neg hb]
    show _ ↔ e ∈ (if b' = b then _ else files.entries b') ∧ _
    rw [if_neg hb]
    rfl

theorem find_without_same : (files.without b name).find b name = none := by
  refine Option.eq_none_iff_forall_ne_some.mpr fun e he => ?_
  obtain ⟨hmem, hunicode, hfold⟩ := find_eq_some.mp he
  have hfold : foldName files.caseless e.name = foldName files.caseless name := hfold
  simp [TaskFiles.without, hunicode, hfold] at hmem

/-- Removing what is there, as far as it can be. -/
structure Cleared (files files' : TaskFiles) (b : Bucket) (name : Text) : Prop where
  caseless : files'.caseless = files.caseless
  other : ∀ b' name', b' ≠ b ∨ foldName files.caseless name' ≠ foldName files.caseless name →
    files'.find b' name' = files.find b' name'
  gone : RemovableAt files b name → files'.at? b name = none
  kept : ¬RemovableAt files b name → files' = files

theorem cleared_removeThere : Cleared files ((removeThere files b name).getD files) b name := by
  unfold removeThere
  cases hat : files.at? b name with
  | none =>
    rw [if_neg (by simp)]
    exact ⟨rfl, fun _ _ _ => rfl, fun _ => hat, fun h => absurd (fun e he => by simp [hat] at he) h⟩
  | some e =>
    have hfind : files.find b name = some e := (at_eq_some.mp hat).1
    simp only [Option.isSome_some, if_true, TaskFiles.removeFile, hfind]
    by_cases hremovable : e.removable = true
    · rw [if_pos hremovable, Option.getD_some]
      refine ⟨rfl, fun _ _ => without_find, fun _ => ?_, fun h => absurd (fun e' he' => ?_) h⟩
      · rw [TaskFiles.at?, find_without_same]
        rfl
      · cases hat.symm.trans he'
        exact hremovable
    · rw [if_neg hremovable, Option.getD_none]
      exact ⟨rfl, fun _ _ _ => rfl, fun h => absurd (h e hat) hremovable, fun _ => rfl⟩

theorem Cleared.at? (h : Cleared files files' b name) {b' : Bucket} {name' : Text}
    (hne : b' ≠ b ∨ foldName files.caseless name' ≠ foldName files.caseless name) :
    files'.at? b' name' = files.at? b' name' := by
  unfold TaskFiles.at?
  rw [h.other b' name' hne]

theorem Cleared.touches (h : Cleared files files' b name) (hmem : (b, name) ∈ pathsOf id) :
    Touches id files files' :=
  ⟨h.caseless, fun b' name' hne => h.other b' name' (by
    by_cases hb : b = b'
    · exact .inr (hne _ hmem hb)
    · exact .inl (Ne.symm hb))⟩

theorem touches_put (hmem : (b, name) ∈ pathsOf id) :
    Touches id files (files.put b name text now) :=
  ⟨rfl, fun b' name' hne => find_put_other (by
    by_cases hb : b = b'
    · exact .inr (hne _ hmem hb)
    · exact .inl (Ne.symm hb))⟩

theorem mem_pathsOf_json (h : isValidTaskId id = true) (b : Bucket) :
    (b, jsonName id) ∈ pathsOf id := by
  rw [pathsOf, if_pos h]
  exact List.mem_append_left _ (List.mem_map_of_mem (by cases b <;> decide))

end

/-! ## What a save leaves -/

section
variable {κ : Type*} {o : Library κ} {files : TaskFiles} {id now : Text} {task : κ}

/-- The task of a document that is there. -/
def readEntry (o : Reads κ) (e : Entry) : Except TaskError κ :=
  match e.text with
  | none => .error .ioError
  | some content =>
    match (o.json (stripBom content)).bind o.task with
    | some task => .ok task
    | none => .error .jsonError

/-- What is read back of a saved task. -/
def stored (o : Library κ) (id : Text) (task : κ) : Except TaskError κ :=
  readEntry o.toReads (writtenEntry [] (o.print (o.withId id task)) [])

theorem loadTask_valid {o : Reads κ} (h : isValidTaskId id = true) : loadTask o files id =
    match (documents files id).head? with
    | some e => readEntry o e
    | none => loadLegacyPyTask o files id := by
  unfold loadTask
  rw [if_neg (by simp [not_legacy_of_valid h]), if_neg (by simp [h]), findTaskFile_valid h]
  cases (documents files id).head? with
  | none => rfl
  | some e =>
    unfold readEntry
    cases e.text <;> rfl

/-- The directories from the written document on: of the id there are the new document and perhaps
    others that were there. -/
structure Underway (o : Library κ) (files : TaskFiles) (id : Text) (task : κ) (now : Text)
    (m : TaskFiles) : Prop where
  touches : Touches id files m
  written : m.at? (o.bucketDir task) (jsonName id) =
    some (writtenEntry (jsonName id) (o.print (o.withId id task)) now)
  others : ∀ b, b ≠ o.bucketDir task →
    m.at? b (jsonName id) = none ∨ m.at? b (jsonName id) = files.at? b (jsonName id)

theorem underway_put (h : isValidTaskId id = true) : Underway o files id task now
    (files.put (o.bucketDir task) (jsonName id) (o.print (o.withId id task)) now) where
  touches := touches_put (mem_pathsOf_json h _)
  written := by rw [TaskFiles.at?, find_put_same]; rfl
  others b hb := .inr (by rw [TaskFiles.at?, find_put_other (.inl hb)]; rfl)

theorem Underway.removeStale {m : TaskFiles} (h : isValidTaskId id = true)
    (hm : Underway o files id task now m) {b : Bucket} (hb : b ≠ o.bucketDir task) :
    Underway o files id task now (removeStale id m b) := by
  have hclear : Cleared m (Tasks.removeStale id m b) b (jsonName id) := cleared_removeThere
  refine ⟨hm.touches.trans (hclear.touches (mem_pathsOf_json h b)), ?_, fun b' hb' => ?_⟩
  · rw [hclear.at? (.inl hb.symm), hm.written]
  · by_cases heq : b' = b
    · subst heq
      by_cases hremovable : RemovableAt m b' (jsonName id)
      · exact .inl (hclear.gone hremovable)
      · rw [hclear.kept hremovable]
        exact hm.others b' hb'
    · rw [hclear.at? (.inl heq)]
      exact hm.others b' hb'

theorem find_appendOrder {m : TaskFiles} {b : Bucket} {name : Text} :
    (m.appendOrder id).find b name = m.find b name := by
  unfold TaskFiles.appendOrder
  split <;> rfl

theorem caseless_appendOrder {m : TaskFiles} : (m.appendOrder id).caseless = m.caseless := by
  unfold TaskFiles.appendOrder
  split <;> rfl

theorem touches_appendOrder {m : TaskFiles} (id id' : Text) : Touches id' m (m.appendOrder id) :=
  ⟨caseless_appendOrder, fun _ _ _ => find_appendOrder⟩

theorem Underway.appendOrder {m : TaskFiles} (hm : Underway o files id task now m) :
    Underway o files id task now (m.appendOrder id) := by
  have hat : ∀ b name, (m.appendOrder id).at? b name = m.at? b name := fun b name => by
    rw [TaskFiles.at?, find_appendOrder]
    rfl
  refine ⟨hm.touches.trans (touches_appendOrder id id), by rw [hat, hm.written], fun b hb => ?_⟩
  rw [hat]
  exact hm.others b hb

theorem underway_tidied (h : isValidTaskId id = true) :
    ∀ m ∈ tidied o files id task now, Underway o files id task now m := by
  have hscan : ∀ (bs : List Bucket) (m : TaskFiles), (∀ b ∈ bs, b ≠ o.bucketDir task) →
      Underway o files id task now m → ∀ m' ∈ bs.scanl (Tasks.removeStale id) m,
        Underway o files id task now m' := by
    intro bs
    induction bs with
    | nil =>
      intro m _ hm m' hm'
      rw [List.scanl_nil, List.mem_singleton] at hm'
      exact hm' ▸ hm
    | cons b bs ih =>
      intro m hbs hm m' hm'
      rw [List.scanl_cons, List.mem_cons] at hm'
      rcases hm' with rfl | hm'
      · exact hm
      · exact ih _ (fun b' hb' => hbs b' (List.mem_cons_of_mem _ hb'))
          (hm.removeStale h (hbs b List.mem_cons_self)) m' hm'
  exact hscan _ _ (fun b hb => by simpa using (List.mem_filter.mp hb).2) (underway_put h)

/-- The directories when the stale documents have been seen to. -/
def tidiedLast (o : Library κ) (files : TaskFiles) (id : Text) (task : κ) (now : Text) : TaskFiles :=
  (otherBuckets o task).foldl (removeStale id)
    (files.put (o.bucketDir task) (jsonName id) (o.print (o.withId id task)) now)

theorem getLast?_scanl {α β : Type*} (f : β → α → β) (bs : List α) (m : β) :
    (bs.scanl f m).getLast? = some (bs.foldl f m) := by
  induction bs generalizing m with
  | nil => simp
  | cons b bs ih =>
    rw [List.scanl_cons, List.foldl_cons, List.getLast?_cons, ih]
    rfl

theorem getLast?_tidied : (tidied o files id task now).getLast? =
    some (tidiedLast o files id task now) :=
  getLast?_scanl ..

/-- What a save that went through did. -/
inductive Done (o : Library κ) (files : TaskFiles) (id : Text) (task : κ) (now : Text) :
    Saved → Prop where
  | ordered : id ∈ (tidiedLast o files id task now).order.getD [] →
      Done o files id task now ⟨files :: tidied o files id task now, .ok ()⟩
  | appended : Done o files id task now
      ⟨files :: tidied o files id task now ++ [(tidiedLast o files id task now).appendOrder id],
        .ok ()⟩

/-- A save is refused, is stopped by a write, or goes through. -/
theorem saveTask_cases (o : Library κ) (writes : Writes) (files : TaskFiles) (id : Text) (task : κ)
    (now : Text) :
    (∃ e, checkSave o id task = .error e ∧
      saveTask o writes files id task now = ⟨[files], .error e⟩) ∨
    (checkSave o id task = .ok () ∧ writes.document = false ∧
      saveTask o writes files id task now = ⟨[files], .error (.task .ioError)⟩) ∨
    (checkSave o id task = .ok () ∧ writes.document = true ∧ writes.order = false ∧
      saveTask o writes files id task now =
        ⟨files :: tidied o files id task now, .error (.task .ioError)⟩) ∨
    (checkSave o id task = .ok () ∧ writes.document = true ∧
      Done o files id task now (saveTask o writes files id task now)) := by
  have hlast : (files :: tidied o files id task now).getLastD files =
      tidiedLast o files id task now := by
    rw [List.getLastD_eq_getLast?, List.getLast?_cons, getLast?_tidied]
    rfl
  unfold saveTask
  cases hcheck : checkSave o id task with
  | error e => exact .inl ⟨e, rfl, rfl⟩
  | ok u =>
    simp only [hlast]
    cases writes.document with
    | false => exact .inr (.inl ⟨trivial, rfl, rfl⟩)
    | true =>
      simp only [Bool.not_true, Bool.false_eq_true, if_false]
      by_cases hmem : id ∈ (tidiedLast o files id task now).order.getD []
      · rw [if_pos (List.contains_iff_mem.mpr hmem)]
        exact .inr (.inr (.inr ⟨trivial, trivial, .ordered hmem⟩))
      rw [if_neg (mt List.contains_iff_mem.mp hmem)]
      cases writes.order with
      | true => exact .inr (.inr (.inr ⟨trivial, trivial, .appended⟩))
      | false => exact .inr (.inr (.inl ⟨trivial, trivial, rfl, rfl⟩))

theorem valid_of_check (h : checkSave o id task = .ok ()) : isValidTaskId id = true := by
  by_contra hvalid
  rw [checkSave, if_pos (by simpa using hvalid)] at h
  cases h

/-- Only a browser task is saved under the id of the built-in task. -/
theorem browser_of_check (h : checkSave o defaultTaskId task = .ok ()) :
    o.bucketDir task = .browser := by
  by_contra hne
  rw [checkSave, if_neg (by decide), if_pos ⟨rfl, hne⟩] at h
  cases h

/-- Every moment of a save has the directories as they were or is underway. -/
theorem saveTask_moments (writes : Writes) :
    ∀ m ∈ (saveTask o writes files id task now).moments,
      m = files ∨ (checkSave o id task = .ok () ∧ Underway o files id task now m) := by
  intro m hm
  have hstart : ∀ {m}, m ∈ files :: tidied o files id task now →
      checkSave o id task = .ok () →
      m = files ∨ (checkSave o id task = .ok () ∧ Underway o files id task now m) := by
    intro m hm hcheck
    rcases List.mem_cons.mp hm with rfl | hm
    · exact .inl rfl
    · exact .inr ⟨hcheck, underway_tidied (valid_of_check hcheck) m hm⟩
  rcases saveTask_cases o writes files id task now with ⟨e, -, heq⟩ | ⟨-, -, heq⟩ |
    ⟨hcheck, -, -, heq⟩ | ⟨hcheck, -, hdone⟩
  · rw [heq] at hm
    exact .inl (List.mem_singleton.mp hm)
  · rw [heq] at hm
    exact .inl (List.mem_singleton.mp hm)
  · rw [heq] at hm
    exact hstart hm hcheck
  · generalize saveTask o writes files id task now = saved at hm hdone
    cases hdone with
    | ordered => exact hstart hm hcheck
    | appended =>
      rcases List.mem_append.mp hm with hm | hm
      · exact hstart hm hcheck
      · have hvalid := valid_of_check hcheck
        have hlast : tidiedLast o files id task now ∈ tidied o files id task now :=
          List.mem_of_getLast? getLast?_tidied
        rw [List.mem_singleton.mp hm]
        exact .inr ⟨hcheck, (underway_tidied hvalid _ hlast).appendOrder⟩

/-- The document of another directory that cannot be removed. -/
def stuck (files : TaskFiles) (id : Text) (b : Bucket) : Option Entry :=
  (files.at? b (jsonName id)).filter fun e => !e.removable

/-- The directories that are searched before that of the task. -/
def bucketsBefore (o : Library κ) (task : κ) : List Bucket :=
  buckets.takeWhile (· ≠ o.bucketDir task)

theorem at_eq_stuck {m : TaskFiles} {b : Bucket} :
    (removeStale id m b).at? b (jsonName id) = stuck m id b := by
  have hclear : Cleared m (removeStale id m b) b (jsonName id) := cleared_removeThere
  by_cases hremovable : RemovableAt m b (jsonName id)
  · rw [hclear.gone hremovable, stuck]
    cases hat : m.at? b (jsonName id) with
    | none => rfl
    | some e => simp [Option.filter, hremovable e hat]
  · rw [hclear.kept hremovable, stuck]
    cases hat : m.at? b (jsonName id) with
    | none => rfl
    | some e =>
      have he : e.removable = false := by
        by_contra he
        exact hremovable fun e' he' => by
          cases hat.symm.trans he'
          simpa using he
      simp [Option.filter, he]

theorem at_foldl_removeStale (bs : List Bucket) (hbs : bs.Nodup) (m : TaskFiles) (b : Bucket) :
    (bs.foldl (removeStale id) m).at? b (jsonName id) =
      if b ∈ bs then stuck m id b else m.at? b (jsonName id) := by
  induction bs generalizing m with
  | nil => rfl
  | cons b' bs ih =>
    obtain ⟨hnot, hbs⟩ := List.nodup_cons.mp hbs
    have hclear : Cleared m (removeStale id m b') b' (jsonName id) := cleared_removeThere
    rw [List.foldl_cons, ih hbs]
    by_cases heq : b = b'
    · subst heq
      rw [if_neg hnot, if_pos List.mem_cons_self, at_eq_stuck]
    · simp only [stuck, hclear.at? (.inl heq), List.mem_cons, heq, false_or]

/-- The document that loading finds behind a save. -/
theorem documents_tidiedLast : (documents (tidiedLast o files id task now) id).head? =
    (((bucketsBefore o task).filterMap (stuck files id)).head? <|>
      some (writtenEntry (jsonName id) (o.print (o.withId id task)) now)) := by
  have hat : ∀ b, (tidiedLast o files id task now).at? b (jsonName id) =
      if b = o.bucketDir task then
        some (writtenEntry (jsonName id) (o.print (o.withId id task)) now)
      else stuck files id b := by
    intro b
    have hmem : b ∈ otherBuckets o task ↔ b ≠ o.bucketDir task := by
      unfold otherBuckets
      rw [List.mem_filter]
      simp only [decide_eq_true_eq]
      exact and_iff_right (by cases b <;> decide)
    have hnodup : (otherBuckets o task).Nodup := (show buckets.Nodup by decide).filter _
    rw [tidiedLast, at_foldl_removeStale _ hnodup]
    by_cases hb : b = o.bucketDir task
    · rw [if_neg fun h => hmem.mp h hb, if_pos hb, hb, TaskFiles.at?, find_put_same]
      rfl
    · rw [if_pos (hmem.mpr hb), if_neg hb, stuck, TaskFiles.at?, find_put_other (.inl hb)]
      rfl
  unfold documents bucketsBefore
  rw [List.filterMap_congr fun b _ => hat b]
  cases hbrowser : stuck files id .browser <;> cases hscripts : stuck files id .scripts <;>
    cases o.bucketDir task <;> simp [buckets, List.filterMap_cons, hbrowser, hscripts]

/-- What a save that went through leaves. -/
theorem Done.final_eq {s : Saved} (h : Done o files id task now s) :
    s.final files = (tidiedLast o files id task now).appendOrder id := by
  cases h with
  | ordered hmem =>
    rw [Saved.final, List.getLastD_eq_getLast?, List.getLast?_cons, getLast?_tidied,
      TaskFiles.appendOrder, if_pos (List.contains_iff_mem.mpr hmem)]
    rfl
  | appended =>
    rw [Saved.final, List.getLastD_eq_getLast?, List.getLast?_concat]
    rfl

theorem Done.result_eq {s : Saved} (h : Done o files id task now s) : s.result = .ok () := by
  cases h <;> rfl

theorem mem_appendOrder {m : TaskFiles} : id ∈ (m.appendOrder id).order.getD [] := by
  unfold TaskFiles.appendOrder
  split
  next hcontains => exact List.contains_iff_mem.mp hcontains
  next => simp

theorem touches_tidiedLast (h : isValidTaskId id = true) :
    Touches id files (tidiedLast o files id task now) :=
  (underway_tidied h _ (List.mem_of_getLast? getLast?_tidied)).touches

/-- What a save that went through makes of the store: the saved task is loaded, unless a document
    of the id in a directory searched before could not be removed; no other id is touched, and the
    id is in the order. -/
theorem saveTask_ok (writes : Writes)
    (h : (saveTask o writes files id task now).result = .ok ()) :
    let final := (saveTask o writes files id task now).final files
    loadTask o.toReads final id =
        (match ((bucketsBefore o task).filterMap (stuck files id)).head? with
        | some e => readEntry o.toReads e
        | none => stored o id task) ∧
      (∀ id', foldName files.caseless id' ≠ foldName files.caseless id →
        loadTask o.toReads final id' = loadTask o.toReads files id') ∧
      id ∈ final.order.getD [] := by
  have hdone : isValidTaskId id = true ∧
      Done o files id task now (saveTask o writes files id task now) := by
    rcases saveTask_cases o writes files id task now with ⟨e, -, heq⟩ | ⟨-, -, heq⟩ |
      ⟨-, -, -, heq⟩ | ⟨hcheck, -, hdone⟩
    · rw [heq] at h
      cases h
    · rw [heq] at h
      cases h
    · rw [heq] at h
      cases h
    · exact ⟨valid_of_check hcheck, hdone⟩
  obtain ⟨hvalid, hdone⟩ := hdone
  have hfind : ∀ b name, ((tidiedLast o files id task now).appendOrder id).find b name =
      (tidiedLast o files id task now).find b name := fun _ _ => find_appendOrder
  simp only [hdone.final_eq]
  refine ⟨?_, fun id' hne => ?_, mem_appendOrder⟩
  · rw [loadTask_congr fun p _ => hfind p.1 p.2, loadTask_valid hvalid, documents_tidiedLast]
    cases ((bucketsBefore o task).filterMap (stuck files id)).head? <;> rfl
  · rw [loadTask_congr fun p _ => hfind p.1 p.2]
    exact (touches_tidiedLast hvalid).loadTask_eq hne

/-- Whatever moment of a save the program stops at, no other id is touched; and when the id had one
    document at most, it loads as before or as saved. -/
theorem saveTask_crash (writes : Writes) {m : TaskFiles}
    (hm : m ∈ (saveTask o writes files id task now).moments) :
    (∀ id', foldName files.caseless id' ≠ foldName files.caseless id →
        loadTask o.toReads m id' = loadTask o.toReads files id') ∧
      ((documents files id).length ≤ 1 →
        loadTask o.toReads m id = loadTask o.toReads files id ∨
          loadTask o.toReads m id = stored o id task) := by
  rcases saveTask_moments writes m hm with rfl | ⟨hcheck, hunder⟩
  · exact ⟨fun _ _ => rfl, fun _ => .inl rfl⟩
  have hvalid := valid_of_check hcheck
  refine ⟨fun id' hne => hunder.touches.loadTask_eq hne, fun hone => ?_⟩
  rw [loadTask_valid hvalid, loadTask_valid hvalid]
  have hnew : writtenEntry (jsonName id) (o.print (o.withId id task)) now ∈ documents m id :=
    List.mem_filterMap.mpr ⟨o.bucketDir task, by cases o.bucketDir task <;> decide, hunder.written⟩
  cases hhead : (documents m id).head? with
  | none =>
    rw [List.head?_eq_none_iff.mp hhead] at hnew
    cases hnew
  | some e =>
    obtain ⟨b, hb, hat⟩ := List.mem_filterMap.mp (List.mem_of_head? hhead)
    by_cases hown : b = o.bucketDir task
    · rw [hown, hunder.written] at hat
      cases hat
      exact .inr rfl
    · -- the document was there before, as the only one
      have hold : files.at? b (jsonName id) = some e := by
        rcases hunder.others b hown with hnone | hsame
        · rw [hnone] at hat
          cases hat
        · rw [← hsame, hat]
      have hmem : e ∈ documents files id := List.mem_filterMap.mpr ⟨b, hb, hold⟩
      obtain ⟨e', hdocs⟩ : ∃ e', documents files id = [e'] :=
        List.length_eq_one_iff.mp (le_antisymm hone (List.length_pos_of_mem hmem))
      rw [hdocs, List.mem_singleton] at hmem
      rw [hdocs, hmem]
      exact .inl rfl

end

/-! ## A task that changes its kind -/

/-- Tasks are texts; one that begins with a b is a browser task. -/
def sampleLibrary : Library Text where
  json t := some (.str (String.ofList t))
  task v := v.asStr.map String.toList
  script _ _ _ content := content
  print t := t
  bucketDir t := if t.head? = some 'b' then .browser else .http
  withId _ t := t
  validateTask _ := []

/-- The built-in task and another browser task. -/
def sampleFiles (caseless : Bool) : TaskFiles where
  entries b :=
    if b = .browser then
      [writtenEntry "default.json".toList "b0".toList [], writtenEntry "a.json".toList "b1".toList []]
    else []
  caseless := caseless
  order := some ["a".toList]
  distinct b := by cases caseless <;> cases b <;> decide

/-- The id is that of a browser task, spelt otherwise. -/
theorem saveTask_ok_sample : loadTask sampleLibrary.toReads
    ((saveTask sampleLibrary {} (sampleFiles true) "A".toList "h2".toList []).final
      (sampleFiles true)) "A".toList = .ok "h2".toList := by
  have h : (saveTask sampleLibrary {} (sampleFiles true) "A".toList "h2".toList []).result =
      .ok () := by decide
  exact (saveTask_ok {} h).1.trans (by decide)

theorem saveTask_crash_sample :
    let m := (saveTask sampleLibrary {} (sampleFiles false) "a".toList "h2".toList []).moments.getD 1
      (sampleFiles false)
    loadTask sampleLibrary.toReads m "a".toList = .ok "b1".toList ∨
      loadTask sampleLibrary.toReads m "a".toList = .ok "h2".toList := by
  have hmem : (saveTask sampleLibrary {} (sampleFiles false) "a".toList "h2".toList []).moments.getD 1
      (sampleFiles false) ∈
        (saveTask sampleLibrary {} (sampleFiles false) "a".toList "h2".toList []).moments := by
    rw [List.getD_eq_getElem?_getD, List.getElem?_eq_getElem (by decide), Option.getD_some]
    exact List.getElem_mem _
  have hone : (documents (sampleFiles false) "a".toList).length ≤ 1 := by decide
  exact ((saveTask_crash {} hmem).2 hone).imp (fun h => h.trans (by decide))
    fun h => h.trans (by decide)

end CampusAuth.Tasks
