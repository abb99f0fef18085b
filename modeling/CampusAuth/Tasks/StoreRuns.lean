import CampusAuth.Tasks.Store

/- Runs over the task files, and the map that they implement.

   `Store` says what an id holds: a task, a document of no task, or nothing. On directories whose files
   can be read and removed (`Healthy`), saving, deleting and ordering act on the files as
   `Store.step` acts on the map, with the same answers, and so does every sequence of them
   (`runs_refine`). The id of the built-in task is special: no sequence of operations, wherever
   each of them stops, makes its document go away (`default_kept`). -/
namespace CampusAuth.Tasks
open Lib Login

inductive Op (κ : Type*) where
  | save (id : Text) (task : κ) (now : Text)
  | delete (id : Text)
  | order (ids : List Text)

/-- What an id holds: a task, a document of no task, or nothing. -/
abbrev Store (κ : Type*) := Text → Option (Option κ)

def content {κ : Type*} : Except TaskError κ → Option (Option κ)
  | .ok task => some (some task)
  | .error .jsonError => some none
  | .error _ => none

section
variable {κ : Type*} (o : Library κ)

def Op.run (files : TaskFiles) : Op κ → TaskFiles × Except SaveError Unit
  | .save id task now =>
    ((saveTask o {} files id task now).final files, (saveTask o {} files id task now).result)
  | .delete id => ((deleteTask files id).1, (deleteTask files id).2.mapError .task)
  | .order ids => ((saveOrder files ids).1, (saveOrder files ids).2.mapError .task)

def contents (files : TaskFiles) : Store κ := fun id => content (loadTask o.toReads files id)

/-- The map with another content for the ids of a kind that name the same file. -/
def Store.set (m : Store κ) (caseless : Bool) (kind : Text → Bool) (id : Text)
    (held : Option (Option κ)) : Store κ := fun id' =>
  if kind id' = true ∧ foldName caseless id' = foldName caseless id then held else m id'

def Store.step (caseless : Bool) (m : Store κ) : Op κ → Store κ × Except SaveError Unit
  | .save id task _ =>
    match checkSave o id task with
    | .error e => (m, .error e)
    | .ok () => (m.set caseless isValidTaskId id (content (stored o id task)), .ok ())
  | .delete id =>
    if isValidLegacyPyId id then
      if (m id).isSome then (m.set caseless isValidLegacyPyId id none, .ok ())
      else (m, .error (.task .ioError))
    else if !isValidTaskId id then (m, .error (.task (.invalidTaskId id)))
    else if id = defaultTaskId then (m, .error (.task .deleteDefaultTask))
    else if (m id).isSome then (m.set caseless isValidTaskId id none, .ok ())
    else (m, .error (.task (.taskNotFound id)))
  | .order ids =>
    match ids.find? fun id => !isValidTaskId id with
    | some invalid => (m, .error (.task (.invalidTaskId invalid)))
    | none => (m, .ok ())

/-- The last state of a run and the answers. -/
def runOps {σ α : Type*} (step : σ → α → σ × Except SaveError Unit) (s : σ) :
    List α → σ × List (Except SaveError Unit)
  | [] => (s, [])
  | a :: as => ((runOps step (step s a).1 as).1, (step s a).2 :: (runOps step (step s a).1 as).2)

end

/-- Files that can be read and removed. -/
def Healthy (files : TaskFiles) : Prop :=
  ∀ b, ∀ e ∈ files.entries b, e.removable = true ∧ e.found = true ∧ e.text.isSome

/-! ## Files that can be read and removed -/

section
variable {files files' : TaskFiles} {b : Bucket} {id name text now : Text}

theorem Healthy.of_entries (h : Healthy files)
    (hsub : ∀ b, ∀ e ∈ files'.entries b, e ∈ files.entries b) : Healthy files' :=
  fun b e he => h b e (hsub b e he)

theorem entries_without_subset (b' : Bucket) :
    ∀ e ∈ (files.without b name).entries b', e ∈ files.entries b' := by
  intro e he
  unfold TaskFiles.without at he
  dsimp only at he
  split at he
  next heq => exact heq ▸ List.mem_of_mem_filter he
  next => exact he

theorem Healthy.put (h : Healthy files) : Healthy (files.put b name text now) := by
  intro b' e he
  unfold TaskFiles.put at he
  dsimp only at he
  split at he
  next =>
    rcases List.mem_cons.mp he with rfl | he
    · exact ⟨rfl, rfl, rfl⟩
    · exact h b e (entries_without_subset b e he)
  next => exact h b' e he

theorem Healthy.at? (h : Healthy files) : files.at? b name = files.find b name := by
  unfold TaskFiles.at?
  cases hfind : files.find b name with
  | none => rfl
  | some e => simp [Option.filter, (h b e (find_eq_some.mp hfind).1).2.1]

theorem Healthy.removableAt (h : Healthy files) : RemovableAt files b name :=
  fun e he => (h b e (find_eq_some.mp (at_eq_some.mp he).1).1).1

theorem Healthy.removeThere (h : Healthy files) (b : Bucket) (name : Text) :
    ∃ files', removeThere files b name = some files' ∧ Healthy files' ∧
      Cleared files files' b name ∧ files'.find b name = none := by
  have hclear : Cleared files ((Tasks.removeThere files b name).getD files) b name :=
    cleared_removeThere
  obtain ⟨-, files', hremove, -⟩ | ⟨hno, -⟩ := removeThere_cases files b name
  · rw [hremove, Option.getD_some] at hclear
    have hhealthy : Healthy files' := by
      unfold Tasks.removeThere at hremove
      split at hremove
      · unfold TaskFiles.removeFile at hremove
        split at hremove
        · split at hremove
          · cases hremove
            exact h.of_entries fun b' => entries_without_subset b'
          · cases hremove
        · cases hremove
      · cases hremove
        exact h
    refine ⟨files', hremove, hhealthy, hclear, ?_⟩
    rw [← hhealthy.at?]
    exact hclear.gone h.removableAt
  · exact absurd h.removableAt hno

theorem Healthy.removeDocuments (hvalid : isValidTaskId id = true) :
    ∀ (bs : List Bucket) (found : Bool) {files : TaskFiles}, Healthy files → bs.Nodup →
      ∃ files', removeDocuments id bs found files =
          (files', .ok (found || bs.any fun b => (files.find b (jsonName id)).isSome)) ∧
        Healthy files' ∧ Touches id files files' ∧
        (∀ b ∈ bs, files'.find b (jsonName id) = none) ∧
        ∀ b name, foldName files.caseless name ≠ foldName files.caseless (jsonName id) ∨ b ∉ bs →
          files'.find b name = files.find b name
  | [], found, files, h, _ =>
    ⟨files, by simp [Tasks.removeDocuments], h, .refl id files, by simp, fun _ _ _ => rfl⟩
  | b :: bs, found, files, h, hnodup => by
    obtain ⟨hnot, hnodup⟩ := List.nodup_cons.mp hnodup
    obtain ⟨files₁, hremove, h₁, hclear, hgone⟩ := h.removeThere b (jsonName id)
    obtain ⟨files₂, hrun, h₂, htouch, hnone, hsame⟩ := Healthy.removeDocuments hvalid bs
      (found || (files.at? b (jsonName id)).isSome) h₁ hnodup
    have hfind : ∀ b' ∈ bs, files₁.find b' (jsonName id) = files.find b' (jsonName id) :=
      fun b' hb' => hclear.other b' _ (.inl fun heq => hnot (heq ▸ hb'))
    refine ⟨files₂, ?_, h₂, (hclear.touches (mem_pathsOf_json hvalid b)).trans htouch, ?_, ?_⟩
    · rw [Tasks.removeDocuments, hremove]
      dsimp only
      rw [hrun, h.at?, List.any_cons, Bool.or_assoc]
      have hany : (bs.any fun b' => (files₁.find b' (jsonName id)).isSome) =
          bs.any fun b' => (files.find b' (jsonName id)).isSome := by
        rw [Bool.eq_iff_iff, List.any_eq_true, List.any_eq_true]
        exact exists_congr fun b' => and_congr_right fun hb' => by rw [hfind b' hb']
      rw [hany]
    · intro b' hb'
      rcases List.mem_cons.mp hb' with rfl | hb'
      · rw [hsame _ _ (.inr hnot), hgone]
      · exact hnone b' hb'
    · intro b' name hne
      have hne' : foldName files.caseless name ≠ foldName files.caseless (jsonName id) ∨ b' ∉ bs :=
        hne.imp_right fun hb hmem => hb (List.mem_cons_of_mem _ hmem)
      rw [hsame b' name (by rw [hclear.caseless]; exact hne'), hclear.other b' name]
      exact hne.symm.imp_left fun hb heq => hb (heq ▸ List.mem_cons_self)

theorem Healthy.removeScript (h : Healthy files) (hvalid : isValidTaskId id = true) :
    ∃ files', removeScript files id = (files', (files.find .scripts (pyName id)).isSome) ∧
      Healthy files' ∧ Touches id files files' ∧ files'.find .scripts (pyName id) = none ∧
      ∀ b, files'.find b (jsonName id) = files.find b (jsonName id) := by
  obtain ⟨files₁, hmeta, h₁, hclear₁, -⟩ := h.removeThere .scripts (metaName id)
  obtain ⟨files₂, hpy, h₂, hclear₂, hgone⟩ := h₁.removeThere .scripts (pyName id)
  have hpath : ∀ name ∈ [pyName id, metaName id], (Bucket.scripts, name) ∈ pathsOf id := by
    intro name hname
    refine List.mem_append_right _ ?_
    simpa using hname
  have hother : ∀ {caseless : Bool}, foldName caseless (pyName id) ≠ foldName caseless (metaName id) :=
    fun {_} => pyName_ne rfl
  refine ⟨files₂, ?_, h₂, (hclear₁.touches (hpath _ (by simp))).trans
    (hclear₂.touches (hpath _ (by simp))), hgone, fun b => ?_⟩
  · unfold Tasks.removeScript
    rw [hmeta]
    simp only [Option.getD_some, hpy, h₁.at?, hclear₁.other _ _ (.inr hother)]
  · rw [hclear₂.other _ _ (.inr (by rw [hclear₁.caseless]; exact (pyName_ne rfl).symm)),
      hclear₁.other _ _ (.inr (jsonName_ne_metaName hvalid))]

/-! ## What an id holds -/

variable {κ : Type*} {o : Library κ} {id' : Text}

theorem find_congr {name' : Text}
    (h : foldName files.caseless name = foldName files.caseless name') :
    files.find b name = files.find b name' := by
  unfold TaskFiles.find
  rw [h]

theorem foldName_suffix {caseless : Bool} (h : foldName caseless id' = foldName caseless id)
    (suffix : Text) : foldName caseless (id' ++ suffix) = foldName caseless (id ++ suffix) := by
  rw [foldName_append, foldName_append, h]

theorem content_readEntry {o : Reads κ} {e : Entry} (h : e.text.isSome) :
    content (readEntry o e) ≠ none := by
  obtain ⟨text, htext⟩ := Option.isSome_iff_exists.mp h
  unfold readEntry
  rw [htext]
  dsimp only
  cases (o.json (stripBom text)).bind o.task <;> simp [content]

theorem Healthy.content_legacy (h : Healthy files) {o : Reads κ} :
    content (loadLegacyPyTask o files id) = none ↔ files.find .scripts (pyName id) = none := by
  constructor
  · intro hnone
    by_contra hfind
    obtain ⟨e, he⟩ := Option.ne_none_iff_exists'.mp hfind
    have htext := (h _ e (find_eq_some.mp he).1).2.2
    obtain ⟨task, hload⟩ := (loadLegacyPyTask_ok_iff (o := o)).mpr ⟨e, he, htext⟩
    rw [hload] at hnone
    cases hnone
  · intro hfind
    unfold loadLegacyPyTask
    rw [hfind]
    split <;> rfl

/-- An id holds nothing when there is neither a document nor a script of it. -/
theorem Healthy.contents_eq_none (h : Healthy files) (hvalid : isValidTaskId id = true) :
    contents o files id = none ↔
      (∀ b, files.find b (jsonName id) = none) ∧ files.find .scripts (pyName id) = none := by
  have hmem : ∀ b : Bucket, b ∈ buckets := by intro b; cases b <;> decide
  unfold contents
  rw [loadTask_valid hvalid]
  cases hdocs : documents files id with
  | nil =>
    have hnone : ∀ b, files.find b (jsonName id) = none := fun b => by
      rw [← h.at?]
      exact List.filterMap_eq_nil_iff.mp hdocs b (hmem b)
    simp only [List.head?_nil, h.content_legacy, hnone, implies_true, true_and]
  | cons e es =>
    have he : e ∈ documents files id := by rw [hdocs]; exact List.mem_cons_self
    obtain ⟨b, -, hat⟩ := List.mem_filterMap.mp he
    rw [h.at?] at hat
    refine iff_of_false (content_readEntry (h b e (find_eq_some.mp hat).1).2.2) fun hnone => ?_
    rw [hnone.1 b] at hat
    cases hat

theorem Healthy.contents_legacy (h : Healthy files) (hlegacy : isValidLegacyPyId id = true) :
    contents o files id = none ↔ files.find .scripts (pyName id) = none := by
  unfold contents loadTask
  rw [if_pos hlegacy]
  exact h.content_legacy

theorem dot_mem_of_legacy (h : isValidLegacyPyId id = true) : '.' ∈ id := by
  simp only [isValidLegacyPyId, Bool.and_eq_true, List.contains_iff_mem] at h
  exact h.1.2

/-- Only ids that name the same file see the change. -/
theorem contents_of_touches {held : Option (Option κ)} {kind : Text → Bool}
    (hkind : kind = isValidTaskId ∨ kind = isValidLegacyPyId) (hid : kind id = true)
    (h : Touches id files files')
    (hnew : ∀ id', kind id' = true → foldName files.caseless id' = foldName files.caseless id →
      contents o files' id' = held) :
    contents o files' = (contents o files).set files.caseless kind id held := by
  funext id'
  unfold Store.set
  split
  next hsame => exact hnew id' hsame.1 hsame.2
  next hother =>
    unfold contents
    by_cases hfold : foldName files.caseless id' = foldName files.caseless id
    · -- the same file would be named by an id of the other kind
      have hdot : '.' ∈ id' ↔ '.' ∈ id := by
        have hdot : '.' ∈ foldName files.caseless id' ↔ '.' ∈ id' := dot_mem_foldName
        rw [← hdot, hfold, dot_mem_foldName]
      have hno : isValidTaskId id' = false ∧ isValidLegacyPyId id' = false := by
        rcases hkind with rfl | rfl
        · refine ⟨by simpa using fun h => hother ⟨h, hfold⟩, Bool.eq_false_iff.mpr fun h => ?_⟩
          exact dot_not_mem_of_valid hid (hdot.mp (dot_mem_of_legacy h))
        · refine ⟨Bool.eq_false_iff.mpr fun h => ?_, by simpa using fun h => hother ⟨h, hfold⟩⟩
          exact dot_not_mem_of_valid h (hdot.mpr (dot_mem_of_legacy hid))
      unfold loadTask
      simp only [hno.1, hno.2, Bool.false_eq_true, if_false, Bool.not_false, if_true]
    · rw [h.loadTask_eq hfold]

/-! ## One operation -/

/-- What an operation does to the files it does to the map, with the same answer. -/
structure Refines (o : Library κ) (files : TaskFiles) (op : Op κ) : Prop where
  healthy : Healthy (op.run o files).1
  caseless : (op.run o files).1.caseless = files.caseless
  contents : contents o (op.run o files).1 = (Store.step o files.caseless (contents o files) op).1
  answer : (op.run o files).2 = (Store.step o files.caseless (Tasks.contents o files) op).2

theorem Healthy.tidiedLast {task : κ} (h : Healthy files) :
    Healthy (tidiedLast o files id task now) := by
  have hfold : ∀ (bs : List Bucket) {m : TaskFiles}, Healthy m →
      Healthy (bs.foldl (removeStale id) m) := by
    intro bs
    induction bs with
    | nil => exact fun h => h
    | cons b bs ih =>
      intro m hm
      obtain ⟨m', hremove, hm', -⟩ := hm.removeThere b (jsonName id)
      rw [List.foldl_cons, removeStale, hremove]
      exact ih hm'
  exact hfold _ h.put

theorem documents_congr (h : foldName files.caseless id' = foldName files.caseless id) :
    documents files id' = documents files id := by
  unfold documents TaskFiles.at? jsonName
  exact List.filterMap_congr fun b _ =>
    congrArg (Option.filter _) (find_congr (foldName_suffix h _))

theorem refines_save (h : Healthy files) (task : κ) :
    Refines o files (.save id task now) := by
  rcases saveTask_cases o {} files id task now with ⟨e, hcheck, heq⟩ | ⟨-, hwrite, -⟩ |
    ⟨-, -, hwrite, -⟩ | ⟨hcheck, -, hdone⟩
  · have hrun : Op.run o files (.save id task now) = (files, .error e) := by
      rw [Op.run, heq]
      rfl
    have hstep : Store.step o files.caseless (contents o files) (.save id task now) =
        (contents o files, .error e) := by
      rw [Store.step, hcheck]
    exact ⟨hrun ▸ h, by rw [hrun], by rw [hrun, hstep], by rw [hrun, hstep]⟩
  · cases hwrite
  · cases hwrite
  · have hvalid := valid_of_check hcheck
    have hrun : Op.run o files (.save id task now) =
        ((Tasks.tidiedLast o files id task now).appendOrder id, .ok ()) := by
      rw [Op.run, hdone.final_eq, hdone.result_eq]
    have hstep : Store.step o files.caseless (contents o files) (.save id task now) =
        ((contents o files).set files.caseless isValidTaskId id (content (stored o id task)),
          .ok ()) := by
      rw [Store.step, hcheck]
    have hlast : Healthy (Tasks.tidiedLast o files id task now) := h.tidiedLast
    have hentries : ∀ m : TaskFiles, (m.appendOrder id).entries = m.entries := fun m => by
      unfold TaskFiles.appendOrder
      split <;> rfl
    have hhealthy : Healthy ((Tasks.tidiedLast o files id task now).appendOrder id) :=
      hlast.of_entries fun b e he => by rwa [hentries] at he
    have htouch : Touches id files ((Tasks.tidiedLast o files id task now).appendOrder id) :=
      (touches_tidiedLast hvalid).trans (touches_appendOrder id id)
    have hcontents : contents o ((Tasks.tidiedLast o files id task now).appendOrder id) =
        (contents o files).set files.caseless isValidTaskId id (content (stored o id task)) := by
      refine contents_of_touches (.inl rfl) hvalid htouch fun id' hvalid' hfold => ?_
      have hload : loadTask o.toReads ((Tasks.tidiedLast o files id task now).appendOrder id) id' =
          loadTask o.toReads (Tasks.tidiedLast o files id task now) id' :=
        loadTask_congr fun _ _ => find_appendOrder
      have hstuck : (bucketsBefore o task).filterMap (stuck files id) = [] := by
        refine List.filterMap_eq_nil_iff.mpr fun b _ => ?_
        unfold stuck
        cases hat : files.at? b (jsonName id) with
        | none => rfl
        | some e => simp [Option.filter, h.removableAt e hat]
      have hfold' : foldName (Tasks.tidiedLast o files id task now).caseless id' =
          foldName (Tasks.tidiedLast o files id task now).caseless id := by
        rw [(touches_tidiedLast hvalid).caseless]
        exact hfold
      unfold contents
      rw [hload, loadTask_valid hvalid', documents_congr hfold', documents_tidiedLast, hstuck]
      rfl
    exact ⟨hrun ▸ hhealthy, by rw [hrun]; exact htouch.caseless, by rw [hrun, hstep]; exact hcontents,
      by rw [hrun, hstep]⟩

theorem healthy_dropOrder (h : Healthy files) (id : Text) : Healthy (files.dropOrder id) := h

theorem touches_dropOrder (h : Touches id files files') : Touches id files (files'.dropOrder id) :=
  ⟨h.caseless, h.find⟩

theorem contents_dropOrder : contents o (files.dropOrder id) = contents o files :=
  funext fun _ => congrArg content (loadTask_congr fun _ _ => rfl)

/-- A script without a document goes. -/
theorem refines_deleteLegacy (h : Healthy files) (hlegacy : isValidLegacyPyId id = true) :
    Refines o files (.delete id) := by
  have hrun : Op.run o files (.delete id) =
      ((deleteLegacy files id).1, (deleteLegacy files id).2.mapError .task) := by
    rw [Op.run, deleteTask, if_pos hlegacy]
  have hstep : Store.step o files.caseless (contents o files) (.delete id) =
      if (contents o files id).isSome then
        ((contents o files).set files.caseless isValidLegacyPyId id none, .ok ())
      else (contents o files, .error (.task .ioError)) := by
    rw [Store.step, if_pos hlegacy]
  cases hfind : files.find .scripts (pyName id) with
  | none =>
    have hnone := (h.contents_legacy (o := o) hlegacy).mpr hfind
    have hdelete : deleteLegacy files id = (files, .error .ioError) := by
      simp [deleteLegacy, TaskFiles.removeFile, hfind]
    rw [hdelete] at hrun
    rw [hnone] at hstep
    exact ⟨hrun ▸ h, by rw [hrun], by rw [hrun, hstep]; rfl, by rw [hrun, hstep]; rfl⟩
  | some e =>
    have hsome : (contents o files id).isSome := by
      rw [Option.isSome_iff_ne_none, ne_eq, h.contents_legacy hlegacy, hfind]
      simp
    obtain ⟨files₁, hpy, h₁, hclear₁, hgone⟩ := h.removeThere .scripts (pyName id)
    obtain ⟨files₂, hmeta, h₂, hclear₂, -⟩ := h₁.removeThere .scripts (metaName id)
    have hremove : files.removeFile .scripts (pyName id) = some files₁ := by
      rwa [Tasks.removeThere, h.at?, hfind] at hpy
    have hdelete : deleteLegacy files id = (files₂.dropOrder id, .ok ()) := by
      simp [deleteLegacy, hremove, hmeta]
    have hpath : ∀ name ∈ [pyName id, metaName id], (Bucket.scripts, name) ∈ pathsOf id := by
      intro name hname
      refine List.mem_append_right _ ?_
      simpa using hname
    have htouch : Touches id files files₂ :=
      (hclear₁.touches (hpath _ (by simp))).trans (hclear₂.touches (hpath _ (by simp)))
    have hcontents : contents o files₂ =
        (contents o files).set files.caseless isValidLegacyPyId id none := by
      refine contents_of_touches (.inr rfl) hlegacy htouch fun id' hlegacy' hfold => ?_
      have hfold₂ : foldName files₂.caseless (pyName id') = foldName files₂.caseless (pyName id) := by
        rw [htouch.caseless]
        exact foldName_suffix hfold _
      rw [h₂.contents_legacy hlegacy', find_congr hfold₂,
        hclear₂.other _ _ (.inr (pyName_ne rfl)), hgone]
    rw [hdelete] at hrun
    rw [if_pos hsome] at hstep
    exact ⟨hrun ▸ healthy_dropOrder h₂ id, by rw [hrun]; exact htouch.caseless,
      by rw [hrun, hstep, contents_dropOrder, hcontents], by rw [hrun, hstep]; rfl⟩

/-- The documents and the script of an id go. -/
theorem refines_deleteValid (h : Healthy files) (hvalid : isValidTaskId id = true)
    (hne : id ≠ defaultTaskId) : Refines o files (.delete id) := by
  have hlegacy := not_legacy_of_valid hvalid
  obtain ⟨files₁, hdocs, h₁, htouch₁, hnone₁, hsame₁⟩ :=
    Healthy.removeDocuments hvalid buckets false h (by decide)
  obtain ⟨files₂, hscript, h₂, htouch₂, hpy₂, hjson₂⟩ := h₁.removeScript hvalid
  have htouch : Touches id files files₂ := htouch₁.trans htouch₂
  have hpy : files₁.find .scripts (pyName id) = files.find .scripts (pyName id) :=
    hsame₁ _ _ (.inl (pyName_ne rfl))
  have hcontents : contents o files₂ =
      (contents o files).set files.caseless isValidTaskId id none := by
    refine contents_of_touches (.inl rfl) hvalid htouch fun id' hvalid' hfold => ?_
    rw [h₂.contents_eq_none hvalid']
    have hfold₂ : ∀ suffix, foldName files₂.caseless (id' ++ suffix) =
        foldName files₂.caseless (id ++ suffix) := fun suffix => by
      rw [htouch.caseless]
      exact foldName_suffix hfold suffix
    refine ⟨fun b => ?_, ?_⟩
    · rw [jsonName, find_congr (hfold₂ _)]
      exact (hjson₂ b).trans (hnone₁ b (by cases b <;> decide))
    · rw [pyName, find_congr (hfold₂ _)]
      exact hpy₂
  have hthere : (contents o files id).isSome = true ↔
      ((buckets.any fun b => (files.find b (jsonName id)).isSome) ||
        (files.find .scripts (pyName id)).isSome) = true := by
    rw [Option.isSome_iff_ne_none, ne_eq, h.contents_eq_none hvalid, Bool.or_eq_true,
      List.any_eq_true, not_and_or, not_forall]
    refine or_congr ⟨fun hsome => ?_, fun hany => ?_⟩ Option.isSome_iff_ne_none.symm
    · obtain ⟨b, hb⟩ := hsome
      exact ⟨b, by cases b <;> decide, Option.isSome_iff_ne_none.mpr hb⟩
    · obtain ⟨b, -, hb⟩ := hany
      exact ⟨b, Option.isSome_iff_ne_none.mp hb⟩
  have hrun : Op.run o files (.delete id) =
      if (contents o files id).isSome then (files₂.dropOrder id, .ok ())
      else (files₂, .error (.task (.taskNotFound id))) := by
    rw [Op.run, deleteTask, if_neg (by simp [hlegacy]), if_neg (by simp [hvalid]), if_neg hne, hdocs]
    dsimp only
    rw [hscript, hpy, Bool.false_or]
    by_cases hsome : (contents o files id).isSome = true
    · rw [if_pos hsome]
      simp only [hthere.mp hsome, if_true]
      rfl
    · have hno := Bool.eq_false_iff.mpr fun hyes => hsome (hthere.mpr hyes)
      rw [if_neg hsome]
      simp only [hno, Bool.false_eq_true, if_false]
      rfl
  have hstep : Store.step o files.caseless (contents o files) (.delete id) =
      if (contents o files id).isSome then
        ((contents o files).set files.caseless isValidTaskId id none, .ok ())
      else (contents o files, .error (.task (.taskNotFound id))) := by
    rw [Store.step, if_neg (by simp [hlegacy]), if_neg (by simp [hvalid]), if_neg hne]
  by_cases hsome : (contents o files id).isSome = true
  · rw [if_pos hsome] at hrun hstep
    exact ⟨hrun ▸ healthy_dropOrder h₂ id, by rw [hrun]; exact htouch.caseless,
      by rw [hrun, hstep, contents_dropOrder, hcontents], by rw [hrun, hstep]⟩
  · rw [if_neg hsome] at hrun hstep
    -- nothing was there under any name of the file
    have hkept : (contents o files).set files.caseless isValidTaskId id none = contents o files := by
      have hnone := (h.contents_eq_none (o := o) hvalid).mp (by simpa using hsome)
      funext id'
      unfold Store.set
      split
      next hsame =>
        refine ((h.contents_eq_none hsame.1).mpr ⟨fun b => ?_, ?_⟩).symm
        · rw [jsonName, find_congr (foldName_suffix hsame.2 _)]
          exact hnone.1 b
        · rw [pyName, find_congr (foldName_suffix hsame.2 _)]
          exact hnone.2
      next => rfl
    exact ⟨hrun ▸ h₂, by rw [hrun]; exact htouch.caseless, by rw [hrun, hstep, hcontents, hkept],
      by rw [hrun, hstep]⟩

theorem refines_order (h : Healthy files) (ids : List Text) : Refines o files (.order ids) := by
  cases hfind : ids.find? fun id => !isValidTaskId id with
  | some invalid =>
    have hrun : Op.run o files (.order ids) = (files, .error (.task (.invalidTaskId invalid))) := by
      simp only [Op.run, saveOrder, hfind]
      rfl
    have hstep : Store.step o files.caseless (contents o files) (.order ids) =
        (contents o files, .error (.task (.invalidTaskId invalid))) := by
      simp only [Store.step, hfind]
    exact ⟨hrun ▸ h, by rw [hrun], by rw [hrun, hstep], by rw [hrun, hstep]⟩
  | none =>
    have hrun : Op.run o files (.order ids) = ({ files with order := some ids }, .ok ()) := by
      simp only [Op.run, saveOrder, hfind]
      rfl
    have hstep : Store.step o files.caseless (contents o files) (.order ids) =
        (contents o files, .ok ()) := by
      simp only [Store.step, hfind]
    have hcontents : contents o { files with order := some ids } = contents o files :=
      funext fun _ => congrArg content (loadTask_congr fun _ _ => rfl)
    have hhealthy : Healthy { files with order := some ids } := h
    exact ⟨hrun ▸ hhealthy, by rw [hrun], by rw [hrun, hstep, hcontents], by rw [hrun, hstep]⟩

theorem refines_delete (h : Healthy files) (id : Text) : Refines o files (.delete id) := by
  have hrefused : ∀ e : TaskError, deleteTask files id = (files, .error e) →
      Store.step o files.caseless (contents o files) (.delete id) =
        (contents o files, .error (.task e)) → Refines o files (.delete id) := by
    intro e hdelete hstep
    have hrun : Op.run o files (.delete id) = (files, .error (.task e)) := by
      rw [Op.run, hdelete]
      rfl
    exact ⟨hrun ▸ h, by rw [hrun], by rw [hrun, hstep], by rw [hrun, hstep]⟩
  cases hlegacy : isValidLegacyPyId id with
  | true => exact refines_deleteLegacy h hlegacy
  | false =>
    cases hvalid : isValidTaskId id with
    | false =>
      exact hrefused (.invalidTaskId id) (by simp [deleteTask, hlegacy, hvalid])
        (by simp [Store.step, hlegacy, hvalid])
    | true =>
      by_cases hne : id = defaultTaskId
      · exact hrefused .deleteDefaultTask
          (by rw [deleteTask, if_neg (by simp [hlegacy]), if_neg (by simp [hvalid]), if_pos hne])
          (by rw [Store.step, if_neg (by simp [hlegacy]), if_neg (by simp [hvalid]), if_pos hne])
      · exact refines_deleteValid h hvalid hne

theorem refines (h : Healthy files) (op : Op κ) : Refines o files op := by
  cases op with
  | save id task now => exact refines_save h task
  | delete id => exact refines_delete h id
  | order ids => exact refines_order h ids

/-- Every run over files that can be read and removed is a run over the map. -/
theorem runs_refine (o : Library κ) (files : TaskFiles) (h : Healthy files) (ops : List (Op κ)) :
    contents o (runOps (Op.run o) files ops).1 =
        (runOps (Store.step o files.caseless) (contents o files) ops).1 ∧
      (runOps (Op.run o) files ops).2 =
        (runOps (Store.step o files.caseless) (contents o files) ops).2 := by
  induction ops generalizing files with
  | nil => exact ⟨rfl, rfl⟩
  | cons op ops ih =>
    obtain ⟨hhealthy, hcaseless, hcontents, hanswer⟩ := refines (o := o) h op
    obtain ⟨hlast, hanswers⟩ := ih _ hhealthy
    rw [hcaseless, hcontents] at hlast hanswers
    exact ⟨hlast, congrArg₂ List.cons hanswer hanswers⟩

end

/-! ## The built-in task -/

section
variable {κ : Type*} (o : Library κ)

/-- The directories while the documents of an id are removed. -/
def documentMoments (id : Text) : List Bucket → TaskFiles → List TaskFiles
  | [], files => [files]
  | b :: bs, files =>
    files :: ((removeThere files b (jsonName id)).map (documentMoments id bs)).getD []

/-- The directories before a deletion and after each operation of it. -/
def deleteMoments (files : TaskFiles) (id : Text) : List TaskFiles :=
  if isValidLegacyPyId id then
    match files.removeFile .scripts (pyName id) with
    | none => [files]
    | some files₁ =>
      match removeThere files₁ .scripts (metaName id) with
      | none => [files, files₁]
      | some files₂ => [files, files₁, files₂, files₂.dropOrder id]
  else if !isValidTaskId id || id = defaultTaskId then [files]
  else
    documentMoments id buckets files ++
      match removeDocuments id buckets false files with
      | (_, .error _) => []
      | (files₁, .ok _) =>
        let files₂ := (removeThere files₁ .scripts (metaName id)).getD files₁
        let files₃ := (removeThere files₂ .scripts (pyName id)).getD files₂
        [files₁, files₂, files₃, files₃.dropOrder id]

/-- What operations that stop anywhere lead to. An id that differs from that of the built-in task
    names another file. -/
inductive Reached (files : TaskFiles) : TaskFiles → Prop where
  | start : Reached files files
  | save {now m : TaskFiles} {id time : Text} {task : κ} (writes : Writes) : Reached files now →
      (foldName now.caseless id = foldName now.caseless defaultTaskId → id = defaultTaskId) →
      m ∈ (saveTask o writes now id task time).moments → Reached files m
  | delete {now m : TaskFiles} {id : Text} : Reached files now →
      (foldName now.caseless id = foldName now.caseless defaultTaskId → id = defaultTaskId) →
      m ∈ deleteMoments now id → Reached files m
  | order {now : TaskFiles} (ids : List Text) : Reached files now →
      Reached files (saveOrder now ids).1

end

section
variable {κ : Type*} {o : Library κ} {files files' m : TaskFiles} {id : Text}

theorem removeDocuments_mem (id : Text) (bs : List Bucket) : ∀ (found : Bool) (files : TaskFiles),
    (removeDocuments id bs found files).1 ∈ documentMoments id bs files := by
  induction bs with
  | nil => exact fun _ _ => List.mem_cons_self
  | cons b bs ih =>
    intro found files
    unfold removeDocuments documentMoments
    cases removeThere files b (jsonName id) with
    | none => exact List.mem_cons_self
    | some files' => exact List.mem_cons_of_mem _ (ih _ files')

theorem removeScript_fst (files : TaskFiles) (id : Text) : (removeScript files id).1 =
    (removeThere ((removeThere files .scripts (metaName id)).getD files) .scripts (pyName id)).getD
      ((removeThere files .scripts (metaName id)).getD files) := by
  unfold removeScript
  dsimp only
  generalize (removeThere files .scripts (metaName id)).getD files = now
  cases removeThere now .scripts (pyName id) <;> rfl

/-- The directories behind a deletion are its last moment or the one at which it failed. -/
theorem deleteTask_mem_moments (files : TaskFiles) (id : Text) :
    (deleteTask files id).1 ∈ deleteMoments files id := by
  unfold deleteTask deleteMoments
  split
  next =>
    unfold deleteLegacy
    cases files.removeFile .scripts (pyName id) with
    | none => exact List.mem_cons_self
    | some files₁ =>
      dsimp only
      cases removeThere files₁ .scripts (metaName id) <;> simp
  next =>
    by_cases hvalid : isValidTaskId id = true
    · by_cases hne : id = defaultTaskId
      · subst hne
        simp [hvalid]
      · have hmem := removeDocuments_mem id buckets false files
        simp only [hvalid, hne, Bool.not_true, Bool.false_eq_true, if_false, decide_false,
          Bool.or_self]
        revert hmem
        rcases removeDocuments id buckets false files with ⟨files₁, e | found⟩
        · exact fun hmem => List.mem_append_left _ hmem
        · intro _
          refine List.mem_append_right _ ?_
          dsimp only
          split <;> simp [removeScript_fst]
    · simp [hvalid]

theorem touches_removeThere {b : Bucket} {name : Text} (h : (b, name) ∈ pathsOf id)
    (hremove : removeThere files b name = some files') : Touches id files files' := by
  have hclear : Cleared files ((removeThere files b name).getD files) b name := cleared_removeThere
  rw [hremove] at hclear
  exact hclear.touches h

theorem touches_documentMoments (hvalid : isValidTaskId id = true) (bs : List Bucket) :
    ∀ {files : TaskFiles}, ∀ m ∈ documentMoments id bs files, Touches id files m := by
  induction bs with
  | nil =>
    intro files m hm
    rw [List.mem_singleton.mp hm]
    exact .refl id files
  | cons b bs ih =>
    intro files m hm
    rcases List.mem_cons.mp hm with rfl | hm
    · exact .refl id m
    · cases hremove : removeThere files b (jsonName id) with
      | none =>
        rw [hremove] at hm
        cases hm
      | some files' =>
        rw [hremove] at hm
        exact (touches_removeThere (mem_pathsOf_json hvalid b) hremove).trans (ih m hm)

theorem touches_removeDocuments (hvalid : isValidTaskId id = true) (found : Bool) :
    Touches id files (removeDocuments id buckets found files).1 :=
  touches_documentMoments hvalid buckets _ (removeDocuments_mem id buckets found files)

theorem touches_getD {b : Bucket} {name : Text} (h : (b, name) ∈ pathsOf id) :
    Touches id files ((removeThere files b name).getD files) := by
  cases hremove : removeThere files b name with
  | none => exact .refl id files
  | some files' => exact touches_removeThere h hremove

/-- No moment of a deletion touches another id. -/
theorem touches_deleteMoments (hm : m ∈ deleteMoments files id) : Touches id files m := by
  have hscript : ∀ name ∈ [pyName id, metaName id], (Bucket.scripts, name) ∈ pathsOf id := by
    intro name hname
    refine List.mem_append_right _ ?_
    simpa using hname
  have hpy := hscript (pyName id) (by simp)
  have hmeta := hscript (metaName id) (by simp)
  unfold deleteMoments at hm
  split at hm
  next =>
    have hone : ∀ {files₁}, files.removeFile .scripts (pyName id) = some files₁ →
        Touches id files files₁ := by
      intro files₁ hremove
      unfold TaskFiles.removeFile at hremove
      split at hremove
      · split at hremove
        · cases hremove
          have hother : ∀ b' name', b' ≠ .scripts ∨
              foldName files.caseless name' ≠ foldName files.caseless (pyName id) →
              (files.without .scripts (pyName id)).find b' name' = files.find b' name' :=
            fun _ _ => without_find
          exact ⟨rfl, fun b' name' hne => hother b' name' (by
            by_cases hb : Bucket.scripts = b'
            · exact .inr (hne _ hpy hb)
            · exact .inl (Ne.symm hb))⟩
        · cases hremove
      · cases hremove
    split at hm
    next => exact List.mem_singleton.mp hm ▸ .refl id files
    next files₁ hremove =>
      have h₁ := hone hremove
      split at hm
      next =>
        rcases List.mem_pair.mp hm with rfl | rfl
        · exact .refl id m
        · exact h₁
      next files₂ hremove₂ =>
        have h₂ := h₁.trans (touches_removeThere hmeta hremove₂)
        simp only [List.mem_cons, List.not_mem_nil, or_false] at hm
        rcases hm with rfl | rfl | rfl | rfl
        · exact .refl id m
        · exact h₁
        · exact h₂
        · exact touches_dropOrder h₂
  next =>
    split at hm
    next => exact List.mem_singleton.mp hm ▸ .refl id files
    next hboth =>
      have hvalid : isValidTaskId id = true := by
        by_contra hvalid
        exact hboth (by simp [hvalid])
      rcases List.mem_append.mp hm with hm | hm
      · exact touches_documentMoments hvalid buckets m hm
      · have h₁ : Touches id files (removeDocuments id buckets false files).1 :=
          touches_removeDocuments hvalid false
        revert hm h₁
        rcases removeDocuments id buckets false files with ⟨files₁, e | found⟩
        · intro hm
          cases hm
        · intro hm h₁
          have h₂ := h₁.trans (touches_getD hmeta)
          have h₃ := h₂.trans (touches_getD hpy)
          simp only [List.mem_cons, List.not_mem_nil, or_false] at hm
          rcases hm with rfl | rfl | rfl | rfl
          · exact h₁
          · exact h₂
          · exact h₃
          · exact touches_dropOrder h₃

/-- The document of the built-in task is not seen through another id. -/
theorem Touches.default_at (h : Touches id files m)
    (hne : foldName files.caseless id ≠ foldName files.caseless defaultTaskId) :
    m.at? .browser (jsonName defaultTaskId) = files.at? .browser (jsonName defaultTaskId) :=
  h.at? fun _ hp _ => pathsOf_disjoint hne.symm
    (mem_pathsOf_json (by decide) .browser) hp

/-- The document of the built-in task stays, whatever operations there are and wherever each of
    them stops. -/
theorem default_kept (h : Reached o files m)
    (hthere : (files.at? .browser (jsonName defaultTaskId)).isSome) :
    (m.at? .browser (jsonName defaultTaskId)).isSome := by
  induction h with
  | start => exact hthere
  | @save now m id time task writes _ hname hm ih =>
    rcases saveTask_moments writes m hm with rfl | ⟨hcheck, hunder⟩
    · exact ih
    by_cases hfold : foldName now.caseless id = foldName now.caseless defaultTaskId
    · -- the document is written anew
      have hid := hname hfold
      subst hid
      have hwritten := hunder.written
      rw [browser_of_check hcheck] at hwritten
      rw [hwritten]
      rfl
    · rw [hunder.touches.default_at hfold]
      exact ih
  | @delete now m id _ hname hm ih =>
    by_cases hfold : foldName now.caseless id = foldName now.caseless defaultTaskId
    · have hid := hname hfold
      subst hid
      have hlegacy : isValidLegacyPyId defaultTaskId = false := by decide
      rw [deleteMoments, if_neg (by simp [hlegacy]), if_pos (by simp)] at hm
      rw [List.mem_singleton.mp hm]
      exact ih
    · rw [(touches_deleteMoments hm).default_at hfold]
      exact ih
  | @order now ids _ ih =>
    unfold saveOrder
    split
    · exact ih
    · exact ih

end

/-! ## A run -/

theorem healthy_sampleFiles (caseless : Bool) : Healthy (sampleFiles caseless) := by
  intro b
  cases b <;> simp [sampleFiles, writtenEntry]

/-- Deleted under another spelling, an id is not there; the built-in task is not deleted. -/
theorem runs_refine_sample :
    (runOps (Op.run sampleLibrary) (sampleFiles true) [.save "a".toList "h2".toList [],
      .delete "A".toList, .delete "a".toList, .delete "default".toList]).2 =
    [.ok (), .ok (), .error (.task (.taskNotFound "a".toList)),
      .error (.task .deleteDefaultTask)] :=
  (runs_refine sampleLibrary (sampleFiles true) (healthy_sampleFiles true) _).2.trans (by decide)

theorem default_kept_sample : (((saveTask sampleLibrary {} (sampleFiles false) "a".toList
    "h2".toList []).moments.getD 1 (sampleFiles false)).at? .browser
      (jsonName defaultTaskId)).isSome := by
  have hmem : (saveTask sampleLibrary {} (sampleFiles false) "a".toList "h2".toList []).moments.getD 1
      (sampleFiles false) ∈
        (saveTask sampleLibrary {} (sampleFiles false) "a".toList "h2".toList []).moments := by
    rw [List.getD_eq_getElem?_getD, List.getElem?_eq_getElem (by decide), Option.getD_some]
    exact List.getElem_mem _
  exact default_kept (.save {} .start (by decide) hmem) (by decide)

/-- Where names differ in more than case only, another spelling reaches the built-in task. -/
example : (deleteTask (sampleFiles true) "Default".toList).2 = .ok () ∧
    ((deleteTask (sampleFiles true) "Default".toList).1.at? .browser (jsonName defaultTaskId)) =
      none := by
  decide

end CampusAuth.Tasks
