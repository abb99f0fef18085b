import Mathlib.Data.List.Nodup
import CampusAuth.Tasks.Listing

/- Which ids of a listing can be used. Loading, deleting and ordering take ids of letters, digits,
   dashes and underscores, but the listing shows whatever stands in the directories: scripts with
   a dot in their name, which can be loaded and deleted but make every order of the list be
   refused, names with other characters, one name in two directories, documents of no task.
   `listed_usable_iff` says that there is nothing else. -/
namespace CampusAuth.Tasks
open Lib Login
variable {κ : Type*} (o : Reads κ) (files : TaskFiles)

/-! ## What the directories hold -/

/-- A document that the listing reads. -/
structure Document (b : Bucket) (id : Text) (e : Entry) : Prop where
  mem : e ∈ files.entries b
  named : isJsonTask e.name = true
  stem : (stemAndExtension e.name).1 = id
  read : ((e.text.map stripBom).bind o.json).isSome

/-- A script that the listing reads. -/
structure Script (id : Text) (e : Entry) : Prop where
  mem : e ∈ files.entries .scripts
  unicode : e.unicode = true
  stem : stemAndExtension e.name = (id, some "py".toList)
  read : (files.at? .scripts (metaName id)).isSome ∨ e.text.isSome

/-- Something with the id is shown: a document, or a script without one. -/
def Shown (id : Text) : Prop :=
  (∃ b e, Document o files b id e) ∨
    (¬∃ b e, Document o files b id e) ∧ ∃ e, Script files id e

/-- The documents that are there under the id, in the order of the directories. -/
def documents (id : Text) : List Entry := buckets.filterMap fun b => files.at? b (jsonName id)

/-- The first document under the id is one of a task; without documents its script has a text. -/
def Loads (id : Text) : Prop :=
  match (documents files id).head? with
  | some e => (((e.text.map stripBom).bind o.json).bind o.task).isSome
  | none => ∃ e, files.find .scripts (pyName id) = some e ∧ e.text.isSome

/-- What is there under the id can be removed: every document, or without documents the script. -/
def Removes (id : Text) : Prop :=
  (∀ e ∈ documents files id, e.removable) ∧
    (documents files id ≠ [] ∨ ∃ e, files.at? .scripts (pyName id) = some e ∧ e.removable)

structure Orderly : Prop where
  valid : ∀ id, Shown o files id → isValidTaskId id = true
  once : ∀ id b b' e e', Document o files b id e → Document o files b' id e' → b = b'
  loads : ∀ id, Shown o files id → Loads o files id
  removes : ∀ id, Shown o files id → id ≠ defaultTaskId → Removes files id

/-- The ids of the listing. -/
def listedIds : List Text := (listAllTasks o files).map (·.id)

/-- The same files, the directories read in another order. -/
structure Relisted (again : TaskFiles) : Prop where
  entries : ∀ b, (again.entries b).Perm (files.entries b)
  caseless : again.caseless = files.caseless
  order : again.order = files.order

/-- What the ids of a listing are for. -/
structure ListedUsable : Prop where
  loads : ∀ id ∈ listedIds o files, ∃ task, loadTask o files id = .ok task
  removes : ∀ id ∈ listedIds o files, id ≠ defaultTaskId → (deleteTask files id).2 = .ok ()
  once : (listedIds o files).Nodup
  orders : ∀ order, order.Perm (listedIds o files) → (saveOrder files order).2 = .ok () ∧
    ∀ again, Relisted (saveOrder files order).1 again → listedIds o again = order

variable {o files}

/-! ## Names -/

theorem stemAndExtension_some {name stem ext : Text}
    (h : stemAndExtension name = (stem, some ext)) : name = stem ++ '.' :: ext := by
  unfold stemAndExtension at h
  split at h
  · cases h
  split at h
  next extension before hsplit =>
    split at h
    · cases h
    next hne =>
      cases h
      have hname := splitOnce_eq_some hsplit
      calc name = name.reverse.reverse := name.reverse_reverse.symm
        _ = before.reverse ++ '.' :: extension.reverse := by rw [hname]; simp
  next => cases h

theorem length_foldName (caseless : Bool) (name : Text) :
    (foldName caseless name).length = name.length := by
  unfold foldName
  split
  · exact List.length_map _
  · rfl

theorem foldName_ne {caseless : Bool} {name name' : Text} (h : name.length ≠ name'.length) :
    foldName caseless name ≠ foldName caseless name' := by
  intro heq
  have hlen := congrArg List.length heq
  rw [length_foldName, length_foldName] at hlen
  exact h hlen

/-- A valid id has only characters of ids. -/
theorem isIdChar_of_valid {id : Text} (h : isValidTaskId id = true) : ∀ c ∈ id, isIdChar c = true := by
  unfold isValidTaskId at h
  split at h
  · cases h
  · exact List.all_eq_true.mp h

theorem not_legacy_of_valid {id : Text} (h : isValidTaskId id = true) :
    isValidLegacyPyId id = false := by
  have hdot : '.' ∉ id := fun hmem => absurd (isIdChar_of_valid h '.' hmem) (by decide)
  simp [isValidLegacyPyId, hdot]

/-! ## Paths -/

theorem find_eq_some {b : Bucket} {name : Text} {e : Entry} :
    files.find b name = some e ↔ e ∈ files.entries b ∧ e.unicode = true ∧
      foldName files.caseless e.name = foldName files.caseless name := by
  unfold TaskFiles.find
  constructor
  · intro h
    have hp := List.find?_some h
    simp only [Bool.and_eq_true, beq_iff_eq] at hp
    exact ⟨List.mem_of_find?_eq_some h, hp⟩
  · rintro ⟨hmem, hunicode, hname⟩
    obtain ⟨before, after, hsplit⟩ := List.append_of_mem hmem
    refine List.find?_eq_some_iff_append.mpr ⟨by simp [hunicode, hname], before, after, hsplit, ?_⟩
    intro other hother
    have hdistinct := files.distinct b
    rw [hsplit] at hdistinct
    have hdiffer := (List.pairwise_append.mp hdistinct).2.2 other hother e List.mem_cons_self
    by_contra hfound
    simp only [Bool.not_eq_true', Bool.not_eq_false, Bool.and_eq_true, beq_iff_eq] at hfound
    exact hdiffer hfound.1 hunicode (hfound.2.trans hname.symm)

theorem find_self {b : Bucket} {e : Entry} (hmem : e ∈ files.entries b) (h : e.unicode = true) :
    files.find b e.name = some e := find_eq_some.mpr ⟨hmem, h, rfl⟩

theorem at_eq_some {b : Bucket} {name : Text} {e : Entry} :
    files.at? b name = some e ↔ files.find b name = some e ∧ e.found = true := by
  simp [TaskFiles.at?]

theorem relisted_at {again : TaskFiles} (h : ∀ b, (again.entries b).Perm (files.entries b))
    (hcase : again.caseless = files.caseless) (b : Bucket) (name : Text) :
    again.at? b name = files.at? b name := by
  refine Option.ext fun e => ?_
  rw [at_eq_some, at_eq_some, find_eq_some, find_eq_some, (h b).mem_iff, hcase]

/-! ## Loading -/

theorem findTaskFile_valid {id : Text} (h : isValidTaskId id = true) :
    findTaskFile files id = (documents files id).head? := by
  unfold findTaskFile documents
  rw [if_pos h, List.head?_filterMap]

theorem loadLegacyPyTask_ok_iff {id : Text} :
    (∃ task, loadLegacyPyTask o files id = .ok task) ↔
      ∃ e, files.find .scripts (pyName id) = some e ∧ e.text.isSome := by
  unfold loadLegacyPyTask readPySummary pyTitle
  cases hfind : files.find .scripts (pyName id) with
  | none => split <;> simp
  | some e =>
    cases htext : e.text with
    | none => split <;> simp [htext]
    | some content =>
      split
      next hnone =>
        split at hnone
        · split at hnone <;> simp at hnone
        · simp [htext] at hnone
      next => simp [htext]

/-- What loading asks of an id that it takes. -/
theorem loadTask_ok_iff {id : Text} (h : isValidTaskId id = true) :
    (∃ task, loadTask o files id = .ok task) ↔ Loads o files id := by
  unfold loadTask Loads
  rw [if_neg (by simp [not_legacy_of_valid h]), if_neg (by simp [h]), findTaskFile_valid h]
  cases (documents files id).head? with
  | none => exact loadLegacyPyTask_ok_iff
  | some e =>
    dsimp only
    cases htext : e.text with
    | none => simp
    | some content =>
      dsimp only
      rw [Option.map_some, Option.bind_some]
      cases (o.json (stripBom content)).bind o.task with
      | none => simp
      | some task => simp

/-! ## Deleting -/

theorem without_find {b b' : Bucket} {name name' : Text}
    (h : b' ≠ b ∨ foldName files.caseless name' ≠ foldName files.caseless name) :
    (files.without b name).find b' name' = files.find b' name' := by
  refine Option.ext fun e => ?_
  rw [find_eq_some, find_eq_some]
  show e ∈ (if b' = b then _ else files.entries b') ∧ _ ↔ _
  by_cases hb : b' = b
  · subst hb
    have hname := h.resolve_left fun hne => hne rfl
    rw [if_pos rfl, List.mem_filter]
    constructor
    · rintro ⟨⟨hmem, _⟩, hunicode, hfold⟩
      exact ⟨hmem, hunicode, hfold⟩
    · rintro ⟨hmem, hunicode, hfold⟩
      have hkept : foldName files.caseless e.name ≠ foldName files.caseless name :=
        fun heq => hname (hfold.symm.trans heq)
      exact ⟨⟨hmem, by simp [hkept]⟩, hunicode, hfold⟩
  · rw [if_neg hb]
    exact Iff.rfl

/-- What is there can be removed. -/
def RemovableAt (files : TaskFiles) (b : Bucket) (name : Text) : Prop :=
  ∀ e, files.at? b name = some e → e.removable = true

/-- All other paths lead to what they led to. -/
def Untouched (files files' : TaskFiles) (b : Bucket) (name : Text) : Prop :=
  ∀ b' name', b' ≠ b ∨ name'.length ≠ name.length → files'.at? b' name' = files.at? b' name'

theorem untouched_without (b : Bucket) (name : Text) :
    Untouched files (files.without b name) b name := by
  intro b' name' hne
  unfold TaskFiles.at?
  rw [without_find (hne.imp id foldName_ne)]

theorem removeThere_cases (files : TaskFiles) (b : Bucket) (name : Text) :
    (RemovableAt files b name ∧ ∃ files', removeThere files b name = some files' ∧
      Untouched files files' b name) ∨
    (¬RemovableAt files b name ∧ removeThere files b name = none) := by
  unfold removeThere RemovableAt
  cases hat : files.at? b name with
  | none => exact .inl ⟨by simp, files, by simp, fun _ _ _ => rfl⟩
  | some e =>
    have hfind : files.find b name = some e := (at_eq_some.mp hat).1
    unfold TaskFiles.removeFile
    rw [if_pos (by simp), hfind]
    dsimp only
    by_cases hremovable : e.removable = true
    · rw [if_pos hremovable]
      exact .inl ⟨by simpa using hremovable, _, rfl, untouched_without b name⟩
    · rw [if_neg hremovable]
      exact .inr ⟨by simpa using hremovable, rfl⟩

/-- The documents of the directories go when they can all be removed. -/
theorem removeDocuments_cases (id : Text) : ∀ (bs : List Bucket) (found : Bool) (files : TaskFiles),
    bs.Nodup →
    ((∀ b ∈ bs, RemovableAt files b (jsonName id)) ∧ ∃ files',
      removeDocuments id bs found files =
        (files', .ok (found || bs.any fun b => (files.at? b (jsonName id)).isSome)) ∧
      ∀ b name, name.length ≠ (jsonName id).length → files'.at? b name = files.at? b name) ∨
    ((¬∀ b ∈ bs, RemovableAt files b (jsonName id)) ∧ ∃ files',
      removeDocuments id bs found files = (files', .error .ioError))
  | [], found, files, _ => .inl ⟨by simp, files, by simp [removeDocuments], fun _ _ _ => rfl⟩
  | b :: bs, found, files, hnodup => by
    obtain ⟨hnot, hnodup⟩ := List.nodup_cons.mp hnodup
    unfold removeDocuments
    rw [List.forall_mem_cons]
    rcases removeThere_cases files b (jsonName id) with
      ⟨hcan, files', hremove, hother⟩ | ⟨hcannot, hremove⟩
    · rw [hremove]
      dsimp only
      -- The directories still to come are as they were.
      have hsame : ∀ b' ∈ bs, files'.at? b' (jsonName id) = files.at? b' (jsonName id) :=
        fun b' hb' => hother b' _ (.inl fun heq => hnot (heq ▸ hb'))
      have hremovable : (∀ b' ∈ bs, RemovableAt files' b' (jsonName id)) ↔
          ∀ b' ∈ bs, RemovableAt files b' (jsonName id) :=
        forall₂_congr fun b' hb' => by unfold RemovableAt; rw [hsame b' hb']
      rcases removeDocuments_cases id bs (found || (files.at? b (jsonName id)).isSome) files' hnodup with
        ⟨hall, files'', hrun, hrest⟩ | ⟨hnotall, files'', hrun⟩
      · refine .inl ⟨⟨hcan, hremovable.mp hall⟩, files'', ?_, fun b' name hlen => ?_⟩
        · rw [hrun, List.any_cons, Bool.or_assoc]
          have hany : (bs.any fun b' => (files'.at? b' (jsonName id)).isSome) =
              bs.any fun b' => (files.at? b' (jsonName id)).isSome := by
            rw [Bool.eq_iff_iff, List.any_eq_true, List.any_eq_true]
            exact exists_congr fun b' => and_congr_right fun hb' => by rw [hsame b' hb']
          rw [hany]
        · rw [hrest b' name hlen, hother b' name (.inr hlen)]
      · exact .inr ⟨fun h => hnotall (hremovable.mpr h.2), files'', hrun⟩
    · rw [hremove]
      exact .inr ⟨fun h => hcannot h.1, files, rfl⟩

/-- The script goes when it is there and can be removed. -/
theorem removeScript_iff (files : TaskFiles) (id : Text) :
    (removeScript files id).2 = true ↔
      ∃ e, files.at? .scripts (pyName id) = some e ∧ e.removable := by
  have hlen : (pyName id).length ≠ (metaName id).length := by simp [pyName, metaName]
  -- What stands beside the script is another file.
  have hsame : ((removeThere files .scripts (metaName id)).getD files).at? .scripts (pyName id) =
      files.at? .scripts (pyName id) := by
    rcases removeThere_cases files .scripts (metaName id) with ⟨_, files', hremove, hother⟩ |
      ⟨_, hremove⟩
    · rw [hremove]
      exact hother _ _ (.inr hlen)
    · rw [hremove]
      rfl
  unfold removeScript
  generalize (removeThere files .scripts (metaName id)).getD files = now at hsame
  dsimp only
  rw [← hsame]
  rcases removeThere_cases now .scripts (pyName id) with ⟨hcan, files', hremove, _⟩ | ⟨hcannot, hremove⟩
  · rw [hremove]
    dsimp only
    rw [Option.isSome_iff_exists]
    exact exists_congr fun e => ⟨fun h => ⟨h, hcan e h⟩, fun h => h.1⟩
  · rw [hremove]
    dsimp only
    refine ⟨fun h => absurd h (by simp), ?_⟩
    rintro ⟨e, he, hremovable⟩
    refine absurd (fun e' he' => ?_) hcannot
    cases he.symm.trans he'
    exact hremovable

/-- What deleting asks of an id that it takes. -/
theorem deleteTask_ok_iff {id : Text} (h : isValidTaskId id = true) (hne : id ≠ defaultTaskId) :
    (deleteTask files id).2 = .ok () ↔ Removes files id := by
  have hremovable : (∀ b ∈ buckets, RemovableAt files b (jsonName id)) ↔
      ∀ e ∈ documents files id, e.removable := by
    unfold documents RemovableAt
    constructor
    · intro hall e he
      obtain ⟨b, hb, hat⟩ := List.mem_filterMap.mp he
      exact hall b hb e hat
    · intro hall b hb e hat
      exact hall e (List.mem_filterMap.mpr ⟨b, hb, hat⟩)
  have hfound : (buckets.any fun b => (files.at? b (jsonName id)).isSome) = true ↔
      documents files id ≠ [] := by
    unfold documents
    rw [List.any_eq_true, ne_eq, List.filterMap_eq_nil_iff]
    push Not
    exact exists_congr fun b => and_congr_right fun _ => Option.isSome_iff_ne_none
  unfold deleteTask Removes
  rw [if_neg (by simp [not_legacy_of_valid h]), if_neg (by simp [h]), if_neg hne, ← hremovable,
    ← hfound]
  rcases removeDocuments_cases id buckets false files (by decide) with
    ⟨hall, files', hrun, hother⟩ | ⟨hnotall, files', hrun⟩
  · rw [hrun]
    have hscript := removeScript_iff files' id
    rw [hother .scripts (pyName id) (by simp [pyName, jsonName])] at hscript
    dsimp only
    rw [← hscript, Bool.false_or, ← Bool.or_eq_true, iff_true_intro hall, true_and]
    split
    next hok => simp [hok]
    next hbad => simp [hbad]
  · rw [hrun]
    exact iff_of_false (by simp) fun hgood => hnotall hgood.1

/-! ## What is listed -/

theorem readSummaryTyped_id {e : Entry} {ttype : Option Text} {s : TaskSummary}
    (h : readSummaryTyped o e ttype = some s) : s.id = (stemAndExtension e.name).1 := by
  obtain ⟨v, _, rfl⟩ := Option.map_eq_some_iff.mp h
  rfl

theorem readSummaryTyped_isSome {e : Entry} {ttype : Option Text} :
    (readSummaryTyped o e ttype).isSome = ((e.text.map stripBom).bind o.json).isSome :=
  Option.isSome_map

theorem mem_scanJsonBucket {b : Bucket} {id : Text} :
    id ∈ (scanJsonBucket o (files.entries b) (dirType b)).map (·.id) ↔
      ∃ e, Document o files b id e := by
  unfold scanJsonBucket
  rw [List.mem_map]
  constructor
  · rintro ⟨s, hs, rfl⟩
    obtain ⟨e, hmem, hread⟩ := List.mem_filterMap.mp hs
    split at hread
    next hnamed =>
      refine ⟨e, hmem, hnamed, (readSummaryTyped_id hread).symm, ?_⟩
      rw [← readSummaryTyped_isSome, hread]
      rfl
    next => cases hread
  · rintro ⟨e, hmem, hnamed, hstem, hread⟩
    rw [← @readSummaryTyped_isSome _ o e (dirType b)] at hread
    obtain ⟨s, hs⟩ := Option.isSome_iff_exists.mp hread
    exact ⟨s, List.mem_filterMap.mpr ⟨e, hmem, by rw [if_pos hnamed, hs]⟩,
      (readSummaryTyped_id hs).trans hstem⟩

theorem mem_scanJson {id : Text} :
    id ∈ (scanJson o files).map (·.id) ↔ ∃ b e, Document o files b id e := by
  unfold scanJson
  rw [List.map_flatMap, List.mem_flatMap]
  constructor
  · rintro ⟨b, _, hid⟩
    exact ⟨b, mem_scanJsonBucket.mp hid⟩
  · rintro ⟨b, hdoc⟩
    exact ⟨b, by cases b <;> decide, mem_scanJsonBucket.mpr hdoc⟩

theorem readPySummary_id {name : Text} {s : TaskSummary} (h : readPySummary o files name = some s) :
    s.id = (stemAndExtension name).1 := by
  obtain ⟨title, _, rfl⟩ := Option.map_eq_some_iff.mp h
  rfl

theorem readPySummary_isSome {e : Entry} (hmem : e ∈ files.entries .scripts)
    (h : e.unicode = true) :
    (readPySummary o files e.name).isSome = true ↔
      (files.at? .scripts (metaName (stemAndExtension e.name).1)).isSome ∨ e.text.isSome := by
  unfold readPySummary pyTitle
  rw [Option.isSome_map, find_self hmem h]
  cases files.at? .scripts (metaName (stemAndExtension e.name).1) with
  | none => simp
  | some beside =>
    dsimp only
    split <;> simp

theorem not_contains {seen : List Text} {id : Text} : (!seen.contains id) = true ↔ id ∉ seen := by
  simp

theorem mem_scanPy {seen : List Text} {id : Text} :
    id ∈ (scanPy o files seen).map (·.id) ↔ id ∉ seen ∧ ∃ e, Script files id e := by
  unfold scanPy
  rw [List.mem_map]
  constructor
  · rintro ⟨s, hs, rfl⟩
    obtain ⟨e, hmem, hread⟩ := List.mem_filterMap.mp hs
    split at hread
    next hscript =>
      obtain ⟨hext, hunicode, hnew⟩ := hscript
      have hid := readPySummary_id hread
      have hsome := (readPySummary_isSome hmem hunicode).mp (by rw [hread]; rfl)
      rw [← hid] at hnew hsome
      exact ⟨not_contains.mp hnew, e, hmem, hunicode, Prod.ext hid.symm hext, hsome⟩
    next => cases hread
  · rintro ⟨hnew, e, hmem, hunicode, hstem, hread⟩
    have hsome := (readPySummary_isSome (o := o) hmem hunicode).mpr (by rw [hstem]; exact hread)
    obtain ⟨s, hs⟩ := Option.isSome_iff_exists.mp hsome
    refine ⟨s, List.mem_filterMap.mpr ⟨e, hmem, ?_⟩, ?_⟩
    · rw [if_pos ⟨by rw [hstem], hunicode, by rw [hstem]; exact not_contains.mpr hnew⟩, hs]
    · rw [readPySummary_id hs, hstem]

theorem listedIds_perm : (listedIds o files).Perm ((scanAll o files).map (·.id)) :=
  (sortByKey_perm _ _).map _

theorem mem_listedIds {id : Text} : id ∈ listedIds o files ↔ Shown o files id := by
  unfold Shown
  rw [listedIds_perm.mem_iff, scanAll, List.map_append, List.mem_append, mem_scanPy, mem_scanJson]

/-! ## Each id once -/

/-- An entry that is named by an id. -/
theorem unicode_of_stem {e : Entry} {id : Text} (ext : Text) (hvalid : isValidTaskId id = true)
    (hext : Char.ofNat 0xFFFD ∉ '.' :: ext) (h : stemAndExtension e.name = (id, some ext)) :
    e.unicode = true := by
  by_contra hnot
  have hmem := e.replaced (by simpa using hnot)
  rw [stemAndExtension_some h, List.mem_append] at hmem
  rcases hmem with hmem | hmem
  · exact absurd (isIdChar_of_valid hvalid _ hmem) (by decide)
  · exact hext hmem

/-- Two entries of a directory that are named by the same id are one. -/
theorem eq_of_stem {b : Bucket} {id : Text} (ext : Text) (hvalid : isValidTaskId id = true)
    (hext : Char.ofNat 0xFFFD ∉ '.' :: ext) :
    (files.entries b).Pairwise fun e e' =>
      stemAndExtension e.name = (id, some ext) → stemAndExtension e'.name ≠ (id, some ext) := by
  refine (files.distinct b).imp fun {e e'} hdiffer he he' => ?_
  refine hdiffer (unicode_of_stem ext hvalid hext he) (unicode_of_stem ext hvalid hext he') ?_
  rw [stemAndExtension_some he, stemAndExtension_some he']

theorem isJsonTask_ext {name : Text} (h : isJsonTask name = true) :
    (stemAndExtension name).2 = some "json".toList := by
  unfold isJsonTask at h
  rw [Bool.and_eq_true, beq_iff_eq] at h
  exact h.1

theorem nodup_scanJsonBucket {b : Bucket}
    (hvalid : ∀ id e, Document o files b id e → isValidTaskId id = true) :
    ((scanJsonBucket o (files.entries b) (dirType b)).map (·.id)).Nodup := by
  unfold scanJsonBucket List.Nodup
  rw [List.pairwise_map, List.pairwise_filterMap]
  refine (List.pairwise_iff_forall_sublist.mpr fun {e e'} hsub s hs s' hs' heq => ?_)
  split at hs
  next hnamed =>
    split at hs'
    next hnamed' =>
      have hid := readSummaryTyped_id hs
      have hid' := readSummaryTyped_id hs'
      have hmem : e ∈ files.entries b := hsub.subset (by simp)
      have hread : ((e.text.map stripBom).bind o.json).isSome := by
        rw [← @readSummaryTyped_isSome _ o e (dirType b), hs]
        rfl
      have hok := hvalid s.id e ⟨hmem, hnamed, hid.symm, hread⟩
      have hpair := List.pairwise_iff_forall_sublist.mp
        (eq_of_stem "json".toList hok (by decide)) hsub
      exact hpair (Prod.ext hid.symm (isJsonTask_ext hnamed))
        (Prod.ext (hid'.symm.trans heq.symm) (isJsonTask_ext hnamed'))
    next => cases hs'
  next => cases hs

theorem nodup_scanPy {seen : List Text}
    (hvalid : ∀ id e, Script files id e → id ∉ seen → isValidTaskId id = true) :
    ((scanPy o files seen).map (·.id)).Nodup := by
  unfold scanPy List.Nodup
  rw [List.pairwise_map, List.pairwise_filterMap]
  refine (List.pairwise_iff_forall_sublist.mpr fun {e e'} hsub s hs s' hs' heq => ?_)
  split at hs
  next hscript =>
    split at hs'
    next hscript' =>
      have hid := readPySummary_id hs
      have hid' := readPySummary_id hs'
      have hmem : e ∈ files.entries .scripts := hsub.subset (by simp)
      have hread := (readPySummary_isSome (o := o) hmem hscript.2.1).mp (by rw [hs]; rfl)
      rw [← hid] at hread
      have hnew : s.id ∉ seen := hid ▸ not_contains.mp hscript.2.2
      have hok := hvalid s.id e ⟨hmem, hscript.2.1, Prod.ext hid.symm hscript.1, hread⟩ hnew
      have hpair := List.pairwise_iff_forall_sublist.mp
        (eq_of_stem "py".toList hok (by decide)) hsub
      exact hpair (Prod.ext hid.symm hscript.1)
        (Prod.ext (hid'.symm.trans heq.symm) hscript'.1)
    next => cases hs'
  next => cases hs

/-- What is shown under valid ids, each in one directory, is shown once. -/
theorem nodup_listedIds (hvalid : ∀ id, Shown o files id → isValidTaskId id = true)
    (honce : ∀ id b b' e e', Document o files b id e → Document o files b' id e' → b = b') :
    (listedIds o files).Nodup := by
  rw [listedIds_perm.nodup_iff, scanAll, List.map_append, List.nodup_append']
  refine ⟨?_, nodup_scanPy fun id e hscript hnew => hvalid id (.inr ⟨?_, e, hscript⟩), ?_⟩
  · rw [scanJson, List.map_flatMap, List.nodup_flatMap]
    refine ⟨fun b _ => nodup_scanJsonBucket fun id e hdoc => hvalid id (.inl ⟨b, e, hdoc⟩), ?_⟩
    have hbuckets : buckets.Nodup := by decide
    refine hbuckets.imp fun {b b'} hne id hb hb' => ?_
    obtain ⟨e, he⟩ := mem_scanJsonBucket.mp hb
    obtain ⟨e', he'⟩ := mem_scanJsonBucket.mp hb'
    exact hne (honce id b b' e e' he he')
  · exact fun hdoc => hnew (mem_scanJson.mpr hdoc)
  · exact fun id hjson hpy => (mem_scanPy.mp hpy).1 hjson

/-- An id that two directories have is shown twice. -/
theorem once_of_nodup (h : (listedIds o files).Nodup) {id : Text} {b b' : Bucket} {e e' : Entry}
    (he : Document o files b id e) (he' : Document o files b' id e') : b = b' := by
  rw [listedIds_perm.nodup_iff, scanAll, List.map_append, List.nodup_append', scanJson,
    List.map_flatMap, List.nodup_flatMap] at h
  by_contra hne
  have hmem : ∀ b, b ∈ buckets := fun b => by cases b <;> decide
  have hsymm : Std.Symm fun b b' : Bucket =>
      List.Disjoint ((scanJsonBucket o (files.entries b) (dirType b)).map (·.id))
        ((scanJsonBucket o (files.entries b') (dirType b')).map (·.id)) :=
    ⟨fun _ _ h => h.symm⟩
  exact h.1.2.forall (hmem b) (hmem b') hne (mem_scanJsonBucket.mpr ⟨e, he⟩)
    (mem_scanJsonBucket.mpr ⟨e', he'⟩)

/-! ## The order -/

theorem saveOrder_ok_iff {order : List Text} :
    (saveOrder files order).2 = .ok () ↔ ∀ id ∈ order, isValidTaskId id = true := by
  unfold saveOrder
  cases hfind : order.find? fun id => !isValidTaskId id with
  | none => simpa using hfind
  | some invalid =>
    refine iff_of_false (by simp) fun hall => ?_
    have hbad := List.find?_some hfind
    simp [hall invalid (List.mem_of_find?_eq_some hfind)] at hbad

theorem saveOrder_fst {order : List Text} (h : ∀ id ∈ order, isValidTaskId id = true) :
    (saveOrder files order).1 = { files with order := some order } := by
  have hnone : (order.find? fun id => !isValidTaskId id) = none := by simpa using h
  unfold saveOrder
  rw [hnone]

/-- The same entries in another order show the same. -/
theorem document_relisted {again : TaskFiles} (h : ∀ b, (again.entries b).Perm (files.entries b))
    {b : Bucket} {id : Text} {e : Entry} :
    Document o again b id e ↔ Document o files b id e :=
  ⟨fun hdoc => { hdoc with mem := (h b).mem_iff.mp hdoc.mem },
    fun hdoc => { hdoc with mem := (h b).mem_iff.mpr hdoc.mem }⟩

theorem script_relisted {again : TaskFiles} (h : ∀ b, (again.entries b).Perm (files.entries b))
    (hcase : again.caseless = files.caseless) {id : Text} {e : Entry} :
    Script again id e ↔ Script files id e := by
  have hat := relisted_at h hcase .scripts (metaName id)
  exact ⟨fun hs => ⟨(h _).mem_iff.mp hs.mem, hs.unicode, hs.stem, hat ▸ hs.read⟩,
    fun hs => ⟨(h _).mem_iff.mpr hs.mem, hs.unicode, hs.stem, hat ▸ hs.read⟩⟩

theorem shown_relisted {again : TaskFiles} (h : ∀ b, (again.entries b).Perm (files.entries b))
    (hcase : again.caseless = files.caseless) {id : Text} :
    Shown o again id ↔ Shown o files id := by
  unfold Shown
  simp only [document_relisted h, script_relisted h hcase]

/-- A listing whose ids are those of the order follows it. -/
theorem listedIds_of_order {order : List Text} (horder : files.order = some order)
    (hnodup : order.Nodup) (hperm : order.Perm (listedIds o files)) : listedIds o files = order := by
  have hplace : order.Pairwise fun a b =>
      (order.idxOf? a).getD (2 ^ 64 - 1) < (order.idxOf? b).getD (2 ^ 64 - 1) := by
    refine List.pairwise_iff_getElem.mpr fun i j hi hj hlt => ?_
    have hat : ∀ k (hk : k < order.length), order.idxOf? order[k] = some k := by
      intro k hk
      refine List.idxOf?_eq_some_iff.mpr ⟨hk, rfl, fun l hl heq => ?_⟩
      exact absurd (hnodup.getElem_inj_iff.mp heq) hl.ne
    rw [hat i hi, hat j hj]
    exact hlt
  unfold listedIds listAllTasks
  rw [horder]
  exact map_sortByKey (hperm.trans listedIds_perm) hplace

/-! ## Every listed id -/

/-- The ids of a listing can be used exactly when the directories are in order. -/
theorem listed_usable_iff (o : Reads κ) (files : TaskFiles) :
    ListedUsable o files ↔ Orderly o files := by
  constructor
  · intro h
    have hvalid : ∀ id, Shown o files id → isValidTaskId id = true := fun id hid =>
      saveOrder_ok_iff.mp (h.orders _ (List.Perm.refl _)).1 id (mem_listedIds.mpr hid)
    exact ⟨hvalid, fun _ _ _ _ _ => once_of_nodup h.once,
      fun id hid => (loadTask_ok_iff (hvalid id hid)).mp (h.loads id (mem_listedIds.mpr hid)),
      fun id hid hne => (deleteTask_ok_iff (hvalid id hid) hne).mp
        (h.removes id (mem_listedIds.mpr hid) hne)⟩
  · intro h
    have hnodup := nodup_listedIds h.valid h.once
    refine ⟨fun id hid => ?_, fun id hid hne => ?_, hnodup, fun order hperm => ?_⟩
    · have hid := mem_listedIds.mp hid
      exact (loadTask_ok_iff (h.valid id hid)).mpr (h.loads id hid)
    · have hid := mem_listedIds.mp hid
      exact (deleteTask_ok_iff (h.valid id hid) hne).mpr (h.removes id hid hne)
    have hall : ∀ id ∈ order, isValidTaskId id = true := fun id hid =>
      h.valid id (mem_listedIds.mp (hperm.mem_iff.mp hid))
    refine ⟨saveOrder_ok_iff.mpr hall, fun again hagain => ?_⟩
    rw [saveOrder_fst hall] at hagain
    have hentries : ∀ b, (again.entries b).Perm (files.entries b) := hagain.entries
    -- The next listing shows the same ids, each once.
    have hshown : ∀ id, Shown o again id ↔ Shown o files id := fun id =>
      shown_relisted hentries hagain.caseless
    have honce : (listedIds o again).Nodup :=
      nodup_listedIds (fun id hid => h.valid id ((hshown id).mp hid)) fun id b b' e e' he he' =>
        h.once id b b' e e' ((document_relisted hentries).mp he)
          ((document_relisted hentries).mp he')
    refine listedIds_of_order hagain.order (hperm.nodup_iff.mpr hnodup) (hperm.trans ?_)
    refine (List.perm_ext_iff_of_nodup hnodup honce).mpr fun id => ?_
    rw [mem_listedIds, mem_listedIds, hshown]

def loginScript : Entry where
  name := "campus.login.py".toList
  text := some "print('ok')".toList
  found_of_text _ := rfl
  replaced := by simp

/-- A script with a dot in its name, alone in the directories. -/
def dottedScript : TaskFiles where
  entries b := if b = .scripts then [loginScript] else []
  caseless := false
  order := none
  distinct b := by cases b <;> simp

/-- The library of texts at hand: none is a document. -/
def noDocuments : Reads Text := ⟨fun _ => none, fun _ => none, fun _ _ _ content => content⟩

/-- The script is listed and can be loaded and deleted, but no order that has it is saved. -/
theorem dotted_script_unorderable :
    ¬ListedUsable noDocuments dottedScript ∧
      "campus.login".toList ∈ listedIds noDocuments dottedScript ∧
      loadTask noDocuments dottedScript "campus.login".toList = .ok "print('ok')".toList ∧
      (deleteTask dottedScript "campus.login".toList).2 = .ok () ∧
      (saveOrder dottedScript ["campus.login".toList]).2 =
        .error (.invalidTaskId "campus.login".toList) := by
  have hlisted : "campus.login".toList ∈ listedIds noDocuments dottedScript := by
    refine mem_listedIds.mpr (.inr ⟨?_, ?_⟩)
    · rintro ⟨b, e, hdoc⟩
      have hread := hdoc.read
      cases e.text <;> simp [noDocuments] at hread
    · exact ⟨loginScript, List.mem_singleton_self _, rfl, by decide +kernel, .inr rfl⟩
  refine ⟨fun h => ?_, hlisted, by decide +kernel, by decide +kernel, by decide +kernel⟩
  have hsaved := (h.orders _ (List.Perm.refl _)).1
  exact absurd (saveOrder_ok_iff.mp hsaved _ hlisted) (by decide +kernel)

end CampusAuth.Tasks
