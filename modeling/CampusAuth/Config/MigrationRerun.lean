import CampusAuth.Config.HttpMigration

/- The migration to v10 stopped between two of its file operations and then done again.

   A profile that is migrated has no HTTP login any more, and one that was passed over is passed
   over again, so a stop between two profiles is made good (`Job.Settles.rerun_between`). A stop
   behind the task of a profile and before the profile itself is made good when the task has the
   profile's own id: the rerun knows it by its texts. Under a suffixed id it is not looked for, and
   the rerun writes a second task under the next free id (`rerunnable_iff`). -/
namespace CampusAuth.Config
open Lib

/-! ## Suffixed ids -/

open TaskDirs (suffixedIds)

theorem suffixed_toList {t id : String} (h : t ∈ suffixedIds id) :
    ∃ digits, '-' ∉ digits ∧ t.toList = id.toList ++ '-' :: digits := by
  obtain ⟨n, hn, rfl⟩ := List.mem_map.mp h
  have hdigits : ∀ n ∈ List.range' 2 19, '-' ∉ (toString n).toList := by decide
  refine ⟨(toString n).toList, hdigits n hn, ?_⟩
  rw [String.toList_append, String.toList_append]
  rfl

/-- An id is a suffixed form of one id only. -/
theorem suffixed_unique {t a b : String} (ha : t ∈ suffixedIds a) (hb : t ∈ suffixedIds b) :
    a = b := by
  obtain ⟨da, hda, hta⟩ := suffixed_toList ha
  obtain ⟨db, hdb, htb⟩ := suffixed_toList hb
  have heq : a.toList ++ '-' :: da = b.toList ++ '-' :: db := hta.symm.trans htb
  refine String.toList_inj.mp ?_
  rcases List.append_eq_append_iff.mp heq with ⟨mid, hmid, hrest⟩ | ⟨mid, hmid, hrest⟩
  · cases mid with
    | nil => rw [hmid, List.append_nil]
    | cons c mid =>
      -- the other dash would be one of the digits
      obtain ⟨-, hdigits⟩ := List.cons_eq_cons.mp hrest
      exact absurd (hdigits ▸ List.mem_append_right _ List.mem_cons_self) hda
  · cases mid with
    | nil => rw [hmid, List.append_nil]
    | cons c mid =>
      obtain ⟨-, hdigits⟩ := List.cons_eq_cons.mp hrest
      exact absurd (hdigits ▸ List.mem_append_right _ List.mem_cons_self) hdb

theorem append_lt_append_iff (l x y : List Char) : l ++ x < l ++ y ↔ x < y := by
  induction l with
  | nil => rfl
  | cons c l ih =>
    rw [List.cons_append, List.cons_append, List.cons_lt_cons_iff, ih]
    constructor
    · rintro (hlt | ⟨-, h⟩)
      · exact absurd hlt (Char.lt_irrefl c)
      · exact h
    · exact fun h => .inr ⟨rfl, h⟩

/-- The files of the suffixed ids come before that of the id itself. -/
theorem not_pathLt_suffixed {t id : String} (h : t ∈ suffixedIds id) : ¬PathLt id t := by
  obtain ⟨digits, -, heq⟩ := suffixed_toList h
  unfold PathLt
  rw [String.toList_append, String.toList_append, heq, List.append_assoc, append_lt_append_iff]
  show ¬ '.' :: _ < '-' :: _
  rw [List.cons_lt_cons_iff]
  rintro (hlt | ⟨heq, -⟩)
  · exact absurd hlt (by decide)
  · exact absurd heq (by decide)

/-! ## What the operations leave -/

/-- The migration with every write done. -/
abbrev migration : Job TaskDirs String FileOp := migrationJob {}

def FileOp.taskAt (id : String) : FileOp → Option Json
  | .task t v => if t = id then some v else none
  | _ => none

def FileOp.profileAt (id : String) : FileOp → Option Json
  | .profile i v => if i = id then some v else none
  | _ => none

def FileOp.isOrder : FileOp → Bool
  | .order _ => true
  | _ => false

/-- The operations but those on the order of the tasks. -/
def core (ops : List FileOp) : List FileOp := ops.filter fun op => !op.isOrder

/-- What is written last to a task or a profile. -/
def lastTask (id : String) (ops : List FileOp) : Option Json := ops.reverse.findSome? (FileOp.taskAt id)

def lastProfile (id : String) (ops : List FileOp) : Option Json :=
  ops.reverse.findSome? (FileOp.profileAt id)

section
variable {d e : TaskDirs} {ops ops' : List FileOp} {id : String}

theorem lastTask_append : lastTask id (ops ++ ops') = (lastTask id ops').or (lastTask id ops) := by
  unfold lastTask
  rw [List.reverse_append, List.findSome?_append]

theorem lastProfile_append :
    lastProfile id (ops ++ ops') = (lastProfile id ops').or (lastProfile id ops) := by
  unfold lastProfile
  rw [List.reverse_append, List.findSome?_append]

theorem lastProfile_single (id : String) (v : Json) : lastProfile id [.profile id v] = some v := by
  simp [lastProfile, FileOp.profileAt]

theorem core_append : core (ops ++ ops') = core ops ++ core ops' := List.filter_append ..

/-- What is looked for among the operations is not looked for among those on the order. -/
theorem findSome_core {f : FileOp → Option Json} (hf : ∀ op, op.isOrder = true → f op = none)
    (ops : List FileOp) : (core ops).reverse.findSome? f = ops.reverse.findSome? f := by
  induction ops with
  | nil => rfl
  | cons op ops ih =>
    unfold core at ih ⊢
    cases horder : op.isOrder with
    | true =>
      rw [List.filter_cons_of_neg (by simp [horder]), ih, List.reverse_cons, List.findSome?_append,
        List.findSome?_cons, hf op horder, List.findSome?_nil, Option.or_none]
    | false =>
      rw [List.filter_cons_of_pos (by simp [horder]), List.reverse_cons, List.reverse_cons,
        List.findSome?_append, List.findSome?_append, ih]

theorem lastTask_core : lastTask id (core ops) = lastTask id ops :=
  findSome_core (fun op h => by cases op <;> first | rfl | cases h) ops

theorem lastProfile_core : lastProfile id (core ops) = lastProfile id ops :=
  findSome_core (fun op h => by cases op <;> first | rfl | cases h) ops

theorem http_after : (migration.after d ops).http id =
    ((lastTask id ops).map TaskFile.task).getD (d.http id) := by
  induction ops generalizing d with
  | nil => rfl
  | cons op ops ih =>
    rw [← List.singleton_append, lastTask_append, migration.after_append, ih]
    cases lastTask id ops with
    | some v => rfl
    | none =>
      cases op with
      | order | profile => rfl
      | task t v =>
        show Function.update d.http t (.task v) id = _
        by_cases ht : t = id
        · subst ht
          rw [Function.update_self]
          simp [lastTask, FileOp.taskAt]
        · rw [Function.update_of_ne (Ne.symm ht)]
          simp [lastTask, FileOp.taskAt, ht]

theorem profile_after : (migration.after d ops).profile id =
    (lastProfile id ops).or (d.profile id) := by
  induction ops generalizing d with
  | nil => rfl
  | cons op ops ih =>
    rw [← List.singleton_append, lastProfile_append, migration.after_append, ih]
    cases lastProfile id ops with
    | some v => rfl
    | none =>
      cases op with
      | order | task => rfl
      | profile i v =>
        show Function.update d.profile i (some v) id = _
        by_cases hi : i = id
        · subst hi
          rw [Function.update_self]
          simp [lastProfile, FileOp.profileAt]
        · rw [Function.update_of_ne (Ne.symm hi)]
          simp [lastProfile, FileOp.profileAt, hi]

theorem others_after : (migration.after d ops).browser = d.browser ∧
    (migration.after d ops).scripts = d.scripts := by
  induction ops generalizing d with
  | nil => exact ⟨rfl, rfl⟩
  | cons op ops ih =>
    rw [← List.singleton_append, migration.after_append, ih.1, ih.2]
    cases op <;> exact ⟨rfl, rfl⟩

end

/-! ## One profile -/

/-- Later files: every id that was taken has the task it had. -/
structure Extends (d e : TaskDirs) : Prop where
  browser : e.browser = d.browser
  scripts : e.scripts = d.scripts
  http : ∀ id, d.taskIdTaken id = true → e.http id = d.http id

section
variable {d e : TaskDirs} {ops : List FileOp} {id t : String} {profile : Json}

theorem Extends.taken (h : Extends d e) (hid : d.taskIdTaken id = true) :
    e.taskIdTaken id = true := by
  have hhttp : e.pathHasTask id = d.pathHasTask id := by
    unfold TaskDirs.pathHasTask
    rw [h.http id hid]
  unfold TaskDirs.taskIdTaken at hid ⊢
  rw [h.browser, h.scripts, hhttp]
  exact hid

theorem Extends.trans {f : TaskDirs} (h : Extends d e) (h' : Extends e f) : Extends d f :=
  ⟨h'.browser.trans h.browser, h'.scripts.trans h.scripts,
    fun id hid => (h'.http id (h.taken hid)).trans (h.http id hid)⟩

/-- Tasks are written only under ids that are not taken. -/
theorem extends_after (h : ∀ t v, .task t v ∈ ops → d.taskIdTaken t = false) :
    Extends d (migration.after d ops) := by
  refine ⟨others_after.1, others_after.2, fun id hid => ?_⟩
  have hnone : lastTask id ops = none := by
    refine List.findSome?_eq_none_iff.mpr fun op hop => ?_
    cases op with
    | order | profile => rfl
    | task t v =>
      have hfree : d.taskIdTaken t = false := h t v (List.mem_reverse.mp hop)
      have hne : t ≠ id := fun heq => by rw [heq, hid] at hfree; cases hfree
      exact if_neg hne
  rw [http_after, hnone]
  rfl

theorem reusableExistingTask_some (h : d.reusableExistingTask id profile = some t) :
    t = id ∧ d.pathHasTask id = true := by
  unfold TaskDirs.reusableExistingTask at h
  unfold TaskDirs.pathHasTask
  split at h
  next existing hexisting =>
    split at h
    · rw [hexisting]
      exact ⟨(Option.some.inj h).symm, rfl⟩
    · cases h
  · cases h

/-- How the id of a task is picked. -/
theorem pickHttpTaskId_ok (h : d.pickHttpTaskId id profile = .ok t) :
    (t = id ∧ d.reusableExistingTask id profile = some id) ∨
      d.reusableExistingTask id profile = none ∧ d.taskIdTaken t = false ∧
        (t = id ∨ d.taskIdTaken id = true ∧ t ∈ suffixedIds id) := by
  unfold TaskDirs.pickHttpTaskId at h
  split at h
  next existing hreuse =>
    cases h
    have hid : t = id := (reusableExistingTask_some hreuse).1
    exact .inl ⟨hid, hid ▸ hreuse⟩
  next hreuse =>
    refine .inr ⟨hreuse, ?_⟩
    split at h
    next hfree =>
      cases h
      exact ⟨by simpa using hfree, .inl rfl⟩
    next htaken =>
      split at h
      next candidate hfind =>
        cases h
        have hfree := List.find?_some hfind
        exact ⟨by simpa using hfree, .inr ⟨by simpa using htaken, List.mem_of_find?_eq_some hfind⟩⟩
      · cases h

theorem pickHttpTaskId_error {reason : Text} (h : d.pickHttpTaskId id profile = .error reason) :
    d.reusableExistingTask id profile = none ∧ d.taskIdTaken id = true ∧
      ∀ t ∈ suffixedIds id, d.taskIdTaken t = true := by
  unfold TaskDirs.pickHttpTaskId at h
  split at h
  · cases h
  next hreuse =>
    split at h
    · cases h
    next htaken =>
      split at h
      · cases h
      next hnone =>
        refine ⟨hreuse, by simpa using htaken, fun t ht => ?_⟩
        have := List.find?_eq_none.mp hnone t ht
        simpa using this

theorem legacyProfile_some (h : legacyProfile d id = some (t, profile)) :
    isValidProfileId id = true ∧ d.profile id = some profile ∧
      legacyHttpConfigPresent profile = true ∧ d.pickHttpTaskId id profile = .ok t := by
  unfold legacyProfile at h
  split at h
  · cases h
  next hvalid =>
    split at h
    · cases h
    next found hprofile =>
      split at h
      · cases h
      next hlegacy =>
        split at h
        · cases h
        next picked hpick =>
          cases h
          exact ⟨by simpa using hvalid, hprofile, by simpa using hlegacy, hpick⟩

theorem legacyProfile_of_pick (hvalid : isValidProfileId id = true)
    (hprofile : d.profile id = some profile) (hlegacy : legacyHttpConfigPresent profile = true)
    (hpick : d.pickHttpTaskId id profile = .ok t) : legacyProfile d id = some (t, profile) := by
  unfold legacyProfile
  rw [hvalid, hprofile]
  simp [hlegacy, hpick]

theorem not_pathHasTask_of_free (h : d.taskIdTaken id = false) : d.pathHasTask id = false := by
  unfold TaskDirs.taskIdTaken at h
  exact (Bool.or_eq_false_iff.mp h).2

/-- The operations for a profile: none, the profile alone when its task is there, or the task, the
    order and the profile. -/
theorem profileOps_cases (d : TaskDirs) (id : String) :
    (legacyProfile d id = none ∧ profileOps {} d id = []) ∨
      ∃ t profile, legacyProfile d id = some (t, profile) ∧
        ((d.reusableExistingTask id profile = some id ∧ t = id ∧
            profileOps {} d id = [.profile id (bindProfile t profile)]) ∨
          (d.reusableExistingTask id profile = none ∧ d.taskIdTaken t = false ∧
            (t = id ∨ d.taskIdTaken id = true ∧ t ∈ suffixedIds id) ∧
            profileOps {} d id = .task t (buildLegacyHttpTask t profile) ::
              (appendToOrder {} d t ++ [.profile id (bindProfile t profile)]))) := by
  unfold profileOps
  cases hlegacy : legacyProfile d id with
  | none => exact .inl ⟨rfl, rfl⟩
  | some picked =>
    obtain ⟨t, profile⟩ := picked
    refine .inr ⟨t, profile, rfl, ?_⟩
    rcases pickHttpTaskId_ok (legacyProfile_some hlegacy).2.2.2 with ⟨rfl, hreuse⟩ | ⟨hreuse, hfree, hid⟩
    · refine .inl ⟨hreuse, rfl, ?_⟩
      simp [taskOps, (reusableExistingTask_some hreuse).2]
    · refine .inr ⟨hreuse, hfree, hid, ?_⟩
      simp [taskOps, not_pathHasTask_of_free hfree]

theorem order_of_appendToOrder {op : FileOp} {io : MigrateIo} (h : op ∈ appendToOrder io d t) :
    op.isOrder = true := by
  unfold appendToOrder at h
  simp only at h
  split at h
  · cases h
  · split at h
    · cases List.mem_singleton.mp h
      rfl
    · cases h

theorem core_orders {ops : List FileOp} (h : ∀ op ∈ ops, op.isOrder = true) : core ops = [] := by
  refine List.filter_eq_nil_iff.mpr fun op hop => ?_
  rw [h op hop]
  exact Bool.false_ne_true

/-- A migrated profile has no HTTP login. -/
theorem bindProfile_legacy (t : String) (profile : Json) :
    legacyHttpConfigPresent (bindProfile t profile) = false := by
  have hget : ∀ key ∈ legacyHttpKeys, (bindProfile t profile).get key = none := by
    intro key hkey
    unfold bindProfile
    rw [Json.get_foldl_remove, if_pos hkey]
  have htext : ∀ key ∈ legacyHttpKeys, isBlank ((bindProfile t profile).text key) = true := by
    intro key hkey
    unfold Json.text
    rw [hget key hkey]
    rfl
  unfold legacyHttpConfigPresent
  rw [hget _ (by decide)]
  simp only [List.any_cons, List.any_nil]
  rw [htext _ (by decide), htext _ (by decide), htext _ (by decide), htext _ (by decide),
    htext _ (by decide), htext _ (by decide)]
  rfl

/-- A task that was there is compared with the same outcome in later files. -/
theorem Extends.reusable (h : Extends d e) (hid : d.taskIdTaken id = true) :
    e.reusableExistingTask id profile = d.reusableExistingTask id profile := by
  unfold TaskDirs.reusableExistingTask
  rw [h.http id hid]

/-- A profile that is passed over is passed over in later files as well. -/
theorem legacyProfile_none (h : Extends d e) (hprofile : e.profile id = d.profile id)
    (hnone : legacyProfile d id = none) : legacyProfile e id = none := by
  cases hlater : legacyProfile e id with
  | none => rfl
  | some picked =>
    obtain ⟨t, profile⟩ := picked
    obtain ⟨hvalid, hfound, hlegacy, hpick⟩ := legacyProfile_some hlater
    rw [hprofile] at hfound
    cases hbefore : d.pickHttpTaskId id profile with
    | ok t' => rw [legacyProfile_of_pick hvalid hfound hlegacy hbefore] at hnone; cases hnone
    | error reason =>
      obtain ⟨hreuse, htaken, hall⟩ := pickHttpTaskId_error hbefore
      rcases pickHttpTaskId_ok hpick with ⟨-, hreuse'⟩ | ⟨-, hfree, rfl | ⟨-, hsuffix⟩⟩
      · rw [h.reusable htaken, hreuse] at hreuse'
        cases hreuse'
      · rw [h.taken htaken] at hfree
        cases hfree
      · rw [h.taken (hall t hsuffix)] at hfree
        cases hfree

/-- The operations for a profile are on tasks whose id is not taken and on this profile. -/
theorem mem_profileOps {op : FileOp} (h : op ∈ profileOps {} d id) :
    (∃ t v, op = .task t v ∧ d.taskIdTaken t = false ∧ (t = id ∨ t ∈ suffixedIds id)) ∨
      op.isOrder = true ∨ ∃ v, op = .profile id v := by
  rcases profileOps_cases d id with ⟨-, hops⟩ | ⟨t, profile, -, ⟨-, -, hops⟩ | ⟨-, hfree, hid, hops⟩⟩
  · rw [hops] at h
    cases h
  · rw [hops] at h
    exact .inr (.inr ⟨_, List.mem_singleton.mp h⟩)
  · rw [hops] at h
    rcases List.mem_cons.mp h with rfl | h
    · exact .inl ⟨_, _, rfl, hfree, hid.imp_right And.right⟩
    · rcases List.mem_append.mp h with horder | hlast
      · exact .inr (.inl (order_of_appendToOrder horder))
      · exact .inr (.inr ⟨_, List.mem_singleton.mp hlast⟩)

theorem extends_profileOps (hops : ∀ op ∈ ops, op ∈ profileOps {} d id) :
    Extends d (migration.after d ops) := by
  refine extends_after fun t v hmem => ?_
  rcases mem_profileOps (hops _ hmem) with ⟨t', v', heq, hfree, -⟩ | horder | ⟨v', heq⟩
  · cases heq
    exact hfree
  · cases horder
  · cases heq

theorem lastProfile_other {j : String} (hne : id ≠ j) (hops : ∀ op ∈ ops, op ∈ profileOps {} d j) :
    lastProfile id ops = none := by
  refine List.findSome?_eq_none_iff.mpr fun op hop => ?_
  rcases mem_profileOps (hops op (List.mem_reverse.mp hop)) with ⟨t, v, rfl, -⟩ | horder | ⟨v, rfl⟩
  · rfl
  · cases op with
    | order => rfl
    | task | profile => cases horder
  · exact if_neg (Ne.symm hne)

theorem settled_iff : migration.Settled d id ↔ legacyProfile d id = none := by
  show profileOps {} d id = [] ↔ _
  rcases profileOps_cases d id with ⟨hnone, hops⟩ | ⟨t, profile, hsome, ⟨-, -, hops⟩ | ⟨-, -, -, hops⟩⟩
  · rw [hnone, hops]
    exact iff_of_true rfl rfl
  · rw [hsome, hops]
    exact iff_of_false (List.cons_ne_nil _ _) (Option.some_ne_none _)
  · rw [hsome, hops]
    exact iff_of_false (List.cons_ne_nil _ _) (Option.some_ne_none _)

/-- The profile that a profile's operations leave. -/
theorem profile_profileOps (h : legacyProfile d id = some (t, profile)) :
    (migration.after d (profileOps {} d id)).profile id = some (bindProfile t profile) := by
  have hlast : lastProfile id (profileOps {} d id) = some (bindProfile t profile) := by
    rcases profileOps_cases d id with ⟨hnone, -⟩ | ⟨t', profile', hsome, hops⟩
    · rw [h] at hnone
      cases hnone
    · rw [h] at hsome
      cases hsome
      rcases hops with ⟨-, -, hops⟩ | ⟨-, -, -, hops⟩
      · rw [hops, lastProfile_single]
      · rw [hops, ← List.cons_append, lastProfile_append, lastProfile_single, Option.some_or]
  rw [profile_after, hlast]
  rfl

/-- Migrated profiles and those that are passed over stay so. -/
theorem migration_settles : migration.Settles := by
  refine ⟨fun d id => ?_, fun d id j n hne hsettled => ?_⟩
  · rw [settled_iff]
    cases hlegacy : legacyProfile d id with
    | none =>
      have hops : profileOps {} d id = [] := settled_iff.mpr hlegacy
      show legacyProfile (migration.after d (profileOps {} d id)) id = none
      rw [hops]
      exact hlegacy
    | some picked =>
      cases hlater : legacyProfile (migration.after d (migration.ops d id)) id with
      | none => rfl
      | some picked' =>
        obtain ⟨-, hfound, hpresent, -⟩ := legacyProfile_some hlater
        have := profile_profileOps hlegacy
        rw [show migration.ops d id = profileOps {} d id from rfl, this] at hfound
        rw [← Option.some.inj hfound, bindProfile_legacy] at hpresent
        cases hpresent
  · rw [settled_iff] at hsettled ⊢
    have hpart : ∀ op ∈ (migration.ops d j).take n, op ∈ profileOps {} d j :=
      fun op hop => List.mem_of_mem_take hop
    refine legacyProfile_none (extends_profileOps hpart) ?_ hsettled
    rw [profile_after, lastProfile_other hne hpart]
    rfl

end

/-! ## The same work in files that agree -/

/-- Files that differ at most in the order of the tasks and in profiles other than `ids`. -/
structure Agree (ids : List String) (d e : TaskDirs) : Prop where
  browser : e.browser = d.browser
  scripts : e.scripts = d.scripts
  http : e.http = d.http
  profile : ∀ id ∈ ids, e.profile id = d.profile id

section
variable {d e : TaskDirs} {ids : List String} {id : String}

theorem Agree.pathHasTask (h : Agree ids d e) (t : String) : e.pathHasTask t = d.pathHasTask t := by
  unfold TaskDirs.pathHasTask
  rw [h.http]

theorem Agree.legacyProfile (h : Agree ids d e) (hid : id ∈ ids) :
    legacyProfile e id = legacyProfile d id := by
  have hprofile : e.profile id = d.profile id := h.profile id hid
  have htaken : ∀ t, e.taskIdTaken t = d.taskIdTaken t := fun t => by
    simp only [TaskDirs.taskIdTaken, h.pathHasTask, h.browser, h.scripts]
  have hpick : ∀ profile, e.pickHttpTaskId id profile = d.pickHttpTaskId id profile := fun profile => by
    simp only [TaskDirs.pickHttpTaskId, TaskDirs.reusableExistingTask, htaken, h.http]
  unfold Config.legacyProfile
  rw [hprofile]
  simp only [hpick]

theorem core_profileOps (d : TaskDirs) (id : String) :
    core (profileOps {} d id) =
      match legacyProfile d id with
      | none => []
      | some (t, profile) =>
        (if d.pathHasTask t then [] else [.task t (buildLegacyHttpTask t profile)]) ++
          [.profile id (bindProfile t profile)] := by
  rcases profileOps_cases d id with
    ⟨hnone, hops⟩ | ⟨t, profile, hsome, ⟨hreuse, rfl, hops⟩ | ⟨-, hfree, -, hops⟩⟩
  · rw [hnone, hops]
    rfl
  · simp only [hsome, hops, (reusableExistingTask_some hreuse).2]
    rfl
  · have horders : core (appendToOrder {} d t) = [] := core_orders fun _ => order_of_appendToOrder
    rw [hops, ← List.singleton_append, core_append, core_append, horders]
    simp only [hsome, not_pathHasTask_of_free hfree]
    rfl

theorem core_profileOps_new {t : String} {profile : Json}
    (hlegacy : legacyProfile d id = some (t, profile)) (hfree : d.taskIdTaken t = false) :
    core (profileOps {} d id) =
      [.task t (buildLegacyHttpTask t profile), .profile id (bindProfile t profile)] := by
  rw [core_profileOps]
  simp only [hlegacy, not_pathHasTask_of_free hfree]
  rfl

theorem Agree.core_profileOps (h : Agree ids d e) (hid : id ∈ ids) :
    core (profileOps {} e id) = core (profileOps {} d id) := by
  rw [Config.core_profileOps, Config.core_profileOps, h.legacyProfile hid]
  simp only [h.pathHasTask]

/-- The same operations but those on the order leave files that agree. -/
theorem Agree.after (h : Agree ids d e) {ops ops' : List FileOp} (hcore : core ops' = core ops) :
    Agree ids (migration.after d ops) (migration.after e ops') := by
  refine ⟨?_, ?_, ?_, fun id hid => ?_⟩
  · rw [others_after.1, others_after.1, h.browser]
  · rw [others_after.2, others_after.2, h.scripts]
  · funext id
    rw [http_after, http_after, ← lastTask_core, hcore, lastTask_core, h.http]
  · rw [profile_after, profile_after, ← lastProfile_core, hcore, lastProfile_core, h.profile id hid]

theorem Agree.core_work (h : Agree ids d e) : core (migration.work e ids) = core (migration.work d ids) := by
  induction ids generalizing d e with
  | nil => rfl
  | cons id ids ih =>
    have hops : core (migration.ops e id) = core (migration.ops d id) :=
      h.core_profileOps List.mem_cons_self
    have hrest : Agree ids (migration.after d (migration.ops d id))
        (migration.after e (migration.ops e id)) :=
      Agree.after ⟨h.browser, h.scripts, h.http, fun i hi => h.profile i (List.mem_cons_of_mem _ hi)⟩
        hops
    rw [Job.work, Job.work, core_append, core_append, hops, ih hrest]

end

/-! ## The stopped migration -/

def FileOp.writtenTask : FileOp → Option String
  | .task t _ => some t
  | _ => none

/-- The tasks in the order in which they are written. -/
def tasksWritten (ops : List FileOp) : List String := ops.filterMap FileOp.writtenTask

/-- What a profile is bound to. -/
def TaskDirs.binding (d : TaskDirs) (id : String) : Option Json :=
  (d.profile id).bind (Json.get "active_http_task")

/-- The same tasks, the same bindings, and the same tasks written on the way. -/
structure SameMigration (d : TaskDirs) (ops ops' : List FileOp) : Prop where
  tasks : ∀ id, (migration.after d ops).http id = (migration.after d ops').http id
  bindings : ∀ id, (migration.after d ops).binding id = (migration.after d ops').binding id
  written : tasksWritten ops = tasksWritten ops'

section
variable {d e : TaskDirs} {ops ops' : List FileOp} {ids : List String} {id t : String} {profile : Json}

theorem tasksWritten_append :
    tasksWritten (ops ++ ops') = tasksWritten ops ++ tasksWritten ops' := List.filterMap_append

theorem tasksWritten_core (ops : List FileOp) : tasksWritten (core ops) = tasksWritten ops := by
  unfold tasksWritten core
  rw [List.filterMap_filter]
  refine List.filterMap_congr fun op _ => ?_
  cases op <;> rfl

theorem SameMigration.of_core (h : core ops = core ops') : SameMigration d ops ops' := by
  have hagree : Agree [] (migration.after d ops') (migration.after d ops) :=
    Agree.after ⟨rfl, rfl, rfl, fun _ _ => rfl⟩ h
  refine ⟨fun id => by rw [hagree.http], fun id => ?_, ?_⟩
  · unfold TaskDirs.binding
    rw [profile_after, profile_after, ← lastProfile_core, h, lastProfile_core]
  · rw [← tasksWritten_core, h, tasksWritten_core]

theorem nodup_names (d : TaskDirs) : d.names.Nodup := by
  refine d.sorted.imp fun {a b} hlt heq => ?_
  subst heq
  have := append_lt_append_iff (a ++ ".json").toList [] []
  rw [List.append_nil] at this
  exact List.not_lt_nil _ (this.mp hlt)

/-- What is written has its file. -/
theorem pathHasTask_of_written (h : t ∈ tasksWritten ops) :
    (migration.after d ops).pathHasTask t = true := by
  obtain ⟨op, hop, hwrites⟩ := List.mem_filterMap.mp h
  have hsome : (lastTask t ops).isSome := by
    refine List.findSome?_isSome_iff.mpr ⟨op, List.mem_reverse.mpr hop, ?_⟩
    cases op with
    | task t' v =>
      cases hwrites
      simp [FileOp.taskAt]
    | order | profile => cases hwrites
  obtain ⟨v, hv⟩ := Option.isSome_iff_exists.mp hsome
  unfold TaskDirs.pathHasTask
  rw [http_after, hv]
  rfl

/-- The tasks written for some profiles have their ids, or suffixed forms of them. -/
theorem written_work (h : t ∈ tasksWritten (migration.work d ids)) :
    ∃ id ∈ ids, t = id ∨ t ∈ suffixedIds id := by
  induction ids generalizing d with
  | nil => cases h
  | cons id ids ih =>
    rw [Job.work, tasksWritten_append] at h
    rcases List.mem_append.mp h with hown | hrest
    · obtain ⟨op, hop, hwrites⟩ := List.mem_filterMap.mp hown
      rcases mem_profileOps hop with ⟨t', v, rfl, -, hid⟩ | horder | ⟨v, rfl⟩
      · cases hwrites
        exact ⟨id, List.mem_cons_self, hid⟩
      · cases op with
        | order => cases hwrites
        | task | profile => cases horder
      · cases hwrites
    · obtain ⟨id', hid', ht⟩ := ih hrest
      exact ⟨id', List.mem_cons_of_mem _ hid', ht⟩

theorem lastProfile_work (h : id ∉ ids) : lastProfile id (migration.work d ids) = none := by
  induction ids generalizing d with
  | nil => rfl
  | cons j ids ih =>
    obtain ⟨hne, hnot⟩ := not_or.mp (List.mem_cons.not.mp h)
    have hops : lastProfile id (migration.ops d j) = none := lastProfile_other hne fun _ hop => hop
    rw [Job.work, lastProfile_append, ih hnot, hops]
    rfl

/-- Only an object has an HTTP login. -/
theorem isObject_of_legacy (h : legacyHttpConfigPresent profile = true) : profile.isObject = true := by
  cases profile with
  | obj => rfl
  | null | bool | number | str | arr => cases h

theorem bindProfile_binding (hlegacy : legacyHttpConfigPresent profile = true) :
    (bindProfile t profile).get "active_http_task" =
      if alreadyBound profile then profile.get "active_http_task" else some (.str t) := by
  unfold bindProfile
  rw [Json.get_foldl_remove, if_neg (by decide)]
  split
  · rfl
  · rw [Json.get_insert, if_pos ⟨isObject_of_legacy hlegacy, rfl⟩]

theorem suffixed_not_blank (h : t ∈ suffixedIds id) : isBlank t = false := by
  obtain ⟨digits, -, heq⟩ := suffixed_toList h
  unfold isBlank
  rw [heq, List.all_append, List.all_cons]
  simp [show isWhitespace '-' = false by decide]

end

/-- A stop within the operations for `id`, whose predecessors have left `here`: the task is
    written and at most the order, the profile is not. -/
structure StoppedAt (d : TaskDirs) (k : Nat) (before : List String) (id : String)
    (rest : List String) (here : TaskDirs) (t : String) (profile : Json) (done : List FileOp) :
    Prop where
  names : d.names = before ++ id :: rest
  here_eq : here = migration.after d (migration.work d before)
  legacy : legacyProfile here id = some (t, profile)
  noReuse : here.reusableExistingTask id profile = none
  free : here.taskIdTaken t = false
  picked : t = id ∨ here.taskIdTaken id = true ∧ t ∈ suffixedIds id
  ops : core (profileOps {} here id) =
    [.task t (buildLegacyHttpTask t profile), .profile id (bindProfile t profile)]
  part : ∃ n, done = (profileOps {} here id).take n
  core_done : core done = [.task t (buildLegacyHttpTask t profile)]
  taken : (migration.work d d.names).take k = migration.work d before ++ done

section
variable {d here : TaskDirs} {k : Nat} {before rest : List String} {id t : String}
  {profile : Json} {done : List FileOp}

theorem stoppedAt (hnames : d.names = before ++ id :: rest)
    (hlow : (migration.work d before).length < k)
    (hhigh : k < (migration.work d before).length +
      (profileOps {} (migration.after d (migration.work d before)) id).length) :
    ∃ t profile done, StoppedAt d k before id rest (migration.after d (migration.work d before))
      t profile done := by
  have htake := migration.take_within rest hlow hhigh
  rw [← hnames] at htake
  rcases profileOps_cases (migration.after d (migration.work d before)) id with
    ⟨-, hops⟩ | ⟨t, profile, hlegacy, ⟨-, -, hops⟩ | ⟨hreuse, hfree, hid, hops⟩⟩
  · rw [hops, List.length_nil] at hhigh
    omega
  · rw [hops, List.length_singleton] at hhigh
    omega
  · refine ⟨t, profile, _, hnames, rfl, hlegacy, hreuse, hfree, hid, core_profileOps_new hlegacy hfree,
      ⟨k - (migration.work d before).length, rfl⟩, ?_, htake⟩
    -- the stop is behind the task and before the profile
    obtain ⟨j, hj⟩ : ∃ j, k - (migration.work d before).length = j + 1 :=
      ⟨k - (migration.work d before).length - 1, by omega⟩
    rw [hops, List.length_cons, List.length_append, List.length_singleton] at hhigh
    rw [hops, hj, List.take_succ_cons, List.take_append_of_le_length (by omega),
      ← List.singleton_append, core_append,
      core_orders fun op hop => order_of_appendToOrder (List.mem_of_mem_take hop)]
    rfl

namespace StoppedAt

theorem nodup (h : StoppedAt d k before id rest here t profile done) :
    (before ++ id :: rest).Nodup := h.names ▸ nodup_names d

theorem not_mem_before (h : StoppedAt d k before id rest here t profile done) : id ∉ before :=
  fun hmem => (List.nodup_append.mp h.nodup).2.2 id hmem id List.mem_cons_self rfl

theorem not_mem_rest (h : StoppedAt d k before id rest here t profile done) : id ∉ rest :=
  (List.nodup_cons.mp (List.nodup_append.mp h.nodup).2.1).1

/-- Without a stop. -/
theorem full_eq (h : StoppedAt d k before id rest here t profile done) :
    migrateV9ToV10 {} d = migration.work d before ++ (profileOps {} here id ++
      migration.work (migration.after here (profileOps {} here id)) rest) := by
  show migration.work d d.names = _
  rw [h.names, migration.work_append, ← h.here_eq]
  rfl

/-- The rerun goes on with the profile it was stopped at. -/
theorem rerun_eq (h : StoppedAt d k before id rest here t profile done) :
    migration.rerun d k d.names = migration.work d before ++ (done ++
      migration.work (migration.after here done) (id :: rest)) := by
  have hsettled : ∀ i ∈ before, migration.Settled (migration.after here done) i := by
    intro i hi
    obtain ⟨n, rfl⟩ := h.part
    have hne : i ≠ id := fun heq => h.not_mem_before (heq ▸ hi)
    refine migration_settles.other here i id n hne ?_
    rw [h.here_eq]
    exact migration_settles.done (List.nodup_append.mp h.nodup).1 i hi
  unfold Job.rerun
  rw [h.taken, migration.after_append, ← h.here_eq, h.names, migration.work_settled hsettled,
    List.append_assoc]

theorem extends_done (h : StoppedAt d k before id rest here t profile done) :
    Extends here (migration.after here done) := by
  obtain ⟨n, rfl⟩ := h.part
  exact extends_profileOps fun op hop => List.mem_of_mem_take hop

theorem profile_done (h : StoppedAt d k before id rest here t profile done) (i : String) :
    (migration.after here done).profile i = here.profile i := by
  rw [profile_after, ← lastProfile_core, h.core_done]
  rfl

theorem http_done (h : StoppedAt d k before id rest here t profile done) :
    (migration.after here done).http t = .task (buildLegacyHttpTask t profile) := by
  rw [http_after, ← lastTask_core, h.core_done]
  simp [lastTask, FileOp.taskAt]

theorem taken_done (h : StoppedAt d k before id rest here t profile done) :
    (migration.after here done).taskIdTaken t = true := by
  have hthere : (migration.after here done).pathHasTask t = true := by
    unfold TaskDirs.pathHasTask
    rw [h.http_done]
  unfold TaskDirs.taskIdTaken
  rw [hthere, Bool.or_true]

/-- Apart from the order, the profile's write is all that is left of its operations. -/
theorem agree_bound (h : StoppedAt d k before id rest here t profile done) (ids : List String) :
    Agree ids (migration.after here (profileOps {} here id))
      (migration.after (migration.after here done) [.profile id (bindProfile t profile)]) := by
  rw [← migration.after_append]
  refine Agree.after ⟨rfl, rfl, rfl, fun _ _ => rfl⟩ ?_
  rw [core_append, h.core_done, h.ops]
  rfl

/-- For the other profiles, the profile's write changes nothing. -/
theorem agree_unbound (h : StoppedAt d k before id rest here t profile done) :
    Agree rest (migration.after here (profileOps {} here id)) (migration.after here done) := by
  have hbound := h.agree_bound rest
  refine ⟨hbound.browser, hbound.scripts, hbound.http, fun i hi => ?_⟩
  have hne : id ≠ i := fun heq => h.not_mem_rest (heq ▸ hi)
  rw [← hbound.profile i hi, @profile_after _ [_] _]
  simp [lastProfile, FileOp.profileAt, hne]

/-- A task is recognised by its texts. -/
theorem reusable_built {e : TaskDirs} (h : e.http id = .task (buildLegacyHttpTask t profile)) :
    e.reusableExistingTask id profile = some id := by
  unfold TaskDirs.reusableExistingTask
  rw [h]
  exact if_pos (List.all_eq_true.mpr fun keys hkeys =>
    decide_eq_true (buildLegacyHttpTask_text id profile keys hkeys))

/-- A task under the profile's own id is found again, so the rerun takes up where the stop was. -/
theorem same_of_own (h : StoppedAt d k before id rest here id profile done) :
    SameMigration d (migration.rerun d k d.names) (migrateV9ToV10 {} d) := by
  have hreuse := reusable_built h.http_done
  have hops : profileOps {} (migration.after here done) id = [.profile id (bindProfile id profile)] := by
    obtain ⟨hvalid, hprofile, hlegacy, -⟩ := legacyProfile_some h.legacy
    have hpick : (migration.after here done).pickHttpTaskId id profile = .ok id := by
      unfold TaskDirs.pickHttpTaskId
      rw [hreuse]
    have hagain := legacyProfile_of_pick hvalid ((h.profile_done id).trans hprofile) hlegacy hpick
    rcases profileOps_cases (migration.after here done) id with
      ⟨hnone, -⟩ | ⟨t', profile', hsome, ⟨-, -, hops⟩ | ⟨hreuse', -⟩⟩
    · rw [hagain] at hnone
      cases hnone
    · rw [hagain] at hsome
      cases hsome
      exact hops
    · rw [hagain] at hsome
      cases hsome
      rw [hreuse] at hreuse'
      cases hreuse'
  refine .of_core ?_
  rw [h.rerun_eq, h.full_eq, Job.work, show migration.ops _ id = profileOps {} _ id from rfl, hops]
  simp only [core_append]
  rw [h.core_done, h.ops, (h.agree_bound rest).core_work]
  rfl

/-- Under a suffixed id the task is not found again. -/
theorem noReuse_done (h : StoppedAt d k before id rest here t profile done)
    (htaken : here.taskIdTaken id = true) :
    (migration.after here done).reusableExistingTask id profile = none :=
  (h.extends_done.reusable htaken).trans h.noReuse

/-- A second task is written when another suffixed id is free. -/
theorem not_same_of_free (h : StoppedAt d k before id rest here t profile done)
    (htaken : here.taskIdTaken id = true) {a : String} (ha : a ∈ suffixedIds id)
    (hfree : here.taskIdTaken a = false) (hne : a ≠ t) :
    ¬SameMigration d (migration.rerun d k d.names) (migrateV9ToV10 {} d) := by
  obtain ⟨hvalid, hprofile, hlegacy, -⟩ := legacyProfile_some h.legacy
  -- the rerun picks an id that is free now
  obtain ⟨t', hpick⟩ : ∃ t', (migration.after here done).pickHttpTaskId id profile = .ok t' := by
    cases hpick : (migration.after here done).pickHttpTaskId id profile with
    | ok t' => exact ⟨t', rfl⟩
    | error reason =>
      have hother : (migration.after here done).taskIdTaken a = here.taskIdTaken a := by
        have hhttp : (migration.after here done).http a = here.http a := by
          rw [http_after, ← lastTask_core, h.core_done]
          simp [lastTask, FileOp.taskAt, Ne.symm hne]
        unfold TaskDirs.taskIdTaken TaskDirs.pathHasTask
        rw [others_after.1, others_after.2, hhttp]
      have := (pickHttpTaskId_error hpick).2.2 a ha
      rw [hother, hfree] at this
      cases this
  have hagain := legacyProfile_of_pick hvalid ((h.profile_done id).trans hprofile) hlegacy hpick
  rcases profileOps_cases (migration.after here done) id with
    ⟨hnone, -⟩ | ⟨t'', profile', hsome, ⟨hreuse, -⟩ | ⟨-, hfree', hpicked, hops⟩⟩
  · rw [hagain] at hnone
    cases hnone
  · rw [hagain] at hsome
    cases hsome
    rw [h.noReuse_done htaken] at hreuse
    cases hreuse
  rw [hagain] at hsome
  cases hsome
  have hsuffix : t' ∈ suffixedIds id := by
    rcases hpicked with rfl | ⟨-, hsuffix⟩
    · rw [h.extends_done.taken htaken] at hfree'
      cases hfree'
    · exact hsuffix
  intro hsame
  have hmem : t' ∈ tasksWritten (migrateV9ToV10 {} d) := by
    rw [← hsame.written, h.rerun_eq, Job.work, show migration.ops _ id = profileOps {} _ id from rfl,
      hops]
    simp only [tasksWritten_append]
    exact List.mem_append_right _ (List.mem_append_right _ (List.mem_append_left _ List.mem_cons_self))
  rw [h.full_eq, tasksWritten_append, tasksWritten_append] at hmem
  rcases List.mem_append.mp hmem with hbefore | hmem
  · -- it would have been taken before
    have hthere : here.pathHasTask t' = true := h.here_eq ▸ pathHasTask_of_written hbefore
    have hwas : here.taskIdTaken t' = true := by
      unfold TaskDirs.taskIdTaken
      rw [hthere, Bool.or_true]
    rw [h.extends_done.taken hwas] at hfree'
    cases hfree'
  rcases List.mem_append.mp hmem with hown | hrest
  · rw [← tasksWritten_core, h.ops] at hown
    cases List.mem_singleton.mp hown
    rw [h.taken_done] at hfree'
    cases hfree'
  · -- a later profile has neither this id nor one of which it is a suffixed form
    obtain ⟨id', hid', heq | hsuffix'⟩ := written_work hrest
    · subst heq
      have hlater : PathLt id t' := by
        have := d.sorted
        rw [h.names] at this
        exact (List.pairwise_cons.mp (List.pairwise_append.mp this).2.1).1 t' hid'
      exact not_pathLt_suffixed hsuffix hlater
    · exact h.not_mem_rest (suffixed_unique hsuffix hsuffix' ▸ hid')

/-- The profile is passed over when no other suffixed id is free. -/
theorem same_iff_bound (h : StoppedAt d k before id rest here t profile done)
    (htaken : here.taskIdTaken id = true) (hsuffix : t ∈ suffixedIds id)
    (honly : ∀ a ∈ suffixedIds id, here.taskIdTaken a = false → a = t) :
    SameMigration d (migration.rerun d k d.names) (migrateV9ToV10 {} d) ↔
      alreadyBound profile = true := by
  obtain ⟨hvalid, hprofile, hlegacy, -⟩ := legacyProfile_some h.legacy
  have hall : ∀ a, a = id ∨ a ∈ suffixedIds id →
      (migration.after here done).taskIdTaken a = true := by
    rintro a (rfl | ha)
    · exact h.extends_done.taken htaken
    · by_cases hat : a = t
      · exact hat ▸ h.taken_done
      · cases hwas : here.taskIdTaken a with
        | true => exact h.extends_done.taken hwas
        | false => exact absurd (honly a ha hwas) hat
  have hsettled : legacyProfile (migration.after here done) id = none := by
    cases hagain : legacyProfile (migration.after here done) id with
    | none => rfl
    | some picked =>
      obtain ⟨t', profile'⟩ := picked
      obtain ⟨-, hprofile', -, hpick⟩ := legacyProfile_some hagain
      rw [h.profile_done, hprofile] at hprofile'
      cases hprofile'
      rcases pickHttpTaskId_ok hpick with ⟨-, hreuse⟩ | ⟨-, hfree, hpicked⟩
      · rw [h.noReuse_done htaken] at hreuse
        cases hreuse
      · rw [hall t' (hpicked.imp_right And.right)] at hfree
        cases hfree
  have hrerun : core (migration.rerun d k d.names) = core (migration.work d before) ++
      (.task t (buildLegacyHttpTask t profile) :: core (migration.work
        (migration.after here (profileOps {} here id)) rest)) := by
    have hnone : profileOps {} (migration.after here done) id = [] := settled_iff.mpr hsettled
    rw [h.rerun_eq, Job.work, show migration.ops _ id = profileOps {} _ id from rfl, hnone]
    rw [List.nil_append, migration.after_nil, core_append, core_append, h.core_done,
      h.agree_unbound.core_work]
    rfl
  have hfull : core (migrateV9ToV10 {} d) = core (migration.work d before) ++
      (.task t (buildLegacyHttpTask t profile) :: .profile id (bindProfile t profile) ::
        core (migration.work (migration.after here (profileOps {} here id)) rest)) := by
    rw [h.full_eq, core_append, core_append, h.ops]
    rfl
  -- the rerun writes no profile for `id`; without a stop it is the last but those of `rest`
  have hlast : ∀ i, lastProfile i (migration.rerun d k d.names) =
      (lastProfile i (migration.work (migration.after here (profileOps {} here id)) rest)).or
        (lastProfile i (migration.work d before)) := by
    intro i
    rw [← lastProfile_core, hrerun, ← List.singleton_append, lastProfile_append, lastProfile_append,
      lastProfile_core, lastProfile_core, show lastProfile i [FileOp.task t _] = none from rfl,
      Option.or_none]
  have hlast' : ∀ i, lastProfile i (migrateV9ToV10 {} d) =
      (lastProfile i (migration.work (migration.after here (profileOps {} here id)) rest)).or
        ((lastProfile i [.profile id (bindProfile t profile)]).or
          (lastProfile i (migration.work d before))) := by
    intro i
    rw [← lastProfile_core, hfull, ← List.singleton_append, lastProfile_append, lastProfile_append,
      ← List.singleton_append, lastProfile_append, lastProfile_core, lastProfile_core,
      show lastProfile i [FileOp.task t _] = none from rfl, Option.or_none, Option.or_assoc]
  have hbefore : lastProfile id (migration.work d before) = none := lastProfile_work h.not_mem_before
  have hfirst : d.profile id = some profile := by
    rw [← hprofile, h.here_eq, profile_after, hbefore, Option.none_or]
  have hstay : (migration.after d (migration.rerun d k d.names)).binding id =
      profile.get "active_http_task" := by
    unfold TaskDirs.binding
    rw [profile_after, hlast, lastProfile_work h.not_mem_rest, hbefore, hfirst]
    rfl
  have hbound : (migration.after d (migrateV9ToV10 {} d)).binding id =
      if alreadyBound profile then profile.get "active_http_task" else some (.str t) := by
    unfold TaskDirs.binding
    rw [profile_after, hlast', lastProfile_work h.not_mem_rest, lastProfile_single, Option.none_or,
      Option.some_or, Option.some_or, Option.bind_some, bindProfile_binding hlegacy]
  constructor
  · intro hsame
    have heq := hsame.bindings id
    rw [hstay, hbound] at heq
    cases hwas : alreadyBound profile with
    | true => rfl
    | false =>
      -- a profile bound to the task is bound
      rw [hwas, if_neg Bool.false_ne_true] at heq
      unfold alreadyBound at hwas
      rw [heq] at hwas
      have hblank := suffixed_not_blank hsuffix
      simp [Json.asStr, hblank] at hwas
  · intro hwas
    rw [if_pos hwas] at hbound
    refine ⟨fun x => ?_, fun i => ?_, ?_⟩
    · rw [http_after, http_after, ← lastTask_core, hrerun, ← @lastTask_core (migrateV9ToV10 {} d),
        hfull, lastTask_append, lastTask_append]
      have hprofile : lastTask x [.profile id (bindProfile t profile)] = none := rfl
      rw [← List.singleton_append, lastTask_append, ← List.singleton_append (l := _ :: _),
        lastTask_append, ← List.singleton_append (l := core _), lastTask_append, hprofile,
        Option.or_none]
    · by_cases hi : i = id
      · rw [hi, hstay, hbound]
      · have hnone : lastProfile i [.profile id (bindProfile t profile)] = none := by
          simp [lastProfile, FileOp.profileAt, Ne.symm hi]
        unfold TaskDirs.binding
        rw [profile_after, profile_after, hlast, hlast', hnone, Option.none_or]
    · rw [← tasksWritten_core, hrerun, ← tasksWritten_core (migrateV9ToV10 {} d), hfull,
        tasksWritten_append, tasksWritten_append]
      rfl

end StoppedAt

end

/-! ## Every stop -/

/-- A stop falls between the two writes for no profile whose own id is taken, by another kind of task
    or by one that is not its own, unless the profile is bound already and at most one of the
    suffixed ids is free. -/
def SafeStop (d : TaskDirs) (k : Nat) : Prop :=
  ∀ before id rest profile, d.names = before ++ id :: rest →
    let here := migration.after d (migration.work d before)
    (migration.work d before).length < k →
    k < (migration.work d before).length + (profileOps {} here id).length →
    here.profile id = some profile → here.taskIdTaken id = true →
    here.reusableExistingTask id profile = none →
    alreadyBound profile = true ∧ ∀ a ∈ suffixedIds id, ∀ b ∈ suffixedIds id,
      here.taskIdTaken a = false → here.taskIdTaken b = false → a = b

/-- **The migration can be done again** after a stop behind `k` operations, with the same
    tasks and bindings as without it and no task written twice, if and only if the stop is safe. -/
theorem rerunnable_iff (d : TaskDirs) (k : Nat) :
    SameMigration d (migration.rerun d k d.names) (migrateV9ToV10 {} d) ↔ SafeStop d k := by
  have hsuffixed : ∀ {before id rest here t profile done},
      StoppedAt d k before id rest here t profile done → here.taskIdTaken id = true →
      t ∈ suffixedIds id := by
    intro before id rest here t profile done h htaken
    rcases h.picked with rfl | ⟨-, hsuffix⟩
    · rw [h.free] at htaken
      cases htaken
    · exact hsuffix
  constructor
  · intro hsame before id rest profile hnames here hlow hhigh hprofile htaken hreuse
    obtain ⟨t, profile', done, h⟩ := stoppedAt hnames hlow hhigh
    obtain rfl : profile' = profile :=
      Option.some.inj ((legacyProfile_some h.legacy).2.1.symm.trans hprofile)
    have honly : ∀ a ∈ suffixedIds id, here.taskIdTaken a = false → a = t := by
      intro a ha hfree
      by_contra hne
      exact h.not_same_of_free htaken ha hfree hne hsame
    refine ⟨(h.same_iff_bound htaken (hsuffixed h htaken) honly).mp hsame, ?_⟩
    intro a ha b hb hfreeA hfreeB
    rw [honly a ha hfreeA, honly b hb hfreeB]
  · intro hsafe
    rcases migration.stop_cases d d.names k with
      ⟨before, id, rest, hnames, hlow, hhigh⟩ | ⟨before, rest, hnames, htake⟩
    · obtain ⟨t, profile, done, h⟩ := stoppedAt hnames hlow hhigh
      cases htaken : (migration.after d (migration.work d before)).taskIdTaken id with
      | false =>
        rcases h.picked with rfl | ⟨htaken', -⟩
        · exact h.same_of_own
        · rw [htaken] at htaken'
          cases htaken'
      | true =>
        obtain ⟨hbound, honly⟩ := hsafe before id rest profile hnames hlow hhigh
          (legacyProfile_some h.legacy).2.1 htaken h.noReuse
        have hsuffix := hsuffixed h htaken
        exact (h.same_iff_bound htaken hsuffix fun a ha hfree =>
          honly a ha t hsuffix hfree h.free).mpr hbound
    · have hnodup : (before ++ rest).Nodup := hnames ▸ nodup_names d
      rw [hnames] at htake ⊢
      refine .of_core ?_
      rw [migration_settles.rerun_between hnodup htake]
      unfold migrateV9ToV10
      rw [hnames]

/-- The default profile with an HTTP login beside the built-in browser task of the same id. -/
def defaultProfile : TaskDirs where
  names := ["default"]
  sorted := by decide
  profile := fun id => if id = "default" then some (.obj [("http_url", .str "http://10.0.0.1/login")]) else none
  browser := fun id => id = "default"
  scripts := fun _ => false
  http := fun _ => .missing
  order := none

/-- Stopped behind the task, the rerun writes a second one. -/
theorem second_task_written :
    ¬∀ (d : TaskDirs) (k : Nat), SameMigration d (migration.rerun d k d.names) (migrateV9ToV10 {} d) := by
  intro hall
  have hwritten : tasksWritten (migration.rerun defaultProfile 1 ["default"]) = ["default-2", "default-3"] := by
    decide
  have hfull : tasksWritten (migrateV9ToV10 {} defaultProfile) = ["default-2"] := by decide
  have hsame := (hall defaultProfile 1).written
  rw [show defaultProfile.names = ["default"] from rfl, hwritten, hfull] at hsame
  cases hsame

end CampusAuth.Config
