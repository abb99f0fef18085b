import CampusAuth.Config.MigrationRerun

/- What the migration to v10 leaves of the HTTP logins (`config/migration.rs`,
   `migrate_v9_to_v10`): every task file that was there is as it was, and a profile ends bound to
   a task with its login, unless all the ids its task could have are taken
   (`migration_lossless`). -/
namespace CampusAuth.Config
open Lib
open TaskDirs (suffixedIds comparedKeys)

/-- The task has the address, the headers, the body, the rules and the script of the profile. -/
def SameTexts (task profile : Json) : Prop :=
  ∀ keys ∈ comparedKeys, task.text keys.1 = profile.text keys.2

/-- The method of a profile of v9: `POST` in any case, else `GET`. -/
def legacyMethod (profile : Json) : String :=
  if upperAscii (profile.text "http_method") = "POST" then "POST" else "GET"

/-- The certificate option of a profile of v9; null when the profile follows the global one. -/
def legacyCertificate (profile : Json) : Json :=
  ((profile.get "http_ignore_https_errors").filter Json.isBoolean).getD .null

/-- The task has the method and the certificate option of the profile. -/
structure SameOptions (task profile : Json) : Prop where
  method : task.text "method" = legacyMethod profile
  certificate : task.get "ignore_https_errors" = some (legacyCertificate profile)

theorem buildLegacyHttpTask_options (taskId : String) (profile : Json) :
    SameOptions (buildLegacyHttpTask taskId profile) profile := by
  refine ⟨?_, rfl⟩
  have hmethod : (buildLegacyHttpTask taskId profile).text "method" =
      ((((profile.get "http_method").bind Json.asStr).map upperAscii).filter (· = "POST")).getD "GET" :=
    rfl
  rw [hmethod]
  unfold legacyMethod Json.text
  cases (profile.get "http_method").bind Json.asStr with
  | none => rfl
  | some s =>
    rw [Option.map_some, Option.getD_some]
    by_cases hpost : upperAscii s = "POST"
    · simp [hpost, Option.filter]
    · simp [hpost, Option.filter]

section
variable {d : TaskDirs} {ids : List String} {id t : String} {profile : Json}

/-- A task that is reused has the texts of the profile. -/
theorem reusableExistingTask_texts (h : d.reusableExistingTask id profile = some t) :
    ∃ task, d.http id = .task task ∧ SameTexts task profile := by
  unfold TaskDirs.reusableExistingTask at h
  split at h
  next existing hexisting =>
    split at h
    next hsame =>
      exact ⟨existing, hexisting, fun keys hkeys =>
        of_decide_eq_true (List.all_eq_true.mp hsame keys hkeys)⟩
    · cases h
  · cases h

theorem taken_of_pathHasTask (h : d.pathHasTask t = true) : d.taskIdTaken t = true := by
  unfold TaskDirs.taskIdTaken
  rw [h, Bool.or_true]

theorem extends_refl (d : TaskDirs) : Extends d d := ⟨rfl, rfl, fun _ _ => rfl⟩

theorem extends_work : Extends d (migration.after d (migration.work d ids)) := by
  induction ids generalizing d with
  | nil => exact extends_refl d
  | cons id ids ih =>
    rw [Job.work, migration.after_append]
    exact (extends_profileOps fun _ hop => hop).trans ih

/-- A task file under a profile's own name is not one the migration made for an earlier one. -/
theorem own_task_was_there {before rest : List String} (hnames : d.names = before ++ id :: rest)
    (hthere : (migration.after d (migration.work d before)).pathHasTask id = true) :
    d.pathHasTask id = true := by
  cases hlast : lastTask id (migration.work d before) with
  | none =>
    unfold TaskDirs.pathHasTask at hthere ⊢
    rw [http_after, hlast] at hthere
    exact hthere
  | some v =>
    have hwritten : id ∈ tasksWritten (migration.work d before) := by
      obtain ⟨op, hop, hat⟩ := List.exists_of_findSome?_eq_some hlast
      refine List.mem_filterMap.mpr ⟨op, List.mem_reverse.mp hop, ?_⟩
      cases op with
      | task t v' =>
        by_cases heq : t = id
        · rw [heq]
          rfl
        · rw [FileOp.taskAt, if_neg heq] at hat
          cases hat
      | order | profile => cases hat
    obtain ⟨id', hid', hcases⟩ := written_work hwritten
    have hsorted := d.sorted
    rw [hnames] at hsorted
    have hlt : PathLt id' id := (List.pairwise_append.mp hsorted).2.2 id' hid' id List.mem_cons_self
    rcases hcases with rfl | hsuffix
    · have hnodup := nodup_names d
      rw [hnames] at hnodup
      exact absurd rfl ((List.nodup_append.mp hnodup).2.2 id hid' id List.mem_cons_self)
    · exact absurd hlt (not_pathLt_suffixed hsuffix)

end

/-- The profile ends bound to a task with its login; a task that was not there has its method and
    certificate option as well. -/
def Carried (d e : TaskDirs) (id : String) (profile : Json) : Prop :=
  ∃ t task, e.binding id = some (.str t) ∧ e.http t = .task task ∧ SameTexts task profile ∧
    (d.pathHasTask t = false → SameOptions task profile)

/-- Every id the task of a profile could have is taken, and the profile is as it was. -/
def LeftAsItIs (e : TaskDirs) (id : String) (profile : Json) : Prop :=
  e.taskIdTaken id = true ∧ (∀ t ∈ suffixedIds id, e.taskIdTaken t = true) ∧
    e.profile id = some profile

/-- **The migration is lossless**: no task file that was there changes, and every profile with an
    HTTP login and no binding ends bound to a task with its login, or is left as it is because all
    the ids of its task are taken. -/
theorem migration_lossless (d : TaskDirs) :
    (∀ t, d.pathHasTask t = true →
      (migration.after d (migrateV9ToV10 {} d)).http t = d.http t) ∧
    ∀ id ∈ d.names, ∀ profile, d.profile id = some profile → isValidProfileId id = true →
      legacyHttpConfigPresent profile = true → alreadyBound profile = false →
      Carried d (migration.after d (migrateV9ToV10 {} d)) id profile ∨
        LeftAsItIs (migration.after d (migrateV9ToV10 {} d)) id profile := by
  constructor
  · intro t hthere
    exact extends_work.http t (taken_of_pathHasTask hthere)
  · intro id hid profile hprofile hvalid hlegacy hunbound
    obtain ⟨before, rest, hnames⟩ := List.append_of_mem hid
    have hnodup : (before ++ id :: rest).Nodup := hnames ▸ nodup_names d
    have hbefore : id ∉ before := fun hmem =>
      (List.nodup_append.mp hnodup).2.2 id hmem id List.mem_cons_self rfl
    have hrest : id ∉ rest := (List.nodup_cons.mp (List.nodup_append.mp hnodup).2.1).1
    -- the files when the profile's turn comes, and the ones behind it
    generalize hhere : migration.after d (migration.work d before) = here
    have hfound : here.profile id = some profile := by
      rw [← hhere, profile_after, lastProfile_work hbefore, Option.none_or, hprofile]
    generalize hnext : migration.after here (profileOps {} here id) = next
    have hend : migration.after d (migrateV9ToV10 {} d) = migration.after next (migration.work next rest) := by
      rw [← hnext, ← hhere, ← migration.after_append, ← migration.after_append]
      show migration.after d (migration.work d d.names) = _
      rw [hnames, migration.work_append]
      rfl
    have hkeep : (migration.after next (migration.work next rest)).profile id = next.profile id := by
      rw [profile_after, lastProfile_work hrest, Option.none_or]
    rw [hend]
    cases hpick : here.pickHttpTaskId id profile with
    | error reason =>
      right
      obtain ⟨-, htaken, hall⟩ := pickHttpTaskId_error hpick
      have hsettled : legacyProfile here id = none := by
        cases hsome : legacyProfile here id with
        | none => rfl
        | some picked =>
          obtain ⟨t, profile'⟩ := picked
          obtain ⟨-, hfound', -, hpick'⟩ := legacyProfile_some hsome
          rw [hfound] at hfound'
          cases hfound'
          rw [hpick] at hpick'
          cases hpick'
      have hops : profileOps {} here id = [] := settled_iff.mpr hsettled
      rw [hops, migration.after_nil] at hnext
      subst hnext
      exact ⟨extends_work.taken htaken, fun t ht => extends_work.taken (hall t ht), hkeep.trans hfound⟩
    | ok t =>
      left
      have hlegacyProfile := legacyProfile_of_pick hvalid hfound hlegacy hpick
      have hbinding : (migration.after next (migration.work next rest)).binding id = some (.str t) := by
        unfold TaskDirs.binding
        rw [hkeep, ← hnext, profile_profileOps hlegacyProfile, Option.bind_some,
          bindProfile_binding hlegacy, hunbound, if_neg Bool.false_ne_true]
      refine ⟨t, ?_⟩
      rcases profileOps_cases here id with
        ⟨hnone, -⟩ | ⟨t', profile', hsome, ⟨hreuse, htid, hops⟩ | ⟨-, hfree, -, hops⟩⟩
      · rw [hlegacyProfile] at hnone
        cases hnone
      · rw [hlegacyProfile] at hsome
        cases hsome
        subst htid
        obtain ⟨task, htask, htexts⟩ := reusableExistingTask_texts hreuse
        have hthere : here.pathHasTask t = true := (reusableExistingTask_some hreuse).2
        have hlater : Extends here (migration.after next (migration.work next rest)) :=
          (hnext ▸ extends_profileOps fun _ hop => hop).trans extends_work
        refine ⟨task, hbinding, (hlater.http t (taken_of_pathHasTask hthere)).trans htask, htexts, ?_⟩
        intro hmissing
        rw [own_task_was_there hnames (hhere ▸ hthere)] at hmissing
        cases hmissing
      · rw [hlegacyProfile] at hsome
        cases hsome
        have htask : next.http t = .task (buildLegacyHttpTask t profile) := by
          have hlast : lastTask t (profileOps {} here id) = some (buildLegacyHttpTask t profile) := by
            rw [← lastTask_core, core_profileOps_new hlegacyProfile hfree]
            simp [lastTask, FileOp.taskAt, List.findSome?_cons]
          rw [← hnext, http_after, hlast]
          rfl
        have hthere : next.pathHasTask t = true := by
          unfold TaskDirs.pathHasTask
          rw [htask]
        exact ⟨_, hbinding, (extends_work.http t (taken_of_pathHasTask hthere)).trans htask,
          buildLegacyHttpTask_text t profile, fun _ => buildLegacyHttpTask_options t profile⟩

/-- A profile of v9 with an address for its HTTP login. -/
def dormProfile : Json := .obj [("http_url", .str "http://10.0.0.1/login")]

/-- The ids of the profile's task are all those of browser tasks. -/
def crowdedTasks : TaskDirs where
  names := ["dorm"]
  sorted := by decide
  profile := fun id => if id = "dorm" then some dormProfile else none
  browser := fun id => id = "dorm" || (suffixedIds "dorm").contains id
  scripts := fun _ => false
  http := fun _ => .missing
  order := none

/-- A profile for whose task there is no id is not bound. -/
theorem ids_exhausted :
    ¬∀ (d : TaskDirs), ∀ id ∈ d.names, ∀ profile, d.profile id = some profile →
      isValidProfileId id = true → legacyHttpConfigPresent profile = true →
      alreadyBound profile = false →
      ∃ t task, (migration.after d (migrateV9ToV10 {} d)).binding id = some (.str t) ∧
        (migration.after d (migrateV9ToV10 {} d)).http t = .task task ∧
        SameTexts task profile ∧ SameOptions task profile := by
  intro hall
  have hnothing : migrateV9ToV10 {} crowdedTasks = [] := by
    have : (migrateV9ToV10 {} crowdedTasks).length = 0 := by decide
    exact List.length_eq_zero_iff.mp this
  obtain ⟨t, task, hbinding, -⟩ := hall crowdedTasks "dorm" List.mem_cons_self dormProfile rfl
    (by decide) (by decide) (by decide)
  rw [hnothing] at hbinding
  have hunbound : crowdedTasks.binding "dorm" = none := rfl
  rw [migration.after_nil, hunbound] at hbinding
  cases hbinding

end CampusAuth.Config
