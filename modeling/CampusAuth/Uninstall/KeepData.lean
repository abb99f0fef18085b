import CampusAuth.Lib.Serde
import CampusAuth.Uninstall.Plan

/- An uninstallation that keeps the user data (`uninstall/mod.rs`): where it leaves the data
   directories alone.

   The guard of the plan refuses a data root inside the program directory. It does not look the
   other way, at a program directory inside one of the data directories; nor do the five names
   tell a data directory that is a link, or is written in another case. `keep_data_iff` is the
   condition on the resolved places, `apart_iff_of_plain` what is left of it where every data
   directory lies under its own name. -/
namespace CampusAuth.Uninstall
open Lib

variable {h : Host} {io : Refusals} {installDir basePath : Path} {plan : UninstallPlan}

/-- The place of a data directory. -/
def DataDir (h : Host) (basePath : Path) (name : String) (d : Place) : Prop :=
  name ∈ dataDirNames ∧ h.tree.canonicalize (child basePath name) = some d ∧
    h.tree.node d = some .dir

/-- The place is a data directory or inside one. -/
def InData (h : Host) (basePath : Path) (p : Place) : Prop :=
  ∃ name d, DataDir h basePath name d ∧ d <+: p

/-- Whatever cannot be removed, what goes is in the program directory and is no data. -/
def KeepsData (h : Host) (installDir basePath : Path) (plan : UninstallPlan) : Prop :=
  ∀ io, ∀ p ∈ (execute h io plan).gone,
    (∃ install, h.tree.canonicalize installDir = some install ∧ install <+: p) ∧
      ¬InData h basePath p

/-- The program directory is in no data directory, and a data directory in the program directory
    is in an entry under one of the five names. -/
def Apart (h : Host) (installDir basePath : Path) : Prop :=
  ∀ install, h.tree.canonicalize installDir = some install →
    ∀ name d, DataDir h basePath name d →
      ¬d <+: install ∧ ∀ entry, install ++ [entry] <+: d → entry ∈ dataDirNames

/-! ## What goes -/

theorem removeChild_gone (except : List String) (dir : Place) (r : Children) (name : String)
    (p : Place) : p ∈ (removeChild h io except dir r name).gone ↔
      p ∈ r.gone ∨ name ∉ except ∧ p ∈ h.tree.removable io.stuck (dir ++ [name]) := by
  unfold removeChild
  split
  next hexcept =>
    have hmem : name ∈ except := by simpa using hexcept
    simp [hmem]
  next hexcept =>
    have hmem : name ∉ except := by simpa using hexcept
    split <;> simp [hmem]

theorem foldl_removeChild_gone (except : List String) (dir : Place) (names : List String)
    (r : Children) (p : Place) :
    p ∈ (names.foldl (removeChild h io except dir) r).gone ↔
      p ∈ r.gone ∨
        ∃ name ∈ names, name ∉ except ∧ p ∈ h.tree.removable io.stuck (dir ++ [name]) := by
  induction names generalizing r with
  | nil => simp
  | cons name names ih =>
    rw [List.foldl_cons, ih, removeChild_gone, or_assoc]
    refine or_congr_right ⟨?_, ?_⟩
    · rintro (hfirst | ⟨n, hn, hrest⟩)
      · exact ⟨name, List.mem_cons_self, hfirst⟩
      · exact ⟨n, List.mem_cons_of_mem _ hn, hrest⟩
    · rintro ⟨n, hn, hrest⟩
      rcases List.mem_cons.mp hn with rfl | hn
      · exact .inl hrest
      · exact .inr ⟨n, hn, hrest⟩

theorem gone_pushRemoval (r : UninstallReport) (label : String) (path : Path)
    (result : Except String Unit) : (r.pushRemoval label path result).gone = r.gone := by
  cases result <;> rfl

theorem foldl_gone {α : Type} {f : UninstallReport → α → UninstallReport}
    (hf : ∀ r a, (f r a).gone = r.gone) (l : List α) (r : UninstallReport) :
    (l.foldl f r).gone = r.gone := by
  induction l generalizing r with
  | nil => rfl
  | cons a l ih => rw [List.foldl_cons, ih, hf]

theorem gone_reportChildren (dir : Path) (c : Children) (r : UninstallReport) :
    (reportChildren dir c r).gone = r.gone ++ c.gone := by
  unfold reportChildren
  dsimp only
  rw [foldl_gone fun r f => gone_pushRemoval r _ _ _, foldl_gone fun r f => gone_pushRemoval r _ _ _]

/-- The program directory goes only when it is emptied. -/
theorem gone_removeEmptied {dir : Path} {r : UninstallReport} {p : Place}
    (hp : p ∈ (removeEmptied h io dir r).gone) : p ∈ r.gone ∨ h.tree.canonicalize dir = some p := by
  unfold removeEmptied at hp
  split at hp
  · rw [gone_pushRemoval] at hp
    exact .inl hp
  next place hplace =>
    split at hp
    · split at hp
      · rw [gone_pushRemoval] at hp
        exact .inl hp
      · rcases List.mem_append.mp hp with hp | hp
        · exact .inl hp
        · rw [List.mem_singleton.mp hp]
          exact .inr (Option.filter_eq_some_iff.mp hplace).1
    · exact .inl hp

theorem gone_subset_removeEmptied {dir : Path} {r : UninstallReport} {p : Place}
    (hp : p ∈ r.gone) : p ∈ (removeEmptied h io dir r).gone := by
  unfold removeEmptied
  split
  · rwa [gone_pushRemoval]
  · split
    · split
      · rwa [gone_pushRemoval]
      · exact List.mem_append_left _ hp
    · exact hp

/-- What goes with an entry of the program directory that has none of the five names. -/
def Removed (h : Host) (io : Refusals) (install p : Place) : Prop :=
  ∃ name ∈ h.tree.names install, name ∉ dataDirNames ∧
    p ∈ h.tree.removable io.stuck (install ++ [name])

theorem gone_removeChildrenExcept {p : Place} :
    p ∈ (removeChildrenExcept h io installDir dataDirNames).gone ↔
      ∃ install, openDir h installDir = some install ∧ Removed h io install p := by
  unfold removeChildrenExcept
  split
  next hnone =>
    rw [hnone]
    simp
  next install hinstall =>
    rw [foldl_removeChild_gone, hinstall]
    simp [Removed]

/-! ## What a plan says -/

theorem buildPlan_eq {keep : Bool} (hplan : buildPlan h installDir basePath keep = .ok plan) :
    validateInstallDir h installDir = .ok () ∧
      (keep = true → sameDir h installDir basePath = false →
        nested h installDir basePath = false) ∧
      plan.installDir = installDir ∧ plan.basePath = basePath ∧ plan.keepUserData = keep := by
  unfold buildPlan at hplan
  obtain ⟨hinstall, hplan⟩ := check_eq_ok.mp hplan
  obtain ⟨-, hplan⟩ := check_eq_ok.mp hplan
  dsimp only at hplan
  split at hplan
  · cases hplan
  next hguard =>
    obtain rfl := Except.ok.inj hplan
    refine ⟨hinstall, fun hkeep hsame => ?_, rfl, rfl, rfl⟩
    simpa [hkeep, hsame] using hguard

theorem canonicalize_child (dir : Path) (name : String) :
    h.tree.canonicalize (child dir name) =
      (h.tree.canonicalize dir).bind fun place =>
        (h.tree.find place name).bind fun own => h.tree.follow (place ++ [own]) := by
  unfold FileTree.canonicalize child join
  rw [List.foldlM_append]
  cases List.foldlM h.tree.enter [] dir with
  | none => rfl
  | some place =>
    show (List.foldlM h.tree.enter place [.normal name]) = _
    rw [List.foldlM_cons]
    show (h.tree.enter place (.normal name)).bind some = h.tree.enter place (.normal name)
    cases h.tree.enter place (.normal name) <;> rfl

theorem program_not_data {own : String} (hdata : own ∈ dataDirNames) :
    h.tree.fold own ≠ h.tree.fold h.mainExeName ∧ h.tree.fold own ≠ h.tree.fold h.helperExeName := by
  unfold FileTree.fold Host.mainExeName Host.helperExeName
  revert own
  cases h.tree.caseless <;> cases h.windows <;> decide

/-- A program lies in the directory, under a name that is none of the five. -/
theorem program_entry (hvalid : validateInstallDir h installDir = .ok ()) :
    ∃ install own, h.tree.canonicalize installDir = some install ∧
      own ∈ h.tree.names install ∧ own ∉ dataDirNames := by
  have hfile : h.tree.isFile (child installDir h.mainExeName) = true ∨
      h.tree.isFile (child installDir h.helperExeName) = true := by
    unfold validateInstallDir at hvalid
    by_contra hnone
    rw [not_or, Bool.not_eq_true, Bool.not_eq_true] at hnone
    rw [hnone.1, hnone.2] at hvalid
    repeat (split at hvalid; · cases hvalid)
    next hneither => exact hneither rfl
  have hentry : ∀ exe, h.tree.isFile (child installDir exe) = true →
      ∃ install own, h.tree.canonicalize installDir = some install ∧
        h.tree.find install exe = some own := by
    intro exe hexe
    unfold FileTree.isFile FileTree.at? at hexe
    rw [canonicalize_child] at hexe
    cases hinstall : h.tree.canonicalize installDir with
    | none => rw [hinstall] at hexe; cases hexe
    | some install =>
      cases hown : h.tree.find install exe with
      | none => rw [hinstall, Option.bind_some, hown] at hexe; cases hexe
      | some own => exact ⟨install, own, rfl, hown⟩
  rcases hfile with hexe | hexe
  · obtain ⟨install, own, hinstall, hown⟩ := hentry _ hexe
    have hsame : h.tree.fold own = h.tree.fold h.mainExeName := by
      simpa using List.find?_some hown
    exact ⟨install, own, hinstall, List.mem_of_find?_eq_some hown,
      fun hdata => (program_not_data hdata).1 hsame⟩
  · obtain ⟨install, own, hinstall, hown⟩ := hentry _ hexe
    have hsame : h.tree.fold own = h.tree.fold h.helperExeName := by
      simpa using List.find?_some hown
    exact ⟨install, own, hinstall, List.mem_of_find?_eq_some hown,
      fun hdata => (program_not_data hdata).2 hsame⟩

theorem openDir_of_entry {install : Place} {own : String}
    (hinstall : h.tree.canonicalize installDir = some install)
    (hown : own ∈ h.tree.names install) : openDir h installDir = some install := by
  obtain ⟨e, he, heq⟩ := List.mem_map.mp (FileTree.mem_names.mp hown)
  obtain ⟨n, hn⟩ := Option.isSome_iff_exists.mp (FileTree.node_of_mem he)
  rw [heq] at hn
  have hdir := FileTree.dir_of_prefix hn (List.prefix_append _ _) (by simp)
  unfold openDir
  rw [hinstall, Option.filter_some, if_pos (beq_iff_eq.mpr hdir)]

/-! ## The condition -/

theorem gone_execute (hkeep : plan.keepUserData = true) {p : Place}
    (hp : p ∈ (execute h io plan).gone) :
    h.tree.canonicalize plan.installDir = some p ∨
      ∃ install, h.tree.canonicalize plan.installDir = some install ∧ Removed h io install p := by
  unfold execute at hp
  rw [if_pos hkeep] at hp
  rcases gone_removeEmptied hp with hp | hp
  · rw [gone_reportChildren, List.nil_append] at hp
    obtain ⟨install, hopen, hremoved⟩ := gone_removeChildrenExcept.mp hp
    exact .inr ⟨install, (Option.filter_eq_some_iff.mp hopen).1, hremoved⟩
  · exact .inl hp

theorem execute_gone (hkeep : plan.keepUserData = true) {install p : Place}
    (hopen : openDir h plan.installDir = some install) (hp : Removed h io install p) :
    p ∈ (execute h io plan).gone := by
  unfold execute
  rw [if_pos hkeep]
  refine gone_subset_removeEmptied ?_
  rw [gone_reportChildren]
  exact List.mem_append_right _ (gone_removeChildrenExcept.mpr ⟨install, hopen, hp⟩)

/-- A plan that keeps the data does so exactly when program and data lie apart. -/
theorem keep_data_iff (hplan : buildPlan h installDir basePath true = .ok plan) :
    KeepsData h installDir basePath plan ↔ Apart h installDir basePath := by
  obtain ⟨hvalid, -, hdir, -, hkeep⟩ := buildPlan_eq hplan
  obtain ⟨install, own, hinstall, hown, hdata⟩ := program_entry hvalid
  constructor
  · intro hkeeps install' hinstall' name d hd
    obtain rfl := Option.some.inj (hinstall.symm.trans hinstall')
    have hopen : openDir h plan.installDir = some install := by
      rw [hdir]
      exact openDir_of_entry hinstall hown
    -- let everything go that can go
    have hgone : ∀ p, Removed h ⟨fun _ => false, ""⟩ install p → ¬InData h basePath p :=
      fun p hp => (hkeeps _ p (execute_gone hkeep hopen hp)).2
    constructor
    · intro hbelow
      have hprogram : install ++ [own] ∈ h.tree.below (install ++ [own]) :=
        FileTree.mem_below.mpr ⟨FileTree.mem_names.mp hown, List.prefix_refl _⟩
      exact hgone _ ⟨own, hown, hdata, FileTree.mem_removable_of_below hprogram⟩
        ⟨name, d, hd, hbelow.trans (List.prefix_append _ _)⟩
    · intro entry hentry
      by_contra hnot
      have hne : d ≠ [] := by
        rintro rfl
        simp at hentry
      have hthere : d ∈ h.tree.nodes.map Prod.fst :=
        List.mem_map.mpr ⟨_, FileTree.mem_nodes_of_node hne hd.2.2, rfl⟩
      have hname : entry ∈ h.tree.names install := by
        refine FileTree.mem_names.mpr ?_
        by_cases heq : install ++ [entry] = d
        · rwa [heq]
        · have hnode := FileTree.dir_of_prefix hd.2.2 hentry heq
          exact List.mem_map.mpr ⟨_, FileTree.mem_nodes_of_node (by simp) hnode, rfl⟩
      exact hgone d ⟨entry, hname, hnot, FileTree.mem_removable_of_below
        (FileTree.mem_below.mpr ⟨hthere, hentry⟩)⟩ ⟨name, d, hd, List.prefix_refl _⟩
  · intro hapart io p hp
    obtain ⟨hself, hentries⟩ : (∀ name d, DataDir h basePath name d → ¬d <+: install) ∧
        ∀ name d, DataDir h basePath name d →
          ∀ entry, install ++ [entry] <+: d → entry ∈ dataDirNames :=
      ⟨fun name d hd => (hapart install hinstall name d hd).1,
        fun name d hd => (hapart install hinstall name d hd).2⟩
    rcases gone_execute hkeep hp with hp | ⟨install', hinstall', entry, -, hentry, hp⟩
    · rw [hdir, hinstall] at hp
      obtain rfl := Option.some.inj hp
      exact ⟨⟨install, hinstall, List.prefix_refl _⟩, fun ⟨name, d, hd, hbelow⟩ =>
        hself name d hd hbelow⟩
    · rw [hdir, hinstall] at hinstall'
      obtain rfl := Option.some.inj hinstall'
      have hbelow := FileTree.removable_below hp
      refine ⟨⟨install, hinstall, (List.prefix_append _ _).trans hbelow⟩, ?_⟩
      rintro ⟨name, d, hd, hdata'⟩
      -- the entry and the data directory are both above the place
      rcases List.prefix_or_prefix_of_prefix hdata' hbelow with hd' | hd'
      · rcases List.prefix_concat_iff.mp hd' with rfl | hd'
        · exact hentry (hentries name _ hd entry (List.prefix_refl _))
        · exact hself name d hd hd'
      · exact hentry (hentries name d hd entry hd')

/-- Without a data root there is nothing to keep. -/
theorem apart_of_missing (hmissing : h.tree.canonicalize basePath = none) :
    Apart h installDir basePath := by
  rintro install - name d ⟨-, hd, -⟩
  rw [canonicalize_child, hmissing] at hd
  cases hd

/-- Where each data directory lies in the data root under its own name, the guard leaves one case:
    the program directory is in a data directory. -/
theorem apart_iff_of_plain (hplan : buildPlan h installDir basePath true = .ok plan)
    (hplain : ∀ name d, DataDir h basePath name d →
      ∃ base, h.tree.canonicalize basePath = some base ∧ d = base ++ [name]) :
    Apart h installDir basePath ↔ ∀ install, h.tree.canonicalize installDir = some install →
      ∀ name d, DataDir h basePath name d → ¬d <+: install := by
  refine ⟨fun hapart install hinstall name d hd => (hapart install hinstall name d hd).1, ?_⟩
  intro hself install hinstall name d hd
  refine ⟨hself install hinstall name d hd, fun entry hentry => ?_⟩
  obtain ⟨base, hbase, rfl⟩ := hplain name d hd
  rcases List.prefix_concat_iff.mp hentry with heq | hentry
  · have : entry = name := List.singleton_inj.mp (List.append_inj_right' heq rfl)
    exact this ▸ hd.1
  · -- the data root is below the program directory, which the guard refuses
    have hnested : nested h installDir basePath = true := by
      unfold nested
      rw [hinstall, hbase]
      exact List.isPrefixOf_iff_prefix.mpr ((List.prefix_append _ _).trans hentry)
    have hguard := (buildPlan_eq hplan).2.1 rfl
    cases hsame : sameDir h installDir basePath with
    | false => rw [hguard hsame] at hnested; cases hnested
    | true =>
      have heq : install = base := by
        unfold sameDir at hsame
        rw [hinstall, hbase] at hsame
        exact beq_iff_eq.mp hsame
      have hlen := hentry.length_le
      rw [heq, List.length_append, List.length_singleton] at hlen
      omega

/-! ## Layouts -/

def srvApp : Path := [.rootDir, .normal "srv", .normal "app"]

/-- The program beside the data, in a directory of its own. -/
def programBesideData : Host where
  tree :=
    { nodes := [(["srv"], .dir), (["srv", "app"], .dir), (["srv", "app", "config"], .dir),
        (["srv", "app", "bin"], .dir), (["srv", "app", "bin", "campus-auth"], .file "")]
      caseless := false
      parents := by decide }
  windows := false
  home := none
  temp := [.rootDir, .normal "tmp"]
  display := fun _ => "/srv/app/bin"

theorem keep_data_sample : KeepsData programBesideData (child srvApp "bin") srvApp
    ⟨child srvApp "bin", srvApp, true, false, []⟩ := by
  refine (keep_data_iff rfl).mpr fun install hinstall name d hd => ?_
  obtain rfl : ["srv", "app", "bin"] = install := Option.some.inj hinstall
  obtain ⟨hname, hplace, -⟩ := hd
  obtain rfl : d = ["srv", "app", "config"] := by
    simp only [dataDirNames, List.mem_cons, List.not_mem_nil, or_false] at hname
    rcases hname with rfl | rfl | rfl | rfl | rfl
    · exact (Option.some.inj hplace).symm
    all_goals cases hplace
  refine ⟨by decide, fun entry hentry => ?_⟩
  have hlen := hentry.length_le
  simp at hlen

/-- The program in the directory of the tasks. -/
def programInTasks : Host where
  tree :=
    { nodes := [(["srv"], .dir), (["srv", "app"], .dir), (["srv", "app", "tasks"], .dir),
        (["srv", "app", "tasks", "campus-auth"], .file ""),
        (["srv", "app", "tasks", "http"], .dir)]
      caseless := false
      parents := by decide }
  windows := false
  home := none
  temp := [.rootDir, .normal "tmp"]
  display := fun _ => "/srv/app/tasks"

theorem program_in_tasks_loses_data : ¬∀ (h : Host) (installDir basePath : Path)
    (plan : UninstallPlan), buildPlan h installDir basePath true = .ok plan →
    KeepsData h installDir basePath plan := by
  intro hall
  have hkeeps := hall programInTasks (child srvApp "tasks") srvApp _ rfl
  have hlost := (hkeeps ⟨fun _ => false, ""⟩ ["srv", "app", "tasks", "http"] (by decide +kernel)).2
  exact hlost ⟨"tasks", ["srv", "app", "tasks"], ⟨by decide, rfl, rfl⟩, by decide⟩

end CampusAuth.Uninstall
