import CampusAuth.Environment.Bootstrap
import CampusAuth.Lib.Run

/- Requests to install, to remove and to align the OCR package (`environment/uv.rs`).

   A request stores the preference first and then lets uv alter the project. Each attempt of
   `uv add` and `uv remove` takes a copy of the two project files and puts it back where uv has
   not done it; `uv sync` takes none. What the uv part of a request came to is `UvPart`: a
   command that succeeded behind attempts that came to nothing, or only such attempts. -/
namespace CampusAuth.Environment
open Lib

/-! ## The copies of the project files -/

/-- The project files in their directory, and the copies beside them. -/
structure ProjectDir where
  file : Manifest → Option Content
  bak : Manifest → Option Content

/-- Which files were copied. -/
abbrev BackupEntries := List (Manifest × Bool)

def takeOne (dir : ProjectDir) (name : Manifest) : (Manifest × Bool) × ProjectDir :=
  match dir.file name with
  | none => ((name, false), dir)
  | some content => ((name, true), { dir with bak := Function.update dir.bak name (some content) })

/-- `ProjectFilesBackup::take`, the copies succeeding. -/
def take (dir : ProjectDir) : BackupEntries × ProjectDir :=
  let (first, dir) := takeOne dir .pyproject
  let (second, dir) := takeOne dir .lock
  ([first, second], dir)

/-- A file that was not there is removed. -/
def restoreOne (dir : ProjectDir) : Manifest × Bool → ProjectDir
  | (name, true) =>
    match dir.bak name with
    | some content =>
      ⟨Function.update dir.file name (some content), Function.update dir.bak name none⟩
    | none => dir
  | (name, false) => { dir with file := Function.update dir.file name none }

/-- `ProjectFilesBackup::restore`, the copies succeeding. -/
def restore (entries : BackupEntries) (dir : ProjectDir) : ProjectDir :=
  entries.foldl restoreOne dir

/-- Whatever became of the files, they are put back. -/
theorem restore_take (dir dir' : ProjectDir) (hbak : dir'.bak = (take dir).2.bak) :
    (restore (take dir).1 dir').file = dir.file := by
  funext name
  cases hp : dir.file .pyproject <;> cases hl : dir.file .lock <;> cases name <;>
    simp [take, takeOne, restore, restoreOne, hp, hl, hbak]

/-- The project files of the environment beside some copies. -/
def Env.projectDir (s : Env) (bak : Manifest → Option Content) : ProjectDir := ⟨s.manifest, bak⟩

def Env.projectFiles (s : Env) : ProjectFilesBackup := ⟨s.pyproject, s.lock⟩

/-- What is put back is what the answer to `Ask.backup` says. -/
theorem restore_projectDir (s s' : Env) (bak bak' : Manifest → Option Content)
    (hbak : bak' = (take (s.projectDir bak)).2.bak) :
    (restore (take (s.projectDir bak)).1 (s'.projectDir bak')).file =
      { s' with pyproject := s.projectFiles.pyproject, lock := s.projectFiles.lock }.manifest := by
  rw [restore_take _ _ hbak]
  funext name
  cases name <;> rfl

/-! ## Requests -/

def installOcrDep (platform : Platform) : Act Unit := do
  setOcrEnabled true
  ask (.write fun s => { s with ocrEnabled := true })
  runUvPackageAlter .add
  let installed ← ask .ocrInstalled
  failIf (!installed) (.uvPackageAlterFailed "add" none "uv add 成功但 venv 内未探测到 ddddocr")
  verifyAndRecordAfterAlter platform
  ask (.write fun s => { s with ocrReady := true })
  ask .removeOcrMarker

/-- A failure is tolerated where the package is not found any more. -/
def withdrawOcr (declared : Bool) : Act Unit := do
  match ← attempt (if declared then runUvPackageAlter .remove else runUvSync) with
  | .ok () => pure ()
  | .error e => do
    let installed ← ask .ocrInstalled
    failIf installed e

/-- What a removal does once it knows what is there. -/
def removeFound (platform : Platform) (declared installed : Bool) : Act Unit :=
  if !installed && !declared then ask .removeOcrMarker
  else do
    withdrawOcr declared
    verifyAndRecordAfterAlter platform
    ask (.write fun s => { s with ocrReady := false })
    ask .removeOcrMarker

def removeOcrDep (platform : Platform) : Act Unit := do
  setOcrEnabled false
  ask (.write fun s => { s with ocrEnabled := false })
  let declared ← ddddocrDeclared
  let installed ← ask .ocrInstalled
  removeFound platform declared installed

/-! ## The world -/

def Env.declared (s : Env) : Bool := s.pyproject.any declaresDdddocr

/-- Copies and roll-backs succeed, and so does what a successful `uv add` or `uv remove` is for. -/
def Assumed (s : Env) : (q : Ask) → q.Answer → Env → Prop
  | .backup, a, _ => a = .ok s.projectFiles
  | .restore backup, _, t => t.projectFiles = backup
  | .uv .add, a, t => a = .success → t.declared = true ∧ t.ocrInstalled = true
  | .uv .remove, a, t | .uv .removeOptional, a, t =>
    a = .success → t.declared = false ∧ t.ocrInstalled = false
  | _, _, _ => True

def ocrWorld : Prog.World Env Ask Ask.Answer := fun s q a t => world s q a t ∧ Assumed s q a t

abbrev Heard := Prog.Told Env Ask Ask.Answer

/-! ## Runs of requests -/

inductive Operation
  | install
  | remove
  | reconcile
  deriving DecidableEq, Repr

def Operation.program (platform : Platform) : Operation → Act Unit
  | .install => installOcrDep platform
  | .remove => removeOcrDep platform
  | .reconcile => reconcileOcrPreference platform

/-- What the user asks for. -/
def Operation.request : Operation → Option Bool
  | .install => some true
  | .remove => some false
  | .reconcile => none

/-- An operation that was performed, with everything it was told. -/
structure Performed where
  op : Operation
  before : Env
  told : List Heard
  result : Except EnvironmentError Unit
  after : Env

/-- Operations one after the other; between two of them everything but the stored preference may
    change. -/
inductive Session (platform : Platform) : List Performed → Env → Prop
  | start (s : Env) : Session platform [] s
  | perform {ps : List Performed} {s : Env} {p : Performed} : Session platform ps s →
      p.before.preferences = s.preferences →
      Prog.Run ocrWorld (p.op.program platform).run p.before p.told p.result p.after →
      Session platform (ps ++ [p]) p.after

def lastRequest (ps : List Performed) : Option Bool :=
  (ps.filterMap fun p => p.op.request).getLast?

def uvExit : Heard → Option (UvCommand × CommandResult)
  | ⟨_, .uv command, result, _⟩ => some (command, result)
  | _ => none

def seenInstalled : Heard → Option Bool
  | ⟨_, .ocrInstalled, installed, _⟩ => some installed
  | _ => none

/-- The preference is written. -/
def saves : Heard → Bool
  | ⟨_, .savePreferences _, saved, _⟩ => (saved : Except String Unit).isOk
  | _ => false

/-- `pyproject.toml` cannot be read. -/
def unread : Heard → Bool
  | ⟨_, .manifest .pyproject, content, _⟩ => !(content : Except String Content).isOk
  | _ => false

def CommandResult.fails (result : CommandResult) : Bool := result ≠ .success

def syncFailed : Heard → Bool
  | ⟨_, .uv .sync, result, _⟩ => CommandResult.fails result
  | _ => false

/-- The uv command of the operation, with all its attempts, did not succeed. -/
def uvFailed (told : List Heard) : Bool :=
  match (told.filterMap uvExit).getLast? with
  | some (_, result) => result.fails
  | none => false

/-- A sync that fails leaves the project files as they are. -/
def SyncsKept (told : List Heard) : Prop :=
  ∀ st ∈ told, syncFailed st → st.after.projectFiles = st.before.projectFiles

/-- What an operation says is true, and where uv failed nothing is left of it. -/
structure Performed.Truthful (p : Performed) : Prop where
  removed : p.op = .remove → p.result = .ok () →
    p.after.declared = false ∧ p.after.ocrInstalled = false
  installed : p.op = .install → p.result = .ok () →
    p.after.declared = true ∧ p.after.ocrInstalled = true
  rolledBack : uvFailed p.told → (∃ e, p.result = .error e) ∧
    ∀ st ∈ p.told, uvExit st ≠ none → p.after.projectFiles = st.before.projectFiles

/-- A removal that gives up finds the package still installed, a sync does all or nothing, and the
    small files can be written and read. -/
structure Performed.Meets (p : Performed) : Prop where
  stored : p.op.request ≠ none → ∃ st ∈ p.told, saves st
  readable : p.op = .remove → ∀ st ∈ p.told, unread st → st.before.declared = false
  found : p.op = .remove → ∀ installed, p.told.filterMap seenInstalled ≠ [installed, false]
  synced : p.op = .remove → ∀ st ∈ p.told, uvExit st = some (.sync, .success) →
    st.after.declared = false ∧ st.after.ocrInstalled = false
  untouched : uvFailed p.told → SyncsKept p.told

/-! ## What one answer changes -/

/-- What the requests are about: the project files, the package and the preference. -/
structure Deps where
  files : ProjectFilesBackup
  installed : Bool
  preferences : Option PreferencesFile

def Env.deps (s : Env) : Deps := ⟨s.projectFiles, s.ocrInstalled, s.preferences⟩

def Deps.declared (d : Deps) : Bool := d.files.pyproject.any declaresDdddocr

/-- Questions that neither run uv nor look at the package or write the preference. -/
def Ask.aside : Ask → Prop
  | .uv _ | .restore _ | .savePreferences _ | .ocrInstalled | .quarantineVenv | .restoreVenv => False
  | _ => True

/-- As `Ask.aside`, but the package may be looked at. -/
def Ask.calm : Ask → Prop
  | .uv _ | .restore _ | .savePreferences _ | .quarantineVenv | .restoreVenv => False
  | _ => True

/-- Questions that neither run uv nor look at the package. -/
def Ask.silent : Ask → Prop
  | .uv _ | .ocrInstalled => False
  | _ => True

theorem Ask.aside.calm {q : Ask} (h : q.aside) : q.calm := by
  cases q <;> first | exact h.elim | trivial

theorem Ask.aside.silent {q : Ask} (h : q.aside) : q.silent := by
  cases q <;> first | exact h.elim | trivial

theorem MayCancel.deps {s t : Env} (h : MayCancel s t) : t.deps = s.deps := by
  cases h with
  | inl h => rw [h]
  | inr h => rw [h.2]; rfl

theorem answers_calm {s t : Env} {q : Ask} (hq : q.calm) {a : q.Answer} (h : Answers s q a t) :
    t.deps = s.deps := by
  cases q with
  | uv | restore | savePreferences | quarantineVenv | restoreVenv => exact hq.elim
  | cancelled | backup | resyncMarker | manifest | runtimeState | preferences | ocrMarker
  | ocrInstalled | status => exact h.2 ▸ rfl
  | removeResyncMarker =>
    cases h with
    | inl h => exact h ▸ rfl
    | inr h => exact h.2 ▸ rfl
  | removeOcrMarker =>
    cases h with
    | inl h => exact h ▸ rfl
    | inr h => exact h ▸ rfl
  | recordRuntimeState state =>
    cases a with
    | ok => exact h ▸ rfl
    | error => exact h ▸ rfl
  | _ => exact h ▸ rfl

/-- An answer between two moments at which the token can be cancelled. -/
theorem ocrWorld_cases {s t : Env} {q : Ask} {a : q.Answer} (h : ocrWorld s q a t) :
    ∃ s' t', s'.deps = s.deps ∧ t.deps = t'.deps ∧ Answers s' q a t' := by
  obtain ⟨⟨s', t', hs, ha, ht⟩, -⟩ := h
  exact ⟨s', t', hs.deps, ht.deps, ha⟩

theorem ocrWorld_calm {s t : Env} {q : Ask} (hq : q.calm) {a : q.Answer} (h : ocrWorld s q a t) :
    t.deps = s.deps := by
  obtain ⟨s', t', hs, ht, ha⟩ := ocrWorld_cases h
  rw [ht, answers_calm hq ha, hs]

theorem ocrWorld_uv {s t : Env} {c : UvCommand} {a : CommandResult}
    (h : ocrWorld s (.uv c) a t) : t.preferences = s.preferences := by
  obtain ⟨s', t', hs, ht, -, _, _, _, rfl⟩ := ocrWorld_cases h
  exact (congrArg Deps.preferences ht).trans (congrArg Deps.preferences hs)

theorem ocrWorld_restore {s t : Env} {b : ProjectFilesBackup} {a : Unit}
    (h : ocrWorld s (.restore b) a t) : t.projectFiles = b ∧ t.preferences = s.preferences := by
  obtain ⟨s', t', hs, ht, _, _, rfl⟩ := ocrWorld_cases h
  exact ⟨h.2, (congrArg Deps.preferences ht).trans (congrArg Deps.preferences hs)⟩

theorem ocrWorld_installed {s t : Env} {a : Bool} (h : ocrWorld s .ocrInstalled a t) :
    a = s.ocrInstalled ∧ t.deps = s.deps := by
  obtain ⟨s', t', hs, ht, rfl, rfl⟩ := ocrWorld_cases h
  exact ⟨congrArg Deps.installed hs, ht.trans hs⟩

theorem ocrWorld_save {s t : Env} {file : PreferencesFile} {a : Except String Unit}
    (h : ocrWorld s (.savePreferences file) a t) :
    t.deps = if a = .ok () then { s.deps with preferences := some file } else s.deps := by
  obtain ⟨s', t', hs, ht, ha⟩ := ocrWorld_cases h
  cases a with
  | ok u =>
    have ht' : t' = { s' with preferences := some file } := ha
    rw [ht, ht', if_pos rfl, ← hs]
    rfl
  | error e =>
    have ht' : t' = s' := ha
    rw [ht, ht', if_neg (by simp), hs]

/-! ## Reading what was told -/

theorem uvExit_calm {st : Heard} (h : st.question.calm) : uvExit st = none := by
  obtain ⟨before, q, a, after⟩ := st
  cases q <;> first | rfl | exact h.elim

theorem uvExit_silent {st : Heard} (h : st.question.silent) : uvExit st = none := by
  obtain ⟨before, q, a, after⟩ := st
  cases q <;> first | rfl | exact h.elim

theorem seenInstalled_silent {st : Heard} (h : st.question.silent) : seenInstalled st = none := by
  obtain ⟨before, q, a, after⟩ := st
  cases q <;> first | rfl | exact h.elim

theorem filterMap_none {α β : Type} {f : α → Option β} {l : List α} (h : ∀ x ∈ l, f x = none) :
    l.filterMap f = [] :=
  List.filterMap_eq_nil_iff.mpr h

def NoUv (told : List Heard) : Prop := ∀ st ∈ told, uvExit st = none

/-- The last uv command decides. -/
theorem not_uvFailed_of_success {first rest : List Heard} {st : Heard} {c : UvCommand}
    (hst : uvExit st = some (c, .success)) (hrest : NoUv rest) :
    uvFailed (first ++ [st] ++ rest) = false := by
  have hlast : ((first ++ [st] ++ rest).filterMap uvExit).getLast? = some (c, .success) := by
    rw [List.filterMap_append, List.filterMap_append, filterMap_none hrest, List.append_nil,
      List.filterMap_cons_some hst, List.getLast?_append_of_ne_nil _ (List.cons_ne_nil _ _)]
    rfl
  rw [uvFailed, hlast]
  rfl

/-! ## Steps that leave all this alone -/

def Aside {R : Type} (x : Act R) : Prop := Prog.Asks Ask.aside x.run

section
variable {R R' : Type} {s t : Env} {told : List Heard}

theorem Aside.bind {x : Act R} {f : R → Act R'} (hx : Aside x) (hf : ∀ a, Aside (f a)) :
    Aside (x >>= f) :=
  Prog.Asks.then hx hf

theorem ask_aside {q : Ask} (hq : q.aside) : Aside (ask q) := Prog.Asks.fetch hq

theorem pure_aside (a : R) : Aside (pure a : Act R) := trivial

theorem throw_aside (e : EnvironmentError) : Aside (throw e : Act R) := trivial

theorem failIf_aside (b : Bool) (e : EnvironmentError) : Aside (failIf b e) := by
  cases b with
  | true => exact throw_aside e
  | false => exact pure_aside ()

theorem orFail_aside (error : String → EnvironmentError) (r : Except String R) :
    Aside (orFail error r) := by
  cases r with
  | ok r => exact pure_aside r
  | error e => exact throw_aside _

theorem look_aside : Aside look := Aside.bind (ask_aside trivial) fun _ => failIf_aside _ _

theorem uvStart_aside : Aside uvStart :=
  Aside.bind look_aside fun _ => Aside.bind (ask_aside trivial) fun _ =>
    Aside.bind (failIf_aside _ _) fun _ => Aside.bind (ask_aside trivial) fun _ => orFail_aside _ _

theorem readManifest_aside (file : Manifest) : Aside (readManifest file) :=
  Aside.bind (ask_aside trivial) fun _ => orFail_aside _ _

theorem recordVerifiedRuntime_aside (platform : Platform) :
    Aside (recordVerifiedRuntime platform) := by
  have hfingerprint : Aside (runtimeFingerprint platform) :=
    Aside.bind (readManifest_aside _) fun _ => Aside.bind (readManifest_aside _) fun _ =>
      pure_aside _
  exact Aside.bind hfingerprint fun _ => Aside.bind (ask_aside trivial) fun _ =>
    Aside.bind (orFail_aside _ _) fun _ => Aside.bind (ask_aside trivial) fun _ => orFail_aside _ _

theorem verifyAndRecordAfterAlter_aside (platform : Platform) :
    Aside (verifyAndRecordAfterAlter platform) :=
  Aside.bind (ask_aside trivial) fun _ => Aside.bind (failIf_aside _ _) fun _ =>
    recordVerifiedRuntime_aside platform

theorem ddddocrDeclared_aside : Aside ddddocrDeclared := by
  refine Aside.bind (ask_aside trivial) fun content => ?_
  cases content with
  | ok c => exact pure_aside _
  | error e => exact pure_aside _

theorem ocrEnabled_aside : Aside ocrEnabled := by
  refine Aside.bind (ask_aside trivial) fun content => Aside.bind (orFail_aside _ _) fun file => ?_
  match file with
  | none => exact ask_aside trivial
  | some (.invalid reason) => exact throw_aside _
  | some (.preferences schema enabled) => exact pure_aside _

/-- Steps that may look at the package but change none of this. -/
def Calm {R : Type} (x : Act R) : Prop := Prog.Asks Ask.calm x.run

theorem Aside.calm {x : Act R} (h : Aside x) : Calm x := Prog.Asks.mono (fun _ => Ask.aside.calm) h

theorem Calm.bind {x : Act R} {f : R → Act R'} (hx : Calm x) (hf : ∀ a, Calm (f a)) :
    Calm (x >>= f) :=
  Prog.Asks.then hx hf

theorem ask_calm {q : Ask} (hq : q.calm) : Calm (ask q) := Prog.Asks.fetch hq

theorem Calm.run {x : Act R} (hx : Calm x) {r : Except EnvironmentError R}
    (h : Prog.Run ocrWorld x.run s told r t) : t.deps = s.deps ∧ NoUv told := by
  refine ⟨?_, fun st hst => uvExit_calm (h.asked hx st hst)⟩
  exact h.keeps (I := fun u => u.deps = s.deps)
    (fun _ _ _ _ hq hw hu => (ocrWorld_calm hq hw).trans hu) hx rfl

theorem Aside.run {x : Act R} (hx : Aside x) {r : Except EnvironmentError R}
    (h : Prog.Run ocrWorld x.run s told r t) :
    t.deps = s.deps ∧ ∀ st ∈ told, st.question.aside :=
  ⟨(hx.calm.run h).1, h.asked hx⟩

end

/-! ## The uv part of a request -/

/-- Steps that came to nothing: the preference is as before, nobody looked at the package, and
    before each uv command and at the end the project files are as at the start. -/
structure Spent (s : Env) (told : List Heard) (t : Env) : Prop where
  preferences : t.preferences = s.preferences
  unseen : ∀ st ∈ told, seenInstalled st = none
  files : SyncsKept told → t.projectFiles = s.projectFiles ∧
    ∀ st ∈ told, uvExit st ≠ none → st.before.projectFiles = s.projectFiles

/-- The uv part of a request: after some attempts a command succeeds, or it gives up. -/
inductive UvPart (commands : UvCommand → Prop) (s : Env) :
    List Heard → Except EnvironmentError Unit → Env → Prop
  | done {pre : List Heard} {u t : Env} {c : UvCommand} : Spent s pre u → commands c →
      ocrWorld u (.uv c) .success t → UvPart commands s (pre ++ [⟨u, .uv c, .success, t⟩]) (.ok ()) t
  | gaveUp {told : List Heard} {t : Env} (e : EnvironmentError) : Spent s told t →
      UvPart commands s told (.error e) t

section
variable {R R' : Type} {s t u : Env} {told told' : List Heard} {commands : UvCommand → Prop}

theorem spent_nil (s : Env) : Spent s [] s :=
  ⟨rfl, fun _ hst => absurd hst List.not_mem_nil,
    fun _ => ⟨rfl, fun _ hst => absurd hst List.not_mem_nil⟩⟩

theorem Spent.trans (h : Spent s told u) (h' : Spent u told' t) : Spent s (told ++ told') t where
  preferences := h'.preferences.trans h.preferences
  unseen st hst := (List.mem_append.mp hst).elim (h.unseen st) (h'.unseen st)
  files hkept := by
    obtain ⟨hfiles, hbefore⟩ := h.files fun st hst => hkept st (List.mem_append_left _ hst)
    obtain ⟨hfiles', hbefore'⟩ := h'.files fun st hst => hkept st (List.mem_append_right _ hst)
    refine ⟨hfiles'.trans hfiles, fun st hst huv => ?_⟩
    cases List.mem_append.mp hst with
    | inl hst => exact hbefore st hst huv
    | inr hst => exact (hbefore' st hst huv).trans hfiles

theorem UvPart.behind {r : Except EnvironmentError Unit} (h : Spent s told u)
    (hpart : UvPart commands u told' r t) : UvPart commands s (told ++ told') r t := by
  cases hpart with
  | done hpre hc hw =>
    rw [← List.append_assoc]
    exact .done (h.trans hpre) hc hw
  | gaveUp e hspent => exact .gaveUp e (h.trans hspent)

theorem spent_aside {x : Act R} (hx : Aside x) {r : Except EnvironmentError R}
    (h : Prog.Run ocrWorld x.run s told r t) : Spent s told t := by
  obtain ⟨hdeps, hasked⟩ := hx.run h
  exact {
    preferences := congrArg Deps.preferences hdeps
    unseen := fun st hst => seenInstalled_silent (hasked st hst).silent
    files := fun _ => ⟨congrArg Deps.files hdeps,
      fun st hst huv => absurd (uvExit_silent (hasked st hst).silent) huv⟩ }

/-- Behind a step that leaves all this alone. -/
theorem uvPart_then {x : Act R} {f : R → Act Unit} (hx : Aside x)
    (hf : ∀ a u told r, Prog.Run ocrWorld (f a).run u told r t → UvPart commands u told r t)
    {r : Except EnvironmentError Unit} (h : Prog.Run ocrWorld (x >>= f).run s told r t) :
    UvPart commands s told r t := by
  cases h.then with
  | inl hfail =>
    obtain ⟨e, rfl, hrun⟩ := hfail
    exact .gaveUp e (spent_aside hx hrun)
  | inr hnext =>
    obtain ⟨a, u, first, rest, rfl, hrun, hrest⟩ := hnext
    exact UvPart.behind (spent_aside hx hrun) (hf a u rest r hrest)

theorem spent_sync {a : CommandResult} (hw : ocrWorld s (.uv .sync) a t) (ha : a ≠ .success) :
    Spent s [⟨s, .uv .sync, a, t⟩] t where
  preferences := ocrWorld_uv hw
  unseen st hst := by
    rw [List.mem_singleton.mp hst]
    rfl
  files hkept := by
    refine ⟨hkept _ List.mem_cons_self (decide_eq_true ha), fun st hst _ => ?_⟩
    rw [List.mem_singleton.mp hst]

/-- A command that failed, and the roll-back behind it. -/
theorem spent_alter {c : UvCommand} {a : CommandResult} {v w : Env} {b : ProjectFilesBackup}
    (hbackup : ocrWorld s .backup (.ok b) u) (hw : ocrWorld u (.uv c) a v)
    (hrestore : ocrWorld v (.restore b) () w) :
    Spent s [⟨s, .backup, .ok b, u⟩, ⟨u, .uv c, a, v⟩, ⟨v, .restore b, (), w⟩] w := by
  have hdeps : u.deps = s.deps := ocrWorld_calm (q := .backup) trivial hbackup
  have hb : b = s.projectFiles := Except.ok.inj hbackup.2
  obtain ⟨hfiles, hprefs⟩ := ocrWorld_restore hrestore
  refine ⟨?_, ?_, fun _ => ⟨hfiles.trans hb, ?_⟩⟩
  · rw [hprefs, ocrWorld_uv hw]
    exact congrArg Deps.preferences hdeps
  · simp only [List.forall_mem_cons, seenInstalled, List.not_mem_nil, false_imp_iff, implies_true,
      and_self]
  · simp only [List.forall_mem_cons, uvExit, ne_eq, not_true_eq_false, false_imp_iff, true_and,
      reduceCtorEq, not_false_eq_true, true_imp_iff, List.not_mem_nil, implies_true, and_true]
    exact congrArg Deps.files hdeps

theorem syncOnce_run {again : CommandResult → Act Unit}
    (hagain : ∀ a u told r, Prog.Run ocrWorld (again a).run u told r t →
      UvPart (· = .sync) u told r t)
    {r : Except EnvironmentError Unit} (h : Prog.Run ocrWorld (syncOnce again).run s told r t) :
    UvPart (· = .sync) s told r t := by
  refine uvPart_then look_aside (fun _ u told r h => ?_) h
  obtain ⟨a, v, rest, rfl, hw, hrest⟩ := h.ask_then
  cases a with
  | success =>
    cases hrest
    exact UvPart.done (spent_nil u) rfl hw
  | cancelled =>
    cases hrest
    exact .gaveUp _ (spent_sync hw CommandResult.noConfusion)
  | failed | timeout | io =>
    exact UvPart.behind (spent_sync hw CommandResult.noConfusion) (hagain _ _ _ _ hrest)

theorem syncAttempts_run : ∀ (left : Nat) (s : Env) (told : List Heard)
    (r : Except EnvironmentError Unit),
    Prog.Run ocrWorld (syncAttempts left).run s told r t → UvPart (· = .sync) s told r t
  | 0, s, told, r, h => by
    refine syncOnce_run (fun a u told r hthrow => ?_) h
    cases hthrow
    exact .gaveUp _ (spent_nil _)
  | left + 1, s, told, r, h =>
    syncOnce_run (fun _ u told r hrun => syncAttempts_run left u told r hrun) h

theorem runUvSync_run {r : Except EnvironmentError Unit}
    (h : Prog.Run ocrWorld runUvSync.run s told r t) : UvPart (· = .sync) s told r t :=
  uvPart_then uvStart_aside (fun _ u told r hrun => syncAttempts_run _ u told r hrun) h

/-- One set of arguments. -/
theorem alterOnce_run {c : UvCommand} {again : CommandResult → Act Unit} (hc : commands c)
    (hagain : ∀ a u told r, Prog.Run ocrWorld (again a).run u told r t →
      UvPart commands u told r t)
    {r : Except EnvironmentError Unit} (h : Prog.Run ocrWorld (alterOnce c again).run s told r t) :
    UvPart commands s told r t := by
  obtain ⟨backup, u, rest, rfl, hbackup, hrest⟩ := h.ask_then
  obtain rfl : backup = .ok s.projectFiles := hbackup.2
  obtain ⟨a, v, rest, rfl, hw, hrest⟩ := Prog.Run.ask_then (q := Ask.uv c) hrest
  -- all results but success go on with the roll-back
  have hrolled : ∀ {f : CommandResult → Act Unit}, f a = again a → Prog.Run ocrWorld
      (ask (.restore s.projectFiles) >>= fun _ => f a).run v rest r t →
      UvPart commands s (⟨s, .backup, .ok s.projectFiles, u⟩ :: ⟨u, .uv c, a, v⟩ :: rest) r t := by
    intro f hf hrun
    obtain ⟨_, w, rest, rfl, hrestore, hrest⟩ := hrun.ask_then
    exact UvPart.behind (spent_alter hbackup hw hrestore) (hagain _ _ _ _ (hf ▸ hrest))
  cases a with
  | success =>
    cases hrest
    exact UvPart.done (spent_aside (x := ask .backup) (ask_aside trivial)
      (.ask hbackup (.done _ _))) hc hw
  | failed | timeout | io | cancelled => exact hrolled (f := again) rfl hrest

theorem alterAttempts_run (op : String) : ∀ (command : UvCommand) (rest : List UvCommand)
    (s : Env) (told : List Heard) (r : Except EnvironmentError Unit), commands command →
    (∀ c ∈ rest, commands c) → Prog.Run ocrWorld (alterAttempts op command rest).run s told r t →
    UvPart commands s told r t
  | command, [], s, told, r, hc, _, h => by
    refine alterOnce_run hc (fun a u told r hthrow => ?_) h
    cases hthrow
    exact .gaveUp _ (spent_nil _)
  | command, next :: rest, s, told, r, hc, hrest, h => by
    obtain ⟨hnext, hrest⟩ := List.forall_mem_cons.mp hrest
    refine alterOnce_run hc (fun a u told r hrun => ?_) h
    cases a with
    | failed => exact alterAttempts_run op next rest u told r hnext hrest hrun
    | success | timeout | io | cancelled =>
      cases hrun
      exact .gaveUp _ (spent_nil _)

theorem runUvAdd_run {r : Except EnvironmentError Unit}
    (h : Prog.Run ocrWorld (runUvPackageAlter .add).run s told r t) :
    UvPart (· = .add) s told r t :=
  uvPart_then uvStart_aside
    (fun _ u told r hrun =>
      @alterAttempts_run _ (fun c => c = .add) "add" .add [] u told r rfl (by simp) hrun) h

theorem runUvRemove_run {r : Except EnvironmentError Unit}
    (h : Prog.Run ocrWorld (runUvPackageAlter .remove).run s told r t) :
    UvPart (fun c => c = .remove ∨ c = .removeOptional) s told r t :=
  uvPart_then uvStart_aside
    (fun _ u told r hrun =>
      alterAttempts_run "remove" .remove [.removeOptional] u told r (.inl rfl) (by simp) hrun) h

theorem UvPart.preferences {r : Except EnvironmentError Unit} (h : UvPart commands s told r t) :
    t.preferences = s.preferences := by
  cases h with
  | done hpre _ hw => exact (ocrWorld_uv hw).trans hpre.preferences
  | gaveUp e hspent => exact hspent.preferences

/-! ## Where the uv part stands in an operation -/

variable {head tail : List Heard} {r : Except EnvironmentError Unit}

/-- Where uv failed, the operation failed and nothing of it is left. -/
def RolledBack (told : List Heard) (r : Except EnvironmentError Unit) (t : Env) : Prop :=
  uvFailed told → SyncsKept told → (∃ e, r = .error e) ∧
    ∀ st ∈ told, uvExit st ≠ none → t.projectFiles = st.before.projectFiles

theorem rolledBack_noUv (h : NoUv told) : RolledBack told r t := by
  intro hfailed
  rw [uvFailed, filterMap_none h] at hfailed
  cases hfailed

/-- Steps without a uv command do not matter before the uv part. -/
theorem RolledBack.behind (hhead : NoUv head) (h : RolledBack told r t) :
    RolledBack (head ++ told) r t := by
  intro hfailed hkept
  rw [uvFailed, List.filterMap_append, filterMap_none hhead, List.nil_append] at hfailed
  obtain ⟨he, hbefore⟩ := h hfailed fun st hst => hkept st (List.mem_append_right _ hst)
  refine ⟨he, fun st hst huv => ?_⟩
  cases List.mem_append.mp hst with
  | inl hst => exact absurd (hhead st hst) huv
  | inr hst => exact hbefore st hst huv

theorem rolledBack_done (h : UvPart commands s told (.ok ()) u) (htail : NoUv tail) :
    RolledBack (told ++ tail) r t := by
  cases h with
  | done hpre hc hw =>
    intro hfailed
    rw [not_uvFailed_of_success rfl htail] at hfailed
    cases hfailed

theorem rolledBack_gaveUp {e e' : EnvironmentError} (h : UvPart commands s told (.error e) u)
    (htail : NoUv tail) (hu : t.projectFiles = u.projectFiles) :
    RolledBack (told ++ tail) (.error e') t := by
  cases h with
  | gaveUp _ hspent =>
    intro _ hkept
    obtain ⟨hfiles, hbefore⟩ := hspent.files fun st hst => hkept st (List.mem_append_left _ hst)
    refine ⟨⟨e', rfl⟩, fun st hst huv => ?_⟩
    rw [hu, hfiles]
    cases List.mem_append.mp hst with
    | inl hst => exact (hbefore st hst huv).symm
    | inr hst => exact absurd (htail st hst) huv

theorem rolledBack_error {e : EnvironmentError} (h : UvPart commands s told (.error e) t) :
    RolledBack told (.error e) t := by
  have hrolled : RolledBack (told ++ []) (.error e) t :=
    rolledBack_gaveUp h (fun _ hst => absurd hst List.not_mem_nil) rfl
  rwa [List.append_nil] at hrolled

end

end CampusAuth.Environment
