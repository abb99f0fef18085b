import CampusAuth.Update.Progress

/- The helper and the start of the main program keep the invariant, wherever they stop. -/
namespace CampusAuth.Update.Pending
open Lib

variable {V : Type} [LinearOrder V] {sha256 : Bytes → Text} {parseVersion : Text → Option V}
  {builtAs : Bytes → V} {u : Upgrade V sha256 parseVersion builtAs} {start : Disk}
  {W : Prog.World Disk Question Question.Answer} {J Err : Disk → Prop} {L : Set Slot}
  {s t : Disk} {c : Bytes}

/-! ## Clean-up -/

/-- The files are of one version, whether the record is left or not. -/
structure Even (u : Upgrade V sha256 parseVersion builtAs) (start s : Disk) : Prop where
  inv : Inv u start s
  uniform : s.Uniform u start

theorem Ready.even (h : Ready u start L s) (hexe : .exe ∈ L) (hhelper : .helper ∈ L)
    (hparts : partsSlots ⊆ L) : Even u start s := by
  refine ⟨h.inv, .inr fun slot => ?_⟩
  cases slot with
  | exe => exact h.done _ hexe
  | helper => exact h.done _ hhelper
  | installed part place => exact h.done _ (hparts ⟨part, place, rfl⟩)
  | backup | fresh | aside | stagedExe | stagedHelper => exact fun _ hc => nomatch hc

theorem Even.unrecorded (h : Even u start s) : Even u start { s with pending := none } where
  inv := ⟨h.inv.exe, fun _ hr => (nomatch hr), h.inv.stagedExe, h.inv.stagedHelper, h.inv.staged,
    fun _ => h.uniform, fun hne => absurd rfl hne⟩
  uniform := h.uniform

theorem Even.thinned (h : Even u start s) (hm : s.Thinned t)
    (hkept : s.pending = none ∨ t.files .stagedExe = none ∨ t.Held u) : Even u start t := by
  have hsame : ∀ slot, slot.distributed = true → t.files slot = s.files slot := by
    intro slot hslot
    refine hm.files slot ?_ ?_ <;> rintro rfl <;> cases hslot
  have huniform := h.uniform.congr hsame
  refine ⟨⟨(hsame .exe rfl).symm ▸ h.inv.exe, hm.pending ▸ h.inv.record, fun c hc => ?_,
    fun c hc => ?_, fun part dir hdir => ?_, fun _ => huniform, fun hsome => ?_⟩, huniform⟩
  · rcases hm.exe with hnone | heq
    · rw [hnone] at hc
      cases hc
    · exact h.inv.stagedExe c (heq ▸ hc)
  · rcases hm.helper with hnone | heq
    · rw [hnone] at hc
      cases hc
    · exact h.inv.stagedHelper c (heq ▸ hc)
  · obtain ⟨whole, hwhole, hsub⟩ := hm.staged part dir hdir
    obtain ⟨all, hall, hsub'⟩ := h.inv.staged part whole hwhole
    exact ⟨all, hall, fun f hf => hsub' (hsub hf)⟩
  · cases hexe : t.files .stagedExe with
    | none => exact .inr ⟨rfl, huniform⟩
    | some c =>
      have hexe' : s.files .stagedExe = some c := by
        rcases hm.exe with hnone | heq
        · rw [hexe] at hnone
          cases hnone
        · exact heq ▸ hexe
      obtain rfl := h.inv.stagedExe c hexe'
      rcases hkept with hnone | hnone | hheld
      · exact absurd (hm.pending.trans hnone) hsome
      · rw [hexe] at hnone
        cases hnone
      · exact .inl ⟨rfl, hheld⟩

theorem Disk.emptied_stagedExe : s.emptied.files .stagedExe = none := by
  show ((s.drop .stagedExe).drop .stagedHelper).files .stagedExe = none
  rw [drop_of_ne (by decide), drop_self]

theorem Disk.thinned_emptied : s.Thinned s.emptied where
  files _ hexe hhelper := (Disk.drop_of_ne hhelper).trans (Disk.drop_of_ne hexe)
  exe := .inl Disk.emptied_stagedExe
  helper := .inl (show ((s.drop .stagedExe).drop .stagedHelper).files .stagedHelper = none from
    Disk.drop_self)
  staged _ _ hdir := nomatch hdir
  pending := rfl

theorem Even.spare (h : Even u start s) (hm : s.Moved t)
    (hsame : ∀ slot, slot.spare = false → t.files slot = s.files slot) : Even u start t := by
  refine ⟨h.inv.spare hm hsame, h.uniform.congr fun slot hslot => ?_⟩
  exact hsame slot (Slot.not_spare_of_distributed hslot)

theorem removeRecord_leads (hW : Tame u start W) :
    Leads u start W (Even u start) (ask .removeRecord) (fun _ => Even u start) Err := by
  refine Prog.Triple.fetch fun s ok t h ht => ?_
  have hans := (hW s _ ok t (by simp) ht).answers
  cases ok with
  | true =>
    obtain rfl : t = _ := hans
    exact ⟨h.unrecorded.inv, h.unrecorded⟩
  | false =>
    obtain rfl : t = s := hans
    exact ⟨h.inv, h⟩

theorem removeStaging_leads (hW : Tame u start W) :
    Leads u start W (Even u start) (ask .removeStaging) (fun _ => Even u start) Err := by
  refine Prog.Triple.fetch fun s ok t h ht => ?_
  obtain ⟨hans, -, -, hkept⟩ := hW s _ ok t (by simp) ht
  have heven : Even u start t := by
    refine h.thinned ?_ (hkept rfl)
    cases ok with
    | true =>
      obtain rfl : t = _ := hans
      exact Disk.thinned_emptied
    | false => exact hans
  exact ⟨heven.inv, heven⟩

theorem cleanup_keeps (hW : Tame u start W) (stagingDir : Text) :
    Leads u start W (Even u start) (cleanup stagingDir) (fun _ => Even u start) Err := by
  refine Prog.Triple.bind (removeRecord_leads hW) fun _ => ?_
  refine Prog.Triple.bind (look_keeps hW (fun s h => h.inv) _) fun _ => ?_
  refine Prog.Triple.ite (fun _ => ?_) fun _ => Prog.Triple.pure fun _ h => h
  exact Prog.Triple.bind (removeStaging_leads hW) fun _ => Prog.Triple.pure fun _ h => h

theorem cleanupAfterApply_keeps (hW : Tame u start W) :
    Leads u start W (Even u start) cleanupAfterApply (fun _ => Even u start) Err := by
  refine Prog.Triple.bind (removeRecord_leads hW) fun _ => ?_
  exact Prog.Triple.bind (removeStaging_leads hW) fun _ => Prog.Triple.pure fun _ h => h

/-! ## The staged executable -/

/-- Before a package is trusted: what the record has is right, and a digest that does not match
    could not be read. -/
theorem digestMatches_leads (hW : Tame u start W) {slot : Slot} (hJ : ∀ s, J s → Inv u start s)
    (hasked : slot = .exe ∨ slot = .stagedExe) (hslot : ∀ s, J s → s.files slot = some u.newExe) :
    Leads u start W J (digestMatches slot u.record.sha256)
      (fun ok s => J s ∧ (ok = false → s.Uniform u start)) Err := by
  refine Prog.Triple.bind (M := fun (found : Option Text) s => J s ∧
    (∀ x, found = some x → sha256 u.newExe = x) ∧ (found = none → s.Uniform u start))
    (Prog.Triple.fetch fun s found t h ht => ?_) fun found => ?_
  · obtain ⟨⟨rfl, hfound⟩, hsteady, -, -⟩ := hW s _ found t (by simp) ht
    refine ⟨hJ _ h, h, fun x hx => ?_, ?_⟩
    case refine_2 => rcases hasked with rfl | rfl <;> exact hsteady
    obtain ⟨d, hd, hsum⟩ := hfound x hx
    rw [hslot _ h] at hd
    cases hd
    exact hsum
  · cases found with
    | some x =>
      refine Prog.Triple.pure fun s h => ⟨h.1, fun hno => ?_⟩
      obtain rfl := h.2.1 x rfl
      rw [u.summed] at hno
      cases hno
    | none => exact Prog.Triple.pure fun s h => ⟨h.1, fun _ => h.2.2 rfl⟩

theorem Inv.ready (h : Inv u start s) (hpending : s.pending = some u.record)
    (hthere : (s.files .stagedExe).isSome) : Ready u start ∅ s := by
  obtain ⟨c, hc⟩ := Option.isSome_iff_exists.mp hthere
  exact ⟨h, hpending, hc.trans (congrArg some (h.stagedExe c hc)), fun _ hmem => hmem.elim⟩

/-! ## The helper -/

/-- The two executables with one digest are one. -/
theorem exe_of_identical (h : Ready u start L s) (hsame : s.Shows sha256 .identical) :
    s.files .exe = some u.newExe := by
  obtain ⟨c, d, hc, hd, hsum⟩ := hsame
  rw [h.loaded] at hc
  cases hc
  rcases h.inv.exe with hold | hnew
  · rw [hold] at hd
    cases hd
    rw [hold, u.apart hsum.symm]
  · exact hnew

theorem stagingDirOf_keeps (hErr : ∀ s, J s → Err s) (cli : HelperCli) (pending : PendingUpdate) :
    Leads u start W J (stagingDirOf cli pending) (fun _ => J) Err := by
  unfold stagingDirOf
  split
  · exact Prog.Triple.pure fun _ h => h
  · split
    · exact Prog.Triple.throw hErr
    · exact Prog.Triple.pure fun _ h => h

theorem orExit_leads {R : Type} {found : Option R} {P : R → Disk → Prop}
    (hErr : ∀ s, J s → Err s) :
    Leads u start W (fun s => J s ∧ ∀ r, found = some r → P r s) (orExit found)
      (fun r s => J s ∧ P r s) Err := by
  cases found with
  | some r => exact Prog.Triple.pure fun s h => ⟨h.1, h.2 r rfl⟩
  | none => exact Prog.Triple.throw fun s h => hErr s h.1

/-- The executable a main program was started from. -/
def RunsFrom (u : Upgrade V sha256 parseVersion builtAs) (start : Disk) (c : Bytes)
    (s : Disk) : Prop :=
  Inv u start s ∧ s.files .exe = some c

theorem RunsFrom.exe (h : RunsFrom u start c s) : c = u.oldExe ∨ c = u.newExe := by
  rcases h.1.exe with hold | hnew
  · exact .inl (Option.some.inj (h.2.symm.trans hold))
  · exact .inr (Option.some.inj (h.2.symm.trans hnew))

/-- A main program of the version of the record runs from the new executable, and none is newer. -/
theorem RunsFrom.versions (h : RunsFrom u start c s) :
    (u.version = builtAs c → c = u.newExe) ∧ ¬u.version < builtAs c := by
  rcases h.exe with rfl | rfl
  · exact ⟨fun heq => absurd heq u.newer.ne', u.newer.le.not_gt⟩
  · exact ⟨fun _ => rfl, fun hlt => hlt.ne u.built.symm⟩

section
variable (hW : Tame u start W)
include hW

theorem backUp_keeps : Leads u start W (Ready u start L) backUp (fun _ => Ready u start L) Err := by
  refine Prog.Triple.bind (look_keeps hW (fun s h => h.inv) _) fun _ => ?_
  refine Prog.Triple.ite (fun _ => ?_) fun _ => Prog.Triple.pure fun _ h => h
  refine Prog.Triple.bind (M := fun (_ : Copied) => Ready u start L)
    (Prog.Triple.fetch fun s copied t h ht => ?_) fun _ => Prog.Triple.pure fun _ h => h
  have hans := (hW s _ copied t (by simp) ht).answers
  have hready : Ready u start L t := by
    cases copied with
    | whole =>
      obtain ⟨c, -, rfl⟩ := hans
      exact h.putSpare rfl c
    | untouched =>
      obtain rfl : t = s := hans
      exact h
    | cut n =>
      obtain ⟨c, -, rfl⟩ := hans
      exact h.putSpare rfl _
  exact ⟨hready.inv, hready⟩

theorem renameFresh_leads (copied : Copied) :
    Leads u start W
      (fun s => Ready u start L s ∧ (copied = .whole → s.files .fresh = some u.newExe))
      (renameFresh copied) (fun ok => Ready u start (if ok then insert .exe L else L)) Err := by
  cases copied with
  | whole =>
    have hrename : Leads u start W
        (fun s => Ready u start L s ∧ (Copied.whole = .whole → s.files .fresh = some u.newExe))
        (ask (.rename .fresh .exe))
        (fun (ok : Bool) => Ready u start (if ok then insert .exe L else L)) Err := by
      refine Prog.Triple.fetch fun s ok t h ht => ?_
      have hans := (hW s _ ok t (by simp) ht).answers
      cases ok with
      | true =>
        obtain ⟨c, hc, rfl⟩ := hans
        rw [h.2 rfl] at hc
        cases hc
        have hready := (h.1.put u.target_exe).dropSpare Slot.spare_fresh
        exact ⟨hready.inv, hready⟩
      | false =>
        obtain rfl : t = s := hans
        exact ⟨h.1.inv, h.1⟩
    exact Prog.Triple.bind hrename fun _ => Prog.Triple.pure fun _ h => h
  | untouched | cut _ => exact Prog.Triple.pure fun s h => h.1

theorem atomicReplaceFile_leads :
    Leads u start W (Ready u start L) atomicReplaceFile
      (fun ok => Ready u start (if ok then insert .exe L else L)) Err := by
  refine Prog.Triple.bind (M := fun (copied : Copied) s => Ready u start L s ∧
    (copied = .whole → s.files .fresh = some u.newExe))
    (Prog.Triple.fetch fun s copied t h ht => ?_) fun copied => ?_
  · have hans := (hW s _ copied t (by simp) ht).answers
    cases copied with
    | whole =>
      obtain ⟨c, hc, rfl⟩ := hans
      rw [h.loaded] at hc
      cases hc
      have hready := h.putSpare Slot.spare_fresh u.newExe
      exact ⟨hready.inv, hready, fun _ => Disk.put_self⟩
    | untouched =>
      obtain rfl : t = s := hans
      exact ⟨h.inv, h, fun hno => nomatch hno⟩
    | cut n =>
      obtain ⟨c, -, rfl⟩ := hans
      have hready := h.putSpare Slot.spare_fresh (c.take n)
      exact ⟨hready.inv, hready, fun hno => nomatch hno⟩
  refine Prog.Triple.bind (renameFresh_leads hW copied) fun replaced => ?_
  cases replaced with
  | true => exact Prog.Triple.pure fun _ h => h
  | false => exact Prog.Triple.bind (remove_keeps hW rfl) fun _ => Prog.Triple.pure fun _ h => h

/-- What is put back is a whole executable, and the record is still there. -/
theorem rollBack_leads :
    Leads u start W (Ready u start L) rollBack (fun _ => Ready u start ∅) Err := by
  have hempty : ∀ s, Ready u start L s → Ready u start ∅ s :=
    fun s h => h.mono fun _ hmem => hmem.elim
  refine Prog.Triple.bind (look_keeps hW (fun s h => h.inv) _) fun _ => ?_
  refine Prog.Triple.ite (fun _ => ?_) fun _ => Prog.Triple.pure hempty
  refine Prog.Triple.bind (M := fun (_ : Copied) => Ready u start ∅)
    (Prog.Triple.fetch fun s copied t h ht => ?_) fun _ => Prog.Triple.pure fun _ h => h
  obtain ⟨hans, hsteady, -, -⟩ := hW s _ copied t (by simp) ht
  have hready : Ready u start ∅ t := by
    cases copied with
    | whole =>
      obtain ⟨c, hc, rfl⟩ := hans
      exact h.exePut (hsteady c c hc rfl)
    | untouched =>
      obtain rfl : t = s := hans
      exact hempty t h
    | cut n =>
      obtain ⟨c, hc, rfl⟩ := hans
      exact h.exePut (hsteady c (c.take n) hc rfl)
  exact ⟨hready.inv, hready⟩

theorem replaceExe_leads {alreadyReplaced : Bool} (hdone : alreadyReplaced = true → Slot.exe ∈ L) :
    Leads u start W (Ready u start L) (replaceExe alreadyReplaced)
      (fun _ => Ready u start (insert .exe L)) (Inv u start) := by
  refine Prog.Triple.ite (fun halready => Prog.Triple.pure fun s h => ?_) fun _ => ?_
  · rwa [Set.insert_eq_of_mem (hdone halready)]
  refine Prog.Triple.bind (backUp_keeps hW) fun _ => ?_
  refine Prog.Triple.bind (atomicReplaceFile_leads hW) fun replaced => ?_
  cases replaced with
  | true => exact Prog.Triple.pure fun _ h => h
  | false =>
    exact Prog.Triple.bind (rollBack_leads hW) fun _ => Prog.Triple.throw fun _ h => h.inv

/-- What else happens while the helper sleeps leaves files of one version. -/
theorem launch_keeps (hsleep : ∀ s t, Even u start s → W s .sleep () t → Even u start t) :
    Leads u start W (Even u start) launch (fun _ => Even u start) Err := by
  have hprobe : Leads u start W (Even u start) (ask .probe) (fun _ => Even u start) Err := by
    refine Prog.Triple.fetch fun s probe t h ht => ?_
    obtain rfl : t = s := (hW s _ probe t (by simp) ht).answers
    exact ⟨h.inv, h⟩
  refine Prog.Triple.bind (look_keeps hW (fun s h => h.inv) _) fun _ => ?_
  refine Prog.Triple.ite (fun _ => ?_) fun _ => Prog.Triple.pure fun _ h => h
  refine Prog.Triple.bind hprobe fun first => ?_
  refine Prog.Triple.bind (M := fun _ => Even u start) ?_ fun second => ?_
  · cases first with
    | alive =>
      refine Prog.Triple.bind (M := fun _ => Even u start)
        (Prog.Triple.fetch fun s a t h ht => ?_)
        fun _ => Prog.Triple.bind hprobe fun _ => Prog.Triple.pure fun _ h => h
      have heven := hsleep s t h ht
      exact ⟨heven.inv, heven⟩
    | exited _ | failed => exact Prog.Triple.pure fun _ h => h
  refine Prog.Triple.ite (fun _ => ?_) fun _ => Prog.Triple.pure fun _ h => h
  refine Prog.Triple.bind (M := fun (_ : Bool) => Even u start)
    (Prog.Triple.fetch fun s ok t h ht => ?_) fun _ => Prog.Triple.pure fun _ h => h
  have hans := (hW s _ ok t (by simp) ht).answers
  have heven : Even u start t := by
    cases ok with
    | true =>
      obtain rfl : t = _ := hans
      exact h.spare ⟨rfl, rfl, rfl, rfl⟩ fun slot hslot => Disk.drop_of_ne (by
        rintro rfl
        cases hslot)
    | false =>
      obtain rfl : t = s := hans
      exact h
  exact ⟨heven.inv, heven⟩

theorem applyStaged_leads (hsleep : ∀ s t, Even u start s → W s .sleep () t → Even u start t)
    (stagingDir : Text) : Leads u start W (Ready u start ∅) (applyStaged stagingDir)
      (fun _ => Inv u start) (Inv u start) := by
  refine Prog.Triple.bind (M := fun (already : Bool) =>
    Ready u start (if already then {.exe} else ∅))
    ((look_leads hW (fun s h => h.inv) .identical).conseq (fun _ h => h) (fun already s h => ?_)
      fun _ h => h) fun already => ?_
  · cases already with
    | true =>
      refine h.1.mono ?_
      rintro slot rfl c hc
      cases hc
      exact exe_of_identical h.1 (h.2.1 rfl)
    | false => exact h.1
  refine Prog.Triple.bind (syncDistributionFiles_leads hW) fun _ => ?_
  refine Prog.Triple.bind (replaceExe_leads hW fun halready => .inl ?_) fun _ => ?_
  · rw [if_pos halready]
    rfl
  refine Prog.Triple.bind (look_keeps hW (fun s h => h.inv) _) fun _ => ?_
  refine Prog.Triple.bind (replaceHelper_leads hW) fun _ => ?_
  refine Prog.Triple.bind (M := fun _ => Even u start)
    ((succeeds_triple (syncPortableMarker_keeps hW)).conseq (fun _ h => h) (fun ok s h => ?_)
      fun _ h => h) fun _ => ?_
  · rw [ite_self] at h
    refine h.even (.inr (.inl rfl)) (.inl rfl) fun slot hslot => .inr (.inr (.inr hslot))
  refine Prog.Triple.bind (launch_keeps hW hsleep) fun _ => ?_
  exact (cleanup_keeps hW stagingDir).conseq (fun _ h => h) (fun _ _ h => h.inv) fun _ h => h

theorem verifyStagingSha256_leads :
    Leads u start W (Ready u start L) (verifyStagingSha256 u.record.sha256)
      (fun ok s => Ready u start L s ∧ (ok = false → s.Uniform u start)) Err := by
  unfold verifyStagingSha256
  rw [if_neg u.digest]
  exact digestMatches_leads hW (fun s h => h.inv) (.inr rfl) fun s h => h.loaded

/-- A package that is not trusted is given up while the files are of one version. -/
theorem trustStaged_leads (stagingDir : Text) {ok : Bool} (hJ : ∀ s, J s → Inv u start s)
    (hno : ok = false → ∀ s, J s → s.Uniform u start) :
    Leads u start W J (trustStaged stagingDir ok) (fun _ s => ok = true ∧ J s) (Inv u start) := by
  cases ok with
  | true => exact Prog.Triple.pure fun _ h => ⟨rfl, h⟩
  | false =>
    refine Prog.Triple.bind (M := fun _ => Even u start) ?_ fun _ =>
      Prog.Triple.throw fun _ h => h.inv
    exact (cleanup_keeps hW stagingDir).conseq (fun s h => ⟨hJ s h, hno rfl s h⟩) (fun _ _ h => h)
      fun _ h => h

theorem isFileAt_keeps (hJ : ∀ s, J s → Inv u start s) (path : Option Text) :
    Leads u start W J (isFileAt path) (fun _ => J) Err := by
  cases path with
  | some path => exact look_keeps hW hJ _
  | none => exact Prog.Triple.pure fun _ h => h

theorem resolveTargetExe_keeps (hJ : ∀ s, J s → Inv u start s) (derived provided : Option Text) :
    Leads u start W J (resolveTargetExe derived provided) (fun _ => J) Err := by
  refine Prog.Triple.bind (isFileAt_keeps hW hJ derived) fun derivedThere => ?_
  have hgiven : ∀ given, Leads u start W J
      (do if ← look (.isFile given) then look (.withinBase given) else pure false)
      (fun _ => J) Err := fun given =>
    Prog.Triple.bind (look_keeps hW hJ _) fun _ =>
      Prog.Triple.ite (fun _ => look_keeps hW hJ _) fun _ => Prog.Triple.pure fun _ h => h
  cases provided with
  | none => cases derived <;> exact Prog.Triple.pure fun _ h => h
  | some given =>
    cases derived with
    | none => exact hgiven given
    | some path =>
      cases derivedThere with
      | true => exact look_keeps hW hJ _
      | false => exact hgiven given

theorem workerTargetValid_keeps (hJ : ∀ s, J s → Inv u start s) (bundled target : Text) :
    Leads u start W J (workerTargetValid bundled target) (fun _ => J) Err := by
  refine Prog.Triple.bind (look_keeps hW hJ _) fun _ => ?_
  refine Prog.Triple.ite (fun _ => ?_) fun _ => Prog.Triple.pure fun _ h => h
  refine Prog.Triple.bind (look_keeps hW hJ _) fun _ => ?_
  exact Prog.Triple.ite (fun _ => look_keeps hW hJ _) fun _ => Prog.Triple.pure fun _ h => h

/-- The helper keeps the invariant up to wherever it stops. -/
theorem runApplyUpdate_leads (hsleep : ∀ s t, Even u start s → W s .sleep () t → Even u start t)
    (own : V) (cli : HelperCli) :
    Leads u start W (Inv u start) (runApplyUpdate parseVersion own cli) (fun _ => Inv u start)
      (Inv u start) := by
  have hI : ∀ s, Inv u start s → Inv u start s := fun _ h => h
  refine Prog.Triple.bind (look_keeps hW hI _) fun _ => ?_
  refine Prog.Triple.bind (require_keeps hI) fun _ => ?_
  refine Prog.Triple.bind (look_keeps hW hI _) fun _ => ?_
  refine Prog.Triple.bind (require_keeps hI) fun _ => ?_
  refine Prog.Triple.bind (M := fun (found : Option PendingUpdate) s => Inv u start s ∧
    ∀ r, found = some r → s.pending = some r)
    (Prog.Triple.fetch fun s found t h ht => ?_) fun found => ?_
  · obtain ⟨rfl, hfound⟩ := (hW s _ found t (by simp) ht).answers
    exact ⟨h, h, hfound⟩
  refine Prog.Triple.bind (orExit_leads hI) fun r => ?_
  let J := fun s : Disk => Inv u start s ∧ s.pending = some r
  have hJ : ∀ s, J s → Inv u start s := fun _ h => h.1
  by_cases hr : r = u.record
  case neg => exact fun s h => absurd (h.1.record r h.2) hr
  refine Prog.Triple.bind (stagingDirOf_keeps hJ cli r) fun stagingDir => ?_
  refine Prog.Triple.bind (M := fun _ => J) (Prog.Triple.fetch fun s a t h ht => ?_)
    fun derived => ?_
  · obtain rfl : t = s := (hW s _ a t (by simp) ht).answers
    exact ⟨h.1, h⟩
  refine Prog.Triple.bind (resolveTargetExe_keeps hW hJ _ _) fun _ => ?_
  refine Prog.Triple.bind (require_keeps hJ) fun _ => ?_
  refine Prog.Triple.bind (workerTargetValid_keeps hW hJ _ _) fun _ => ?_
  refine Prog.Triple.bind (require_keeps hJ) fun _ => ?_
  refine Prog.Triple.bind (require_keeps hJ) fun _ => ?_
  refine Prog.Triple.bind (look_keeps hW hJ _) fun _ => ?_
  refine Prog.Triple.bind (require_keeps hJ) fun _ => ?_
  refine Prog.Triple.bind (look_leads hW hJ _) fun there => ?_
  refine Prog.Triple.bind (trustStaged_leads hW stagingDir (fun s h => h.1.1)
    fun hno s h => h.2.2 hno) fun _ => ?_
  refine Prog.Triple.conseq (J := Ready u start ∅) ?_
    (fun s h => h.2.1.1.ready (hr ▸ h.2.1.2) (h.2.2.1 h.1)) (fun _ _ h => h) fun _ h => h
  refine Prog.Triple.bind (hr ▸ verifyStagingSha256_leads hW) fun ok => ?_
  refine Prog.Triple.bind (trustStaged_leads hW stagingDir (fun s h => h.1.inv)
    fun hno s h => h.2 hno) fun _ => ?_
  exact (applyStaged_leads hW hsleep stagingDir).conseq (fun _ h => h.2.1) (fun _ _ h => h)
    fun _ h => h

/-! ## The start of the main program -/

/-- A package is refused while the files are of one version. -/
theorem refuseUnless_leads {ok : Bool} (hJ : ∀ s, J s → Inv u start s)
    (hno : ok = false → ∀ s, J s → s.Uniform u start) :
    Leads u start W J (refuseUnless ok) (fun _ s => ok = true ∧ J s) (Inv u start) := by
  cases ok with
  | true => exact Prog.Triple.pure fun _ h => ⟨rfl, h⟩
  | false =>
    refine Prog.Triple.bind (M := fun _ => Even u start) ?_ fun _ =>
      Prog.Triple.throw fun _ h => h.inv
    exact (cleanupAfterApply_keeps hW).conseq (fun s h => ⟨hJ s h, hno rfl s h⟩) (fun _ _ h => h)
      fun _ h => h

theorem orRefuse_leads {R : Type} {found : Option R} {P : R → Disk → Prop}
    (hJ : ∀ s, J s → Inv u start s) (hnone : found = none → ∀ s, J s → s.Uniform u start)
    (hsome : ∀ r, found = some r → ∀ s, J s → P r s) :
    Leads u start W J (orRefuse found) (fun r s => J s ∧ P r s) (Inv u start) := by
  cases found with
  | some r => exact Prog.Triple.pure fun s h => ⟨h, hsome r rfl s h⟩
  | none =>
    refine Prog.Triple.bind (M := fun _ => Even u start) ?_ fun _ =>
      Prog.Triple.throw fun _ h => h.inv
    exact (cleanupAfterApply_keeps hW).conseq (fun s h => ⟨hJ s h, hnone rfl s h⟩) (fun _ _ h => h)
      fun _ h => h

/-- A directory that is stale is removed while the files are of one version. -/
theorem cleanupStaleStaging_keeps :
    Leads u start W (Inv u start) cleanupStaleStaging (fun _ => Inv u start) Err := by
  refine Prog.Triple.bind (look_leads hW (fun _ h => h) _) fun stale => ?_
  refine Prog.Triple.ite (fun hstale => ?_) fun _ => Prog.Triple.pure fun _ h => h.1
  refine Prog.Triple.bind (M := fun _ => Even u start) ?_ fun _ =>
    Prog.Triple.pure fun _ h => h.inv
  exact (removeStaging_leads hW).conseq (fun _ h => ⟨h.1, h.2.2 hstale⟩) (fun _ _ h => h)
    fun _ h => h

/-- Where the executable is not replaced, it is the new one. -/
theorem replaceCurrent_leads {same : Bool} (hsame : same = true → Slot.exe ∈ L) :
    Leads u start W (Ready u start L) (replaceCurrent same)
      (fun _ => Ready u start (insert .exe L)) (Inv u start) := by
  have hreplace : Leads u start W (Ready u start L) (ask .selfReplace)
      (fun (ok : Bool) => Ready u start (if ok then insert .exe L else L)) (Inv u start) := by
    refine Prog.Triple.fetch fun s ok t h ht => ?_
    obtain ⟨hans, -, hleft, -⟩ := hW s _ ok t (by simp) ht
    cases ok with
    | true =>
      obtain ⟨c, hc, rfl⟩ := hans
      rw [h.loaded] at hc
      cases hc
      have hready := h.put u.target_exe
      exact ⟨hready.inv, hready⟩
    | false =>
      have hsame : t = s := hans.resolve_right fun hgone =>
        hleft rfl (hgone.symm ▸ Disk.drop_self)
      exact hsame.symm ▸ ⟨h.inv, h⟩
  refine Prog.Triple.ite (fun hyes => Prog.Triple.pure fun s h => ?_) fun _ => ?_
  · rwa [Set.insert_eq_of_mem (hsame hyes)]
  refine Prog.Triple.bind hreplace fun ok => ?_
  cases ok with
  | true => exact Prog.Triple.pure fun _ h => h
  | false => exact Prog.Triple.throw fun _ h => h.inv

theorem applyTrusted_leads {same : Bool} (hsame : same = true → Slot.exe ∈ L) :
    Leads u start W (Ready u start L) (applyTrusted same) (fun _ => Even u start)
      (Inv u start) := by
  have hJ : ∀ s, Ready u start L s → Inv u start s := fun s h => h.inv
  refine Prog.Triple.bind (look_keeps hW hJ _) fun cancelled => ?_
  refine Prog.Triple.bind (M := fun _ => Ready u start L) ?_ fun _ => ?_
  · cases cancelled with
    | true => exact Prog.Triple.throw hJ
    | false => exact Prog.Triple.pure fun _ h => h
  refine Prog.Triple.bind (look_keeps hW hJ _) fun _ => ?_
  refine Prog.Triple.bind (require_keeps hJ) fun _ => ?_
  refine Prog.Triple.bind (syncDistributionFiles_leads hW) fun _ => ?_
  refine Prog.Triple.bind (replaceCurrent_leads hW fun hyes => .inl (hsame hyes)) fun _ => ?_
  refine Prog.Triple.bind (replaceHelper_leads hW) fun _ => ?_
  refine (syncPortableMarker_keeps hW).conseq (fun _ h => h) (fun _ s h => ?_) fun _ h => h.inv
  exact h.even (.inr (.inl rfl)) (.inl rfl) fun slot hslot => .inr (.inr (.inr hslot))

theorem applyPendingLocked_leads :
    Leads u start W (RunsFrom u start c) (applyPendingLocked parseVersion (builtAs c))
      (fun _ => Inv u start) (Inv u start) := by
  refine Prog.Triple.bind (M := fun (found : Option PendingUpdate) s => RunsFrom u start c s ∧
    (∀ r, found = some r → s.pending = some r) ∧ (found = none → s.Uniform u start))
    (Prog.Triple.fetch fun s found t h ht => ?_) fun found => ?_
  · obtain ⟨⟨rfl, hfound⟩, hsteady, -, -⟩ := hW s _ found t (by simp) ht
    exact ⟨h.1, h, hfound, hsteady⟩
  refine Prog.Triple.bind (orRefuse_leads hW (fun s h => h.1.1) (fun hnone s h => h.2.2 hnone)
    fun r hr s h => h.2.1 r hr) fun r => ?_
  let J := fun s : Disk => RunsFrom u start c s ∧ s.pending = some r
  have hJ : ∀ s, J s → Inv u start s := fun _ h => h.1.1
  by_cases hr : r = u.record
  case neg => exact fun s h => absurd (h.1.1.1.record r h.2) hr
  subst hr
  refine Prog.Triple.conseq (J := J) ?_ (fun _ h => ⟨h.1.1, h.2⟩) (fun _ _ h => h) fun _ h => h
  refine Prog.Triple.bind (look_keeps hW hJ _) fun _ => ?_
  refine Prog.Triple.bind (require_keeps hJ) fun _ => ?_
  refine Prog.Triple.bind (look_leads hW hJ _) fun valid => ?_
  refine Prog.Triple.bind (refuseUnless_leads hW (fun s h => hJ s h.1) fun hno s h => h.2.2 hno)
    fun _ => ?_
  refine Prog.Triple.conseq (J := J) ?_ (fun _ h => h.2.1) (fun _ _ h => h) fun _ h => h
  refine Prog.Triple.bind (refuseUnless_leads hW hJ fun hno => ?_) fun _ => ?_
  · exact absurd (of_decide_eq_false hno) (not_not_intro u.digest)
  refine Prog.Triple.conseq (J := J) ?_ (fun _ h => h.2) (fun _ _ h => h) fun _ h => h
  refine Prog.Triple.bind (look_leads hW hJ _) fun there => ?_
  refine Prog.Triple.bind (refuseUnless_leads hW (fun s h => hJ s h.1) fun hno s h => h.2.2 hno)
    fun _ => ?_
  let K := fun s : Disk => Ready u start ∅ s ∧ s.files .exe = some c
  have hK : ∀ s, K s → Inv u start s := fun _ h => h.1.inv
  refine Prog.Triple.conseq (J := K) ?_
    (fun s h => ⟨h.2.1.1.1.ready h.2.1.2 (h.2.2.1 h.1), h.2.1.1.2⟩) (fun _ _ h => h) fun _ h => h
  refine Prog.Triple.bind (digestMatches_leads hW hK (.inr rfl) fun s h => h.1.loaded) fun ok => ?_
  refine Prog.Triple.bind (refuseUnless_leads hW (fun s h => hK s h.1) fun hno s h => h.2 hno)
    fun _ => ?_
  refine Prog.Triple.conseq (J := K) ?_ (fun _ h => h.2.1) (fun _ _ h => h) fun _ h => h
  rw [u.parsed]
  refine Prog.Triple.bind (M := fun version s => version = u.version ∧ K s)
    (Prog.Triple.pure fun s h => ⟨rfl, h⟩) fun version => ?_
  by_cases hversion : version = u.version ∧ (u.version = builtAs c → c = u.newExe) ∧
    ¬u.version < builtAs c
  case neg =>
    exact fun s h => absurd ⟨h.1, RunsFrom.versions ⟨h.2.1.inv, h.2.2⟩⟩ hversion
  obtain ⟨rfl, hnew, hnewer⟩ := hversion
  refine Prog.Triple.conseq (J := K) ?_ (fun _ h => h.2) (fun _ _ h => h) fun _ h => h
  let same : Bool := u.version = builtAs c
  refine Prog.Triple.bind (M := fun matching s => K s ∧
    (same = true → matching = false → s.Uniform u start)) ?_ fun matching => ?_
  · refine Prog.Triple.ite (fun hsame => ?_) fun hsame =>
      Prog.Triple.pure fun s h => ⟨h, fun hyes => absurd (hsame.symm.trans hyes) (by decide)⟩
    have hslot : ∀ s, K s → s.files .exe = some u.newExe := fun s h =>
      hnew (of_decide_eq_true hsame) ▸ h.2
    exact (digestMatches_leads hW hK (.inl rfl) hslot).conseq (fun _ h => h)
      (fun _ _ h => ⟨h.1, fun _ => h.2⟩) fun _ h => h
  refine Prog.Triple.bind (refuseUnless_leads hW (fun s h => hK s h.1) fun hno s h => ?_)
    fun _ => ?_
  · rw [decide_eq_false hnewer, Bool.false_or, Bool.not_eq_false', Bool.and_eq_true,
      Bool.not_eq_true'] at hno
    exact h.2 hno.1 hno.2
  refine Prog.Triple.conseq (J := Ready u start (if same then {.exe} else ∅)) ?_ (fun s h => ?_)
    (fun _ _ h => h) fun _ h => h
  · refine Prog.Triple.bind (applyTrusted_leads hW fun hsame => ?_) fun _ => ?_
    · rw [if_pos hsame]
      rfl
    exact Prog.Triple.bind (cleanupAfterApply_keeps hW) fun _ => Prog.Triple.pure fun _ h => h.inv
  · refine h.2.1.1.mono fun slot hmem => ?_
    by_cases hsame : same = true
    · rw [if_pos hsame] at hmem
      obtain rfl := hmem
      intro d hd
      cases hd
      exact hnew (of_decide_eq_true hsame) ▸ h.2.1.2
    · rw [if_neg hsame] at hmem
      cases hmem

/-- The start of the main program keeps the invariant up to wherever it stops. -/
theorem applyPendingOnStartup_leads :
    Leads u start W (RunsFrom u start c) (applyPendingOnStartup parseVersion (builtAs c))
      (fun _ => Inv u start) (Inv u start) := by
  have hJ : ∀ s, RunsFrom u start c s → Inv u start s := fun s h => h.1
  refine Prog.Triple.bind (look_keeps hW hJ _) fun begun => ?_
  refine Prog.Triple.bind (M := fun _ => RunsFrom u start c) ?_ fun _ => ?_
  · cases begun with
    | true => exact Prog.Triple.pure fun _ h => h
    | false => exact Prog.Triple.throw hJ
  refine Prog.Triple.bind (look_keeps hW hJ _) fun there => ?_
  refine Prog.Triple.ite (fun _ => ?_) fun _ => ?_
  · refine Prog.Triple.bind (look_keeps hW hJ _) fun _ => ?_
    refine Prog.Triple.bind (require_keeps hJ) fun _ => ?_
    exact applyPendingLocked_leads hW
  · refine Prog.Triple.conseq (J := Inv u start) ?_ hJ (fun _ _ h => h) fun _ h => h
    exact Prog.Triple.bind (cleanupStaleStaging_keeps hW) fun _ => Prog.Triple.pure fun _ h => h

end
end CampusAuth.Update.Pending
