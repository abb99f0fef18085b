import CampusAuth.Lib.Assoc
import CampusAuth.Update.Pending
import Mathlib.Data.Set.Insert

/- How far an update has come on the disk, and what the steps of its procedures do to that.

   A slot is done when it has what the new version has there. `Inv` is what holds at every point
   of every procedure: the executable is a whole one, without a record the files are of one
   version, and with a record everything that is not done is still staged. A procedure that has
   found the staged executable works in `Ready`, which says what is done already; all the steps of
   the distribution keep it. `Steady` excludes the answers after which that fails. -/
namespace CampusAuth.Update.Pending
open Lib

/-! ## The world -/

/-- The files of a directory that are distributed, by their places. -/
def Dir.leaves : Dir → Place → List (Place × Bytes)
  | .nil, _ => []
  | .file name content rest, place =>
    (if name ∈ skipNames then [] else [(place ++ [name], content)]) ++ rest.leaves place
  | .sub name entries rest, place =>
    (if name ∈ skipNames then [] else entries.leaves (place ++ [name])) ++ rest.leaves place

/-- `t` is `s` with a part of the staging directory removed. -/
structure Disk.Thinned (s t : Disk) : Prop where
  files : ∀ slot, slot ≠ .stagedExe → slot ≠ .stagedHelper → t.files slot = s.files slot
  exe : t.files .stagedExe = none ∨ t.files .stagedExe = s.files .stagedExe
  helper : t.files .stagedHelper = none ∨ t.files .stagedHelper = s.files .stagedHelper
  staged : ∀ part dir, t.staged part = some dir →
    ∃ whole, s.staged part = some whole ∧ dir.leaves [] ⊆ whole.leaves []
  pending : t.pending = s.pending

/-- The staging directory is gone. -/
def Disk.emptied (s : Disk) : Disk :=
  { (s.drop .stagedExe).drop .stagedHelper with staged := fun _ => none }

section
variable (sha256 : Bytes → Text)

/-- What is so when the answer is yes. -/
def Disk.Shows (s : Disk) : Look → Prop
  | .there slot => (s.files slot).isSome
  | .identical => ∃ c d, s.files .stagedExe = some c ∧ s.files .exe = some d ∧ sha256 c = sha256 d
  | .recordThere => s.pending.isSome
  | _ => True

/-- The answers and what becomes of the disk. The crate that replaces the executable of a running
    process may move it away before the new one is there. -/
def Answers (s : Disk) : (q : Question) → q.Answer → Disk → Prop
  | .look l, a, t => t = s ∧ (a = true → s.Shows sha256 l)
  | .stagedPart part, a, t => t = s ∧ ∀ dir, a = some dir → s.staged part = some dir
  | .readPending, a, t | .readRecord, a, t => t = s ∧ ∀ r, a = some r → s.pending = some r
  | .derivedTarget, _, t | .probe, _, t | .sleep, _, t => t = s
  | .digest slot, a, t =>
    t = s ∧ ∀ x, a = some x → ∃ c, s.files slot = some c ∧ sha256 c = x
  | .copy _ _, .untouched, t => t = s
  | .copy src dst, .whole, t => ∃ c, s.files src = some c ∧ t = s.put dst c
  | .copy src dst, .cut n, t => ∃ c, s.files src = some c ∧ t = s.put dst (c.take n)
  | .copyAtomically _ _, false, t | .install _ _ _, false, t | .rename _ _, false, t
  | .remove _, false, t | .removeRecord, false, t | .writeResync, false, t
  | .writeMarker, false, t => t = s
  | .copyAtomically src dst, true, t => ∃ c, s.files src = some c ∧ t = s.put dst c
  | .install part place content, true, t => t = s.put (.installed part place) content
  | .rename src dst, true, t => ∃ c, s.files src = some c ∧ t = (s.put dst c).drop src
  | .remove slot, true, t => t = s.drop slot
  | .removeRecord, true, t => t = { s with pending := none }
  | .removeStaging, false, t => s.Thinned t
  | .removeStaging, true, t => t = s.emptied
  | .writeResync, true, t => t = { s with resync := true }
  | .writeMarker, true, t => t = { s with marker := true }
  | .selfReplace, false, t => t = s ∨ t = s.drop .exe
  | .selfReplace, true, t => ∃ c, s.files .stagedExe = some c ∧ t = s.put .exe c

end

/-! ## The update -/

/-- An update that has been staged: the two versions, and the record of the new one. Which version
    an executable was built as is what it calls its own. -/
structure Upgrade (V : Type) [LinearOrder V] (sha256 : Bytes → Text)
    (parseVersion : Text → Option V) (builtAs : Bytes → V) where
  oldExe : Bytes
  newExe : Bytes
  newHelper : Option Bytes
  parts : Part → Option Dir
  record : PendingUpdate
  version : V
  /-- The names in a directory differ. -/
  once : ∀ part dir, parts part = some dir → ((dir.leaves []).map Prod.fst).Nodup
  /-- The digests of two different executables differ. -/
  apart : sha256 oldExe = sha256 newExe → oldExe = newExe
  summed : eqIgnoreAsciiCase (sha256 newExe) record.sha256 = true
  digest : record.sha256 ≠ []
  parsed : parseVersion record.version = some version
  built : builtAs newExe = version
  newer : builtAs oldExe < version

section
variable {V : Type} [LinearOrder V] {sha256 : Bytes → Text} {parseVersion : Text → Option V}
  {builtAs : Bytes → V} (u : Upgrade V sha256 parseVersion builtAs)

/-- What the new version has in a slot. -/
def Upgrade.target : Slot → Option Bytes
  | .exe => some u.newExe
  | .helper => u.newHelper
  | .installed part place => (u.parts part).bind fun dir => (dir.leaves []).lookup place
  | _ => none

theorem Upgrade.target_exe : u.target .exe = some u.newExe := rfl

/-- The disk when the record has been written. -/
structure Upgrade.Begins (start : Disk) : Prop where
  exe : start.files .exe = some u.oldExe
  stagedExe : start.files .stagedExe = some u.newExe
  stagedHelper : start.files .stagedHelper = u.newHelper
  staged : start.staged = u.parts
  pending : start.pending = some u.record

/-- The slots an installation is made of. -/
def Slot.distributed : Slot → Bool
  | .exe | .helper | .installed .. => true
  | _ => false

def Disk.Done (s : Disk) (slot : Slot) : Prop := ∀ c, u.target slot = some c → s.files slot = some c

/-- The files are those of the new version. -/
def Disk.New (s : Disk) : Prop := ∀ slot, s.Done u slot

/-- The files are those of the old version, as they are on the first disk. -/
def Disk.Old (s start : Disk) : Prop :=
  ∀ slot, slot.distributed = true → s.files slot = start.files slot

/-- The files are of one version. -/
def Disk.Uniform (s start : Disk) : Prop := s.Old start ∨ s.New u

variable (start : Disk)

/-- The staged file of a slot. -/
def Disk.StagedAt (s : Disk) : Slot → Bytes → Prop
  | .exe, c => s.files .stagedExe = some c
  | .helper, c => s.files .stagedHelper = some c
  | .installed part place, c => ∃ dir, s.staged part = some dir ∧ (place, c) ∈ dir.leaves []
  | _, _ => False

/-- Everything is done or staged. -/
def Disk.Held (s : Disk) : Prop :=
  ∀ slot c, u.target slot = some c → s.files slot = some c ∨ s.StagedAt slot c

structure Inv (s : Disk) : Prop where
  exe : s.files .exe = some u.oldExe ∨ s.files .exe = some u.newExe
  record : ∀ r, s.pending = some r → r = u.record
  stagedExe : ∀ c, s.files .stagedExe = some c → c = u.newExe
  stagedHelper : ∀ c, s.files .stagedHelper = some c → u.newHelper = some c
  staged : ∀ part dir, s.staged part = some dir →
    ∃ whole, u.parts part = some whole ∧ dir.leaves [] ⊆ whole.leaves []
  settled : s.pending = none → s.Uniform u start
  held : s.pending ≠ none →
    (s.files .stagedExe = some u.newExe ∧ s.Held u) ∨
    (s.files .stagedExe = none ∧ s.Uniform u start)

/-- The staged executable has been found, and the slots of `L` are done. -/
structure Ready (L : Set Slot) (s : Disk) : Prop where
  inv : Inv u start s
  pending : s.pending = some u.record
  loaded : s.files .stagedExe = some u.newExe
  done : ∀ slot ∈ L, s.Done u slot

/-! ## Steady answers -/

/-- While the files are of two versions, nothing is overlooked that the update is given up for,
    and the staging directory is not stale; a part of the package that is there is overlooked only
    when it is done; and what is put back over the executable is a whole one. -/
def Steady (s : Disk) : (q : Question) → q.Answer → Prop
  | .look (.pathsValid ..), a | .look (.there .stagedExe), a => a = false → s.Uniform u start
  | .look .staleStaging, a => a = true → s.Uniform u start
  | .readPending, a => a = none → s.Uniform u start
  | .digest .exe, a | .digest .stagedExe, a => a = none → s.Uniform u start
  | .look (.there .stagedHelper), a =>
    a = false → s.files .stagedHelper = none ∨ s.Done u .helper
  | .stagedPart part, a =>
    a = none → s.staged part = none ∨ ∀ place, s.Done u (.installed part place)
  | .copy .backup .exe, a =>
    ∀ c d, s.files .backup = some c → a.written c = some d → d = u.oldExe ∨ d = u.newExe
  | _, _ => True

/-- Steady answers. An executable is left when it is not replaced; and when the staging directory
    goes while the record is left, its executable goes or nothing goes that is not done. -/
structure Fit (s : Disk) (q : Question) (a : q.Answer) (t : Disk) : Prop where
  answers : Answers sha256 s q a t
  steady : Steady u start s q a
  left : q = .selfReplace → t.files .exe ≠ none
  kept : q = .removeStaging → s.pending = none ∨ t.files .stagedExe = none ∨ t.Held u

/-- A world whose answers are fit, but for what happens while the helper sleeps. -/
def Tame (W : Prog.World Disk Question Question.Answer) : Prop :=
  ∀ s q a t, q ≠ .sleep → W s q a t → Fit u start s q a t

/-! ## Files that change -/

variable {s t : Disk} {slot other : Slot} {c : Bytes}

@[simp] theorem Disk.put_self : (s.put slot c).files slot = some c := Function.update_self ..

theorem Disk.put_of_ne (h : other ≠ slot) : (s.put slot c).files other = s.files other :=
  Function.update_of_ne h ..

@[simp] theorem Disk.drop_self : (s.drop slot).files slot = none := Function.update_self ..

theorem Disk.drop_of_ne (h : other ≠ slot) : (s.drop slot).files other = s.files other :=
  Function.update_of_ne h ..

/-- The slots that belong to no version and are not staged. -/
def Slot.spare : Slot → Bool
  | .backup | .fresh | .aside => true
  | _ => false

theorem Slot.spare_fresh : Slot.fresh.spare = true := rfl

theorem Slot.not_spare_of_distributed (h : slot.distributed = true) : slot.spare = false := by
  cases slot with
  | exe | helper | installed | stagedExe | stagedHelper => rfl
  | backup | fresh | aside => cases h

/-- The new version has something in the slots of an installation only. -/
theorem Upgrade.distributed_of_target (hc : u.target slot = some c) : slot.distributed = true := by
  cases slot with
  | exe | helper | installed => rfl
  | backup | fresh | aside | stagedExe | stagedHelper => cases hc

/-- Only files that are not staged differ. -/
structure Disk.Moved (s t : Disk) : Prop where
  pending : t.pending = s.pending
  staged : t.staged = s.staged
  stagedExe : t.files .stagedExe = s.files .stagedExe
  stagedHelper : t.files .stagedHelper = s.files .stagedHelper

theorem Disk.Moved.stagedAt (h : s.Moved t) (hs : s.StagedAt slot c) : t.StagedAt slot c := by
  cases slot with
  | exe => exact h.stagedExe.trans hs
  | helper => exact h.stagedHelper.trans hs
  | installed part place =>
    obtain ⟨dir, hdir, hmem⟩ := hs
    exact ⟨dir, (congrFun h.staged part).trans hdir, hmem⟩
  | backup | fresh | aside | stagedExe | stagedHelper => exact hs

theorem Disk.moved_put (he : slot ≠ .stagedExe) (hh : slot ≠ .stagedHelper) :
    s.Moved (s.put slot c) :=
  ⟨rfl, rfl, put_of_ne he.symm, put_of_ne hh.symm⟩

theorem Disk.moved_drop (he : slot ≠ .stagedExe) (hh : slot ≠ .stagedHelper) :
    s.Moved (s.drop slot) :=
  ⟨rfl, rfl, drop_of_ne he.symm, drop_of_ne hh.symm⟩

variable {u start} {L L' : Set Slot}

/-- What is not done is staged. -/
theorem Ready.held (h : Ready u start L s) (hc : u.target slot = some c) :
    s.files slot = some c ∨ s.StagedAt slot c := by
  have hpending : s.pending ≠ none := by
    rw [h.pending]
    exact Option.some_ne_none _
  rcases h.inv.held hpending with ⟨-, hall⟩ | ⟨hgone, -⟩
  · exact hall slot c hc
  · rw [h.loaded] at hgone
    cases hgone

/-- What was done before stays done or is staged: the procedure can go on. -/
theorem Ready.moved (h : Ready u start L s) (hm : s.Moved t)
    (hexe : t.files .exe = some u.oldExe ∨ t.files .exe = some u.newExe)
    (hheld : ∀ slot c, u.target slot = some c → s.files slot = some c →
      t.files slot = some c ∨ t.StagedAt slot c)
    (hdone : ∀ slot ∈ L', t.Done u slot) : Ready u start L' t where
  pending := hm.pending.trans h.pending
  loaded := hm.stagedExe.trans h.loaded
  done := hdone
  inv := by
    have hloaded := hm.stagedExe.trans h.loaded
    refine ⟨hexe, hm.pending ▸ h.inv.record, hm.stagedExe ▸ h.inv.stagedExe,
      hm.stagedHelper ▸ h.inv.stagedHelper, hm.staged ▸ h.inv.staged, ?_, fun _ => .inl ⟨hloaded, ?_⟩⟩
    · intro hnone
      rw [hm.pending, h.pending] at hnone
      cases hnone
    · exact fun slot c hc => (h.held hc).elim (hheld slot c hc) fun hs => .inr (hm.stagedAt hs)

/-- A slot gets what the new version has there. -/
theorem Ready.put (h : Ready u start L s) (hc : u.target slot = some c) :
    Ready u start (insert slot L) (s.put slot c) := by
  have hstays : ∀ other, s.Done u other → (s.put slot c).Done u other := by
    intro other hdone d hd
    by_cases heq : other = slot
    · subst heq
      rw [hc] at hd
      cases hd
      exact Disk.put_self
    · exact (Disk.put_of_ne heq).trans (hdone d hd)
  have hnew : (s.put slot c).Done u slot := by
    intro d hd
    rw [hc] at hd
    cases hd
    exact Disk.put_self
  refine h.moved (Disk.moved_put (by rintro rfl; cases hc) (by rintro rfl; cases hc)) ?_ ?_ ?_
  · by_cases heq : slot = .exe
    · subst heq
      cases hc
      exact .inr Disk.put_self
    · rw [Disk.put_of_ne fun h => heq h.symm]
      exact h.inv.exe
  · intro other d hd hs
    refine .inl ?_
    by_cases heq : other = slot
    · subst heq
      exact hnew d hd
    · exact (Disk.put_of_ne heq).trans hs
  · intro other hmem
    rcases Set.mem_insert_iff.mp hmem with rfl | hold
    · exact hnew
    · exact hstays other (h.done other hold)

/-- Only files of no version may differ, and `t` is as much of one version as `s`. -/
theorem Disk.Uniform.congr (h : s.Uniform u start)
    (hsame : ∀ slot, slot.distributed = true → t.files slot = s.files slot) :
    t.Uniform u start := by
  rcases h with hold | hnew
  · exact .inl fun slot hslot => (hsame slot hslot).trans (hold slot hslot)
  · refine .inr fun slot c hc => ?_
    rw [hsame slot (u.distributed_of_target hc)]
    exact hnew slot c hc

/-- Only spare files change. -/
theorem Inv.spare (h : Inv u start s) (hm : s.Moved t)
    (hsame : ∀ slot, slot.spare = false → t.files slot = s.files slot) : Inv u start t := by
  have hdistributed : ∀ slot, slot.distributed = true → t.files slot = s.files slot :=
    fun slot hslot => hsame slot (Slot.not_spare_of_distributed hslot)
  refine ⟨(hsame .exe rfl).symm ▸ h.exe, hm.pending ▸ h.record, hm.stagedExe ▸ h.stagedExe,
    hm.stagedHelper ▸ h.stagedHelper, hm.staged ▸ h.staged, fun hnone => ?_, fun hsome => ?_⟩
  · exact (h.settled (hm.pending ▸ hnone)).congr hdistributed
  · rw [hm.stagedExe]
    refine (h.held (hm.pending ▸ hsome)).imp (fun hall => ⟨hall.1, fun slot c hc => ?_⟩)
      fun hgone => ⟨hgone.1, hgone.2.congr hdistributed⟩
    refine (hall.2 slot c hc).imp (fun hs => ?_) hm.stagedAt
    exact (hdistributed slot (u.distributed_of_target hc)).trans hs

theorem Ready.spare (h : Ready u start L s) (hm : s.Moved t)
    (hsame : ∀ slot, slot.spare = false → t.files slot = s.files slot) : Ready u start L t where
  inv := h.inv.spare hm hsame
  pending := hm.pending.trans h.pending
  loaded := hm.stagedExe.trans h.loaded
  done := by
    intro slot hmem c hc
    have hslot := Slot.not_spare_of_distributed (u.distributed_of_target hc)
    exact (hsame slot hslot).trans (h.done slot hmem c hc)

theorem Ready.putSpare (h : Ready u start L s) (hspare : slot.spare = true) (c : Bytes) :
    Ready u start L (s.put slot c) :=
  h.spare (Disk.moved_put (by rintro rfl; cases hspare) (by rintro rfl; cases hspare))
    fun other hother => Disk.put_of_ne (by rintro rfl; rw [hspare] at hother; cases hother)

theorem Ready.dropSpare (h : Ready u start L s) (hspare : slot.spare = true) :
    Ready u start L (s.drop slot) :=
  h.spare (Disk.moved_drop (by rintro rfl; cases hspare) (by rintro rfl; cases hspare))
    fun other hother => Disk.drop_of_ne (by rintro rfl; rw [hspare] at hother; cases hother)

/-- The helper in place may go while the new one is staged. -/
theorem Ready.helperMoved (h : Ready u start L s) (hm : s.Moved t)
    (hstaged : s.files .stagedHelper = u.newHelper)
    (hsame : ∀ slot, slot ≠ .helper → slot ≠ .aside → t.files slot = s.files slot) :
    Ready u start (L \ {.helper}) t := by
  have hkept : ∀ slot c, slot ≠ .helper → u.target slot = some c → s.files slot = some c →
      t.files slot = some c := by
    intro slot c hne hc hs
    rw [hsame slot hne (by rintro rfl; cases hc), hs]
  refine h.moved hm ((hsame .exe (by decide) (by decide)).symm ▸ h.inv.exe) ?_ ?_
  · intro slot c hc hs
    by_cases heq : slot = .helper
    · subst heq
      exact .inr (hm.stagedHelper.trans (hstaged.trans hc))
    · exact .inl (hkept slot c heq hc hs)
  · rintro slot ⟨hmem, hne⟩ c hc
    exact hkept slot c (fun heq => hne heq) hc (h.done slot hmem c hc)

/-- Whatever whole executable is put in place, the new one is staged. -/
theorem Ready.exePut (h : Ready u start L s) (hc : c = u.oldExe ∨ c = u.newExe) :
    Ready u start ∅ (s.put .exe c) := by
  refine h.moved (Disk.moved_put (by decide) (by decide)) ?_ ?_ fun slot hmem => hmem.elim
  · rw [Disk.put_self]
    exact hc.imp (congrArg some) (congrArg some)
  · intro slot d hd hs
    by_cases heq : slot = .exe
    · subst heq
      cases hd
      exact .inr ((Disk.put_of_ne (by decide)).trans h.loaded)
    · exact .inl ((Disk.put_of_ne heq).trans hs)

theorem Ready.mono (h : Ready u start L s) (hdone : ∀ slot ∈ L', s.Done u slot) :
    Ready u start L' s :=
  ⟨h.inv, h.pending, h.loaded, hdone⟩

/-! ## Steps -/

variable {W : Prog.World Disk Question Question.Answer} {R : Type} {J Err : Disk → Prop}

/-- `x` from `J` ends in `Ok` when it returns and in `Err` when it fails, with `Inv` all along. -/
abbrev Leads (u : Upgrade V sha256 parseVersion builtAs) (start : Disk)
    (W : Prog.World Disk Question Question.Answer) (J : Disk → Prop) (x : Upd R)
    (Ok : R → Disk → Prop) (Err : Disk → Prop) : Prop :=
  Prog.Triple W (Inv u start) J x Ok Err

theorem look_leads (hW : Tame u start W) (hJ : ∀ s, J s → Inv u start s) (l : Look) :
    Leads u start W J (look l)
      (fun a s => J s ∧ (a = true → s.Shows sha256 l) ∧ Steady u start s (.look l) a) Err := by
  refine Prog.Triple.fetch fun s a t h ht => ?_
  obtain ⟨⟨rfl, hshows⟩, hsteady, -, -⟩ := hW s (.look l) a t (by simp) ht
  exact ⟨hJ _ h, h, hshows, hsteady⟩

theorem look_keeps (hW : Tame u start W) (hJ : ∀ s, J s → Inv u start s) (l : Look) :
    Leads u start W J (look l) (fun _ => J) Err :=
  (look_leads hW hJ l).conseq (fun _ h => h) (fun _ _ h => h.1) fun _ h => h

theorem require_leads {ok : Bool} (hErr : ∀ s, J s → Err s) :
    Leads u start W J (require ok) (fun _ s => ok = true ∧ J s) Err := by
  cases ok with
  | true => exact Prog.Triple.pure fun _ h => ⟨rfl, h⟩
  | false => exact Prog.Triple.throw hErr

theorem require_keeps {ok : Bool} (hErr : ∀ s, J s → Err s) :
    Leads u start W J (require ok) (fun _ => J) Err :=
  (require_leads hErr).conseq (fun _ h => h) (fun _ _ h => h.2) fun _ h => h

theorem succeeds_triple {I Ok F : Disk → Prop} {x : Upd Unit}
    (hx : Prog.Triple W I J x (fun _ => Ok) F) :
    Prog.Triple W I J (succeeds x) (fun ok s => if ok then Ok s else F s) Err := by
  intro s hs
  refine (Prog.wp_bind _ _ x.run s).mpr ((hx s hs).mono fun r t ht => ?_)
  cases r with
  | ok _ => exact ht
  | error _ => exact ht

/-! ## Distribution -/

def slotsOf (part : Part) (files : List (Place × Bytes)) : Set Slot :=
  {slot | ∃ f ∈ files, slot = .installed part f.1}

theorem openDir_keeps (hW : Tame u start W) (part : Part) (place : Place) :
    Leads u start W (Ready u start L) (openDir part place) (fun _ => Ready u start L)
      (Ready u start L) := by
  have hJ : ∀ s, Ready u start L s → Inv u start s := fun s h => h.inv
  refine Prog.Triple.bind (look_keeps hW hJ _) fun _ => ?_
  refine Prog.Triple.bind (require_keeps fun _ h => h) fun _ => ?_
  refine Prog.Triple.bind (look_keeps hW hJ _) fun _ => ?_
  refine Prog.Triple.bind (require_keeps fun _ h => h) fun _ => ?_
  exact Prog.Triple.bind (look_keeps hW hJ _) fun _ => require_keeps fun _ h => h

theorem openEntry_keeps (hW : Tame u start W) (part : Part) (place : Place) :
    Leads u start W (Ready u start L) (openEntry part place) (fun _ => Ready u start L)
      (Ready u start L) := by
  have hJ : ∀ s, Ready u start L s → Inv u start s := fun s h => h.inv
  refine Prog.Triple.bind (look_keeps hW hJ _) fun _ => ?_
  refine Prog.Triple.bind (require_keeps fun _ h => h) fun _ => ?_
  exact Prog.Triple.bind (look_keeps hW hJ _) fun _ => require_keeps fun _ h => h

theorem install_leads (hW : Tame u start W) {part : Part} {place : Place}
    (hc : u.target (.installed part place) = some c) :
    Leads u start W (Ready u start L) (ask (.install part place c))
      (fun (ok : Bool) => Ready u start (if ok then insert (.installed part place) L else L)) Err := by
  refine Prog.Triple.fetch fun s ok t h ht => ?_
  have hans := (hW s _ ok t (by simp) ht).answers
  cases ok with
  | true =>
    obtain rfl : t = _ := hans
    exact ⟨(h.put hc).inv, h.put hc⟩
  | false =>
    obtain rfl : t = s := hans
    exact ⟨h.inv, h⟩

/-- By induction on the directory: what an entry adds, the ones behind it keep. An error is
    remembered, so the loop does not return then. -/
theorem copyEntries_leads (hW : Tame u start W) {part : Part} (dir : Dir) :
    ∀ (place : Place) (ok : Bool) (L : Set Slot),
    (∀ f ∈ dir.leaves place, u.target (.installed part f.1) = some f.2) →
    Leads u start W (Ready u start L) (copyEntries part dir place ok)
      (fun _ s => ok = true ∧ Ready u start (L ∪ slotsOf part (dir.leaves place)) s)
      (Ready u start L) := by
  have hJ : ∀ L s, Ready u start L s → Inv u start s := fun L s h => h.inv
  induction dir with
  | nil =>
    intro place ok L _
    refine (require_leads fun _ h => h).conseq (fun _ h => h) (fun _ s h => ⟨h.1, ?_⟩) fun _ h => h
    refine h.2.mono ?_
    rintro slot (hmem | ⟨f, hf, -⟩)
    · exact h.2.done slot hmem
    · cases hf
  | file name content rest ih =>
    intro place ok L hleaves
    have hrest : ∀ f ∈ rest.leaves place, u.target (.installed part f.1) = some f.2 :=
      fun f hf => hleaves f (List.mem_append_right _ hf)
    refine Prog.Triple.bind (look_keeps hW (hJ L) _) fun read => ?_
    refine Prog.Triple.ite (fun _ => ?_) fun _ => ?_
    · by_cases hskip : name ∈ skipNames
      · rw [if_pos hskip]
        simp only [Dir.leaves, if_pos hskip, List.nil_append]
        exact ih place ok L hrest
      · rw [if_neg hskip]
        simp only [Dir.leaves, if_neg hskip] at hleaves ⊢
        refine Prog.Triple.bind (openEntry_keeps hW _ _) fun _ => ?_
        have hc := hleaves (place ++ [name], content) (List.mem_append_left _ List.mem_cons_self)
        refine Prog.Triple.bind (install_leads hW hc) fun copied => ?_
        refine (ih place (ok && copied) _ hrest).conseq (fun _ h => h) (fun _ s h => ?_) fun s h => ?_
        · obtain ⟨hok, hready⟩ := h
          obtain ⟨hok, hcopied⟩ := Bool.and_eq_true_iff.mp hok
          refine ⟨hok, hready.mono ?_⟩
          rintro slot (hmem | ⟨f, hf, rfl⟩)
          · refine hready.done slot (.inl ?_)
            rw [if_pos hcopied]
            exact Set.mem_insert_of_mem _ hmem
          · rcases List.mem_append.mp hf with hself | hin
            · cases List.mem_singleton.mp hself
              refine hready.done _ (.inl ?_)
              rw [if_pos hcopied]
              exact Set.mem_insert _ _
            · exact hready.done _ (.inr ⟨f, hin, rfl⟩)
        · refine h.mono fun slot hmem => h.done slot ?_
          split
          · exact Set.mem_insert_of_mem _ hmem
          · exact hmem
    · exact (ih place false L hrest).conseq (fun _ h => h) (fun _ _ h => nomatch h.1) fun _ h => h
  | sub name entries rest ihentries ihrest =>
    intro place ok L hleaves
    have hrest : ∀ f ∈ rest.leaves place, u.target (.installed part f.1) = some f.2 :=
      fun f hf => hleaves f (List.mem_append_right _ hf)
    refine Prog.Triple.bind (look_keeps hW (hJ L) _) fun read => ?_
    refine Prog.Triple.ite (fun _ => ?_) fun _ => ?_
    · by_cases hskip : name ∈ skipNames
      · rw [if_pos hskip]
        simp only [Dir.leaves, if_pos hskip, List.nil_append]
        exact ihrest place ok L hrest
      · rw [if_neg hskip]
        simp only [Dir.leaves, if_neg hskip] at hleaves ⊢
        refine Prog.Triple.bind (openEntry_keeps hW _ _) fun _ => ?_
        have hinner := ihentries (place ++ [name]) true L
          fun f hf => hleaves f (List.mem_append_left _ hf)
        have hsub := Prog.Triple.bind (openDir_keeps (L := L) hW part (place ++ [name]))
          fun _ => hinner
        refine Prog.Triple.bind (succeeds_triple (hsub.conseq (fun _ h => h)
          (fun _ _ h => h.2) fun _ h => h)) fun copied => ?_
        cases copied with
        | true =>
          refine (ihrest place (ok && true) _ hrest).conseq (fun _ h => h) (fun _ s h => ?_)
            fun s h => h.mono fun slot hmem => h.done slot (.inl hmem)
          rw [Bool.and_true] at h
          refine ⟨h.1, h.2.mono ?_⟩
          rintro slot (hmem | ⟨f, hf, rfl⟩)
          · exact h.2.done slot (.inl (.inl hmem))
          · rcases List.mem_append.mp hf with hin | hin
            · exact h.2.done _ (.inl (.inr ⟨f, hin, rfl⟩))
            · exact h.2.done _ (.inr ⟨f, hin, rfl⟩)
        | false =>
          rw [Bool.and_false]
          exact (ihrest place false L hrest).conseq (fun _ h => h) (fun _ _ h => nomatch h.1)
            fun _ h => h
    · exact (ihrest place false L hrest).conseq (fun _ h => h) (fun _ _ h => nomatch h.1)
        fun _ h => h

def partSlots (part : Part) : Set Slot := {slot | ∃ place, slot = .installed part place}

theorem Upgrade.target_installed {part : Part} {whole : Dir} (hpart : u.parts part = some whole)
    {f : Place × Bytes} (hf : f ∈ whole.leaves []) :
    u.target (.installed part f.1) = some f.2 := by
  show (u.parts part).bind _ = _
  rw [hpart]
  exact lookup_of_mem (u.once part whole hpart) hf

/-- What of a directory is not staged any more, is done. -/
theorem copyDirOverlay_leads (hW : Tame u start W) (part : Part) (dir : Dir) :
    Leads u start W (fun s => Ready u start L s ∧ s.staged part = some dir)
      (copyDirOverlay part dir) (fun _ => Ready u start (L ∪ partSlots part)) (Inv u start) := by
  rintro s ⟨h, hdir⟩
  obtain ⟨whole, hwhole, hsub⟩ := h.inv.staged part dir hdir
  have hcopied := Prog.Triple.bind (openDir_keeps (L := L ∪ {slot | s.Done u slot}) hW part [])
    fun _ => copyEntries_leads hW dir [] true _ fun f hf => u.target_installed hwhole (hsub hf)
  refine hcopied.conseq (fun _ h => h) (fun _ t ht => ?_)
    (fun t ht => (ht.inv : Inv u start t)) s (h.mono ?_)
  · refine ht.2.mono ?_
    rintro slot (hmem | ⟨place, rfl⟩)
    · exact ht.2.done slot (.inl (.inl hmem))
    · intro c hc
      rcases h.held hc with hdone | ⟨dir', hdir', hleaf⟩
      · refine ht.2.done _ (.inl (.inr fun d hd => ?_)) c hc
        rw [hc] at hd
        cases hd
        exact hdone
      · rw [hdir] at hdir'
        cases hdir'
        exact ht.2.done _ (.inr ⟨_, hleaf, rfl⟩) c hc
  · rintro slot (hmem | hdone)
    · exact h.done slot hmem
    · exact hdone

theorem syncPart_leads (hW : Tame u start W) (part : Part) :
    Leads u start W (Ready u start L) (syncPart part)
      (fun _ => Ready u start (L ∪ partSlots part)) (Inv u start) := by
  refine Prog.Triple.bind (M := fun (found : Option Dir) s => Ready u start L s ∧
    (∀ dir, found = some dir → s.staged part = some dir) ∧
    (found = none → ∀ place, s.Done u (.installed part place)))
    (Prog.Triple.fetch fun s found t h ht => ?_) fun found => ?_
  · obtain ⟨⟨rfl, hfound⟩, hsteady, -, -⟩ := hW s _ found t (by simp) ht
    refine ⟨h.inv, h, hfound, fun hnone => ?_⟩
    rcases hsteady hnone with hgone | hdone
    · intro place c hc
      refine (h.held hc).resolve_right ?_
      rintro ⟨dir, hdir, -⟩
      rw [hgone] at hdir
      cases hdir
    · exact hdone
  · cases found with
    | some dir =>
      exact (copyDirOverlay_leads hW part dir).conseq (fun s h => ⟨h.1, h.2.1 dir rfl⟩)
        (fun _ _ h => h) fun _ h => h
    | none =>
      refine Prog.Triple.pure fun s h => h.1.mono ?_
      rintro slot (hmem | ⟨place, rfl⟩)
      · exact h.1.done slot hmem
      · exact h.2.2 rfl place

theorem manifestChanged_keeps (hW : Tame u start W) (manifest : Manifest) :
    Leads u start W (Ready u start L) (manifestChanged manifest) (fun _ => Ready u start L) Err := by
  have hJ : ∀ s, Ready u start L s → Inv u start s := fun s h => h.inv
  refine Prog.Triple.bind (look_keeps hW hJ _) fun _ => ?_
  exact Prog.Triple.ite (fun _ => look_keeps hW hJ _) fun _ => Prog.Triple.pure fun _ h => h

theorem markResync_keeps (hW : Tame u start W) (changed : Bool) :
    Leads u start W (Ready u start L) (markResync changed) (fun _ => Ready u start L)
      (Inv u start) := by
  refine Prog.Triple.ite (fun _ => ?_) fun _ => Prog.Triple.pure fun _ h => h
  refine Prog.Triple.bind (look_keeps hW (fun s h => h.inv) _) fun _ => ?_
  refine Prog.Triple.bind (require_keeps fun _ h => h.inv) fun _ => ?_
  refine Prog.Triple.bind (M := fun (_ : Bool) => Ready u start L)
    (Prog.Triple.fetch fun s ok t h ht => ?_) fun ok => require_keeps fun _ h => h.inv
  have hans := (hW s _ ok t (by simp) ht).answers
  cases ok with
  | true =>
    obtain rfl : t = _ := hans
    have hready : Ready u start L { s with resync := true } :=
      h.spare ⟨rfl, rfl, rfl, rfl⟩ fun _ _ => rfl
    exact ⟨hready.inv, hready⟩
  | false =>
    obtain rfl : t = s := hans
    exact ⟨h.inv, h⟩

def partsSlots : Set Slot := {slot | ∃ part place, slot = .installed part place}

theorem syncDistributionFiles_leads (hW : Tame u start W) :
    Leads u start W (Ready u start L) syncDistributionFiles
      (fun _ => Ready u start (L ∪ partsSlots)) (Inv u start) := by
  refine Prog.Triple.bind (M := fun _ => Ready u start L) ?_ fun changed => ?_
  · refine Prog.Triple.bind (manifestChanged_keeps hW _) fun _ => ?_
    exact Prog.Triple.ite (fun _ => Prog.Triple.pure fun _ h => h)
      fun _ => manifestChanged_keeps hW _
  refine Prog.Triple.bind (markResync_keeps hW _) fun _ => ?_
  refine Prog.Triple.bind (syncPart_leads hW _) fun _ => ?_
  refine Prog.Triple.bind (syncPart_leads hW _) fun _ => ?_
  refine (syncPart_leads hW _).conseq (fun _ h => h) (fun _ s h => h.mono ?_) fun _ h => h
  rintro slot (hmem | ⟨part, place, rfl⟩)
  · exact h.done slot (.inl (.inl (.inl hmem)))
  · cases part with
    | resources => exact h.done _ (.inl (.inl (.inr ⟨place, rfl⟩)))
    | docs => exact h.done _ (.inl (.inr ⟨place, rfl⟩))
    | pythonWorker => exact h.done _ (.inr ⟨place, rfl⟩)

/-! ## The helper -/

/-- The new helper is staged, so that the one in place can be moved. -/
structure HelperStaged (u : Upgrade V sha256 parseVersion builtAs) (start : Disk) (L : Set Slot)
    (s : Disk) : Prop where
  ready : Ready u start (L \ {.helper}) s
  staged : s.files .stagedHelper = u.newHelper

theorem moveAside_leads (hW : Tame u start W) (hadTarget : Bool) :
    Leads u start W (HelperStaged u start L) (moveAside hadTarget)
      (fun _ => HelperStaged u start L) (Inv u start) := by
  refine Prog.Triple.ite (fun _ => ?_) fun _ => Prog.Triple.pure fun _ h => h
  refine Prog.Triple.bind (M := fun (_ : Bool) => HelperStaged u start L)
    (Prog.Triple.fetch fun s ok t h ht => ?_) fun ok => require_keeps fun _ h => h.ready.inv
  have hans := (hW s _ ok t (by simp) ht).answers
  cases ok with
  | true =>
    obtain ⟨c, -, rfl⟩ := hans
    have hmoved := h.ready.helperMoved (t := (s.put .aside c).drop .helper)
      ⟨rfl, rfl, rfl, rfl⟩ h.staged fun slot hhelper haside =>
        (Disk.drop_of_ne hhelper).trans (Disk.put_of_ne haside)
    have hready := hmoved.mono fun slot (hmem : slot ∈ L \ {.helper}) =>
      hmoved.done slot ⟨hmem, hmem.2⟩
    exact ⟨hready.inv, hready, h.staged⟩
  | false =>
    obtain rfl : t = s := hans
    exact ⟨h.ready.inv, h⟩

theorem moveBack_leads (hW : Tame u start W) (hadTarget : Bool) {Ok : Unit → Disk → Prop} :
    Leads u start W (HelperStaged u start L) (moveBack hadTarget) Ok (Inv u start) := by
  refine Prog.Triple.ite (fun _ => ?_) fun _ => Prog.Triple.throw fun _ h => h.ready.inv
  refine Prog.Triple.bind (M := fun (_ : Bool) => Inv u start)
    (Prog.Triple.fetch fun s ok t h ht => ?_)
    fun ok => Prog.Triple.bind (require_keeps fun _ h => h) fun _ => Prog.Triple.throw fun _ h => h
  have hans := (hW s _ ok t (by simp) ht).answers
  cases ok with
  | true =>
    obtain ⟨c, -, rfl⟩ := hans
    have hmoved := h.ready.helperMoved (t := (s.put .helper c).drop .aside)
      ⟨rfl, rfl, rfl, rfl⟩ h.staged fun slot hhelper haside =>
        (Disk.drop_of_ne haside).trans (Disk.put_of_ne hhelper)
    exact ⟨hmoved.inv, hmoved.inv⟩
  | false =>
    obtain rfl : t = s := hans
    exact ⟨h.ready.inv, h.ready.inv⟩

theorem remove_keeps (hW : Tame u start W) (hspare : slot.spare = true) :
    Leads u start W (Ready u start L) (ask (.remove slot)) (fun _ => Ready u start L) Err := by
  refine Prog.Triple.fetch fun s ok t h ht => ?_
  have hans := (hW s _ ok t (by simp) ht).answers
  cases ok with
  | true =>
    obtain rfl : t = _ := hans
    exact ⟨(h.dropSpare hspare).inv, h.dropSpare hspare⟩
  | false =>
    obtain rfl : t = s := hans
    exact ⟨h.inv, h⟩

theorem settleHelper_keeps (hW : Tame u start W) (hadTarget : Bool) :
    Leads u start W (Ready u start L) (settleHelper hadTarget) (fun _ => Ready u start L)
      (Inv u start) := by
  refine Prog.Triple.bind (look_keeps hW (fun s h => h.inv) _) fun _ => ?_
  refine Prog.Triple.bind (require_keeps fun _ h => h.inv) fun _ => ?_
  refine Prog.Triple.ite (fun _ => ?_) fun _ => Prog.Triple.pure fun _ h => h
  exact Prog.Triple.bind (remove_keeps hW rfl) fun _ => Prog.Triple.pure fun _ h => h

theorem replaceHelper_leads (hW : Tame u start W) :
    Leads u start W (Ready u start L) replaceHelper (fun _ => Ready u start (insert .helper L))
      (Inv u start) := by
  refine Prog.Triple.bind (look_leads hW (fun s h => h.inv) _) fun there => ?_
  refine Prog.Triple.ite (fun hthere => ?_) fun hmissing => Prog.Triple.pure fun s h => ?_
  · have hstaged : ∀ s, Ready u start L s ∧ (there = true → (s.files .stagedHelper).isSome) →
        HelperStaged u start L s := by
      rintro s ⟨h, hsome⟩
      obtain ⟨c, hc⟩ := Option.isSome_iff_exists.mp (hsome hthere)
      exact ⟨h.mono fun slot hmem => h.done slot hmem.1,
        hc.trans (h.inv.stagedHelper c hc).symm⟩
    refine Prog.Triple.bind (M := fun _ => HelperStaged u start L)
      ((look_keeps hW (fun s h => h.ready.inv) _).conseq (fun s h => hstaged s ⟨h.1, h.2.1⟩)
        (fun _ _ h => h) fun _ h => h) fun hadTarget => ?_
    refine Prog.Triple.bind (moveAside_leads hW hadTarget) fun _ => ?_
    refine Prog.Triple.bind (M := fun (ok : Bool) s => HelperStaged u start L s ∧
      (ok = true → Ready u start (insert .helper L) s))
      (Prog.Triple.fetch fun s ok t h ht => ?_) fun copied => ?_
    · have hans := (hW s _ ok t (by simp) ht).answers
      cases ok with
      | true =>
        obtain ⟨c, hc, rfl⟩ := hans
        have htarget : u.target .helper = some c := h.staged.symm.trans hc
        have hput := h.ready.put htarget
        refine ⟨hput.inv, ⟨hput.mono fun slot hmem => hput.done slot (.inr hmem), h.staged⟩, ?_⟩
        refine fun _ => hput.mono ?_
        rintro slot (rfl | hmem)
        · exact hput.done _ (.inl rfl)
        · by_cases heq : slot = .helper
          · exact hput.done _ (.inl heq)
          · exact hput.done _ (.inr ⟨hmem, heq⟩)
      | false =>
        obtain rfl : t = s := hans
        exact ⟨h.ready.inv, h, fun hno => nomatch hno⟩
    · refine Prog.Triple.ite (fun hcopied => ?_) fun _ => ?_
      · exact (settleHelper_keeps hW hadTarget).conseq (fun _ h => h.2 hcopied) (fun _ _ h => h)
          fun _ h => h
      · exact (moveBack_leads hW hadTarget).conseq (fun _ h => h.1) (fun _ _ h => h) fun _ h => h
  · refine h.1.mono ?_
    rintro slot (rfl | hmem)
    · rcases h.2.2 hmissing with hgone | hdone
      · intro c hc
        refine (h.1.held hc).resolve_right fun hstaged => ?_
        exact Option.some_ne_none c (hstaged.symm.trans hgone)
      · exact hdone
    · exact h.1.done slot hmem

theorem syncPortableMarker_keeps (hW : Tame u start W) :
    Leads u start W (Ready u start L) syncPortableMarker (fun _ => Ready u start L)
      (Ready u start L) := by
  have hJ : ∀ s, Ready u start L s → Inv u start s := fun s h => h.inv
  refine Prog.Triple.bind (look_keeps hW hJ _) fun _ => ?_
  refine Prog.Triple.ite (fun _ => ?_) fun _ => Prog.Triple.pure fun _ h => h
  refine Prog.Triple.bind (look_keeps hW hJ _) fun _ => ?_
  refine Prog.Triple.ite (fun _ => Prog.Triple.pure fun _ h => h) fun _ => ?_
  refine Prog.Triple.bind (look_keeps hW hJ _) fun _ => ?_
  refine Prog.Triple.bind (require_keeps fun _ h => h) fun _ => ?_
  refine Prog.Triple.bind (M := fun (_ : Bool) => Ready u start L)
    (Prog.Triple.fetch fun s ok t h ht => ?_) fun ok => require_keeps fun _ h => h
  have hans := (hW s _ ok t (by simp) ht).answers
  cases ok with
  | true =>
    obtain rfl : t = _ := hans
    have hready : Ready u start L { s with marker := true } :=
      h.spare ⟨rfl, rfl, rfl, rfl⟩ fun _ _ => rfl
    exact ⟨hready.inv, hready⟩
  | false =>
    obtain rfl : t = s := hans
    exact ⟨h.inv, h⟩

end
end CampusAuth.Update.Pending
