import CampusAuth.Update.ReleaseCheck
import CampusAuth.Update.Sessions

/- Installations and the crashes of the procedures that update them.

   A run is any sequence of helpers and starts of the main program, each of which can stop behind
   any of its questions. While a helper sleeps, the program it has started applies what is pending
   by itself. A restart is a start in which every operation succeeds. Where the answers are fit
   the executable is a whole one at every point, and one restart leaves files of one version
   without a record (`crash_consistent`). -/
namespace CampusAuth.Update.Pending
open Lib

section
variable {V : Type} [LinearOrder V] {sha256 : Bytes → Text} {parseVersion : Text → Option V}
  {builtAs : Bytes → V}

/-! ## Runs -/

section
variable (parseVersion builtAs)

/-- The world of a helper beside the main program it starts. -/
def Beside (W : Prog.World Disk Question Question.Answer) :
    Prog.World Disk Question Question.Answer :=
  fun s q a t => match q with
    | .sleep => t = s ∨ ∃ c p, s.files .exe = some c ∧
        Prog.Reach W (applyPendingOnStartup parseVersion (builtAs c)).run s p t
    | q => W s q a t

/-- The disks that are reached when helpers and starts of the main program follow each other. -/
inductive Runs (helper main : Prog.World Disk Question Question.Answer) (start : Disk) :
    Disk → Prop
  | start : Runs helper main start start
  | helper {s t : Disk} {own : V} {cli : HelperCli}
      {p : Prog Question Question.Answer (Except Ended Unit)} :
      Runs helper main start s →
      Prog.Reach helper (runApplyUpdate parseVersion own cli).run s p t → Runs helper main start t
  | main {s t : Disk} {c : Bytes} {p : Prog Question Question.Answer (Except Ended Bool)} :
      Runs helper main start s → s.files .exe = some c →
      Prog.Reach main (applyPendingOnStartup parseVersion (builtAs c)).run s p t →
      Runs helper main start t

end

/-! ## Restarts -/

/-- What is looked at but decides nothing. -/
def Look.idle : Look → Bool
  | .manifestStaged _ | .manifestDiffers _ | .portable | .checkout => true
  | _ => false

/-- The answer when every look succeeds; nothing stands in the way. -/
def Disk.sees (sha256 : Bytes → Text) (whim : Look → Bool) (s : Disk) : Look → Bool
  | .there slot => (s.files slot).isSome
  | .recordThere => s.pending.isSome
  -- asked only when there is no record
  | .staleStaging => s.pending.isNone && whim .staleStaging
  | .identical => match s.files .stagedExe, s.files .exe with
    | some c, some d => sha256 c == sha256 d
    | _, _ => false
  | .loginRunning | .cancelled | .linked .. => false
  | l => if l.idle then whim l else true

/-- The answers when every operation succeeds. Only a helper copies in place. -/
def calm (sha256 : Bytes → Text) (whim : Look → Bool) (s : Disk) : (q : Question) → q.Answer × Disk
  | .look l => (s.sees sha256 whim l, s)
  | .stagedPart part => (s.staged part, s)
  | .readPending | .readRecord => (s.pending, s)
  | .derivedTarget => (none, s)
  | .digest slot => ((s.files slot).map sha256, s)
  | .copy _ _ => (.untouched, s)
  | .copyAtomically src dst => match s.files src with
    | some c => (true, s.put dst c)
    | none => (false, s)
  | .install part place content => (true, s.put (.installed part place) content)
  | .rename src dst => match s.files src with
    | some c => (true, (s.put dst c).drop src)
    | none => (false, s)
  | .remove slot => (true, s.drop slot)
  | .removeRecord => (true, { s with pending := none })
  | .removeStaging => (true, s.emptied)
  | .writeResync => (true, { s with resync := true })
  | .writeMarker => (true, { s with marker := true })
  | .selfReplace => match s.files .stagedExe with
    | some c => (true, s.put .exe c)
    | none => (false, s)
  | .probe => (.alive, s)
  | .sleep => ((), s)

variable (sha256 parseVersion builtAs) in
/-- The disk after a start of the main program in which every operation succeeds. -/
def restart (s : Disk) (whim : Look → Bool) : Disk :=
  match s.files .exe with
  | some c =>
    (Prog.play (calm sha256 whim) (applyPendingOnStartup parseVersion (builtAs c)).run s).2
  | none => s

variable (u : Upgrade V sha256 parseVersion builtAs) (start : Disk)

/-- The executable is a whole one, there is a record while the files are of two versions, and
    restarts bring them to one version without a record. -/
structure Recoverable (s : Disk) : Prop where
  exe : s.files .exe = some u.oldExe ∨ s.files .exe = some u.newExe
  recorded : s.pending = none → s.Uniform u start
  restarts : ∀ whim rest,
    let after := (whim :: rest).foldl (restart sha256 parseVersion builtAs) s
    after.Uniform u start ∧ after.pending = none

/-- Fit answers, and files of one version when the helper wakes up. -/
def HelperFit : Prog.World Disk Question Question.Answer :=
  fun s q a t => Beside parseVersion builtAs (Fit u start) s q a t ∧
    (q = .sleep → t.Uniform u start)

/-! ## The invariant along a run -/

variable {u start} {s t : Disk} {c : Bytes} {whim : Look → Bool}

theorem tame_fit : Tame u start (Fit u start) := fun _ _ _ _ _ h => h

theorem tame_helperFit : Tame u start (HelperFit u start) := by
  intro s q a t hq h
  cases q with
  | sleep => exact absurd rfl hq
  | _ => exact h.1

theorem inv_of_main {p : Prog Question Question.Answer (Except Ended Bool)}
    (hs : RunsFrom u start c s)
    (hreach : Prog.Reach (Fit u start) (applyPendingOnStartup parseVersion (builtAs c)).run s p t) :
    Inv u start t :=
  ((applyPendingOnStartup_leads tame_fit).sound hreach hs.1 hs).1

theorem even_of_sleep (hs : Even u start s) (h : HelperFit u start s .sleep () t) :
    Even u start t := by
  obtain ⟨hbeside, huniform⟩ := h
  refine ⟨?_, huniform rfl⟩
  rcases hbeside with rfl | ⟨c, p, hexe, hreach⟩
  · exact hs.inv
  · exact inv_of_main ⟨hs.inv, hexe⟩ hreach

theorem inv_of_helper {own : V} {cli : HelperCli}
    {p : Prog Question Question.Answer (Except Ended Unit)} (hs : Inv u start s)
    (hreach : Prog.Reach (HelperFit u start) (runApplyUpdate parseVersion own cli).run s p t) :
    Inv u start t :=
  ((runApplyUpdate_leads tame_helperFit (fun _ _ => even_of_sleep) own cli).sound hreach hs hs).1

theorem Upgrade.Begins.inv (h : u.Begins start) : Inv u start start where
  exe := .inl h.exe
  record r hr := Option.some.inj (hr.symm.trans h.pending)
  stagedExe c hc := Option.some.inj (hc.symm.trans h.stagedExe)
  stagedHelper c hc := h.stagedHelper ▸ hc
  staged part dir hdir := ⟨dir, h.staged ▸ hdir, fun _ hf => hf⟩
  settled hnone := absurd (hnone.symm.trans h.pending) (by simp)
  held _ := by
    refine .inl ⟨h.stagedExe, fun slot c hc => .inr ?_⟩
    cases slot with
    | exe => exact h.stagedExe.trans hc
    | helper => exact h.stagedHelper.trans hc
    | installed part place =>
      obtain ⟨dir, hdir, hlookup⟩ := Option.bind_eq_some_iff.mp hc
      exact ⟨dir, h.staged ▸ hdir, mem_of_lookup hlookup⟩
    | backup | fresh | aside | stagedExe | stagedHelper => cases hc

theorem Runs.inv (hstart : u.Begins start)
    (h : Runs parseVersion builtAs (HelperFit u start) (Fit u start) start t) :
    Inv u start t := by
  induction h with
  | start => exact hstart.inv
  | helper _ hreach ih => exact inv_of_helper ih hreach
  | main _ hexe hreach ih => exact inv_of_main ⟨ih, hexe⟩ hreach

/-! ## Calm answers -/

theorem answers_calm (s : Disk) (q : Question) :
    Answers sha256 s q (calm sha256 whim s q).1 (calm sha256 whim s q).2 := by
  cases q with
  | look l =>
    refine ⟨rfl, fun hsees => ?_⟩
    cases l with
    | there slot => exact hsees
    | recordThere => exact hsees
    | identical =>
      simp only [calm, Disk.sees] at hsees
      split at hsees
      next c d hc hd => exact ⟨c, d, hc, hd, eq_of_beq hsees⟩
      next => cases hsees
    | _ => trivial
  | stagedPart part => exact ⟨rfl, fun _ h => h⟩
  | readPending | readRecord => exact ⟨rfl, fun _ h => h⟩
  | digest slot =>
    refine ⟨rfl, fun x hx => ?_⟩
    obtain ⟨c, hc, hsum⟩ := Option.map_eq_some_iff.mp hx
    exact ⟨c, hc, hsum⟩
  | copyAtomically src dst =>
    simp only [calm]
    split
    next c hc => exact ⟨c, hc, rfl⟩
    next => rfl
  | rename src dst =>
    simp only [calm]
    split
    next c hc => exact ⟨c, hc, rfl⟩
    next => rfl
  | selfReplace =>
    simp only [calm]
    split
    next c hc => exact ⟨c, hc, rfl⟩
    next => exact .inl rfl
  | _ => rfl

theorem uniform_of_unrecorded (h : Inv u start s) (hnone : s.pending = none ∨
    s.files .stagedExe = none) : s.Uniform u start := by
  by_cases hpending : s.pending = none
  · exact h.settled hpending
  · rcases h.held hpending with ⟨hloaded, -⟩ | ⟨-, huniform⟩
    · rcases hnone with hnone | hnone
      · exact absurd hnone hpending
      · rw [hloaded] at hnone
        cases hnone
    · exact huniform

/-- Calm answers are steady. -/
theorem steady_calm (h : Inv u start s) (q : Question) :
    Steady u start s q (calm sha256 whim s q).1 := by
  cases q with
  | look l =>
    cases l with
    | staleStaging =>
      intro hyes
      exact uniform_of_unrecorded h
        (.inl (Option.isNone_iff_eq_none.mp (Bool.and_eq_true_iff.mp hyes).1))
    | pathsValid => exact fun hno => nomatch hno
    | there slot =>
      cases slot with
      | stagedExe =>
        intro hno
        exact uniform_of_unrecorded h
          (.inr (Option.not_isSome_iff_eq_none.mp (Bool.eq_false_iff.mp hno)))
      | stagedHelper =>
        intro hno
        exact .inl (Option.not_isSome_iff_eq_none.mp (Bool.eq_false_iff.mp hno))
      | _ => trivial
    | _ => trivial
  | readPending => exact fun hno => uniform_of_unrecorded h (.inl hno)
  | digest slot =>
    cases slot with
    | exe =>
      intro hno
      have hnone := Option.map_eq_none_iff.mp hno
      rcases h.exe with hexe | hexe <;> rw [hexe] at hnone <;> cases hnone
    | stagedExe => exact fun hno => uniform_of_unrecorded h (.inr (Option.map_eq_none_iff.mp hno))
    | _ => trivial
  | stagedPart part => exact fun hno => .inl hno
  | copy src dst =>
    cases src with
    | backup =>
      cases dst with
      | exe => exact fun _ _ _ hno => nomatch hno
      | _ => trivial
    | _ => trivial
  | _ => trivial

theorem fit_calm (h : Inv u start s) (q : Question) :
    Fit u start s q (calm sha256 whim s q).1 (calm sha256 whim s q).2 := by
  refine ⟨answers_calm s q, steady_calm h q, ?_, ?_⟩
  · rintro rfl hnone
    simp only [calm] at hnone
    split at hnone
    · exact Option.some_ne_none _ (Disk.put_self.symm.trans hnone)
    · rcases h.exe with hexe | hexe <;> exact Option.some_ne_none _ (hexe.symm.trans hnone)
  · rintro rfl
    exact .inr (.inl Disk.emptied_stagedExe)

/-! ## A restart -/

section
variable {R : Type} {J : Disk → Prop} {Ok : R → Disk → Prop}

/-- The world of a restart. -/
def Calm (sha256 : Bytes → Text) (whim : Look → Bool) :
    Prog.World Disk Question Question.Answer :=
  fun s q a t => a = (calm sha256 whim s q).1 ∧ t = (calm sha256 whim s q).2

/-- In a restart `x` does not fail. -/
abbrev Goes (sha256 : Bytes → Text) (whim : Look → Bool) (J : Disk → Prop) (x : Upd R)
    (Ok : R → Disk → Prop) : Prop :=
  Prog.Triple (Calm sha256 whim) (fun _ => True) J x Ok fun _ => False

theorem look_goes (l : Look) :
    Goes sha256 whim J (look l) fun a s => J s ∧ a = s.sees sha256 whim l := by
  refine Prog.Triple.fetch fun s a t h ht => ?_
  obtain ⟨rfl, rfl⟩ := ht
  exact ⟨trivial, h, rfl⟩

theorem look_passes (l : Look) : Goes sha256 whim J (look l) fun _ => J :=
  (look_goes l).conseq (fun _ h => h) (fun _ _ h => h.1) fun _ h => h

theorem require_goes {ok : Bool} {K : Disk → Prop} (hok : ∀ s, J s → K s ∧ ok = true) :
    Goes sha256 whim J (require ok) fun _ => K := by
  cases ok with
  | true => exact Prog.Triple.pure fun s h => (hok s h).1
  | false => exact Prog.Triple.throw fun s h => nomatch (hok s h).2

theorem required_goes {ok : Bool} {K : Disk → Prop} {x : Upd R}
    (hok : ∀ s, J s → K s ∧ ok = true) (hx : Goes sha256 whim K x Ok) :
    Goes sha256 whim J (do require ok; x) Ok :=
  Prog.Triple.bind (require_goes hok) fun _ => hx

/-- What a distribution leaves alone. -/
def Keeps (J : Disk → Prop) : Prop :=
  ∀ s t : Disk, (∀ slot, (∀ part place, slot ≠ .installed part place) →
    t.files slot = s.files slot) → J s → J t

theorem openDir_goes (part : Part) (place : Place) :
    Goes sha256 whim J (openDir part place) fun _ => J := by
  refine Prog.Triple.bind (look_goes _) fun linked => ?_
  refine required_goes (K := J) (fun s h => ⟨h.1, congrArg not h.2⟩) ?_
  refine Prog.Triple.bind (look_goes _) fun created => required_goes (K := J) (fun _ h => h) ?_
  exact Prog.Triple.bind (look_goes _) fun read => require_goes fun _ h => h

theorem openEntry_goes (part : Part) (place : Place) :
    Goes sha256 whim J (openEntry part place) fun _ => J := by
  refine Prog.Triple.bind (look_goes _) fun read => required_goes (K := J) (fun _ h => h) ?_
  exact Prog.Triple.bind (look_goes _) fun linked =>
    require_goes fun s h => ⟨h.1, congrArg not h.2⟩

theorem install_goes (hJ : Keeps J) (part : Part) (place : Place) (content : Bytes) :
    Goes sha256 whim J (ask (.install part place content))
      fun (ok : Bool) s => J s ∧ ok = true := by
  refine Prog.Triple.fetch fun s ok t h ht => ?_
  obtain ⟨rfl, rfl⟩ := ht
  exact ⟨trivial, hJ s _ (fun slot hne => Disk.put_of_ne (hne part place)) h, rfl⟩

theorem copyEntries_goes (hJ : Keeps J) {part : Part} (dir : Dir) : ∀ place : Place,
    Goes sha256 whim J (copyEntries part dir place true) fun _ => J := by
  induction dir with
  | nil => exact fun place => Prog.Triple.pure fun _ h => h
  | file name content rest ih =>
    intro place
    refine Prog.Triple.bind (look_goes _) fun read => ?_
    refine Prog.Triple.ite (fun _ => ?_) fun hno s h => nomatch h.2.symm.trans hno
    refine Prog.Triple.conseq (J := J) ?_ (fun _ h => h.1) (fun _ _ h => h) fun _ h => h
    by_cases hskip : name ∈ skipNames
    · rw [if_pos hskip]
      exact ih place
    · rw [if_neg hskip]
      refine Prog.Triple.bind (openEntry_goes _ _) fun _ => ?_
      refine Prog.Triple.bind (install_goes hJ _ _ _) fun copied => ?_
      cases copied with
      | true => exact (ih place).conseq (fun _ h => h.1) (fun _ _ h => h) fun _ h => h
      | false => exact fun s h => nomatch h.2
  | sub name entries rest ihentries ihrest =>
    intro place
    refine Prog.Triple.bind (look_goes _) fun read => ?_
    refine Prog.Triple.ite (fun _ => ?_) fun hno s h => nomatch h.2.symm.trans hno
    refine Prog.Triple.conseq (J := J) ?_ (fun _ h => h.1) (fun _ _ h => h) fun _ h => h
    by_cases hskip : name ∈ skipNames
    · rw [if_pos hskip]
      exact ihrest place
    · rw [if_neg hskip]
      refine Prog.Triple.bind (openEntry_goes _ _) fun _ => ?_
      have hsub := Prog.Triple.bind (openDir_goes part (place ++ [name])) fun _ =>
        ihentries (place ++ [name])
      refine Prog.Triple.bind (succeeds_triple hsub) fun copied => ?_
      cases copied with
      | true => exact ihrest place
      | false => exact fun s h => h.elim

theorem syncPart_goes (hJ : Keeps J) (part : Part) :
    Goes sha256 whim J (syncPart part) fun _ => J := by
  refine Prog.Triple.bind (M := fun _ => J) (Prog.Triple.fetch fun s found t h ht => ?_)
    fun found => ?_
  · obtain ⟨-, rfl⟩ := ht
    exact ⟨trivial, h⟩
  · cases found with
    | some dir => exact Prog.Triple.bind (openDir_goes part []) fun _ => copyEntries_goes hJ dir []
    | none => exact Prog.Triple.pure fun _ h => h

theorem manifestChanged_goes (manifest : Manifest) :
    Goes sha256 whim J (manifestChanged manifest) fun _ => J :=
  Prog.Triple.bind (look_passes _) fun _ =>
    Prog.Triple.ite (fun _ => look_passes _) fun _ => Prog.Triple.pure fun _ h => h

theorem markResync_goes (hJ : Keeps J) (changed : Bool) :
    Goes sha256 whim J (markResync changed) fun _ => J := by
  refine Prog.Triple.ite (fun _ => ?_) fun _ => Prog.Triple.pure fun _ h => h
  refine Prog.Triple.bind (look_goes _) fun created => required_goes (K := J) (fun _ h => h) ?_
  refine Prog.Triple.bind (M := fun (ok : Bool) s => J s ∧ ok = true)
    (Prog.Triple.fetch fun s ok t h ht => ?_) fun ok => require_goes fun _ h => h
  obtain ⟨rfl, rfl⟩ := ht
  exact ⟨trivial, hJ s _ (fun _ _ => rfl) h, rfl⟩

theorem syncDistributionFiles_goes (hJ : Keeps J) :
    Goes sha256 whim J syncDistributionFiles fun _ => J := by
  refine Prog.Triple.bind (M := fun _ => J) ?_ fun changed => ?_
  · refine Prog.Triple.bind (manifestChanged_goes _) fun _ => ?_
    exact Prog.Triple.ite (fun _ => Prog.Triple.pure fun _ h => h) fun _ => manifestChanged_goes _
  refine Prog.Triple.bind (markResync_goes hJ changed) fun _ => ?_
  refine Prog.Triple.bind (syncPart_goes hJ _) fun _ => ?_
  exact Prog.Triple.bind (syncPart_goes hJ _) fun _ => syncPart_goes hJ _

theorem moveAside_goes (hadTarget : Bool) :
    Goes sha256 whim (fun s => (s.files .stagedHelper).isSome ∧
      (hadTarget = true → (s.files .helper).isSome)) (moveAside hadTarget)
      fun _ s => (s.files .stagedHelper).isSome := by
  refine Prog.Triple.ite (fun hhad => ?_) fun _ => Prog.Triple.pure fun _ h => h.1
  refine Prog.Triple.bind (M := fun (ok : Bool) s => (s.files .stagedHelper).isSome ∧ ok = true)
    (Prog.Triple.fetch fun s ok t h ht => ?_) fun ok => require_goes fun _ h => h
  obtain ⟨rfl, rfl⟩ := ht
  obtain ⟨c, hc⟩ := Option.isSome_iff_exists.mp (h.2 hhad)
  simp only [calm, hc]
  exact ⟨trivial, h.1, trivial⟩

theorem settleHelper_goes (hadTarget : Bool) :
    Goes sha256 whim (fun _ => True) (settleHelper hadTarget) fun _ _ => True := by
  refine Prog.Triple.bind (look_goes _) fun permitted =>
    required_goes (K := fun _ => True) (fun _ h => h) ?_
  refine Prog.Triple.ite (fun _ => ?_) fun _ => Prog.Triple.pure fun _ h => h
  exact Prog.Triple.bind (M := fun _ _ => True)
    (Prog.Triple.fetch fun _ _ _ _ _ => ⟨trivial, trivial⟩) fun _ => Prog.Triple.pure fun _ h => h

theorem replaceHelper_goes :
    Goes sha256 whim (fun _ => True) replaceHelper fun _ _ => True := by
  refine Prog.Triple.bind (look_goes _) fun there => ?_
  refine Prog.Triple.ite (fun hthere => ?_) fun _ => Prog.Triple.pure fun _ _ => trivial
  refine Prog.Triple.bind (look_goes _) fun hadTarget => ?_
  refine Prog.Triple.bind ((moveAside_goes hadTarget).conseq
    (fun s h => ⟨h.1.2.symm.trans hthere, fun hhad => h.2.symm.trans hhad⟩) (fun _ _ h => h)
    fun _ h => h) fun _ => ?_
  refine Prog.Triple.bind (M := fun (ok : Bool) _ => ok = true)
    (Prog.Triple.fetch fun s ok t h ht => ?_) fun copied => ?_
  · obtain ⟨rfl, rfl⟩ := ht
    obtain ⟨c, hc⟩ := Option.isSome_iff_exists.mp h
    simp only [calm, hc]
    exact ⟨trivial, trivial⟩
  refine Prog.Triple.ite (fun _ => ?_) fun hno s h => nomatch h.symm.trans hno
  exact (settleHelper_goes hadTarget).conseq (fun _ _ => trivial) (fun _ _ h => h) fun _ h => h

theorem syncPortableMarker_goes :
    Goes sha256 whim (fun _ => True) syncPortableMarker fun _ _ => True := by
  refine Prog.Triple.bind (look_passes _) fun _ => ?_
  refine Prog.Triple.ite (fun _ => ?_) fun _ => Prog.Triple.pure fun _ h => h
  refine Prog.Triple.bind (look_passes _) fun _ => ?_
  refine Prog.Triple.ite (fun _ => Prog.Triple.pure fun _ h => h) fun _ => ?_
  refine Prog.Triple.bind (look_goes _) fun read =>
    required_goes (K := fun _ => True) (fun _ h => h) ?_
  refine Prog.Triple.bind (M := fun (ok : Bool) _ => True ∧ ok = true)
    (Prog.Triple.fetch fun s ok t h ht => ?_) fun ok => require_goes fun _ h => h
  exact ⟨trivial, trivial, ht.1⟩

theorem applyTrusted_goes (same : Bool) :
    Goes sha256 whim (fun s => (s.files .stagedExe).isSome) (applyTrusted same)
      fun _ _ => True := by
  have hkeeps : Keeps fun s => (s.files .stagedExe).isSome = true :=
    fun s t hsame h => (congrArg Option.isSome (hsame .stagedExe fun _ _ => nofun)).trans h
  refine Prog.Triple.bind (look_goes _) fun cancelled => ?_
  refine Prog.Triple.bind (M := fun _ s => (s.files .stagedExe).isSome) ?_ fun _ => ?_
  · cases cancelled with
    | true => exact Prog.Triple.throw fun s h => nomatch h.2
    | false => exact Prog.Triple.pure fun s h => h.1
  refine Prog.Triple.bind (look_goes _) fun layout =>
    required_goes (K := fun s => (s.files .stagedExe).isSome) (fun _ h => h) ?_
  refine Prog.Triple.bind (syncDistributionFiles_goes hkeeps) fun _ => ?_
  refine Prog.Triple.bind (M := fun _ _ => True) ?_ fun _ =>
    Prog.Triple.bind replaceHelper_goes fun _ => syncPortableMarker_goes
  refine Prog.Triple.ite (fun _ => Prog.Triple.pure fun _ _ => trivial) fun _ => ?_
  refine Prog.Triple.bind (M := fun (ok : Bool) _ => True ∧ ok = true)
    (Prog.Triple.fetch fun s ok t h ht => ?_) fun ok => require_goes fun _ h => h
  obtain ⟨rfl, rfl⟩ := ht
  obtain ⟨c, hc⟩ := Option.isSome_iff_exists.mp h
  simp only [calm, hc]
  exact ⟨trivial, trivial, trivial⟩

end

/-! ## What a restart comes to -/

section
variable {R : Type} {J : Disk → Prop}

/-- In a restart, a run that ends before its end has removed the record. -/
abbrev Clears (sha256 : Bytes → Text) (whim : Look → Bool) (J : Disk → Prop) (x : Upd R)
    (Ok : R → Disk → Prop) : Prop :=
  Prog.Triple (Calm sha256 whim) (fun _ => True) J x Ok fun s => s.pending = none

theorem Goes.clears {x : Upd R} {Ok : R → Disk → Prop} (h : Goes sha256 whim J x Ok) :
    Clears sha256 whim J x Ok :=
  h.conseq (fun _ h => h) (fun _ _ h => h) fun _ h => h.elim

theorem cleanupAfterApply_clears :
    Clears sha256 whim J cleanupAfterApply fun _ s => s.pending = none := by
  refine Prog.Triple.bind (M := fun _ s => s.pending = none)
    (Prog.Triple.fetch fun s ok t _ ht => ?_) fun _ => ?_
  · obtain ⟨-, rfl⟩ := ht
    exact ⟨trivial, rfl⟩
  refine Prog.Triple.bind (M := fun _ s => s.pending = none)
    (Prog.Triple.fetch fun s ok t h ht => ?_) fun _ => Prog.Triple.pure fun _ h => h
  obtain ⟨-, rfl⟩ := ht
  exact ⟨trivial, h⟩

theorem refuseUnless_clears {ok : Bool} :
    Clears sha256 whim J (refuseUnless ok) fun _ s => ok = true ∧ J s := by
  cases ok with
  | true => exact Prog.Triple.pure fun _ h => ⟨rfl, h⟩
  | false => exact Prog.Triple.bind cleanupAfterApply_clears fun _ => Prog.Triple.throw fun _ h => h

theorem orRefuse_clears {found : Option R} :
    Clears sha256 whim J (orRefuse found) fun _ => J := by
  cases found with
  | some r => exact Prog.Triple.pure fun _ h => h
  | none => exact Prog.Triple.bind cleanupAfterApply_clears fun _ => Prog.Triple.throw fun _ h => h

theorem digestMatches_goes (slot : Slot) (expected : Text) :
    Goes sha256 whim J (digestMatches slot expected) fun _ => J := by
  refine Prog.Triple.bind (M := fun _ => J) (Prog.Triple.fetch fun s found t h ht => ?_)
    fun found => ?_
  · obtain ⟨-, rfl⟩ := ht
    exact ⟨trivial, h⟩
  · cases found with
    | some x => exact Prog.Triple.pure fun _ h => h
    | none => exact Prog.Triple.pure fun _ h => h

theorem applyPendingLocked_clears (current : V) :
    Clears sha256 whim (fun _ => True) (applyPendingLocked parseVersion current)
      fun _ s => s.pending = none := by
  refine Prog.Triple.bind (M := fun _ _ => True) (Prog.Triple.fetch fun _ _ _ _ _ =>
    ⟨trivial, trivial⟩) fun found => ?_
  refine Prog.Triple.bind orRefuse_clears fun pending => ?_
  refine Prog.Triple.bind (look_goes _).clears fun exe => ?_
  refine Prog.Triple.bind (require_goes (K := fun _ => True) fun _ h => h).clears fun _ => ?_
  refine Prog.Triple.bind (look_passes _).clears fun valid => ?_
  refine Prog.Triple.bind refuseUnless_clears fun _ => ?_
  refine Prog.Triple.bind refuseUnless_clears fun _ => ?_
  refine Prog.Triple.bind (look_goes _).clears fun there => ?_
  refine Prog.Triple.bind refuseUnless_clears fun _ => ?_
  refine Prog.Triple.conseq (J := fun s => (s.files .stagedExe).isSome) ?_
    (fun s h => h.2.2.symm.trans h.1) (fun _ _ h => h) fun _ h => h
  refine Prog.Triple.bind (digestMatches_goes _ _).clears fun trusted => ?_
  refine Prog.Triple.bind refuseUnless_clears fun _ => ?_
  refine Prog.Triple.bind orRefuse_clears fun version => ?_
  refine Prog.Triple.bind (M := fun _ s => (s.files .stagedExe).isSome) ?_ fun matching => ?_
  · exact Prog.Triple.ite (fun _ => (digestMatches_goes _ _).clears.conseq (fun _ h => h.2)
      (fun _ _ h => h) fun _ h => h) fun _ => Prog.Triple.pure fun _ h => h.2
  refine Prog.Triple.bind refuseUnless_clears fun _ => ?_
  refine Prog.Triple.bind ((applyTrusted_goes _).clears.conseq (fun _ h => h.2) (fun _ _ h => h)
    fun _ h => h) fun _ => ?_
  exact Prog.Triple.bind cleanupAfterApply_clears fun _ => Prog.Triple.pure fun _ h => h

/-- From any disk, a start in which every operation succeeds leaves no record. -/
theorem applyPendingOnStartup_clears (current : V) :
    Clears sha256 whim (fun _ => True) (applyPendingOnStartup parseVersion current)
      fun _ s => s.pending = none := by
  refine Prog.Triple.bind (look_goes _).clears fun begun => ?_
  refine Prog.Triple.bind (M := fun _ _ => True) ?_ fun _ => ?_
  · cases begun with
    | true => exact Prog.Triple.pure fun _ _ => trivial
    | false => exact Prog.Triple.throw fun s h => nomatch h.2
  refine Prog.Triple.bind (look_goes _).clears fun there => ?_
  refine Prog.Triple.ite (fun _ => ?_) fun hno => ?_
  · refine Prog.Triple.bind (look_goes _).clears fun running => ?_
    refine Prog.Triple.bind (require_goes (K := fun _ => True)
      fun s h => ⟨trivial, congrArg not h.2⟩).clears fun _ => ?_
    exact applyPendingLocked_clears current
  · refine Prog.Triple.conseq (J := fun s => s.pending = none) ?_ (fun s h => ?_)
      (fun _ _ h => h) fun _ h => h
    · refine Prog.Triple.bind (M := fun _ s => s.pending = none) ?_
        fun _ => Prog.Triple.pure fun _ h => h
      refine Prog.Triple.bind (look_passes _).clears fun _ => ?_
      refine Prog.Triple.ite (fun _ => ?_) fun _ => Prog.Triple.pure fun _ h => h
      refine Prog.Triple.bind (M := fun _ s => s.pending = none)
        (Prog.Triple.fetch fun s ok t h ht => ?_) fun _ => Prog.Triple.pure fun _ h => h
      obtain ⟨-, rfl⟩ := ht
      exact ⟨trivial, h⟩
    · exact Option.not_isSome_iff_eq_none.mp (Bool.eq_false_iff.mp (h.2.symm.trans hno))

end

theorem restart_eq (hexe : s.files .exe = some c) :
    restart sha256 parseVersion builtAs s whim =
      (Prog.play (calm sha256 whim) (applyPendingOnStartup parseVersion (builtAs c)).run s).2 := by
  unfold restart
  rw [hexe]

/-- A restart is a start with fit answers. -/
theorem restart_reach (hruns : RunsFrom u start c s) :
    Prog.Reach (Fit u start) (applyPendingOnStartup parseVersion (builtAs c)).run s
      (.done (Prog.play (calm sha256 whim) (applyPendingOnStartup parseVersion (builtAs c)).run s).1)
      (restart sha256 parseVersion builtAs s whim) := by
  rw [restart_eq hruns.2]
  exact Prog.Wp.play_reach (fun s q hs => fit_calm hs q) hruns.1
    (applyPendingOnStartup_leads tame_fit s hruns)

theorem restart_unrecorded (hexe : s.files .exe = some c) :
    (restart sha256 parseVersion builtAs s whim).pending = none := by
  rw [restart_eq hexe]
  have hplayed := Prog.play_reach (W := Calm sha256 whim) (fun s q => ⟨rfl, rfl⟩)
    (applyPendingOnStartup parseVersion (builtAs c)).run s
  have hcleared := Prog.Wp.done hplayed trivial (applyPendingOnStartup_clears (builtAs c) s trivial)
  revert hcleared
  split <;> exact id

theorem restart_inv (h : Inv u start s) (whim : Look → Bool) :
    Inv u start (restart sha256 parseVersion builtAs s whim) ∧
      (restart sha256 parseVersion builtAs s whim).pending = none := by
  obtain ⟨c, hexe⟩ : ∃ c, s.files .exe = some c := h.exe.elim (fun h => ⟨_, h⟩) fun h => ⟨_, h⟩
  exact ⟨inv_of_main ⟨h, hexe⟩ (restart_reach ⟨h, hexe⟩), restart_unrecorded hexe⟩

theorem settled_of_restarts (h : Inv u start s) (whim : Look → Bool) (rest : List (Look → Bool)) :
    Inv u start ((whim :: rest).foldl (restart sha256 parseVersion builtAs) s) ∧
      ((whim :: rest).foldl (restart sha256 parseVersion builtAs) s).pending = none := by
  induction rest generalizing s whim with
  | nil => exact restart_inv h whim
  | cons next rest ih => exact ih (restart_inv h whim).1 next

end

/-! ## A full disk -/

/-- The digests of the two executables. -/
def sampleDigest (file : Bytes) : Text :=
  if file = [7] then "ca358758f6d27e6cf45272937977a748fd88391db679ceda7dc7bf1f005ee879".toList
  else if file = [8, 8] then
    "0b57459772db2f3f6986a135824545af8690c536a865454c3c664767dc2b73f0".toList
  else []

def sampleBuiltAs (file : Bytes) : Nat := if file = [7] then 1000000 else 1001000

def sampleParts : Part → Option Dir
  | .pythonWorker => some (.file "main.py" [1] .nil)
  | _ => none

def sampleUpgrade : Upgrade Nat sampleDigest threeParts sampleBuiltAs where
  oldExe := [7]
  newExe := [8, 8]
  newHelper := some [9]
  parts := sampleParts
  record := {
    version := "1.1.0".toList
    stagingDir := "/app/update/staging".toList
    targetExe := "/app/campus-auth".toList
    workerTargetDir := []
    originalArgs := []
    sha256 := sampleDigest [8, 8] }
  version := 1001000
  once part dir hdir := by cases part <;> cases hdir; decide
  apart := by decide
  summed := by decide
  digest := by decide
  parsed := by decide +kernel
  built := rfl
  newer := by decide

def sampleStart : Disk where
  files
    | .exe => some [7]
    | .helper => some [5]
    | .stagedExe => some [8, 8]
    | .stagedHelper => some [9]
    | .installed .pythonWorker ["main.py"] => some [0]
    | _ => none
  staged := sampleParts
  pending := some sampleUpgrade.record
  resync := false
  marker := false

theorem sample_begins : sampleUpgrade.Begins sampleStart := ⟨rfl, rfl, rfl, rfl, rfl⟩

/-- There is no room for another file: a copy leaves an empty one. -/
def diskFull (s : Disk) : (q : Question) → q.Answer × Disk
  | .copy src .exe => match s.files src with
    | some c => (.whole, s.put .exe c)
    | none => (.untouched, s)
  | .copy src dst => match s.files src with
    | some c => (.cut 0, s.put dst (c.take 0))
    | none => (.untouched, s)
  | q => calm sampleDigest (fun _ => false) s q

theorem answers_diskFull (s : Disk) (q : Question) :
    Beside threeParts sampleBuiltAs (Answers sampleDigest) s q (diskFull s q).1 (diskFull s q).2 := by
  have hcalm : Answers sampleDigest s q (calm sampleDigest (fun _ => false) s q).1
      (calm sampleDigest (fun _ => false) s q).2 := answers_calm s q
  cases q with
  | copy src dst =>
    cases h : s.files src with
    | none => cases dst <;> simp only [diskFull, h] <;> rfl
    | some c => cases dst <;> simp only [diskFull, h] <;> exact ⟨c, h, rfl⟩
  | sleep => exact .inl rfl
  | _ => exact hcalm

def sampleCli : HelperCli := { staging := none, target := none, basePath := "/app".toList }

end CampusAuth.Update.Pending
