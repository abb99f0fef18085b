import CampusAuth.Environment.Evidence
import CampusAuth.Environment.OcrRequests

/- What the requests say is true, and what is not (`environment/uv.rs`).

   A removal whose uv part gave up is still called done when ddddocr is not found in the
   environment: the declaration is not looked at again, and after the roll-back it is there as
   before. A sync takes no copy of the project files, so that one that fails half way leaves what
   it has written (`removal_called_done`). Away from these branches what a request returns is
   true, in every session (`requests_truthful`). -/
namespace CampusAuth.Environment
open Lib

section
variable {R : Type} {s t u : Env} {told head tail : List Heard} {commands : UvCommand → Prop}
  {r : Except EnvironmentError Unit}

/-! ## The preference first -/

def Deps.prefer (d : Deps) (enabled : Bool) : Deps :=
  { d with preferences := some (.preferences stateSchemaVersion enabled) }

theorem setOcrEnabled_run {enabled : Bool}
    (h : Prog.Run ocrWorld (setOcrEnabled enabled).run s told r t) :
    (∀ st ∈ told, st.question.silent) ∧
    (r = .ok () ∧ t.deps = s.deps.prefer enabled ∨
      (∃ e, r = .error e) ∧ t.deps = s.deps ∧ ∀ st ∈ told, saves st = false) := by
  obtain ⟨made, u, rest, rfl, hmade, hrest⟩ := h.ask_then
  have hu : u.deps = s.deps := ocrWorld_calm (q := .createEnvDir) trivial hmade
  cases made with
  | error e =>
    cases hrest
    exact ⟨by simp [Ask.silent], Or.inr ⟨⟨_, rfl⟩, hu, by simp [saves, Except.isOk, Except.toBool]⟩⟩
  | ok _ =>
    obtain ⟨saved, v, rest, rfl, hsaved, hrest⟩ :=
      Prog.Run.ask_then (q := Ask.savePreferences (.preferences stateSchemaVersion enabled)) hrest
    have hv := ocrWorld_save hsaved
    cases saved with
    | error e =>
      cases hrest
      rw [if_neg (by simp), hu] at hv
      exact ⟨by simp [Ask.silent], Or.inr ⟨⟨_, rfl⟩, hv, by simp [saves, Except.isOk, Except.toBool]⟩⟩
    | ok _ =>
      cases hrest
      rw [if_pos rfl, hu] at hv
      exact ⟨by simp [Ask.silent], Or.inl ⟨rfl, hv⟩⟩

/-- A request whose preference is not stored ends there; otherwise the status follows it. -/
theorem request_run {enabled : Bool} {w : EnvironmentStatus → EnvironmentStatus} {f : Act Unit}
    (h : Prog.Run ocrWorld (setOcrEnabled enabled >>= fun _ => ask (.write w) >>= fun _ => f).run
      s told r t) :
    ((∃ e, r = .error e) ∧ NoUv told ∧ ∀ st ∈ told, saves st = false) ∨
    ∃ u head rest, told = head ++ rest ∧ (∀ st ∈ head, st.question.silent) ∧
      u.deps = s.deps.prefer enabled ∧ Prog.Run ocrWorld f.run u rest r t := by
  cases h.then with
  | inl hfail =>
    obtain ⟨e, rfl, hrun⟩ := hfail
    obtain ⟨hsilent, hok | ⟨-, -, hsaves⟩⟩ := setOcrEnabled_run hrun
    · exact absurd hok.1 (by simp)
    · exact Or.inl ⟨⟨e, rfl⟩, fun st hst => uvExit_silent (hsilent st hst), hsaves⟩
  | inr hnext =>
    obtain ⟨_, v, head, rest, rfl, hrun, hrest⟩ := hnext
    obtain ⟨hsilent, hok | ⟨⟨e, he⟩, -⟩⟩ := setOcrEnabled_run hrun
    · obtain ⟨a, u, rest, rfl, hwrite, hrest⟩ := hrest.ask_then
      have hu : u.deps = v.deps := ocrWorld_calm (q := Ask.write w) trivial hwrite
      refine Or.inr ⟨u, head ++ [⟨v, .write w, a, u⟩], rest, by simp, ?_, hu.trans hok.2, hrest⟩
      intro st hst
      cases List.mem_append.mp hst with
      | inl hst => exact hsilent st hst
      | inr hst => exact List.mem_singleton.mp hst ▸ trivial
    · cases he

/-! ## Operations -/

/-- What is shown of an operation that stores a preference and leaves the package as it says. -/
structure Done (s : Env) (told : List Heard) (r : Except EnvironmentError Unit) (t : Env)
    (enabled : Bool) : Prop where
  preference : (∃ st ∈ told, saves st) →
    t.preferences = some (.preferences stateSchemaVersion enabled)
  package : r = .ok () → t.declared = enabled ∧ t.ocrInstalled = enabled
  rolledBack : RolledBack told r t

theorem done_unsaved {enabled : Bool} (hr : ∃ e, r = .error e) (huv : NoUv told)
    (hsaves : ∀ st ∈ told, saves st = false) : Done s told r t enabled where
  preference := fun ⟨st, hst, hsave⟩ => by
    rw [hsaves st hst] at hsave
    cases hsave
  package hok := by
    obtain ⟨e, he⟩ := hr
    rw [he] at hok
    cases hok
  rolledBack := rolledBack_noUv huv

theorem UvPart.added (h : UvPart (· = .add) s told (.ok ()) t) :
    t.declared = true ∧ t.ocrInstalled = true := by
  cases h with
  | done _ hc hw =>
    subst hc
    exact hw.2 rfl

theorem UvPart.removed (h : UvPart (fun c => c = .remove ∨ c = .removeOptional) s told (.ok ()) t) :
    t.declared = false ∧ t.ocrInstalled = false := by
  cases h with
  | done _ hc hw =>
    obtain rfl | rfl := hc
    · exact hw.2 rfl
    · exact hw.2 rfl

theorem declared_of_deps (h : t.deps = u.deps) : t.declared = u.declared :=
  congrArg Deps.declared h

theorem installed_of_deps (h : t.deps = u.deps) : t.ocrInstalled = u.ocrInstalled :=
  congrArg Deps.installed h

theorem installOcrDep_run {platform : Platform}
    (h : Prog.Run ocrWorld (installOcrDep platform).run s told r t) : Done s told r t true := by
  obtain ⟨hr, huv, hsaves⟩ | ⟨u, head, rest, rfl, hhead, hu, hrest⟩ := request_run h
  · exact done_unsaved hr huv hsaves
  have hprefs : u.preferences = some (.preferences stateSchemaVersion true) :=
    congrArg Deps.preferences hu
  have hstart : NoUv head := fun st hst => uvExit_silent (hhead st hst)
  cases hrest.then with
  | inl hfail =>
    obtain ⟨e, rfl, hadd⟩ := hfail
    have hpart := runUvAdd_run hadd
    exact ⟨fun _ => hpart.preferences.trans hprefs, fun hok => absurd hok (by simp),
      .behind hstart (rolledBack_error hpart)⟩
  | inr hnext =>
    obtain ⟨_, v, part, rest, rfl, hadd, hrest⟩ := hnext
    have hpart := runUvAdd_run hadd
    have hafter : Calm (ask .ocrInstalled >>= fun seen =>
        failIf (!seen) (.uvPackageAlterFailed "add" none
          "uv add 成功但 venv 内未探测到 ddddocr") >>= fun _ => verifyAndRecordAfterAlter platform >>=
        fun _ => ask (.write fun s => { s with ocrReady := true }) >>= fun _ =>
          ask .removeOcrMarker) :=
      Calm.bind (ask_calm trivial) fun _ => Aside.calm <| Aside.bind (failIf_aside _ _) fun _ =>
        Aside.bind (verifyAndRecordAfterAlter_aside platform) fun _ =>
          Aside.bind (ask_aside trivial) fun _ => ask_aside trivial
    obtain ⟨hdeps, htail⟩ := hafter.run hrest
    refine ⟨fun _ => ?_, fun _ => ?_, .behind hstart (rolledBack_done hpart htail)⟩
    · exact (congrArg Deps.preferences hdeps).trans (hpart.preferences.trans hprefs)
    · rw [declared_of_deps hdeps, installed_of_deps hdeps]
      exact hpart.added

/-- The commands of a removal. -/
def removing : Bool → UvCommand → Prop
  | true, c => c = .remove ∨ c = .removeOptional
  | false, c => c = .sync

theorem attempt_run {x : Act R} {r : Except EnvironmentError (Except EnvironmentError R)}
    (h : Prog.Run ocrWorld (attempt x).run s told r t) :
    ∃ a, r = .ok a ∧ Prog.Run ocrWorld x.run s told a t := by
  obtain ⟨a, u, first, rest, htold, hx, hrest⟩ := Prog.Run.bind (p := x.run) h
  cases hrest
  rw [List.append_nil] at htold
  exact ⟨a, rfl, htold ▸ hx⟩

/-- The uv part of a removal is done, or it gave up and the package is looked for. -/
theorem withdrawOcr_run {declared : Bool}
    (h : Prog.Run ocrWorld (withdrawOcr declared).run s told r t) :
    (r = .ok () ∧ UvPart (removing declared) s told (.ok ()) t) ∨
    ∃ part u e, ∃ seen : Bool, told = part ++ [⟨u, .ocrInstalled, seen, t⟩] ∧
      UvPart (removing declared) s part (.error e) u ∧ t.deps = u.deps ∧
      r = if seen then .error e else .ok () := by
  cases h.then with
  | inl hfail =>
    obtain ⟨e, -, hrun⟩ := hfail
    obtain ⟨a, ha, -⟩ := attempt_run hrun
    cases ha
  | inr hnext =>
    obtain ⟨result, u, part, rest, rfl, hrun, hrest⟩ := hnext
    obtain ⟨_, ha, hrun⟩ := attempt_run hrun
    cases ha
    have hpart : UvPart (removing declared) s part result u := by
      cases declared with
      | true => exact runUvRemove_run hrun
      | false => exact runUvSync_run hrun
    cases result with
    | ok _ =>
      cases hrest
      rw [List.append_nil]
      exact Or.inl ⟨rfl, hpart⟩
    | error e =>
      obtain ⟨seen, v, rest, rfl, hseen, hrest⟩ := hrest.ask_then
      refine Or.inr ⟨part, u, e, seen, ?_⟩
      cases seen with
      | true =>
        cases hrest
        exact ⟨rfl, hpart, (ocrWorld_installed hseen).2, rfl⟩
      | false =>
        cases hrest
        exact ⟨rfl, hpart, (ocrWorld_installed hseen).2, rfl⟩

theorem UvPart.withdrawn {declared : Bool} (h : UvPart (removing declared) s told (.ok ()) t)
    (hsync : ∀ st ∈ told, uvExit st = some (.sync, .success) →
      st.after.declared = false ∧ st.after.ocrInstalled = false) :
    t.declared = false ∧ t.ocrInstalled = false := by
  cases declared with
  | true => exact UvPart.removed h
  | false =>
    cases h with
    | done hpre hc hw =>
      subst hc
      exact hsync _ (List.mem_append_right _ List.mem_cons_self) rfl

/-- The declaration is seen unless the file cannot be read. -/
theorem ddddocrDeclared_run {r : Except EnvironmentError Bool}
    (h : Prog.Run ocrWorld ddddocrDeclared.run s told r t) :
    ∃ d, r = .ok d ∧ ((∀ st ∈ told, unread st → st.before.declared = false) → d = s.declared) := by
  obtain ⟨content, u, rest, rfl, hw, hrest⟩ := h.ask_then
  obtain ⟨s', t', hs, -, hread, -⟩ := ocrWorld_cases hw
  cases content with
  | ok c =>
    cases hrest
    have hc : s'.pyproject = some c := hread c rfl
    have hdeclared : s.declared = s'.declared := (declared_of_deps hs).symm
    refine ⟨_, rfl, fun _ => ?_⟩
    rw [hdeclared, Env.declared, hc]
    rfl
  | error e =>
    cases hrest
    exact ⟨_, rfl, fun hunread => (hunread _ List.mem_cons_self rfl).symm⟩

theorem UvPart.unseen {e : EnvironmentError} (h : UvPart commands s told (.error e) t) :
    told.filterMap seenInstalled = [] := by
  cases h with
  | gaveUp _ hspent => exact filterMap_none hspent.unseen

theorem removeFound_run {platform : Platform} {declared installed : Bool}
    (h : Prog.Run ocrWorld (removeFound platform declared installed).run s told r t)
    (hfound : told.filterMap seenInstalled ≠ [false])
    (hsynced : ∀ st ∈ told, uvExit st = some (.sync, .success) →
      st.after.declared = false ∧ st.after.ocrInstalled = false) :
    t.preferences = s.preferences ∧
    (r = .ok () → declared = false ∧ installed = false ∧ t.deps = s.deps ∨
      t.declared = false ∧ t.ocrInstalled = false) ∧ RolledBack told r t := by
  by_cases hgone : (!installed && !declared) = true
  · have hdone : removeFound platform declared installed = ask .removeOcrMarker := if_pos hgone
    rw [hdone] at h
    rw [Bool.and_eq_true, Bool.not_eq_true', Bool.not_eq_true'] at hgone
    obtain ⟨ht, htold⟩ := (ask_calm (q := .removeOcrMarker) trivial).run h
    exact ⟨congrArg Deps.preferences ht, fun _ => Or.inl ⟨hgone.2, hgone.1, ht⟩,
      rolledBack_noUv htold⟩
  have hgoes : removeFound platform declared installed = (withdrawOcr declared >>= fun _ =>
      verifyAndRecordAfterAlter platform >>= fun _ =>
        ask (.write fun s => { s with ocrReady := false }) >>= fun _ => ask .removeOcrMarker) :=
    if_neg hgone
  rw [hgoes] at h
  cases h.then with
  | inl hfail =>
    obtain ⟨e, rfl, hwithdraw⟩ := hfail
    obtain ⟨hok, -⟩ | ⟨part, u, e', seen, rfl, hpart, hu, hr⟩ := withdrawOcr_run hwithdraw
    · cases hok
    · refine ⟨(congrArg Deps.preferences hu).trans hpart.preferences,
        fun hok => absurd hok (by simp), ?_⟩
      refine rolledBack_gaveUp hpart (fun st hst => ?_) (congrArg Deps.files hu)
      rw [List.mem_singleton.mp hst]
      rfl
  | inr hnext =>
    obtain ⟨_, u, part, tail, rfl, hwithdraw, hrest⟩ := hnext
    have hafter : Aside (verifyAndRecordAfterAlter platform >>= fun _ =>
        ask (.write fun s => { s with ocrReady := false }) >>= fun _ => ask .removeOcrMarker) :=
      Aside.bind (verifyAndRecordAfterAlter_aside platform) fun _ =>
        Aside.bind (ask_aside trivial) fun _ => ask_aside trivial
    obtain ⟨hdeps, htail⟩ := hafter.run hrest
    obtain ⟨-, hpart⟩ | ⟨part, v, e, seen, rfl, hpart, hv, hr⟩ := withdrawOcr_run hwithdraw
    · refine ⟨(congrArg Deps.preferences hdeps).trans hpart.preferences, fun _ => Or.inr ?_,
        rolledBack_done hpart fun st hst => uvExit_silent (htail st hst).silent⟩
      rw [declared_of_deps hdeps, installed_of_deps hdeps]
      exact hpart.withdrawn fun st hst => hsynced st (List.mem_append_left _ hst)
    · -- uv gave up, and the package is not found
      cases seen with
      | true => cases hr
      | false =>
        refine absurd ?_ hfound
        rw [List.filterMap_append, List.filterMap_append, hpart.unseen,
          filterMap_none fun st hst => seenInstalled_silent (htail st hst).silent]
        rfl

theorem removeOcrDep_run {platform : Platform}
    (h : Prog.Run ocrWorld (removeOcrDep platform).run s told r t)
    (hreadable : ∀ st ∈ told, unread st → st.before.declared = false)
    (hfound : ∀ installed, told.filterMap seenInstalled ≠ [installed, false])
    (hsynced : ∀ st ∈ told, uvExit st = some (.sync, .success) →
      st.after.declared = false ∧ st.after.ocrInstalled = false) : Done s told r t false := by
  obtain ⟨hr, huv, hsaves⟩ | ⟨u, head, rest, rfl, hhead, hu, hrest⟩ := request_run h
  · exact done_unsaved hr huv hsaves
  cases hrest.then with
  | inl hfail =>
    obtain ⟨e, -, hrun⟩ := hfail
    obtain ⟨d, hd, -⟩ := ddddocrDeclared_run hrun
    cases hd
  | inr hnext =>
    obtain ⟨declared, v, look, rest, rfl, hrun, hrest⟩ := hnext
    obtain ⟨hv, hlook⟩ := ddddocrDeclared_aside.run hrun
    obtain ⟨_, hd, hdeclared⟩ := ddddocrDeclared_run hrun
    cases hd
    replace hdeclared := hdeclared fun st hst =>
      hreadable st (List.mem_append_right _ (List.mem_append_left _ hst))
    obtain ⟨seen, w, rest, rfl, hseen, hrest⟩ := hrest.ask_then
    obtain ⟨hinstalled, hw⟩ := ocrWorld_installed hseen
    have hfound' : rest.filterMap seenInstalled ≠ [false] := by
      intro hrest
      refine hfound seen ?_
      rw [List.filterMap_append, List.filterMap_append,
        filterMap_none fun st hst => seenInstalled_silent (hhead st hst),
        filterMap_none fun st hst => seenInstalled_silent (hlook st hst).silent]
      exact congrArg (seen :: ·) hrest
    obtain ⟨hprefs, hpackage, hrolled⟩ := removeFound_run hrest hfound' fun st hst =>
      hsynced st (List.mem_append_right _ (List.mem_append_right _ (List.mem_cons_of_mem _ hst)))
    have hwu : w.deps = u.deps := hw.trans hv
    refine ⟨fun _ => ?_, fun hok => ?_, ?_⟩
    · exact hprefs.trans ((congrArg Deps.preferences hwu).trans (congrArg Deps.preferences hu))
    · obtain ⟨rfl, rfl, ht⟩ | hgone := hpackage hok
      · rw [declared_of_deps (ht.trans hwu), installed_of_deps (ht.trans hwu), ← hdeclared,
          ← installed_of_deps hv, ← hinstalled]
        exact ⟨rfl, rfl⟩
      · exact hgone
    · refine .behind (fun st hst => uvExit_silent (hhead st hst)) ?_
      refine .behind (fun st hst => uvExit_silent (hlook st hst).silent) ?_
      exact RolledBack.behind (List.forall_mem_singleton.mpr rfl) hrolled

/-! ## Aligning with the preference -/

def Prefers (s : Env) (enabled : Bool) : Prop :=
  s.preferences = some (.preferences stateSchemaVersion enabled)

/-- What is shown of an operation that asks for nothing new. -/
structure Aligned (s : Env) (told : List Heard) (r : Except EnvironmentError Unit) (t : Env) :
    Prop where
  preference : ∀ enabled, Prefers s enabled → Prefers t enabled
  rolledBack : RolledBack told r t

/-- Steps without a uv command that keep the preference. -/
structure Quiet (s : Env) (told : List Heard) (t : Env) : Prop where
  preference : ∀ enabled, Prefers s enabled → Prefers t enabled
  noUv : NoUv told

theorem Quiet.aligned (h : Quiet s told t) : Aligned s told r t :=
  ⟨h.preference, rolledBack_noUv h.noUv⟩

theorem Aligned.behind (hhead : Quiet s head u) (h : Aligned u told r t) :
    Aligned s (head ++ told) r t :=
  ⟨fun enabled hs => h.preference enabled (hhead.preference enabled hs),
    h.rolledBack.behind hhead.noUv⟩

theorem Calm.quiet {x : Act R} (hx : Calm x) {r : Except EnvironmentError R}
    (h : Prog.Run ocrWorld x.run s told r t) : Quiet s told t := by
  obtain ⟨hdeps, hnoUv⟩ := hx.run h
  exact ⟨fun _ hs => (congrArg Deps.preferences hdeps).trans hs, hnoUv⟩

/-- Behind a quiet step. -/
theorem aligned_then {x : Act R} {f : R → Act Unit}
    (hx : ∀ told r t, Prog.Run ocrWorld x.run s told r t → Quiet s told t)
    (hf : ∀ a first u told, Prog.Run ocrWorld x.run s first (.ok a) u →
      Prog.Run ocrWorld (f a).run u told r t → Aligned u told r t)
    (h : Prog.Run ocrWorld (x >>= f).run s told r t) : Aligned s told r t := by
  cases h.then with
  | inl hfail =>
    obtain ⟨e, -, hrun⟩ := hfail
    exact (hx _ _ _ hrun).aligned
  | inr hnext =>
    obtain ⟨a, u, first, rest, rfl, hrun, hrest⟩ := hnext
    exact Aligned.behind (hx _ _ _ hrun) (hf a first u rest hrun hrest)

theorem ocrEnabled_run {enabled enabled' : Bool}
    (h : Prog.Run ocrWorld ocrEnabled.run s told (.ok enabled) t) (hs : Prefers s enabled') :
    enabled = enabled' := by
  obtain ⟨content, u, rest, rfl, hw, hrest⟩ := h.ask_then
  obtain ⟨s', t', hs', -, hread, -⟩ := ocrWorld_cases hw
  have hfile : s'.preferences = some (.preferences stateSchemaVersion enabled') :=
    (congrArg Deps.preferences hs').trans hs
  cases content with
  | error e => cases hrest
  | ok file =>
    obtain rfl : file = some (.preferences stateSchemaVersion enabled') :=
      (hread file rfl).symm.trans hfile
    cases hrest
    exact Bool.true_and enabled'

theorem keepOcrEnabled_run {had enabled : Bool} {r : Except EnvironmentError Unit}
    (h : Prog.Run ocrWorld (doIf had (setOcrEnabled enabled)).run s told r t)
    (hs : ∀ enabled', Prefers s enabled' → enabled = enabled') : Quiet s told t := by
  cases had with
  | false =>
    cases h
    exact ⟨fun _ h => h, fun _ hst => absurd hst List.not_mem_nil⟩
  | true =>
    obtain ⟨hsilent, ⟨-, hdeps⟩ | ⟨-, hdeps, -⟩⟩ := setOcrEnabled_run h
    · refine ⟨fun enabled' hprefers => ?_, fun st hst => uvExit_silent (hsilent st hst)⟩
      rw [← hs enabled' hprefers]
      exact congrArg Deps.preferences hdeps
    · exact ⟨fun _ hprefers => (congrArg Deps.preferences hdeps).trans hprefers,
        fun st hst => uvExit_silent (hsilent st hst)⟩

/-- A uv part, and what stands behind it. -/
theorem uvPart_aligned {x : Act Unit} {f : Bool → Act Unit}
    (hx : ∀ told r t, Prog.Run ocrWorld x.run s told r t → UvPart commands s told r t)
    (hf : Calm (f true))
    (h : Prog.Run ocrWorld ((x >>= fun _ => (pure true : Act Bool)) >>= f).run s told r t) :
    Aligned s told r t := by
  cases h.then with
  | inl hfail =>
    obtain ⟨e, rfl, hrun⟩ := hfail
    cases hrun.then with
    | inl hfail =>
      obtain ⟨_, he, hrun⟩ := hfail
      cases he
      have hpart := hx _ _ _ hrun
      exact ⟨fun _ hs => hpart.preferences.trans hs, rolledBack_error hpart⟩
    | inr hnext =>
      obtain ⟨_, _, _, _, -, -, hpure⟩ := hnext
      cases hpure
  | inr hnext =>
    obtain ⟨changed, u, part, tail, rfl, hrun, hrest⟩ := hnext
    cases hrun.then with
    | inl hfail =>
      obtain ⟨_, he, -⟩ := hfail
      cases he
    | inr hnext =>
      obtain ⟨_, v, part, rest, rfl, hrun, hpure⟩ := hnext
      cases hpure
      have hpart := hx _ _ _ hrun
      obtain ⟨hdeps, htail⟩ := hf.run hrest
      rw [List.append_nil]
      exact ⟨fun _ hs => (congrArg Deps.preferences hdeps).trans (hpart.preferences.trans hs),
        rolledBack_done hpart htail⟩

theorem alignOcr_run {enabled declared installed : Bool} {f : Bool → Act Unit}
    (hf : ∀ changed, Calm (f changed))
    (h : Prog.Run ocrWorld (alignOcr enabled declared installed >>= f).run s told r t) :
    Aligned s told r t := by
  match enabled, declared, installed with
  | true, false, _ => exact uvPart_aligned (fun _ _ _ => runUvAdd_run) (hf true) h
  | true, true, false => exact uvPart_aligned (fun _ _ _ => runUvSync_run) (hf true) h
  | false, false, true => exact uvPart_aligned (fun _ _ _ => runUvSync_run) (hf true) h
  | false, true, _ => exact uvPart_aligned (fun _ _ _ => runUvRemove_run) (hf true) h
  | true, true, true => exact ((hf false).quiet h).aligned
  | false, false, false => exact ((hf false).quiet h).aligned

theorem reconcileOcrPreference_run {platform : Platform}
    (h : Prog.Run ocrWorld (reconcileOcrPreference platform).run s told r t) :
    Aligned s told r t := by
  have hmarker : Calm (ask .ocrMarker) := ask_calm trivial
  refine aligned_then (fun _ _ _ => hmarker.quiet) (fun had _ u told _ hrest => ?_) h
  refine aligned_then (fun _ _ _ => ocrEnabled_aside.calm.quiet)
    (fun enabled _ v told henabled hrest => ?_) hrest
  have hprefers : ∀ enabled', Prefers v enabled' → enabled = enabled' := by
    intro enabled' hv
    refine ocrEnabled_run henabled ?_
    exact (congrArg Deps.preferences (ocrEnabled_aside.run henabled).1).symm.trans hv
  refine aligned_then (fun _ _ _ hrun => keepOcrEnabled_run hrun hprefers)
    (fun _ _ w told _ hrest => ?_) hrest
  refine aligned_then (fun _ _ _ => ddddocrDeclared_aside.calm.quiet)
    (fun declared _ x told _ hrest => ?_) hrest
  refine aligned_then (fun _ _ _ => Calm.quiet (ask_calm (q := .ocrInstalled) trivial))
    (fun installed _ y told _ hrest => alignOcr_run (fun changed => ?_) hrest) hrest
  have hverify : Calm (doIf changed (verifyAndRecordAfterAlter platform)) := by
    cases changed with
    | true => exact (verifyAndRecordAfterAlter_aside platform).calm
    | false => exact (pure_aside ()).calm
  have hclear : Calm (doIf had (ask .removeOcrMarker)) := by
    cases had with
    | true => exact ask_calm (q := .removeOcrMarker) trivial
    | false => exact (pure_aside ()).calm
  exact Calm.bind hverify fun _ => Calm.bind (ask_calm trivial) fun _ =>
    Calm.bind (ask_calm trivial) fun _ => hclear

/-! ## Sessions -/

theorem truthful_of_done {p : Performed} {enabled : Bool} (hrequest : p.op.request = some enabled)
    (h : Done p.before p.told p.result p.after enabled) (hmeets : p.Meets) : p.Truthful where
  removed hremove hok := by
    rw [hremove] at hrequest
    cases hrequest
    exact h.package hok
  installed hinstall hok := by
    rw [hinstall] at hrequest
    cases hrequest
    exact h.package hok
  rolledBack hfailed := h.rolledBack hfailed (hmeets.untouched hfailed)

/-- One operation: what it says is true, and its request is stored. -/
theorem performed_truthful {platform : Platform} {p : Performed}
    (h : Prog.Run ocrWorld (p.op.program platform).run p.before p.told p.result p.after)
    (hmeets : p.Meets) : p.Truthful ∧
      (∀ enabled, p.op.request = some enabled → Prefers p.after enabled) ∧
      (p.op.request = none → ∀ enabled, Prefers p.before enabled → Prefers p.after enabled) := by
  have hrequested : ∀ {enabled : Bool}, p.op.request = some enabled →
      Done p.before p.told p.result p.after enabled → p.Truthful ∧
      (∀ enabled, p.op.request = some enabled → Prefers p.after enabled) ∧
      (p.op.request = none → ∀ enabled, Prefers p.before enabled → Prefers p.after enabled) := by
    intro enabled hrequest hdone
    refine ⟨truthful_of_done hrequest hdone hmeets, fun enabled' hrequest' => ?_, fun hnone => ?_⟩
    · obtain rfl : enabled = enabled' := Option.some.inj (hrequest.symm.trans hrequest')
      exact hdone.preference (hmeets.stored (hrequest ▸ Option.some_ne_none _))
    · rw [hrequest] at hnone
      cases hnone
  cases hop : p.op with
  | install =>
    rw [hop] at h
    rw [← hop]
    exact hrequested (hop ▸ rfl) (installOcrDep_run h)
  | remove =>
    rw [hop] at h
    rw [← hop]
    exact hrequested (hop ▸ rfl)
      (removeOcrDep_run h (hmeets.readable hop) (hmeets.found hop) (hmeets.synced hop))
  | reconcile =>
    rw [hop] at h
    have haligned := reconcileOcrPreference_run h
    refine ⟨⟨fun hremove => ?_, fun hinstall => ?_, fun hfailed => ?_⟩, fun _ hsome => ?_,
      fun _ => haligned.preference⟩
    · rw [hop] at hremove
      cases hremove
    · rw [hop] at hinstall
      cases hinstall
    · exact haligned.rolledBack hfailed (hmeets.untouched hfailed)
    · cases hsome

end

theorem lastRequest_append (ps : List Performed) (p : Performed) :
    lastRequest (ps ++ [p]) = p.op.request.or (lastRequest ps) := by
  unfold lastRequest
  cases h : p.op.request with
  | some enabled => simp [h]
  | none => simp [h]

/-- In a run whose operations meet the condition all of them say the truth, and the stored
    preference is that of the last request. -/
theorem requests_truthful (platform : Platform) (ps : List Performed) (s : Env)
    (h : Session platform ps s) (hmeets : ∀ p ∈ ps, p.Meets) :
    (∀ p ∈ ps, p.Truthful) ∧
    ∀ enabled, lastRequest ps = some enabled →
      s.preferences = some (.preferences stateSchemaVersion enabled) := by
  induction h with
  | start s => exact ⟨fun _ hp => absurd hp List.not_mem_nil, fun _ hlast => by cases hlast⟩
  | @perform ps s p hsession hkept hrun ih =>
    obtain ⟨hmeets', hmeets⟩ := List.forall_mem_append.mp hmeets
    obtain ⟨htruthful, hlast⟩ := ih hmeets'
    obtain ⟨hp, hasked, haligned⟩ := performed_truthful hrun (hmeets p List.mem_cons_self)
    refine ⟨List.forall_mem_append.mpr ⟨htruthful, List.forall_mem_singleton.mpr hp⟩,
      fun enabled henabled => ?_⟩
    rw [lastRequest_append] at henabled
    cases hrequest : p.op.request with
    | some enabled' =>
      rw [hrequest, Option.some_or] at henabled
      cases henabled
      exact hasked enabled hrequest
    | none =>
      rw [hrequest, Option.none_or] at henabled
      exact haligned hrequest enabled (hkept.trans (hlast enabled henabled))

/-! ## Runs -/

def declaring : Content := .text "dependencies = [\"ddddocr>=1.6.1\"]".toList

def plainProject : Content := .text "[project]".toList

theorem declares_declaring : declaresDdddocr declaring = true := by decide +kernel

theorem declares_plainProject : declaresDdddocr plainProject = false := by decide +kernel

/-- What a uv command that succeeds makes of the environment. -/
def alter (s : Env) : UvCommand → Env
  | .sync => s
  | .add => { s with pyproject := some declaring, ocrInstalled := true }
  | .remove | .removeOptional => { s with pyproject := some plainProject, ocrInstalled := false }

/-- What a command that came to this leaves; a sync that fails has written a new lock. -/
def leave (s : Env) (c : UvCommand) (result : CommandResult) : Env :=
  if result = .success then (alter s c).logged (.uv c result)
  else if c = .sync then
    { s with lock := some (.text "version = 2".toList) }.logged (.uv c result)
  else s.logged (.uv c result)

theorem leave_world (s : Env) (c : UvCommand) {result : CommandResult}
    (hresult : result = .cancelled ↔ s.cancelled = true) :
    ocrWorld s (.uv c) result (leave s c result) := by
  by_cases hsuccess : result = .success
  · subst hsuccess
    have hanswer : ∃ pyproject lock installed, (alter s c).logged (.uv c .success) =
        { s with pyproject := pyproject, lock := lock, ocrInstalled := installed,
                 log := .uv c .success :: s.log } := by
      cases c <;> exact ⟨_, _, _, rfl⟩
    refine ⟨⟨s, _, Or.inl rfl, ⟨hresult, hanswer⟩, Or.inl rfl⟩, ?_⟩
    cases c with
    | sync => trivial
    | add => exact fun _ => ⟨declares_declaring, rfl⟩
    | remove | removeOptional => exact fun _ => ⟨declares_plainProject, rfl⟩
  · have hanswer : ∃ pyproject lock installed, leave s c result =
        { s with pyproject := pyproject, lock := lock, ocrInstalled := installed,
                 log := .uv c result :: s.log } := by
      rw [leave, if_neg hsuccess]
      split <;> exact ⟨_, _, _, rfl⟩
    refine ⟨⟨s, _, Or.inl rfl, ⟨hresult, hanswer⟩, Or.inl rfl⟩, ?_⟩
    cases c with
    | sync => trivial
    | add | remove | removeOptional => exact fun h => absurd h hsuccess

/-- A machine on which uv comes to the results given. -/
def machine (result : UvCommand → CommandResult) (s : Env) : (q : Ask) → q.Answer × Env
  | .uv c =>
    let r := if s.cancelled then .cancelled else result c
    (r, leave s c r)
  | q => usual result false s q

theorem machine_world (result : UvCommand → CommandResult) (hresult : ∀ c, result c ≠ .cancelled)
    (s : Env) (q : Ask) : ocrWorld s q (machine result s q).1 (machine result s q).2 := by
  have husual := usual_world result hresult false s q
  cases q with
  | uv c =>
    have hcancelled : (if s.cancelled then CommandResult.cancelled else result c) = .cancelled ↔
        s.cancelled = true := by
      cases s.cancelled with
      | true => exact ⟨fun _ => rfl, fun _ => rfl⟩
      | false => exact ⟨fun h => absurd h (hresult c), fun h => by cases h⟩
    exact leave_world s c hcancelled
  | backup => exact ⟨husual, rfl⟩
  | restore backup => exact ⟨husual, rfl⟩
  | _ => exact ⟨husual, trivial⟩

/-- An operation on the machine. -/
def performOn (result : UvCommand → CommandResult) (op : Operation) (s : Env) : Performed where
  op := op
  before := s
  told := Prog.playTold (machine result) (op.program samplePlatform).run s
  result := (Prog.play (machine result) (op.program samplePlatform).run s).1
  after := (Prog.play (machine result) (op.program samplePlatform).run s).2

theorem performOn_session (result : UvCommand → CommandResult)
    (hresult : ∀ c, result c ≠ .cancelled) (op : Operation) (s : Env) :
    Session samplePlatform [performOn result op s] (performOn result op s).after :=
  Session.perform (p := performOn result op s) (.start s) rfl
    (Prog.play_run (machine_world result hresult) _ s)

/-- An installation and a removal that go well. -/
def sampleInstallation : Performed := performOn allWell .install sampleEnv

def sampleRemoval : Performed := performOn allWell .remove sampleInstallation.after

theorem requests_truthful_sample :
    (∀ p ∈ [sampleInstallation, sampleRemoval], p.Truthful) ∧
      sampleRemoval.after.preferences = some (.preferences stateSchemaVersion false) := by
  have hworld := machine_world allWell fun _ => CommandResult.noConfusion
  have hsession : Session samplePlatform [sampleInstallation, sampleRemoval] sampleRemoval.after :=
    Session.perform (p := sampleRemoval) (performOn_session allWell
      (fun _ => CommandResult.noConfusion) .install sampleEnv) rfl (Prog.play_run hworld _ _)
  have hinstalled : sampleInstallation.Meets := {
    stored := fun _ => by decide +kernel
    readable := fun h => by cases h
    found := fun h => by cases h
    synced := fun h => by cases h
    untouched := fun h => absurd h (by decide +kernel) }
  have hremoved : sampleRemoval.Meets := {
    stored := fun _ => by decide +kernel
    readable := fun _ => by decide +kernel
    found := fun _ => by decide +kernel
    synced := fun _ => by decide +kernel
    untouched := fun h => absurd h (by decide +kernel) }
  obtain ⟨htruthful, hlast⟩ := requests_truthful samplePlatform [sampleInstallation, sampleRemoval]
    sampleRemoval.after hsession
    (List.forall_mem_cons.mpr ⟨hinstalled, List.forall_mem_singleton.mpr hremoved⟩)
  exact ⟨htruthful, hlast false rfl⟩

def noneWorks : UvCommand → CommandResult := fun _ => .failed (some 2) "error"

/-- The package is declared and was deleted by hand. -/
def declaredOnly : Env :=
  { sampleEnv with pyproject := some declaring }

/-- The package is installed and not wanted. -/
def installedOnly : Env :=
  { sampleEnv with preferences := some (.preferences 1 false), ocrInstalled := true }

/-- A removal that failed is called done while the package is declared, and a sync that failed
    leaves another lock. -/
theorem removal_called_done :
    (¬∀ (platform : Platform) (ps : List Performed) (s : Env), Session platform ps s →
      ∀ p ∈ ps, p.op = .remove → p.result = .ok () →
        p.after.declared = false ∧ p.after.ocrInstalled = false) ∧
    ¬∀ (platform : Platform) (ps : List Performed) (s : Env), Session platform ps s →
      ∀ p ∈ ps, uvFailed p.told → ∀ st ∈ p.told, uvExit st ≠ none →
        p.after.projectFiles = st.before.projectFiles := by
  have hresult : ∀ c, noneWorks c ≠ .cancelled := fun _ => CommandResult.noConfusion
  constructor
  · intro h
    have hgone := h _ _ _ (performOn_session noneWorks hresult .remove declaredOnly) _
      List.mem_cons_self rfl (by decide +kernel)
    exact absurd hgone.1 (by decide +kernel)
  · intro h
    have hkept := h _ _ _ (performOn_session noneWorks hresult .reconcile installedOnly) _
      List.mem_cons_self (by decide +kernel)
    exact absurd hkept (by decide +kernel)

end CampusAuth.Environment
