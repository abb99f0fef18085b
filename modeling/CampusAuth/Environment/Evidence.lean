import CampusAuth.Environment.Bootstrap

/- What stands behind a Worker that is called ready (`bootstrap_worker_runtime`).

   The log tells which uv command ran and which probe succeeded after it. Up to the OCR step
   every run that goes on has probed the Worker after its last uv command and looked at the
   token after its last change. The OCR step may run further uv commands, and its errors are
   only logged: what it leaves is backed by a probe exactly when its last command and the probe
   behind it succeed, and nobody looks at the token any more (`worker_ready_iff`). -/
namespace CampusAuth.Environment
open Lib

/-! ## Reading the log, the newest event first -/

/-- No uv command since the last probe that succeeded. -/
def backed : List Event → Bool
  | [] => true
  | .probe true :: _ => true
  | .uv _ _ :: _ => false
  | _ :: log => backed log

/-- The last uv command of the OCR step, if there is one, succeeded. -/
def lastUvSucceeded : List Event → Bool
  | [] => true
  | .stage .applyingOcr :: _ => true
  | .uv _ result :: _ => result = .success
  | _ :: log => lastUvSucceeded log

/-- The OCR step ran no uv command, or its last one succeeded and the probe after it too. -/
def ocrClean : List Event → Bool
  | [] => true
  | .stage .applyingOcr :: _ => true
  | .uv _ _ :: _ => false
  | .probe true :: log => lastUvSucceeded log
  | _ :: log => ocrClean log

/-- The token was not cancelled since the code last looked at it. -/
def untouchedSinceLook : List Event → Bool
  | [] => true
  | .cancel :: _ => false
  | .look :: _ => true
  | .uv _ _ :: _ => true
  | _ :: log => untouchedSinceLook log

/-- The token was not cancelled since the code last looked at it before the OCR step. -/
def noLateCancel : List Event → Bool
  | [] => true
  | .cancel :: _ => false
  | .stage .applyingOcr :: log => untouchedSinceLook log
  | _ :: log => noLateCancel log

def Synced (log : List Event) : Prop := ∃ late early, log = late ++ .uv .sync .success :: early

def Probed (log : List Event) : Prop := ∃ late early, log = late ++ .probe true :: early ∧ Synced early

/-- A sync, then a probe, then a record, each of them successful. -/
def Recorded (log : List Event) : Prop := ∃ late early, log = late ++ .record :: early ∧ Probed early

theorem Synced.cons {log : List Event} (h : Synced log) (e : Event) : Synced (e :: log) := by
  obtain ⟨late, early, rfl⟩ := h
  exact ⟨e :: late, early, rfl⟩

theorem Probed.cons {log : List Event} (h : Probed log) (e : Event) : Probed (e :: log) := by
  obtain ⟨late, early, rfl, hearly⟩ := h
  exact ⟨e :: late, early, rfl, hearly⟩

theorem Recorded.cons {log : List Event} (h : Recorded log) (e : Event) : Recorded (e :: log) := by
  obtain ⟨late, early, rfl, hearly⟩ := h
  exact ⟨e :: late, early, rfl, hearly⟩

theorem noLateCancel_of_no_cancel {log : List Event} (h : .cancel ∉ log) :
    noLateCancel log = true := by
  have hlook : ∀ l : List Event, .cancel ∉ l → untouchedSinceLook l = true := by
    intro l hl
    induction l with
    | nil => rfl
    | cons e l ih =>
      have hrest := ih fun hmem => hl (List.mem_cons_of_mem e hmem)
      cases e <;> first | rfl | exact hrest | exact absurd List.mem_cons_self hl
  induction log with
  | nil => rfl
  | cons e log ih =>
    have htail : .cancel ∉ log := fun hmem => h (List.mem_cons_of_mem e hmem)
    have hrest := ih htail
    cases e with
    | cancel => exact absurd List.mem_cons_self h
    | stage s => cases s <;> first | exact hrest | exact hlook log htail
    | _ => exact hrest

/-! ## Assertions on the log and the token -/

/-- An event that none of the readings above stops at. -/
def Event.harmless : Event → Prop
  | .record => True
  | .stage x => x ≠ .applyingOcr
  | _ => False

/-- An assertion that reads only the log, the token and the marker and survives harmless events
    and a cancellation. -/
structure Plain (J : Env → Prop) : Prop where
  ext : ∀ s t : Env, s.log = t.log → s.cancelled = t.cancelled →
    s.resyncMarker = t.resyncMarker → J s → J t
  logged : ∀ (s : Env) (e : Event), e.harmless → J s → J (s.logged e)
  cancel : ∀ s : Env, J s → s.cancelled = false →
    J { s with cancelled := true, log := .cancel :: s.log }

theorem Plain.and {J K : Env → Prop} (hJ : Plain J) (hK : Plain K) :
    Plain fun s => J s ∧ K s :=
  ⟨fun _ _ hlog hc hm h => ⟨hJ.ext _ _ hlog hc hm h.1, hK.ext _ _ hlog hc hm h.2⟩,
    fun _ e he h => ⟨hJ.logged _ e he h.1, hK.logged _ e he h.2⟩,
    fun _ h hc => ⟨hJ.cancel _ h.1 hc, hK.cancel _ h.2 hc⟩⟩

theorem Plain.imp {J : Env → Prop} (hJ : Plain J) (P : Prop) : Plain fun s => P → J s :=
  ⟨fun _ _ hlog hc hm h hp => hJ.ext _ _ hlog hc hm (h hp),
    fun _ e he h hp => hJ.logged _ e he (h hp), fun _ h hc hp => hJ.cancel _ (h hp) hc⟩

/-- What holds all along: the marker goes only after the record, and the log shows every
    cancellation. -/
structure Base (m : Bool) (s : Env) : Prop where
  marker : m = true → s.resyncMarker = true ∨ Recorded s.log
  uncancelled : s.cancelled = false → .cancel ∉ s.log

theorem plain_base (m : Bool) : Plain (Base m) where
  ext _ _ hlog hc hm h := ⟨by rw [← hm, ← hlog]; exact h.marker, by
    rw [← hc, ← hlog]; exact h.uncancelled⟩
  logged _ e he h := by
    refine ⟨fun hm => (h.marker hm).imp_right fun hr => hr.cons e, fun hc hmem => ?_⟩
    rcases List.mem_cons.mp hmem with rfl | hmem
    · exact he
    · exact h.uncancelled hc hmem
  cancel _ h _ := ⟨fun hm => (h.marker hm).imp_right fun hr => hr.cons _, fun h => by cases h⟩

/-- An assertion on a reading of the log alone. -/
theorem plain_log {P : List Event → Prop} (hlogged : ∀ log e, e.harmless → P log → P (e :: log))
    (hcancel : ∀ log, P log → P (.cancel :: log)) : Plain fun s => P s.log :=
  ⟨fun _ _ hlog _ _ h => hlog ▸ h, fun _ e he h => hlogged _ e he h, fun _ h _ => hcancel _ h⟩

/-- While the marker is there, the log shows `P`. -/
theorem plain_marked {P : List Event → Prop} (hcons : ∀ log e, P log → P (e :: log)) :
    Plain fun s => s.resyncMarker = true → P s.log where
  ext _ _ hlog _ hm h := by rw [← hm, ← hlog]; exact h
  logged _ e _ h hm := hcons _ e (h hm)
  cancel _ h _ hm := hcons _ _ (h hm)

/-- A cancelled token shows in a reading of the log. -/
theorem plain_cancelled {f : List Event → Bool}
    (hlogged : ∀ log e, e.harmless → f log = false → f (e :: log) = false)
    (hcancel : ∀ log, f (.cancel :: log) = false) :
    Plain fun s => s.cancelled = true → f s.log = false where
  ext _ _ hlog hc _ h := by rw [← hc, ← hlog]; exact h
  logged _ e he h hc := hlogged _ e he (h hc)
  cancel _ _ _ _ := hcancel _

/-! ## What one question keeps -/

/-- The questions that neither look at the token nor change what the readings stop at. -/
def Ask.quiet : Ask → Prop
  | .cancelled | .beginInstall | .uv _ | .probe | .removeResyncMarker => False
  | .stage x => x ≠ .applyingOcr
  | _ => True

theorem Plain.mayCancel {J : Env → Prop} (hJ : Plain J) {s t : Env} (h : J s)
    (hc : MayCancel s t) : J t := by
  rcases hc with rfl | ⟨hfalse, rfl⟩
  · exact h
  · exact hJ.cancel s h hfalse

theorem answers_quiet {J : Env → Prop} (hJ : Plain J) {q : Ask} (hq : q.quiet) {s t : Env}
    {a : q.Answer} (h : J s) (ha : Answers s q a t) : J t := by
  have hsame : ∀ u : Env, u.log = s.log → u.cancelled = s.cancelled →
      u.resyncMarker = s.resyncMarker → J u :=
    fun u hlog hc hm => hJ.ext s u hlog.symm hc.symm hm.symm h
  cases q with
  | cancelled | beginInstall | uv _ | probe | removeResyncMarker => exact hq.elim
  | backup | resyncMarker | manifest _ | runtimeState | preferences | ocrMarker | ocrInstalled
  | status => exact ha.2 ▸ h
  | quarantineVenv =>
    cases a with
    | ok _ => exact ha ▸ hsame _ rfl rfl rfl
    | error _ => exact ha ▸ h
  | savePreferences _ =>
    cases a with
    | ok _ => exact ha ▸ hsame _ rfl rfl rfl
    | error _ => exact ha ▸ h
  | restoreVenv =>
    obtain ⟨_, rfl⟩ := ha
    exact hsame _ rfl rfl rfl
  | restore _ =>
    obtain ⟨_, _, rfl⟩ := ha
    exact hsame _ rfl rfl rfl
  | recordRuntimeState state =>
    cases a with
    | ok _ =>
      exact ha ▸ hJ.ext (s.logged .record) _ rfl rfl rfl (hJ.logged s .record trivial h)
    | error _ => exact ha ▸ h
  | removeOcrMarker =>
    rcases ha with rfl | rfl
    · exact h
    · exact hsame _ rfl rfl rfl
  | stage x =>
    exact ha ▸ hJ.ext (s.logged (.stage x)) _ rfl rfl rfl (hJ.logged s (.stage x) hq h)
  | write _ => exact ha ▸ hsame _ rfl rfl rfl
  | uvReady | downloadUv | pythonWorks | venvExists | dropQuarantine | projectExists
  | createEnvDir | managedBrowser | systemBrowser | installPlaywright | bootstrapDone =>
    exact ha ▸ h

/-- `x` from `J` ends in `Ok` when it returns and in `Err` when it fails, and `Base` holds all
    along. -/
abbrev Leads {R : Type} (m : Bool) (J : Env → Prop) (x : Act R) (Ok : R → Env → Prop)
    (Err : Env → Prop) : Prop :=
  Prog.Triple world (Base m) J x Ok Err

/-- The rule for one question: the answer as the token stands, before and after which it may be
    cancelled. -/
theorem ask_leads {m : Bool} {J Err : Env → Prop} {q : Ask} {Ok : q.Answer → Env → Prop}
    (hJ : Plain J) (hOk : ∀ a, Plain (Ok a)) (hbase : ∀ a s, Ok a s → Base m s)
    (hans : ∀ s a t, J s → Answers s q a t → Ok a t) : Leads m J (ask q) Ok Err := by
  refine Prog.Triple.fetch fun s a t h hw => ?_
  obtain ⟨s', t', hbefore, ha, hafter⟩ := hw
  have hend := (hOk a).mayCancel (hans s' a t' (hJ.mayCancel h hbefore) ha) hafter
  exact ⟨hbase a t hend, hend⟩

/-- An assertion that the programs below can carry along. -/
structure Tracked (m : Bool) (J : Env → Prop) : Prop where
  plain : Plain J
  base : ∀ s, J s → Base m s

abbrev Keeps {R : Type} (m : Bool) (J : Env → Prop) (x : Act R) : Prop :=
  Leads m J x (fun _ => J) J

theorem ask_keeps {m : Bool} {J : Env → Prop} (hJ : Tracked m J) {q : Ask} (hq : q.quiet) :
    Keeps m J (ask q) :=
  ask_leads hJ.plain (fun _ => hJ.plain) (fun _ => hJ.base)
    fun _ _ _ h ha => answers_quiet hJ.plain hq h ha

theorem failIf_leads {I J Err : Env → Prop} {Ok : Unit → Env → Prop} {b : Bool}
    {e : EnvironmentError} (herr : b = true → ∀ s, J s → Err s)
    (hok : b = false → ∀ s, J s → Ok () s) : Prog.Triple world I J (failIf b e) Ok Err :=
  Prog.Triple.ite (fun hb => Prog.Triple.throw (herr hb)) fun hb => Prog.Triple.pure (hok hb)

theorem doIf_leads {I J Err : Env → Prop} {Ok : Unit → Env → Prop} {b : Bool} {x : Act Unit}
    (hx : b = true → Prog.Triple world I J x Ok Err) (hskip : b = false → ∀ s, J s → Ok () s) :
    Prog.Triple world I J (doIf b x) Ok Err :=
  Prog.Triple.ite hx fun hb => Prog.Triple.pure (hskip hb)

theorem orFail_leads {R : Type} {I J Err : Env → Prop} {Ok : R → Env → Prop}
    {error : String → EnvironmentError} {r : Except String R}
    (hok : ∀ a, r = .ok a → ∀ s, J s → Ok a s) (herr : ∀ s, J s → Err s) :
    Prog.Triple world I J (orFail error r) Ok Err := by
  cases r with
  | ok a => exact Prog.Triple.pure (hok a rfl)
  | error _ => exact Prog.Triple.throw herr

theorem attempt_leads {R : Type} {I J Err Err' : Env → Prop} {x : Act R}
    {Ok : R → Env → Prop} {K : Except EnvironmentError R → Env → Prop}
    (hx : Prog.Triple world I J x Ok Err') (hok : ∀ a s, Ok a s → K (.ok a) s)
    (herr : ∀ e s, Err' s → K (.error e) s) : Prog.Triple world I J (attempt x) K Err := by
  intro s hs
  refine (Prog.wp_bind _ _ x.run s).mpr ((hx s hs).mono fun r t ht => ?_)
  cases r with
  | ok a => exact hok a t ht
  | error e => exact herr e t ht

theorem orMark_leads {R : Type} {m : Bool} {J Err : Env → Prop} {label : String} {x : Act R}
    {Ok : R → Env → Prop} (hErr : Tracked m Err) (hx : Leads m J x Ok Err) :
    Leads m J (orMark label x) Ok Err := by
  refine Prog.Triple.bind
    (M := fun r s => Except.rec (motive := fun _ => Prop) (fun _ => Err s) (fun a => Ok a s) r)
    (attempt_leads hx (fun _ _ h => h) fun _ _ h => h) fun r => ?_
  cases r with
  | ok a => exact Prog.Triple.pure fun _ h => h
  | error e =>
    exact Prog.Triple.bind (ask_keeps hErr trivial) fun _ => Prog.Triple.throw fun _ h => h

section
variable {m : Bool} {J : Env → Prop}

theorem failIf_keeps (b : Bool) (e : EnvironmentError) : Keeps m J (failIf b e) :=
  failIf_leads (fun _ _ h => h) fun _ _ h => h

theorem doIf_keeps (b : Bool) {x : Act Unit} (hx : Keeps m J x) : Keeps m J (doIf b x) :=
  doIf_leads (fun _ => hx) fun _ _ h => h

theorem orFail_keeps {R : Type} (error : String → EnvironmentError) (r : Except String R) :
    Keeps m J (orFail error r) :=
  orFail_leads (fun _ _ _ h => h) fun _ h => h

theorem orMark_keeps {R : Type} (hJ : Tracked m J) (label : String) {x : Act R}
    (hx : Keeps m J x) : Keeps m J (orMark label x) :=
  orMark_leads hJ hx

/-! ## What a function without uv commands keeps -/

theorem readManifest_keeps (hJ : Tracked m J) (file : Manifest) : Keeps m J (readManifest file) :=
  Prog.Triple.bind (ask_keeps hJ trivial) fun _ => orFail_keeps _ _

theorem runtimeFingerprint_keeps (hJ : Tracked m J) (platform : Platform) :
    Keeps m J (runtimeFingerprint platform) :=
  Prog.Triple.bind (readManifest_keeps hJ _) fun _ =>
    Prog.Triple.bind (readManifest_keeps hJ _) fun _ => Prog.Triple.pure fun _ h => h

theorem runtimeManifestState_keeps (hJ : Tracked m J) (platform : Platform) :
    Keeps m J (runtimeManifestState platform) :=
  Prog.Triple.bind (runtimeFingerprint_keeps hJ platform) fun _ =>
    Prog.Triple.bind (ask_keeps hJ trivial) fun _ =>
      Prog.Triple.bind (orFail_keeps _ _) fun _ => Prog.Triple.pure fun _ h => h

theorem ocrEnabled_keeps (hJ : Tracked m J) : Keeps m J ocrEnabled := by
  refine Prog.Triple.bind (ask_keeps hJ trivial) fun content =>
    Prog.Triple.bind (orFail_keeps _ _) fun file => ?_
  cases file with
  | none => exact ask_keeps hJ trivial
  | some file =>
    cases file with
    | invalid _ => exact Prog.Triple.throw fun _ h => h
    | preferences _ _ => exact Prog.Triple.pure fun _ h => h

theorem setOcrEnabled_keeps (hJ : Tracked m J) (enabled : Bool) : Keeps m J (setOcrEnabled enabled) :=
  Prog.Triple.bind (ask_keeps hJ trivial) fun _ => Prog.Triple.bind (orFail_keeps _ _) fun _ =>
    Prog.Triple.bind (ask_keeps hJ trivial) fun _ => orFail_keeps _ _

theorem ddddocrDeclared_keeps (hJ : Tracked m J) : Keeps m J ddddocrDeclared := by
  refine Prog.Triple.bind (ask_keeps hJ trivial) fun content => ?_
  cases content with
  | ok _ => exact Prog.Triple.pure fun _ h => h
  | error _ => exact Prog.Triple.pure fun _ h => h

theorem refresh_keeps (hJ : Tracked m J) : Keeps m J refreshBrowserAndCapabilityStatus :=
  Prog.Triple.bind (ask_keeps hJ trivial) fun _ => Prog.Triple.bind (ask_keeps hJ trivial) fun _ =>
    ask_keeps hJ trivial

theorem prepareUv_keeps (hJ : Tracked m J) : Keeps m J prepareUv := by
  have hstage : (Ask.stage .downloadingUv).quiet := BootstrapStage.noConfusion
  refine Prog.Triple.bind (ask_keeps hJ trivial) fun ready =>
    Prog.Triple.bind (ask_keeps hJ trivial) fun _ => doIf_keeps _ ?_
  refine Prog.Triple.bind (ask_keeps hJ hstage) fun _ =>
    Prog.Triple.bind (orMark_keeps hJ _ ?_) fun _ => ask_keeps hJ trivial
  intro s hs a t hw
  obtain ⟨s', t', hbefore, ha, hafter⟩ := hw
  have hend : J t := hJ.plain.mayCancel (answers_quiet (q := .downloadUv) hJ.plain trivial
    (hJ.plain.mayCancel hs hbefore) ha) hafter
  refine ⟨hJ.base t hend, ?_⟩
  cases a with
  | ok _ => exact hend
  | error _ => exact hend

theorem concludeWorker_keeps (hJ : Tracked m J) (state : Except EnvironmentError ManifestState) :
    Keeps m J (concludeWorker state) := by
  have hfail : Keeps m J (do
      markError "OCR 对齐后 Python 依赖清单未通过完整性验证"
      throw (.workerRuntimeInvalid "OCR 对齐后 Python 依赖清单未通过完整性验证") : Act Unit) :=
    Prog.Triple.bind (ask_keeps hJ trivial) fun _ => Prog.Triple.throw fun _ h => h
  match state with
  | .ok .current =>
    exact Prog.Triple.bind (ask_keeps hJ trivial) fun _ =>
      Prog.Triple.bind (refresh_keeps hJ) fun _ => ask_keeps hJ trivial
  | .ok .missing => exact hfail
  | .ok .stale => exact hfail
  | .error _ => exact hfail

/-! ## The token, uv and the probe -/

/-- A cancellation of the token shows since the last look. -/
def Looked (s : Env) : Prop := s.cancelled = true → untouchedSinceLook s.log = false

theorem plain_looked : Plain Looked := by
  refine plain_cancelled (fun log e he h => ?_) fun _ => rfl
  cases e <;> first | exact h | exact he.elim

/-- An assertion that looks at the token and uv commands do not disturb. -/
structure Sturdy (m : Bool) (J : Env → Prop) : Prop extends Tracked m J where
  looked : ∀ s, J s → J (s.logged .look)
  ran : ∀ (s : Env) c r pyproject lock installed, J s →
    J { s with pyproject := pyproject, lock := lock, ocrInstalled := installed,
               log := .uv c r :: s.log }

theorem look_leads (hJ : Tracked m J) (hlook : ∀ s, J s → J (s.logged .look)) :
    Leads m J look (fun _ s => J s ∧ Looked s) J := by
  refine Prog.Triple.bind (M := fun a s => J s ∧ (a = false → Looked s))
    (ask_leads hJ.plain (fun _ => hJ.plain.and (plain_looked.imp _)) (fun _ _ h => hJ.base _ h.1)
      ?_) fun a => ?_
  · rintro s a t hs ⟨rfl, rfl⟩
    exact ⟨hlook s hs, fun hfalse htrue => by rw [Env.logged, hfalse] at htrue; cases htrue⟩
  · exact failIf_leads (fun _ _ h => h.1) fun hfalse _ h => ⟨h.1, h.2 hfalse⟩

theorem look_keeps (hJ : Sturdy m J) : Keeps m J look :=
  (look_leads hJ.toTracked hJ.looked).conseq (fun _ h => h) (fun _ _ h => h.1) fun _ h => h

theorem uvStart_keeps (hJ : Sturdy m J) : Keeps m J uvStart :=
  Prog.Triple.bind (look_keeps hJ) fun _ =>
    Prog.Triple.bind (ask_keeps hJ.toTracked trivial) fun _ =>
      Prog.Triple.bind (failIf_keeps _ _) fun _ =>
        Prog.Triple.bind (ask_keeps hJ.toTracked trivial) fun _ => orFail_keeps _ _

/-- What the success of a uv command leaves. -/
def Ran (J : Env → Prop) (c : UvCommand) (s : Env) : Prop :=
  J s ∧ Looked s ∧ (c = .sync → Synced s.log) ∧ lastUvSucceeded s.log = true

theorem plain_last : Plain fun s => lastUvSucceeded s.log = true := by
  refine plain_log (P := fun log => lastUvSucceeded log = true) (fun log e he h => ?_) fun _ h => h
  cases e with
  | stage x => cases x <;> first | exact h | rfl
  | record => exact h
  | _ => exact he.elim

theorem tracked_ran (hJ : Tracked m J) (c : UvCommand) : Tracked m (Ran J c) where
  plain := hJ.plain.and (plain_looked.and
    (((plain_log (P := Synced) (fun _ e _ h => h.cons e) fun _ h => h.cons _).imp _).and
      plain_last))
  base _ h := hJ.base _ h.1

theorem uv_leads (hJ : Sturdy m J) (c : UvCommand) :
    Leads m J (ask (.uv c)) (fun r s => J s ∧ (r = .success → Ran J c s)) J := by
  refine ask_leads hJ.plain
    (fun _ => hJ.plain.and ((tracked_ran hJ.toTracked c).plain.imp _)) (fun _ _ h => hJ.base _ h.1) ?_
  rintro s r t hs ⟨hcancel, pyproject, lock, installed, rfl⟩
  have hkept := hJ.ran s c r pyproject lock installed hs
  refine ⟨hkept, fun hr => ⟨hkept, fun hc => ?_, fun hc => ⟨[], s.log, by rw [hr, hc]; rfl⟩, ?_⟩⟩
  · exact absurd (hcancel.mpr hc) (by rw [hr]; exact CommandResult.noConfusion)
  · rw [hr]
    rfl

theorem syncAttempts_leads (hJ : Sturdy m J) :
    ∀ left, Leads m J (syncAttempts left) (fun _ => Ran J .sync) J := by
  have honce : ∀ again : CommandResult → Act Unit,
      (∀ r, Leads m J (again r) (fun _ => Ran J .sync) J) →
      Leads m J (syncOnce again) (fun _ => Ran J .sync) J := by
    intro again hagain
    refine Prog.Triple.bind (look_keeps hJ) fun _ => Prog.Triple.bind (uv_leads hJ .sync) fun r => ?_
    cases r with
    | success => exact Prog.Triple.pure fun _ h => h.2 rfl
    | cancelled => exact Prog.Triple.throw fun _ h => h.1
    | _ => exact (hagain _).conseq (fun _ h => h.1) (fun _ _ h => h) fun _ h => h
  intro left
  induction left with
  | zero => exact honce _ fun _ => Prog.Triple.throw fun _ h => h
  | succ left ih => exact honce _ fun _ => ih

theorem runUvSync_leads (hJ : Sturdy m J) : Leads m J runUvSync (fun _ => Ran J .sync) J :=
  Prog.Triple.bind (uvStart_keeps hJ) fun _ => syncAttempts_leads hJ _

theorem alterAttempts_leads (hJ : Sturdy m J) (op : String) : ∀ command rest,
    Leads m J (alterAttempts op command rest) (fun _ s => J s ∧ lastUvSucceeded s.log = true) J := by
  have honce : ∀ (command : UvCommand) (again : CommandResult → Act Unit),
      (∀ r, Leads m J (again r) (fun _ s => J s ∧ lastUvSucceeded s.log = true) J) →
      Leads m J (alterOnce command again) (fun _ s => J s ∧ lastUvSucceeded s.log = true) J := by
    intro command again hagain
    refine Prog.Triple.bind (ask_keeps hJ.toTracked trivial) fun _ =>
      Prog.Triple.bind (orFail_keeps _ _) fun backup =>
        Prog.Triple.bind (uv_leads hJ command) fun r => ?_
    have hrestore : Leads m (fun s => J s ∧ (r = .success → Ran J command s))
        (ask (.restore backup) >>= fun _ => again r)
        (fun _ s => J s ∧ lastUvSucceeded s.log = true) J :=
      Prog.Triple.bind ((ask_keeps hJ.toTracked (q := .restore backup) trivial).conseq
        (fun _ h => h.1) (fun _ _ h => h)
        fun _ h => h) fun _ => hagain r
    cases r with
    | success => exact Prog.Triple.pure fun _ h => ⟨h.1, (h.2 rfl).2.2.2⟩
    | _ => exact hrestore
  intro command rest
  induction rest generalizing command with
  | nil => exact honce command _ fun _ => Prog.Triple.throw fun _ h => h
  | cons next rest ih =>
    refine honce command _ fun r => ?_
    cases r with
    | failed _ _ => exact ih next
    | _ => exact Prog.Triple.throw fun _ h => h

theorem runUvPackageAlter_leads (hJ : Sturdy m J) (op : PackageOp) :
    Leads m J (runUvPackageAlter op) (fun _ s => J s ∧ lastUvSucceeded s.log = true) J := by
  cases op <;>
    exact Prog.Triple.bind (uvStart_keeps hJ) fun _ => alterAttempts_leads hJ _ _ _

theorem probe_leads {K : Env → Prop} (hJ : Plain J) (hK : Tracked m K)
    (hfail : ∀ s, J s → K (s.logged (.probe false))) {L : Env → Prop} (hL : Plain L)
    (hgood : ∀ s, J s → K (s.logged (.probe true)) ∧ L (s.logged (.probe true))) :
    Leads m J (ask .probe) (fun p s => K s ∧ (p.ready = true → L s)) K := by
  refine ask_leads hJ (fun _ => hK.plain.and (hL.imp _)) (fun _ _ h => hK.base _ h.1) ?_
  rintro s p t hs rfl
  cases hp : p.ready with
  | true => exact ⟨(hgood s hs).1, fun _ => (hgood s hs).2⟩
  | false => exact ⟨hfail s hs, fun h => by cases h⟩

/-- A record leaves what a record shows behind what was shown before. -/
theorem record_leads (hJ : Tracked m J) {K : Env → Prop} (hK : Tracked m K)
    (hrecord : ∀ s, J s → K (s.logged .record)) (platform : Platform) :
    Leads m J (recordVerifiedRuntime platform) (fun _ => K) J := by
  refine Prog.Triple.bind (runtimeFingerprint_keeps hJ platform) fun fingerprint =>
    Prog.Triple.bind (ask_keeps hJ trivial) fun _ => Prog.Triple.bind (orFail_keeps _ _) fun _ =>
      Prog.Triple.bind (M := fun (r : Except String Unit) s =>
        match r with | .ok _ => K s | .error _ => J s) (ask_leads hJ.plain ?_ ?_ ?_) fun r => ?_
  · intro r
    cases r with
    | ok _ => exact hK.plain
    | error _ => exact hJ.plain
  · intro r s h
    cases r with
    | ok _ => exact hK.base s h
    | error _ => exact hJ.base s h
  · intro s r t hs ha
    cases r with
    | ok _ =>
      have hnext := hrecord s hs
      exact ha ▸ hK.plain.ext (s.logged .record) _ rfl rfl rfl hnext
    | error _ => exact ha ▸ hs
  · cases r with
    | ok _ => exact Prog.Triple.pure fun _ h => h
    | error _ => exact Prog.Triple.throw fun _ h => h

end

/-! ## Up to the OCR step -/

section
variable {m : Bool}

theorem sturdy_base (m : Bool) : Sturdy m (Base m) where
  plain := plain_base m
  base _ h := h
  looked s h := by
    refine ⟨fun hm => (h.marker hm).imp_right fun hr => hr.cons _, fun hc hmem => ?_⟩
    exact h.uncancelled hc ((List.mem_cons.mp hmem).resolve_left Event.noConfusion)
  ran s c r _ _ _ h := by
    refine ⟨fun hm => (h.marker hm).imp_right fun hr => hr.cons _, fun hc hmem => ?_⟩
    exact h.uncancelled hc ((List.mem_cons.mp hmem).resolve_left Event.noConfusion)

theorem Sturdy.and {J K : Env → Prop} (hJ : Sturdy m J) (hK : Plain K)
    (hlook : ∀ s, K s → K (s.logged .look))
    (hran : ∀ (s : Env) c r pyproject lock installed, K s →
      K { s with pyproject := pyproject, lock := lock, ocrInstalled := installed,
                 log := .uv c r :: s.log }) : Sturdy m fun s => J s ∧ K s where
  plain := hJ.plain.and hK
  base _ h := hJ.base _ h.1
  looked s h := ⟨hJ.looked s h.1, hlook s h.2⟩
  ran s c r p l i h := ⟨hJ.ran s c r p l i h.1, hran s c r p l i h.2⟩

theorem ensureVenv_keeps : Keeps m (Base m) ensureVenv := by
  have hJ := sturdy_base m
  have hT := hJ.toTracked
  have hsync : Keeps m (Base m) runUvSync :=
    (runUvSync_leads hJ).conseq (fun _ h => h) (fun _ _ h => h.1) fun _ h => h
  refine Prog.Triple.bind (ask_keeps hT trivial) fun works =>
    Prog.Triple.ite (fun _ => Prog.Triple.pure fun _ h => h) fun _ => ?_
  refine Prog.Triple.bind (ask_keeps hT trivial) fun old =>
    Prog.Triple.bind (doIf_keeps _ (Prog.Triple.bind (ask_keeps hT trivial) fun _ =>
      orFail_keeps _ _)) fun _ => Prog.Triple.bind (attempt_leads (K := fun _ => Base m) hsync
        (fun _ _ h => h) fun _ _ h => h) fun r => ?_
  cases r with
  | error e =>
    exact Prog.Triple.bind (doIf_keeps _ (ask_keeps hT trivial)) fun _ =>
      Prog.Triple.throw fun _ h => h
  | ok _ =>
    refine Prog.Triple.bind (ask_keeps hT trivial) fun works => Prog.Triple.ite (fun _ => ?_)
      fun _ => ?_
    · exact Prog.Triple.bind (doIf_keeps _ (ask_keeps hT trivial)) fun _ =>
        Prog.Triple.pure fun _ h => h
    · exact Prog.Triple.bind (doIf_keeps _ (ask_keeps hT trivial)) fun _ =>
        Prog.Triple.throw fun _ h => h

theorem bootstrapPythonRuntime_leads (openwrt : Bool) :
    Leads m (Base m) (bootstrapPythonRuntime openwrt) (fun _ s => Base m s ∧ Looked s) (Base m) := by
  have hJ := sturdy_base m
  have hT := hJ.toTracked
  have hstage : (Ask.stage .syncingVenv).quiet := BootstrapStage.noConfusion
  refine Prog.Triple.bind (failIf_keeps _ _) fun _ => Prog.Triple.bind (prepareUv_keeps hT) fun _ =>
    Prog.Triple.bind (look_keeps hJ) fun _ => Prog.Triple.bind (ask_keeps hT hstage) fun _ =>
      Prog.Triple.bind (orMark_keeps hT _ ensureVenv_keeps) fun synchronized =>
        Prog.Triple.bind (ask_keeps hT trivial) fun _ =>
          Prog.Triple.bind (look_leads hT hJ.looked) fun _ => Prog.Triple.pure fun _ h => h

/-- What a probe that succeeded leaves before the OCR step. -/
def Evidence (m : Bool) (P : List Event → Prop) (s : Env) : Prop :=
  (Base m s ∧ Looked s) ∧ backed s.log = true ∧ (s.resyncMarker = true → P s.log)

theorem plain_backed : Plain fun s => backed s.log = true := by
  refine plain_log (P := fun log => backed log = true) (fun log e he h => ?_) fun _ h => h
  cases e <;> first | exact h | exact he.elim

theorem tracked_evidence {P : List Event → Prop} (hP : ∀ log e, P log → P (e :: log)) :
    Tracked m (Evidence m P) where
  plain := ((plain_base m).and plain_looked).and (plain_backed.and (plain_marked hP))
  base _ h := h.1.1

/-- Where the marker is, there was a sync before the probe. -/
theorem probeOrRepair_leads (plan : WorkerRuntimePlan) :
    Leads m (fun s => (Base m s ∧ (s.resyncMarker = true → Synced s.log)) ∧ Looked s)
      (probeOrRepair plan)
      (fun p s => (Base m s ∧ Looked s) ∧ (p.ready = true → Evidence m Probed s)) (Base m) := by
  have hmarked : Plain fun s => s.resyncMarker = true → Synced s.log :=
    plain_marked fun _ e h => h.cons e
  have hJ : Sturdy m fun s => Base m s ∧ (s.resyncMarker = true → Synced s.log) :=
    (sturdy_base m).and hmarked (fun s h hm => (h hm).cons _) fun s c r _ _ _ h hm => (h hm).cons _
  have hbefore := hJ.plain.and plain_looked
  have hbase : Tracked m fun s => (Base m s ∧ (s.resyncMarker = true → Synced s.log)) ∧ Looked s :=
    ⟨hbefore, fun _ h => h.1.1⟩
  have hlooked : ∀ (s : Env) (b : Bool), Looked s → Looked (s.logged (.probe b)) := fun s b h => h
  have hprobed : ∀ (s : Env) (b : Bool), Base m s → Base m (s.logged (.probe b)) := fun s b h =>
    ⟨fun hm => (h.marker hm).imp_right fun hr => hr.cons _, fun hc hmem => h.uncancelled hc
      ((List.mem_cons.mp hmem).resolve_left Event.noConfusion)⟩
  have hask : Leads m (fun s => (Base m s ∧ (s.resyncMarker = true → Synced s.log)) ∧ Looked s)
      (ask .probe)
      (fun p s => ((Base m s ∧ (s.resyncMarker = true → Synced s.log)) ∧ Looked s) ∧
        (p.ready = true → Evidence m Probed s))
      fun s => (Base m s ∧ (s.resyncMarker = true → Synced s.log)) ∧ Looked s := by
    refine probe_leads hbefore hbase (fun s h => ?_) (tracked_evidence fun _ e h => h.cons e).plain
      fun s h => ⟨?_, ?_⟩
    · exact ⟨⟨hprobed s false h.1.1, fun hm => (h.1.2 hm).cons _⟩, hlooked s false h.2⟩
    · exact ⟨⟨hprobed s true h.1.1, fun hm => (h.1.2 hm).cons _⟩, hlooked s true h.2⟩
    · exact ⟨⟨hprobed s true h.1.1, hlooked s true h.2⟩, rfl, fun hm => ⟨[], s.log, rfl, h.1.2 hm⟩⟩
  refine Prog.Triple.bind (hask.conseq (fun _ h => h) (fun _ _ h => h) fun _ h => h.1.1)
    fun verified => Prog.Triple.ite (fun _ => ?_) fun _ => Prog.Triple.pure fun _ h =>
      ⟨⟨h.1.1.1, h.1.2⟩, h.2⟩
  refine Prog.Triple.bind (M := fun _ s =>
    (Base m s ∧ (s.resyncMarker = true → Synced s.log)) ∧ Looked s)
    ((runUvSync_leads hJ).conseq (fun _ h => h.1.1) (fun _ _ h => ⟨h.1, h.2.1⟩) fun _ h => h.1)
    fun _ => ?_
  exact hask.conseq (fun _ h => h) (fun _ _ h => ⟨⟨h.1.1.1, h.1.2⟩, h.2⟩) fun _ h => h.1.1

theorem planWorkerRuntime_pending (forceSync : Bool) (state : ManifestState) (synchronized : Bool) :
    planWorkerRuntime forceSync true state synchronized = .syncThenVerify := by
  simp [planWorkerRuntime]

/-- The Worker was probed after the last uv command, and the marker goes only after a sync, a
    probe and a record. -/
theorem ensureWorkerRuntime_leads (platform : Platform) (forceSync synchronized : Bool) :
    Leads m (Base m) (ensureWorkerRuntime platform forceSync synchronized)
      (fun _ s => (Base m s ∧ Looked s) ∧ backed s.log = true) (Base m) := by
  have hJ := sturdy_base m
  have hpending : ∀ b, Plain fun s : Env => s.resyncMarker = b := fun b =>
    ⟨fun _ _ _ _ hm h => hm ▸ h, fun _ _ _ h => h, fun _ h _ => h⟩
  have hT : ∀ b, Tracked m fun s => (Base m s ∧ s.resyncMarker = b) ∧ Looked s := fun b =>
    ⟨((plain_base m).and (hpending b)).and plain_looked, fun _ h => h.1.1⟩
  have hS : ∀ b, Sturdy m fun s => Base m s ∧ s.resyncMarker = b := fun b =>
    hJ.and (hpending b) (fun _ h => h) fun _ _ _ _ _ _ h => h
  have hprobed : Tracked m (Evidence m Probed) := tracked_evidence fun _ e h => h.cons e
  have hrecorded : Tracked m (Evidence m Recorded) := tracked_evidence fun _ e h => h.cons e
  refine Prog.Triple.bind (look_leads hJ.toTracked hJ.looked) fun _ => ?_
  refine Prog.Triple.bind (M := fun b s => (Base m s ∧ s.resyncMarker = b) ∧ Looked s)
    (ask_leads ((plain_base m).and plain_looked) (fun b => (hT b).plain) (fun b => (hT b).base) ?_)
    fun pending => ?_
  · rintro s a t hs ⟨rfl, rfl⟩
    exact ⟨⟨hs.1, rfl⟩, hs.2⟩
  refine Prog.Triple.bind (attempt_leads (K := fun _ s =>
    (Base m s ∧ s.resyncMarker = pending) ∧ Looked s) (runtimeManifestState_keeps (hT pending) _)
    (fun _ _ h => h) fun _ _ h => h) fun state => ?_
  -- with the marker there is always a sync
  refine Prog.Triple.bind (M := fun _ s =>
    (Base m s ∧ (s.resyncMarker = true → Synced s.log)) ∧ Looked s) (doIf_leads (fun _ => ?_) ?_)
    fun _ => ?_
  · exact (runUvSync_leads (hS pending)).conseq (fun _ h => h.1)
      (fun _ _ h => ⟨⟨h.1.1, fun _ => h.2.2.1 rfl⟩, h.2.1⟩) fun _ h => h.1
  · intro hskip s hs
    refine ⟨⟨hs.1.1, fun hm => ?_⟩, hs.2⟩
    rw [← hs.1.2, hm, planWorkerRuntime_pending] at hskip
    exact absurd hskip (by decide)
  refine Prog.Triple.bind (probeOrRepair_leads _) fun verified => ?_
  refine Prog.Triple.bind (M := fun _ => Evidence m Probed) (failIf_leads
    (fun _ s h => h.1.1) fun hready s h => h.2 (by simpa using hready)) fun _ => ?_
  refine Prog.Triple.bind (M := fun _ => Evidence m Recorded) ((record_leads hprobed hrecorded
    (fun s h => ?_) platform).conseq (fun _ h => h) (fun _ _ h => h) fun _ h => h.1.1) fun _ => ?_
  · have hT' := hprobed.plain.logged s .record trivial h
    exact ⟨hT'.1, hT'.2.1, fun hm => ⟨[], s.log, rfl, h.2.2 hm⟩⟩
  · refine ask_leads hrecorded.plain
      (fun _ => ((plain_base m).and plain_looked).and plain_backed) (fun _ _ h => h.1.1) ?_
    rintro s _ t hs (rfl | ⟨hm, rfl⟩)
    · exact ⟨hs.1, hs.2.1⟩
    · refine ⟨⟨⟨fun _ => Or.inr ((hs.2.2 hm).cons _), fun hc hmem => ?_⟩, hs.1.2⟩, hs.2.1⟩
      exact hs.1.1.uncancelled hc ((List.mem_cons.mp hmem).resolve_left Event.noConfusion)

end

/-! ## The OCR step and the end -/

/-- From the OCR step on: a probe backs what is there exactly when the step was clean, and a
    cancellation that nobody looked at shows. -/
structure Late (m : Bool) (s : Env) : Prop where
  base : Base m s
  backed : backed s.log = ocrClean s.log
  cancelled : s.cancelled = true → noLateCancel s.log = false

theorem sturdy_late (m : Bool) : Sturdy m (Late m) where
  plain := by
    refine ⟨fun s t hl hc hm h => ⟨(plain_base m).ext s t hl hc hm h.base, hl ▸ h.backed, ?_⟩,
      fun s e he h => ⟨(plain_base m).logged s e he h.base, ?_, fun hc => ?_⟩,
      fun s h hc => ⟨(plain_base m).cancel s h.base hc, h.backed, fun _ => rfl⟩⟩
    · rw [← hc, ← hl]
      exact h.cancelled
    · cases e with
      | stage x => cases x <;> first | exact h.backed | exact absurd rfl he
      | record => exact h.backed
      | _ => exact he.elim
    · cases e with
      | stage x => cases x <;> first | exact h.cancelled hc | exact absurd rfl he
      | record => exact h.cancelled hc
      | _ => exact he.elim
  base _ h := h.base
  looked s h := ⟨(sturdy_base m).looked s h.base, h.backed, h.cancelled⟩
  ran s c r p l i h := ⟨(sturdy_base m).ran s c r p l i h.base, rfl, h.cancelled⟩

section
variable {m : Bool}

theorem alignOcr_leads (enabled declared installed : Bool) :
    Leads m (Late m) (alignOcr enabled declared installed)
      (fun changed s => Late m s ∧ (changed = true → lastUvSucceeded s.log = true)) (Late m) := by
  have hJ := sturdy_late m
  have halter : ∀ op, Leads m (Late m) (runUvPackageAlter op >>= fun _ => pure true)
      (fun changed s => Late m s ∧ (changed = true → lastUvSucceeded s.log = true)) (Late m) :=
    fun op => Prog.Triple.bind (runUvPackageAlter_leads hJ op) fun _ =>
      Prog.Triple.pure fun _ h => ⟨h.1, fun _ => h.2⟩
  have hsync : Leads m (Late m) (runUvSync >>= fun _ => pure true)
      (fun changed s => Late m s ∧ (changed = true → lastUvSucceeded s.log = true)) (Late m) :=
    Prog.Triple.bind (runUvSync_leads hJ) fun _ =>
      Prog.Triple.pure fun _ h => ⟨h.1, fun _ => h.2.2.2⟩
  have hnone : Leads m (Late m) (pure false)
      (fun changed s => Late m s ∧ (changed = true → lastUvSucceeded s.log = true)) (Late m) :=
    Prog.Triple.pure fun _ h => ⟨h, fun hf => by cases hf⟩
  cases enabled <;> cases declared <;> cases installed
  · exact hnone
  · exact hsync
  · exact halter .remove
  · exact halter .remove
  · exact halter .add
  · exact halter .add
  · exact hsync
  · exact hnone

theorem verifyAndRecordAfterAlter_keeps (platform : Platform) :
    Leads m (fun s => Late m s ∧ lastUvSucceeded s.log = true) (verifyAndRecordAfterAlter platform)
      (fun _ => Late m) (Late m) := by
  have hJ := sturdy_late m
  have hbase : ∀ (s : Env) (b : Bool), Late m s → Base m (s.logged (.probe b)) := fun s b h =>
    ⟨fun hm => (h.base.marker hm).imp_right fun hr => hr.cons _, fun hc hmem =>
      h.base.uncancelled hc ((List.mem_cons.mp hmem).resolve_left Event.noConfusion)⟩
  refine Prog.Triple.bind (M := fun _ => Late m) (ask_leads (hJ.plain.and plain_last)
    (fun _ => hJ.plain) (fun _ _ h => h.base) ?_) fun probe => ?_
  · rintro s p t hs rfl
    refine ⟨hbase s _ hs.1, ?_, hs.1.cancelled⟩
    cases p.ready with
    | true => exact hs.2.symm
    | false => exact hs.1.backed
  · exact Prog.Triple.bind (failIf_keeps _ _) fun _ => record_leads hJ.toTracked hJ.toTracked
      (fun s h => hJ.plain.logged s .record trivial h) platform

theorem reconcileOcrPreference_keeps (platform : Platform) :
    Keeps m (Late m) (reconcileOcrPreference platform) := by
  have hJ := sturdy_late m
  have hT := hJ.toTracked
  refine Prog.Triple.bind (ask_keeps hT trivial) fun _ => Prog.Triple.bind (ocrEnabled_keeps hT)
    fun enabled => Prog.Triple.bind (doIf_keeps _ (setOcrEnabled_keeps hT enabled)) fun _ =>
      Prog.Triple.bind (ddddocrDeclared_keeps hT) fun declared =>
        Prog.Triple.bind (ask_keeps hT trivial) fun installed =>
          Prog.Triple.bind (alignOcr_leads enabled declared installed) fun changed => ?_
  refine Prog.Triple.bind (M := fun _ => Late m) (doIf_leads (fun hchanged =>
    (verifyAndRecordAfterAlter_keeps platform).conseq (fun _ h => ⟨h.1, h.2 hchanged⟩)
      (fun _ _ h => h) fun _ h => h) fun _ _ h => h.1) fun _ => ?_
  exact Prog.Triple.bind (ask_keeps hT trivial) fun _ => Prog.Triple.bind (ask_keeps hT trivial)
    fun _ => doIf_keeps _ (ask_keeps hT trivial)

end

/-! ## The project files at the end -/

variable (platform : Platform)

/-- The recorded fingerprint is that of the project files. -/
def RecordedCurrent (s : Env) : Prop :=
  ∃ pyproject lock, s.pyproject = some pyproject ∧ s.lock = some lock ∧
    s.runtimeState =
      some (.state stateSchemaVersion (platform.fingerprint pyproject lock) expectedWorkerVersion)

/-- The questions that leave the project files and the record alone. -/
def Ask.reading : Ask → Prop
  | .manifest _ | .runtimeState | .write _ | .managedBrowser | .systemBrowser | .bootstrapDone => True
  | _ => False

def SameFiles (s t : Env) : Prop :=
  t.pyproject = s.pyproject ∧ t.lock = s.lock ∧ t.runtimeState = s.runtimeState

theorem MayCancel.sameFiles {s t : Env} (h : MayCancel s t) : SameFiles s t := by
  rcases h with rfl | ⟨-, rfl⟩ <;> exact ⟨rfl, rfl, rfl⟩

theorem SameFiles.trans {s t u : Env} (h : SameFiles s t) (h' : SameFiles t u) : SameFiles s u :=
  ⟨h'.1.trans h.1, h'.2.1.trans h.2.1, h'.2.2.trans h.2.2⟩

theorem answers_reading {q : Ask} (hq : q.reading) {s t : Env} {a : q.Answer}
    (h : Answers s q a t) : SameFiles s t := by
  cases q with
  | manifest _ | runtimeState =>
    obtain ⟨-, rfl⟩ := h
    exact ⟨rfl, rfl, rfl⟩
  | write _ | managedBrowser | systemBrowser | bootstrapDone =>
    obtain rfl := h
    exact ⟨rfl, rfl, rfl⟩
  | _ => exact hq.elim

/-- The end of a question that only reads: the files are the ones that were read. -/
theorem world_reading {q : Ask} (hq : q.reading) {s t : Env} {a : q.Answer} (h : world s q a t) :
    SameFiles s t ∧ ∃ s' t', SameFiles s' t ∧ Answers s' q a t' := by
  obtain ⟨s', t', hbefore, ha, hafter⟩ := h
  have hanswer := answers_reading hq ha
  have hrest := hanswer.trans hafter.sameFiles
  exact ⟨hbefore.sameFiles.trans hrest, s', t', hrest, ha⟩

theorem SameFiles.manifest {s t : Env} (h : SameFiles s t) (file : Manifest) :
    t.manifest file = s.manifest file := by
  cases file with
  | pyproject => exact h.1
  | lock => exact h.2.1

theorem SameFiles.recorded {s t : Env} (h : SameFiles s t) (hs : RecordedCurrent platform s) :
    RecordedCurrent platform t := by
  obtain ⟨pyproject, lock, hp, hl, hr⟩ := hs
  exact ⟨pyproject, lock, h.1.trans hp, h.2.1.trans hl, h.2.2.trans hr⟩

/-- A triple on the files alone. -/
abbrev Reads {R : Type} (J : Env → Prop) (x : Act R) (Ok : R → Env → Prop) : Prop :=
  Prog.Triple world (fun _ => True) J x Ok fun _ => True

theorem read_leads {q : Ask} (hq : q.reading) {J : Env → Prop} {Ok : q.Answer → Env → Prop}
    (h : ∀ s a t, J s → SameFiles s t → (∃ s' t', SameFiles s' t ∧ Answers s' q a t') → Ok a t) :
    Reads J (ask q) Ok :=
  Prog.Triple.fetch fun s a t hs hw =>
    ⟨trivial, h s a t hs (world_reading hq hw).1 (world_reading hq hw).2⟩

theorem readManifest_leads (file : Manifest) {J : Env → Prop}
    (hJ : ∀ s t, SameFiles s t → J s → J t) :
    Reads J (readManifest file) fun c s => J s ∧ s.manifest file = some c := by
  refine Prog.Triple.bind (M := fun (r : Except String Content) s => J s ∧
    ∀ c, r = .ok c → s.manifest file = some c) (read_leads (q := .manifest file) trivial ?_) fun r =>
      orFail_leads (fun c hc s h => ⟨h.1, h.2 c hc⟩) fun _ _ => trivial
  rintro s r t hs hsame ⟨s', t', hread, ha, -⟩
  exact ⟨hJ s t hsame hs, fun c hc => (hread.manifest file).trans (ha c hc)⟩

theorem compareState_current {expected : Text} {file : Option StateFile}
    (h : compareState expected file = .current) :
    file = some (.state stateSchemaVersion expected expectedWorkerVersion) := by
  match file with
  | none => cases h
  | some .invalid => cases h
  | some (.state schema fingerprint version) =>
    by_cases hsame : schema = stateSchemaVersion ∧ version = expectedWorkerVersion ∧
        fingerprint = expected
    · obtain ⟨rfl, rfl, rfl⟩ := hsame
      rfl
    · rw [compareState, if_neg hsame] at h
      cases h

theorem runtimeManifestState_leads : Reads (fun _ => True) (runtimeManifestState platform)
    fun state s => state = .current → RecordedCurrent platform s := by
  refine Prog.Triple.bind (M := fun fingerprint s => ∃ pyproject lock,
    s.pyproject = some pyproject ∧ s.lock = some lock ∧
      fingerprint = platform.fingerprint pyproject lock) ?_ fun expected => ?_
  · refine Prog.Triple.bind (readManifest_leads .pyproject fun _ _ _ _ => trivial) fun pyproject => ?_
    refine Prog.Triple.bind (readManifest_leads .lock fun s t hsame h =>
      ⟨trivial, (hsame.manifest .pyproject).trans h.2⟩) fun lock => ?_
    exact Prog.Triple.pure fun s h => ⟨pyproject, lock, h.1.2, h.2, rfl⟩
  · refine Prog.Triple.bind (M := fun (r : Except String (Option StateFile)) s =>
      ∃ pyproject lock, s.pyproject = some pyproject ∧ s.lock = some lock ∧
        expected = platform.fingerprint pyproject lock ∧ ∀ c, r = .ok c → s.runtimeState = c)
      (read_leads (q := .runtimeState) trivial ?_) fun r => Prog.Triple.bind (M := fun file s =>
        ∃ pyproject lock, s.pyproject = some pyproject ∧ s.lock = some lock ∧
          expected = platform.fingerprint pyproject lock ∧ s.runtimeState = file)
        (orFail_leads ?_ fun _ _ => trivial) fun file => Prog.Triple.pure ?_
    · rintro s r t ⟨pyproject, lock, hp, hl, he⟩ hsame ⟨s', t', hread, ha, -⟩
      exact ⟨pyproject, lock, hsame.1.trans hp, hsame.2.1.trans hl, he,
        fun c hc => hread.2.2.trans (ha c hc)⟩
    · rintro file hfile s ⟨pyproject, lock, hp, hl, he, hr⟩
      exact ⟨pyproject, lock, hp, hl, he, hr file hfile⟩
    · rintro s ⟨pyproject, lock, hp, hl, rfl, hr⟩ hcurrent
      exact ⟨pyproject, lock, hp, hl, hr.trans (compareState_current hcurrent)⟩

theorem concludeWorker_leads (state : Except EnvironmentError ManifestState) :
    Reads (fun s => state = .ok .current → RecordedCurrent platform s) (concludeWorker state)
      fun _ => RecordedCurrent platform := by
  have hkeep : ∀ {q : Ask}, q.reading →
      Reads (RecordedCurrent platform) (ask q) fun _ => RecordedCurrent platform := fun hq =>
    read_leads hq fun _ _ _ hs hsame _ => hsame.recorded platform hs
  have hfail : ∀ {J : Env → Prop}, Reads J (do
      markError "OCR 对齐后 Python 依赖清单未通过完整性验证"
      throw (.workerRuntimeInvalid "OCR 对齐后 Python 依赖清单未通过完整性验证") : Act Unit)
      fun _ => RecordedCurrent platform := fun {J} =>
    Prog.Triple.bind (M := fun _ _ => True) (Prog.Triple.fetch fun _ _ _ _ _ => ⟨trivial, trivial⟩)
      fun _ => Prog.Triple.throw fun _ _ => trivial
  match state with
  | .ok .current =>
    refine Prog.Triple.conseq (J := RecordedCurrent platform) ?_ (fun _ h => h rfl)
      (fun _ _ h => h) fun _ h => h
    exact Prog.Triple.bind (hkeep trivial) fun _ => Prog.Triple.bind (Prog.Triple.bind
      (hkeep trivial) fun _ => Prog.Triple.bind (hkeep trivial) fun _ => hkeep trivial)
      fun _ => hkeep trivial
  | .ok .missing => exact hfail
  | .ok .stale => exact hfail
  | .error _ => exact hfail

/-! ## The law -/

theorem bootstrapWorkerRuntime_leads (m : Bool) (openwrt forceSync : Bool) :
    Leads m (Base m) (bootstrapWorkerRuntime platform openwrt forceSync)
      (fun _ s => Late m s ∧ RecordedCurrent platform s) (Base m) := by
  have hJ := sturdy_base m
  have hT := hJ.toTracked
  have hLate := (sturdy_late m).toTracked
  have hverifying : (Ask.stage .verifyingWorker).quiet := BootstrapStage.noConfusion
  refine Prog.Triple.bind (failIf_keeps _ _) fun _ =>
    Prog.Triple.bind (bootstrapPythonRuntime_leads openwrt) fun synchronized => ?_
  refine Prog.Triple.bind (M := fun _ => Base m) ((ask_keeps hT hverifying).conseq
    (fun _ h => h.1) (fun _ _ h => h) fun _ h => h) fun _ => ?_
  refine Prog.Triple.bind (orMark_leads hT (ensureWorkerRuntime_leads platform forceSync
    synchronized)) fun _ => ?_
  refine Prog.Triple.bind (M := fun _ => Late m) (ask_leads
    (((plain_base m).and plain_looked).and plain_backed) (fun _ => hLate.plain)
    (fun _ => hLate.base) ?_) fun _ => ?_
  · -- the OCR step begins with a backed Worker and a token that was looked at
    rintro s _ t hs rfl
    refine ⟨⟨fun hm => (hs.1.1.marker hm).imp_right fun hr => hr.cons _, fun hc hmem => ?_⟩,
      hs.2, hs.1.2⟩
    exact hs.1.1.uncancelled hc ((List.mem_cons.mp hmem).resolve_left Event.noConfusion)
  refine Prog.Triple.conseq (F := Late m) ?_ (fun _ h => h) (fun _ _ h => h) fun _ h => h.base
  refine Prog.Triple.bind (attempt_leads (K := fun _ => Late m)
    (reconcileOcrPreference_keeps platform) (fun _ _ h => h) fun _ _ h => h) fun _ => ?_
  have hkeeps : Keeps m (Late m) (do
      let state ← attempt (runtimeManifestState platform)
      concludeWorker state) :=
    Prog.Triple.bind (attempt_leads (K := fun _ => Late m)
      (runtimeManifestState_keeps hLate platform) (fun _ _ h => h) fun _ _ h => h) fun state =>
        concludeWorker_keeps hLate state
  have hreads : Reads (fun _ => True) (do
      let state ← attempt (runtimeManifestState platform)
      concludeWorker state) fun _ => RecordedCurrent platform :=
    Prog.Triple.bind (attempt_leads (K := fun state s =>
      state = .ok .current → RecordedCurrent platform s) (runtimeManifestState_leads platform)
      (fun a s h heq => h (Except.ok.inj heq)) fun _ _ _ heq => by cases heq) fun state =>
        concludeWorker_leads platform state
  exact (hkeeps.and hreads).conseq (fun _ h => ⟨h, trivial⟩) (fun _ _ h => h) fun _ h => h.1

/-- In every run, to its end or to a crash, the marker goes only after a sync, a probe and a
    record. A run that returns has recorded the project files as they are; a probe succeeded
    after its last uv command exactly when the OCR step was clean, and its token was not
    cancelled exactly when it was not cancelled late. -/
theorem worker_ready_iff (openwrt forceSync : Bool) (s t : Env)
    (p : Prog Ask Ask.Answer (Except EnvironmentError Unit)) (hlog : s.log = [])
    (hreach : Prog.Reach world (bootstrapWorkerRuntime platform openwrt forceSync).run s p t) :
    (s.resyncMarker = true → t.resyncMarker = false → Recorded t.log) ∧
      (p = .done (.ok ()) → RecordedCurrent platform t ∧
        (backed t.log = true ↔ ocrClean t.log = true) ∧
        (t.cancelled = false ↔ noLateCancel t.log = true)) := by
  have hbase : Base s.resyncMarker s := ⟨Or.inl, fun _ => by rw [hlog]; exact List.not_mem_nil⟩
  obtain ⟨hend, hdone⟩ := (bootstrapWorkerRuntime_leads platform s.resyncMarker openwrt
    forceSync).sound hreach hbase hbase
  refine ⟨fun hm hgone => (hend.marker hm).resolve_left (by rw [hgone]; decide), fun hp => ?_⟩
  obtain ⟨hlate, hrecorded⟩ := hdone () hp
  refine ⟨hrecorded, by rw [hlate.backed], fun hc => ?_, fun hquiet => ?_⟩
  · exact noLateCancel_of_no_cancel (hlate.base.uncancelled hc)
  · cases hc : t.cancelled with
    | false => rfl
    | true => rw [hlate.cancelled hc] at hquiet; cases hquiet

/-- A machine on which everything goes well but for the results given here. -/
def usual (result : UvCommand → CommandResult) (cancelAtProbe : Bool) (s : Env) :
    (q : Ask) → q.Answer × Env
  | .cancelled => (s.cancelled, s.logged .look)
  | .beginInstall => ((), { s with cancelled := false })
  | .uvReady | .pythonWorks | .venvExists | .projectExists | .managedBrowser | .systemBrowser =>
    (true, s)
  | .downloadUv | .installPlaywright | .createEnvDir => (.ok (), s)
  | .quarantineVenv => (.ok (), { s with ocrInstalled := false })
  | .restoreVenv | .dropQuarantine | .removeOcrMarker | .bootstrapDone => ((), s)
  | .uv c =>
    let r := if s.cancelled then .cancelled else result c
    (r, { s with ocrInstalled := s.ocrInstalled || c == .add, log := .uv c r :: s.log })
  | .backup => (.ok ⟨s.pyproject, s.lock⟩, s)
  | .restore backup => ((), { s with pyproject := backup.pyproject, lock := backup.lock })
  | .resyncMarker => (s.resyncMarker, s)
  | .removeResyncMarker =>
    ((), if s.resyncMarker then { s with resyncMarker := false, log := .unmark :: s.log } else s)
  | .manifest file =>
    (match s.manifest file with | some c => .ok c | none => .error "not found", s)
  | .runtimeState => (.ok s.runtimeState, s)
  | .recordRuntimeState state =>
    (.ok (), { s with runtimeState := some state, log := .record :: s.log })
  | .probe =>
    let t := s.logged (.probe true)
    (⟨true, none, none⟩, if cancelAtProbe && !s.cancelled then
      { t with cancelled := true, log := .cancel :: t.log } else t)
  | .preferences => (.ok s.preferences, s)
  | .savePreferences file => (.ok (), { s with preferences := some file })
  | .ocrMarker => (s.ocrMarker, s)
  | .ocrInstalled => (s.ocrInstalled, s)
  | .status => (s.status, s)
  | .stage x => ((), { s with status := { s.status with stage := x }, log := .stage x :: s.log })
  | .write update => ((), { s with status := update s.status })

theorem usual_world (result : UvCommand → CommandResult) (hresult : ∀ c, result c ≠ .cancelled)
    (cancelAtProbe : Bool) (s : Env) (q : Ask) :
    world s q (usual result cancelAtProbe s q).1 (usual result cancelAtProbe s q).2 := by
  have hplain : ∀ {a : q.Answer} {t : Env}, Answers s q a t → world s q a t :=
    fun ha => ⟨s, _, Or.inl rfl, ha, Or.inl rfl⟩
  cases q with
  | probe =>
    refine ⟨s, s.logged (.probe true), Or.inl rfl, rfl, ?_⟩
    unfold usual
    dsimp only
    split
    next h =>
      rw [Bool.and_eq_true, Bool.not_eq_true'] at h
      exact Or.inr ⟨h.2, rfl⟩
    next => exact Or.inl rfl
  | uv c =>
    refine hplain ⟨?_, s.pyproject, s.lock, s.ocrInstalled || c == .add, rfl⟩
    show (if s.cancelled then CommandResult.cancelled else result c) = .cancelled ↔ _
    cases s.cancelled with
    | true => exact ⟨fun _ => rfl, fun _ => rfl⟩
    | false => exact ⟨fun h => absurd h (hresult c), fun h => by cases h⟩
  | removeResyncMarker =>
    refine hplain ?_
    cases hm : s.resyncMarker with
    | true => exact Or.inr ⟨hm, by simp [usual, hm]⟩
    | false => exact Or.inl (by simp [usual, hm])
  | manifest file =>
    refine hplain ⟨fun c h => ?_, rfl⟩
    simp only [usual] at h
    split at h
    next c' hf => exact hf.trans (congrArg some (Except.ok.inj h))
    next => cases h
  | restore backup => exact hplain ⟨_, _, rfl⟩
  | restoreVenv => exact hplain ⟨_, rfl⟩
  | removeOcrMarker => exact hplain (Or.inl rfl)
  | backup | runtimeState | preferences =>
    exact hplain ⟨fun _ h => by cases h; rfl, rfl⟩
  | cancelled | resyncMarker | ocrMarker | ocrInstalled | status => exact hplain ⟨rfl, rfl⟩
  | _ => exact hplain rfl

/-! ## Runs -/

def samplePlatform : Platform :=
  ⟨fun bs => bs.map fun b => Char.ofNat b.toNat, "linux".toList, "x86_64".toList⟩

/-- An environment that was updated: the marker is there, and the OCR package is wanted but not
    declared. -/
def sampleEnv : Env where
  pyproject := some (.text "[project]".toList)
  lock := some (.text "version = 1".toList)
  runtimeState := none
  resyncMarker := true
  preferences := some (.preferences 1 true)
  ocrMarker := false
  ocrInstalled := false
  cancelled := false
  status := ⟨true, true, false, false, false, true, true, false, false, .idle, none⟩
  log := []

/-- The run of the bootstrap in which uv and the token behave as given. -/
def sampleRun (result : UvCommand → CommandResult) (cancelAtProbe : Bool) :
    Except EnvironmentError Unit × Env :=
  Prog.play (usual result cancelAtProbe) (bootstrapWorkerRuntime samplePlatform false false).run
    sampleEnv

def allWell : UvCommand → CommandResult := fun _ => .success

/-- `uv add` installs the package and fails. -/
def addFails : UvCommand → CommandResult
  | .add => .failed (some 2) "error: failed to build"
  | _ => .success

theorem sampleRun_reach (result : UvCommand → CommandResult) (hresult : ∀ c, result c ≠ .cancelled)
    (cancelAtProbe : Bool) : Prog.Reach world (bootstrapWorkerRuntime samplePlatform false false).run
      sampleEnv (.done (sampleRun result cancelAtProbe).1) (sampleRun result cancelAtProbe).2 :=
  Prog.play_reach (usual_world result hresult cancelAtProbe) _ sampleEnv

theorem worker_ready_sample : RecordedCurrent samplePlatform (sampleRun allWell false).2 ∧
    backed (sampleRun allWell false).2.log = true ∧
    (sampleRun allWell false).2.cancelled = false ∧ Recorded (sampleRun allWell false).2.log := by
  have hreach := sampleRun_reach allWell (fun _ => CommandResult.noConfusion) false
  have hok : (sampleRun allWell false).1 = .ok () := by decide +kernel
  obtain ⟨hmarker, hend⟩ := worker_ready_iff samplePlatform false false sampleEnv _ _ rfl hreach
  obtain ⟨hrecorded, hbacked, hcancelled⟩ := hend (by rw [hok])
  exact ⟨hrecorded, hbacked.mpr (by decide +kernel), hcancelled.mpr (by decide +kernel),
    hmarker rfl (by decide +kernel)⟩

/-- After a failed `uv add` the Worker is called ready without a probe, and so it is when the
    token is cancelled while it is probed. -/
theorem ready_without_evidence :
    (¬∀ (platform : Platform) (s t : Env), s.log = [] → Prog.Reach world
      (bootstrapWorkerRuntime platform false false).run s (.done (.ok ())) t →
      backed t.log = true) ∧
    ¬∀ (platform : Platform) (s t : Env), s.log = [] → Prog.Reach world
      (bootstrapWorkerRuntime platform false false).run s (.done (.ok ())) t →
      t.cancelled = false := by
  constructor
  · intro h
    have hreach := sampleRun_reach addFails (fun c => by cases c <;> decide) false
    have hok : (sampleRun addFails false).1 = .ok () := by decide +kernel
    rw [hok] at hreach
    exact absurd (h _ _ _ rfl hreach) (by decide +kernel)
  · intro h
    have hreach := sampleRun_reach allWell (fun _ => CommandResult.noConfusion) true
    have hok : (sampleRun allWell true).1 = .ok () := by decide +kernel
    rw [hok] at hreach
    exact absurd (h _ _ _ rfl hreach) (by decide +kernel)

end CampusAuth.Environment
