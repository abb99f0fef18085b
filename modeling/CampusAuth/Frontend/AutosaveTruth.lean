import CampusAuth.Frontend.AutosaveSteps

/- What the status word of the autosave says: with no timer, no request and no gap, `saved` and
   `idle` mean that what was last written is what the draft says.

   It does as long as every step is `Timely` (`autosave_truthful`). A draft that is edited back
   to the baseline while its last save is on its way is not timely: the watcher finds nothing to
   do, the answer then moves the baseline away from the draft and says `saved`
   (`edited_back_is_not_saved`). -/
namespace CampusAuth.Frontend
open Lib

variable {Draft Print : Type} {spec : AutosaveSpec Draft Print} {s t : Editor Draft Print}
  {e : Action Draft}
  {os : List (Notice Print)} {d : Draft} {i : Nat} {r : Request Print}

/-- With nothing under way and no gap the status is that of the contents. -/
def Truthful (spec : AutosaveSpec Draft Print) (s : Editor Draft Print) : Prop :=
  ∀ d, s.draft = some d → s.watching = false → s.timer = false →
    (∀ r ∈ s.requests, r.answer ≠ none) → spec.blockReasonOf d = none →
    s.autosaveState = .saved ∨ s.autosaveState = .idle →
    s.disk s.number = spec.fingerprintOf d

/-- No request can take effect before an earlier one that has. -/
def Editor.Calm (s : Editor Draft Print) : Prop :=
  ∀ r ∈ s.requests, r.answer = none → r.written = false →
    ∃ later ∈ s.requests, r.seq < later.seq ∧ later.written = true

/-- The newest request waits for its answer, and its success will be told to the draft. -/
def Editor.Awaited (s : Editor Draft Print) : Prop :=
  ∃ r ∈ s.requests, r.seq = s.seq ∧ r.answer = none ∧ r.detached = false

/-- A draft that equals the baseline is on disk, or the baseline is about to change. -/
def Compares (spec : AutosaveSpec Draft Print) (s : Editor Draft Print) : Prop :=
  ∀ d ∈ s.draft, spec.blockReasonOf d = none → spec.fingerprintOf d = s.lastSavedFingerprint →
    s.disk s.number = spec.fingerprintOf d ∧ s.Calm ∨ s.Awaited

/-- The draft is edited or has a gap, and nothing is said about it for now. -/
def Unsettled (spec : AutosaveSpec Draft Print) (s : Editor Draft Print) (d : Draft) : Prop :=
  s.watching = true ∨ s.timer = true ∨ (spec.blockReasonOf d).isSome = true

def Timely (spec : AutosaveSpec Draft Print) (s : Editor Draft Print) : Action Draft → Prop
  -- requests take effect in the order they were sent
  | .write i => ∀ r ∈ s.requests[i]?, ∀ later ∈ s.requests, r.seq < later.seq →
      later.written = false
  -- the newest one succeeds: the draft is what it sent, or it is not yet settled
  | .respond i true _ => ∀ r ∈ s.requests[i]?, r.seq = s.seq → r.detached = false →
      ∀ d ∈ s.draft, spec.fingerprintOf d = some r.mark ∨ Unsettled spec s d ∨ spec.onSaved d ≠ d
  -- one that was sent to leave the draft does not fail while the draft stays
  | .respond i false _ => ∀ r ∈ s.requests[i]?, r.seq = s.seq → r.detached = true →
      ∀ d ∈ s.draft, r.written = true ∨ Unsettled spec s d ∨
        ¬(s.autosaveState = .saved ∨ s.autosaveState = .idle)
  | .watch => s.autosaveState = .saved ∨ s.autosaveState = .idle → Compares spec s
  | .expire | .saveNow => Compares spec s
  | .flush _ => s.pendingChanges = true → Compares spec s
  | _ => True

/-- The actions that keep the draft in the editor. -/
def Action.stays : Action Draft → Bool
  | .opened .. | .clear => false
  | _ => true

/-! ## One draft -/

/-- What is said of contents `m` is or will be true of the disk. -/
def Stored (s : Editor Draft Print) (m : Option Print) : Prop :=
  s.disk s.number = m ∧ s.Calm ∨
    ∃ (i : Nat) (r : Request Print), s.requests[i]? = some r ∧ r.seq = s.seq ∧ r.answer = none ∧
      (r.detached = false ∨ some r.mark = m)

structure TruthInv (spec : AutosaveSpec Draft Print) (s : Editor Draft Print) : Prop where
  flight : Flight s
  owner : Pool.All (fun _ r => r.draft = s.number) s.requests
  top : Pool.All (fun _ r => s.Newest r → r.seq = s.seq) s.requests
  /-- The last one written, in the order of sending, is on disk. -/
  last : Pool.All (fun _ r => r.written = true →
    Pool.All (fun _ other => other.written = true → other.seq ≤ r.seq) s.requests →
    s.disk s.number = some r.mark) s.requests
  debounce : s.timer = true → s.pendingChanges = true
  truth : ∀ d, s.draft = some d → s.watching = false → s.timer = false →
    spec.blockReasonOf d = none → s.autosaveState = .saved ∨ s.autosaveState = .idle →
    Stored s (spec.fingerprintOf d)

theorem stored_of_compares (hs : Compares spec s) (hd : s.draft = some d)
    (hfree : spec.blockReasonOf d = none) (heq : spec.fingerprintOf d = s.lastSavedFingerprint) :
    Stored s (spec.fingerprintOf d) := by
  rcases hs d hd hfree heq with hstored | ⟨r, hr, hseq, hanswer, hattached⟩
  · exact .inl hstored
  · obtain ⟨i, hi⟩ := List.mem_iff_getElem?.mp hr
    exact .inr ⟨i, r, hi, hseq, hanswer, .inl hattached⟩

/-- Only what is compared changes: the requests and the disk do not. -/
theorem TruthInv.frame (hs : TruthInv spec s) (hrequests : t.requests = s.requests)
    (hflight : t.inFlight = s.inFlight) (hseq : t.seq = s.seq) (hnumber : t.number = s.number)
    (hdisk : t.disk = s.disk) (hdebounce : t.timer = true → t.pendingChanges = true)
    (htruth : ∀ d, t.draft = some d → t.watching = false → t.timer = false →
      spec.blockReasonOf d = none → t.autosaveState = .saved ∨ t.autosaveState = .idle →
      Stored s (spec.fingerprintOf d)) : TruthInv spec t where
  flight := hs.flight.frame hrequests hflight (Nat.le_of_eq hseq.symm)
  owner := by
    rw [hrequests, hnumber]
    exact hs.owner
  top := by
    unfold Editor.Newest
    rw [hrequests, hseq]
    exact hs.top
  last := by
    rw [hrequests, hnumber, hdisk]
    exact hs.last
  debounce := hdebounce
  truth := by
    unfold Stored Editor.Calm at htruth ⊢
    rw [hrequests, hnumber, hdisk, hseq]
    exact htruth

theorem TruthInv.sent (hs : TruthInv spec s) (hd : s.draft = some d) {mark : Print}
    (hmark : spec.fingerprintOf d = some mark) (detached f : Bool) :
    TruthInv spec ((s.stopped f).send mark detached) := by
  have hat : ((s.stopped f).send mark detached).requests[s.requests.length]? =
      some { draft := s.number, seq := s.seq + 1, mark, detached } := List.getElem?_concat_length
  have hflight : Flight (s.stopped f) := hs.flight.frame rfl rfl (Nat.le_refl _)
  refine ⟨hflight.sent mark detached, hs.owner.spawn (fun _ _ h => h) rfl, ?_, ?_,
    fun h => (Bool.false_ne_true h).elim, ?_⟩
  · intro i r hr hnewest
    rcases Pool.of_spawn hr with hold | ⟨-, rfl⟩
    · have hle : s.seq + 1 ≤ r.seq := hnewest _ _ hat
      have := hs.flight.bound i r hold
      omega
    · rfl
  · intro i r hr hwritten hlast
    rcases Pool.of_spawn hr with hold | ⟨-, rfl⟩
    · refine hs.last i r hold hwritten fun j other hother => hlast j other ?_
      exact (List.getElem?_append_left (List.getElem?_eq_some_iff.mp hother).1).trans hother
    · cases hwritten
  · intro d' hd' _ _ _ _
    rw [show d' = d from Option.some.inj (hd'.symm.trans hd)]
    exact .inr ⟨_, _, hat, rfl, rfl, .inr hmark.symm⟩

/-- In order, what takes effect is the last one that has. -/
theorem TruthInv.wrote (hs : TruthInv spec s) (hat : s.requests[i]? = some r)
    (hanswer : r.answer = none) (hwritten : r.written = false)
    (horder : ∀ later ∈ s.requests, r.seq < later.seq → later.written = false) :
    TruthInv spec (s.wrote i r) := by
  have hself : (s.wrote i r).requests[i]? = some { r with written := true } :=
    List.getElem?_set_self (List.getElem?_eq_some_iff.mp hat).1
  have hnewest := newest_set (t := s.wrote i r) hat (b := { r with written := true }) rfl rfl
  have hdisk : (s.wrote i r).disk s.number = some r.mark := by
    have hown : r.draft = s.number := hs.owner i r hat
    exact if_pos hown.symm
  refine ⟨hs.flight.wrote hat, hs.owner.set (fun _ _ _ h => h) (hs.owner i r hat), ?_, ?_,
    hs.debounce, ?_⟩
  · exact hs.top.set (fun j other _ hold hnew => hold ((hnewest other).mp hnew))
      fun hnew => hs.top i r hat ((hnewest _).mp hnew)
  · intro j other hother hwritten' hlast
    -- The one that has the last word among those written is the one just written.
    rcases Pool.of_set hother with ⟨-, rfl⟩ | ⟨hne, hold⟩
    · exact hdisk
    · have hle : r.seq ≤ other.seq := hlast i { r with written := true } hself rfl
      have hneq : r.seq ≠ other.seq := fun heq => hne (hs.flight.distinct i j r other hat hold heq).symm
      have hunwritten := horder other (List.mem_of_getElem? hold) (by omega)
      rw [hunwritten] at hwritten'
      cases hwritten'
  · intro d hd hwatching htimer hfree hstate
    rcases hs.truth d hd hwatching htimer hfree hstate with ⟨-, hcalm⟩ | ⟨j, a, ha, hseq, hans, hor⟩
    · obtain ⟨later, hlater, hlt, hwritten'⟩ := hcalm r (List.mem_of_getElem? hat) hanswer hwritten
      rw [horder later hlater hlt] at hwritten'
      cases hwritten'
    · by_cases hij : i = j
      · subst hij
        rw [hat] at ha
        cases ha
        exact .inr ⟨i, _, hself, hseq, hanswer, hor⟩
      · exact .inr ⟨j, a, (List.getElem?_set_ne hij).trans ha, hseq, hans, hor⟩

/-- The newest request has taken effect and is answered: nothing will take effect any more. -/
theorem TruthInv.stored (hs : TruthInv spec s) (hat : s.requests[i]? = some r)
    (hwritten : r.written = true) (hseq : r.seq = s.seq) (ok : Bool) :
    s.disk s.number = some r.mark ∧ (s.answered i r ok).Calm := by
  have hmax : Pool.All (fun _ other => other.seq ≤ r.seq) s.requests :=
    hs.flight.bound.imp fun _ _ hle => Nat.le_trans hle (Nat.le_of_eq hseq.symm)
  refine ⟨hs.last i r hat hwritten (hmax.imp fun _ _ hle _ => hle), ?_⟩
  intro other hother hanswer _
  obtain ⟨j, hj⟩ := List.mem_iff_getElem?.mp hother
  have hself : { r with answer := some ok } ∈ (s.answered i r ok).requests :=
    List.mem_of_getElem? (List.getElem?_set_self (List.getElem?_eq_some_iff.mp hat).1)
  refine ⟨_, hself, ?_, hwritten⟩
  rcases Pool.of_set hj with ⟨-, rfl⟩ | ⟨hne, hold⟩
  · cases hanswer
  · have hle : other.seq ≤ r.seq := hmax j other hold
    have hneq : other.seq ≠ r.seq := fun heq => hne (hs.flight.distinct j i other r hold hat heq)
    exact Nat.lt_of_le_of_ne hle hneq

theorem calm_answered (hcalm : s.Calm) (hat : s.requests[i]? = some r) (ok : Bool) :
    (s.answered i r ok).Calm := by
  intro other hother hanswer hwritten
  have hkeep : ∀ a ∈ s.requests, a.written = true →
      ∃ b ∈ (s.answered i r ok).requests, b.seq = a.seq ∧ b.written = true := by
    intro a ha hw
    obtain ⟨j, hj⟩ := List.mem_iff_getElem?.mp ha
    by_cases hij : i = j
    · subst hij
      rw [hat] at hj
      cases hj
      exact ⟨_, List.mem_of_getElem? (List.getElem?_set_self (List.getElem?_eq_some_iff.mp hat).1),
        rfl, hw⟩
    · exact ⟨a, List.mem_of_getElem? ((List.getElem?_set_ne hij).trans hj), rfl, hw⟩
  obtain ⟨j, hj⟩ := List.mem_iff_getElem?.mp hother
  rcases Pool.of_set hj with ⟨-, rfl⟩ | ⟨-, hold⟩
  · cases hanswer
  · obtain ⟨later, hlater, hlt, hw⟩ := hcalm other (List.mem_of_getElem? hold) hanswer hwritten
    obtain ⟨b, hb, hseq, hw⟩ := hkeep later hlater hw
    exact ⟨b, hb, by omega, hw⟩

/-- The requests after an answer; the rest is what the answer says about the draft. -/
theorem TruthInv.answered (hs : TruthInv spec s) (hat : s.requests[i]? = some r) (ok : Bool)
    (hrequests : t.requests = (s.answered i r ok).requests)
    (hflight : t.inFlight = (s.answered i r ok).inFlight) (hseq : t.seq = s.seq)
    (hnumber : t.number = s.number) (hdisk : t.disk = s.disk)
    (hdebounce : t.timer = true → t.pendingChanges = true)
    (htruth : ∀ d, t.draft = some d → t.watching = false → t.timer = false →
      spec.blockReasonOf d = none → t.autosaveState = .saved ∨ t.autosaveState = .idle →
      Stored (s.answered i r ok) (spec.fingerprintOf d)) : TruthInv spec t := by
  have hnewest := newest_set (t := s.answered i r ok) hat (b := { r with answer := some ok }) rfl rfl
  refine ⟨(hs.flight.answered hat ok).frame hrequests hflight (Nat.le_of_eq hseq.symm), ?_, ?_, ?_,
    hdebounce, ?_⟩
  · rw [hrequests, hnumber]
    exact hs.owner.set (fun _ _ _ h => h) (hs.owner i r hat)
  · unfold Editor.Newest at hnewest ⊢
    rw [hrequests, hseq]
    exact hs.top.set (fun j other _ hold hnew => hold ((hnewest other).mp hnew))
      fun hnew => hs.top i r hat ((hnewest _).mp hnew)
  · rw [hrequests, hnumber, hdisk]
    intro j other hother hwritten hlast
    have hall : Pool.All (fun _ a => a.written = true → a.seq ≤ other.seq) s.requests := by
      intro k a ha hw
      by_cases hik : i = k
      · subst hik
        rw [hat] at ha
        cases ha
        exact hlast i { r with answer := some ok }
          (List.getElem?_set_self (List.getElem?_eq_some_iff.mp hat).1) hw
      · exact hlast k a ((List.getElem?_set_ne hik).trans ha) hw
    rcases Pool.of_set hother with ⟨-, rfl⟩ | ⟨-, hold⟩
    · exact hs.last i r hat hwritten hall
    · exact hs.last j other hold hwritten hall
  · unfold Stored Editor.Calm at htruth ⊢
    rw [hrequests, hnumber, hdisk, hseq]
    exact htruth

/-- A request is answered that is not both the newest and attached, or has said what the draft
    says: what was said stays so. -/
theorem stored_answered (hat : s.requests[i]? = some r) (ok : Bool)
    {m : Option Print} (hstored : Stored s m)
    (hnewest : r.seq = s.seq → r.detached = false ∨ some r.mark = m →
      s.disk s.number = m ∧ (s.answered i r ok).Calm) :
    Stored (s.answered i r ok) m := by
  rcases hstored with ⟨hdisk, hcalm⟩ | ⟨j, a, ha, hseq, hanswer, hor⟩
  · exact .inl ⟨hdisk, calm_answered hcalm hat ok⟩
  · by_cases hij : i = j
    · subst hij
      rw [hat] at ha
      cases ha
      exact .inl (hnewest hseq hor)
    · exact .inr ⟨j, a, (List.getElem?_set_ne hij).trans ha, hseq, hanswer, hor⟩

/-! ## Steps -/

section
variable [DecidableEq Draft]

/-- A success that leaves the watcher alone leaves the draft. -/
theorem of_onSaved_still (hd : (s.onSaved spec r).draft = some d)
    (hwatching : (s.onSaved spec r).watching = false) : s.draft = some d ∧ s.watching = false ∧
      (r.detached = false → s.number = r.draft → spec.onSaved d = d) := by
  revert hd hwatching
  unfold Editor.onSaved
  split
  next hnone =>
    intro hd
    rw [hnone] at hd
    cases hd
  next old hold =>
    split
    next hother =>
      intro hd hwatching
      refine ⟨hd, hwatching, fun hattached hnumber => ?_⟩
      simp [hattached, hnumber] at hother
    next hown =>
      intro hd hwatching
      simp only [Bool.or_eq_false_iff, decide_eq_false_iff_not, not_not] at hwatching
      obtain ⟨hwatching, hsame⟩ := hwatching
      have hd : spec.onSaved old = d := Option.some.inj hd
      rw [hsame] at hd
      subst hd
      exact ⟨hold, hwatching, fun _ _ => hsame⟩

theorem TruthInv.succeeded (hs : TruthInv spec s) (hat : s.requests[i]? = some r)
    (hwritten : r.written = true)
    (htimely : r.seq = s.seq → r.detached = false → ∀ d ∈ s.draft,
      spec.fingerprintOf d = some r.mark ∨ Unsettled spec s d ∨ spec.onSaved d ≠ d) :
    TruthInv spec ((s.answered i r true).succeeded spec r) := by
  have hstill : ∀ d, ((s.answered i r true).onSaved spec r).draft = some d →
      ((s.answered i r true).onSaved spec r).watching = false → _ := fun d => of_onSaved_still
  obtain ⟨draft, watching, heq⟩ := (onSaved_samePayload (s.answered i r true) r : SamePayload spec _ _).same
  have hstored : r.seq = s.seq → s.disk s.number = some r.mark ∧ (s.answered i r true).Calm :=
    fun hnew => hs.stored hat hwritten hnew true
  unfold Editor.succeeded
  rw [heq] at hstill ⊢
  split
  next hother =>
    refine hs.answered hat true rfl rfl rfl rfl rfl hs.debounce ?_
    intro d hd hwatching htimer hfree hstate
    obtain ⟨hd, hwatching, -⟩ := hstill d hd hwatching
    refine stored_answered hat true (hs.truth d hd hwatching htimer hfree hstate) ?_
    · intro hnew hor
      have hmark : some r.mark = spec.fingerprintOf d := by
        rcases hor with hattached | hmark
        · have hnew' : r.seq = (s.answered i r true).seq := hnew
          simp [hnew', hattached] at hother
        · exact hmark
      rw [← hmark]
      exact hstored hnew
  next hown =>
    simp only [Bool.or_eq_true, decide_eq_true_eq, not_or, not_not, Bool.not_eq_true] at hown
    obtain ⟨hnew, hattached⟩ := hown
    refine hs.answered hat true rfl rfl rfl rfl rfl hs.debounce ?_
    · intro d hd hwatching htimer hfree _
      obtain ⟨hd, hwatching, hsame⟩ := hstill d hd hwatching
      have hown : s.number = r.draft := (hs.owner i r hat).symm
      -- The draft is settled and unchanged, so it is what was sent.
      have hmark : spec.fingerprintOf d = some r.mark := by
        rcases htimely hnew hattached d hd with hmark | hunsettled | hchanged
        · exact hmark
        · rcases hunsettled with h | h | h
          · rw [show s.watching = false from hwatching] at h
            cases h
          · rw [show s.timer = false from htimer] at h
            cases h
          · rw [hfree] at h
            cases h
        · exact absurd (hsame hattached hown) hchanged
      rw [hmark]
      exact .inl (hstored hnew)

omit [DecidableEq Draft] in
theorem TruthInv.failed (hs : TruthInv spec s) (hat : s.requests[i]? = some r) {message : String}
    (htimely : r.seq = s.seq → r.detached = true → ∀ d ∈ s.draft, r.written = true ∨
      Unsettled spec s d ∨ ¬(s.autosaveState = .saved ∨ s.autosaveState = .idle)) :
    TruthInv spec ((s.answered i r false).failed spec r message).1 := by
  have hsame : ¬(r.seq = s.seq ∧ r.detached = false) → TruthInv spec (s.answered i r false) := by
    intro hother
    refine hs.answered hat false rfl rfl rfl rfl rfl hs.debounce ?_
    intro d hd hwatching htimer hfree hstate
    refine stored_answered hat false (hs.truth d hd hwatching htimer hfree hstate) ?_
    intro hnew hor
    have hdetached : r.detached = true := by
      rw [← Bool.not_eq_false]
      exact fun hattached => hother ⟨hnew, hattached⟩
    have hmark : some r.mark = spec.fingerprintOf d := by
      rcases hor with hattached | hmark
      · exact absurd ⟨hnew, hattached⟩ hother
      · exact hmark
    rcases htimely hnew hdetached d hd with hwritten | hunsettled | hno
    · rw [← hmark]
      exact hs.stored hat hwritten hnew false
    · rcases hunsettled with h | h | h
      · rw [show s.watching = false from hwatching] at h
        cases h
      · rw [show s.timer = false from htimer] at h
        cases h
      · rw [hfree] at h
        cases h
    · exact absurd hstate hno
  unfold Editor.failed
  split
  next hdetached => exact hsame (by simp [hdetached])
  next =>
    split
    next hold => exact hsame fun h => hold h.1
    next =>
      exact hs.answered hat false rfl rfl rfl rfl rfl hs.debounce
        fun _ _ _ _ _ hstate => by simp at hstate

variable [DecidableEq Print]

theorem TruthInv.step (hs : TruthInv spec s) (hstays : e.stays = true) (htimely : Timely spec s e)
    (h : Does spec s e t os) : TruthInv spec t := by
  have hcompares : ∀ {detached f f' : Bool}, Runs e detached f f' →
      (∀ reason, e = .flush reason → s.pendingChanges = true) → Compares spec s := by
    intro detached f f' hruns hpending
    cases hruns with
    | expire | saveNow => exact htimely
    | close | switch => exact htimely (hpending _ rfl)
  have hcleared : ∀ f, TruthInv spec s → (∀ d, s.draft = some d → s.watching = false →
      spec.blockReasonOf d = none → s.autosaveState = .saved ∨ s.autosaveState = .idle →
      Stored s (spec.fingerprintOf d)) → TruthInv spec (s.stopped f) := by
    intro f hs htruth
    exact hs.frame rfl rfl rfl rfl rfl (by intro h; cases h)
      fun d hd hwatching _ hfree hstate => htruth d hd hwatching hfree hstate
  cases h with
  | edit =>
    exact hs.frame rfl rfl rfl rfl rfl hs.debounce fun _ _ hwatching => by cases hwatching
  | watch =>
    unfold Editor.watch
    split
    next hnone =>
      refine hs.frame rfl rfl rfl rfl rfl (by intro h; cases h) fun d hd => ?_
      rw [show s.draft = some d from hd] at hnone
      cases hnone
    next d hd =>
      split
      next heq =>
        refine hs.frame rfl rfl rfl rfl rfl (by intro h; cases h) ?_
        intro d' hd' _ _ hfree hstate
        cases hd.symm.trans hd'
        exact stored_of_compares (htimely hstate) hd hfree heq
      next => exact hs.frame rfl rfl rfl rfl rfl (fun _ => rfl) fun _ _ _ htimer => by cases htimer
  | noDraft _ hnone =>
    refine hs.frame rfl rfl rfl rfl rfl (by intro h; cases h) fun d hd => ?_
    rw [show s.draft = some d from hd] at hnone
    cases hnone
  | flushed hd hpending =>
    have hidle : s.timer = false := by
      rw [Bool.eq_false_iff]
      intro htimer
      rw [hs.debounce htimer] at hpending
      cases hpending
    exact hs.frame rfl rfl rfl rfl rfl (by intro h; cases h)
      fun d hd hwatching _ hfree hstate => hs.truth d hd hwatching hidle hfree hstate
  | blocked hd hblocked =>
    refine hcleared _ hs fun d hd' _ hfree => ?_
    rw [Option.some.inj (hd.symm.trans hd'), hfree] at hblocked
    cases hblocked
  | @settled _ d detached f hruns hd hflush hor =>
    have htruth : ∀ d, s.draft = some d → spec.blockReasonOf d = none →
        Stored s (spec.fingerprintOf d) := by
      intro d' hd' hfree
      cases hd.symm.trans hd'
      rcases hor with hblocked | heq
      · rw [hfree] at hblocked
        cases hblocked
      · refine stored_of_compares (hcompares hruns fun reason he => ?_) hd hfree heq
        rw [← Bool.not_eq_false]
        exact fun hpending => (hflush reason he).2 hpending heq
    unfold Editor.settle
    split
    · exact hcleared f hs fun d hd _ hfree _ => htruth d hd hfree
    · exact hs.frame rfl rfl rfl rfl rfl (by intro h; cases h)
        fun d hd _ _ hfree _ => htruth d hd hfree
  | @underway _ d detached f n mark hruns hd _ hmark hflight =>
    refine hcleared f hs fun d' hd' _ _ _ => ?_
    cases hd.symm.trans hd'
    obtain ⟨j, a, ha, hseq, hm, hanswer, hnewest⟩ := hs.flight.flight n mark hflight
    exact .inr ⟨j, a, ha, hs.top j a ha hnewest, hanswer, .inr (by rw [hmark, hm])⟩
  | sent _ hd _ hmark => exact hs.sent hd hmark _ _
  | opened | clear => cases hstays
  | write hat hanswer hwritten =>
    exact hs.wrote hat hanswer hwritten (htimely _ hat)
  | succeeded hat hanswer hwritten => exact hs.succeeded hat hwritten (htimely _ hat)
  | failed hat => exact hs.failed hat (htimely _ hat)

/-! ## Every run of one draft -/

omit [DecidableEq Draft] [DecidableEq Print] in
theorem truthInv_opened (d : Draft) (saved : Bool) :
    TruthInv spec (Editor.opened spec {} d saved) := by
  have hempty : ∀ {P : Nat → Request Print → Prop}, Pool.All P [] := .nil
  cases saved with
  | false =>
    exact ⟨flight_empty.frame rfl rfl (Nat.zero_le _), hempty, hempty, hempty,
      fun h => (Bool.false_ne_true h).elim, fun _ _ hwatching => by cases hwatching⟩
  | true =>
    exact ⟨flight_empty.frame rfl rfl (Nat.zero_le _), hempty, hempty, hempty,
      fun h => (Bool.false_ne_true h).elim, fun _ _ hwatching => by cases hwatching⟩

omit [DecidableEq Draft] [DecidableEq Print] in
theorem TruthInv.truthful (hs : TruthInv spec s) : Truthful spec s := by
  intro d hd hwatching htimer hanswered hfree hstate
  rcases hs.truth d hd hwatching htimer hfree hstate with ⟨hdisk, -⟩ | ⟨i, r, hr, -, hanswer, -⟩
  · exact hdisk
  · exact absurd hanswer (hanswered r (List.mem_of_getElem? hr))

/-- In every run of one draft whose steps are timely, the status word tells the truth at every
    state reached. -/
theorem autosave_truthful (spec : AutosaveSpec Draft Print) (d : Draft) (saved : Bool)
    {es : List (Action Draft)} (hstays : ∀ e ∈ es, e.stays = true)
    (h : (autosaveMachine spec).Steps (Editor.opened spec {} d saved) es os t)
    (htimely : (autosaveMachine spec).Along (Timely spec) (Editor.opened spec {} d saved) es) :
    Truthful spec t := by
  have hboth := (Machine.along_of_forall (M := autosaveMachine spec)
    (s := Editor.opened spec {} d saved) hstays).and htimely
  refine TruthInv.truthful (h.invariant (I := TruthInv spec) ?_ hboth (truthInv_opened d saved))
  intro s e t os hs hC hstep
  exact hs.step hC.1 hC.2 (does_of_step hstep)

instance instDecidableTimely (spec : AutosaveSpec Draft Print) (s : Editor Draft Print)
    (e : Action Draft) : Decidable (Timely spec s e) := by
  cases e with
  | respond i ok error =>
    cases ok <;> unfold Timely Unsettled <;> infer_instance
  | _ => unfold Timely Compares Editor.Calm Editor.Awaited; infer_instance

end

/-- A panel whose drafts are numbers that are sent as they are. -/
def plainSpec : AutosaveSpec Nat Nat where
  fingerprintOf := some
  blockReasonOf := fun _ => none
  onSaved := id
  detachedSubject := "上一份"
  payload := fun _ _ => rfl
  onSaved_payload := fun _ => rfl

/-- An edit is saved after the debounce. -/
def savedEdit : List (Action Nat) :=
  [.watch, .edit 1, .watch, .expire, .write 0, .respond 0 true ""]

theorem autosave_truthful_sample : ∃ t os, (autosaveMachine plainSpec).Steps
    (Editor.opened plainSpec {} 0 true) savedEdit os t ∧ t.autosaveState = .saved ∧
    Truthful plainSpec t := by
  refine ⟨_, _, Machine.steps_of_exec rfl, rfl, ?_⟩
  exact autosave_truthful plainSpec 0 true (by decide : ∀ e ∈ savedEdit, e.stays = true)
    (Machine.steps_of_exec rfl) (by decide)

/-- The draft is edited back to the baseline while its save is on its way. -/
theorem edited_back_is_not_saved : ¬∀ (spec : AutosaveSpec Nat Nat) (d : Nat) (saved : Bool)
    (es : List (Action Nat)) (os : List (Notice Nat)) (t : Editor Nat Nat),
    (∀ e ∈ es, e.stays = true) →
    (autosaveMachine spec).Steps (Editor.opened spec {} d saved) es os t → Truthful spec t := by
  intro h
  have htruth := h plainSpec 0 true [.watch, .edit 1, .watch, .expire, .edit 0, .watch, .write 0,
    .respond 0 true ""] _ _ (by decide) (Machine.steps_of_exec rfl)
  have := htruth 0 rfl rfl rfl (by decide) rfl (.inl rfl)
  cases this

end CampusAuth.Frontend
