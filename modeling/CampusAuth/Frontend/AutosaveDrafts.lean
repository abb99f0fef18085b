import CampusAuth.Frontend.AutosaveTruth

/- The drafts of one panel after another: what the answer to a request of an earlier draft may
   do to the one in the editor, and what becomes of the edits of the one that is left.

   The drafts stay apart as long as every step is `Parted` (`drafts_apart`): the newest request
   of a draft is detached or answered when the next one is opened, and the draft was flushed
   since it was last edited. Where a draft is left while its save is on its way, the flush finds
   the same contents under way and returns, and the answer takes over the baseline and the
   status of the next draft (`answer_reaches_next_draft`). -/
namespace CampusAuth.Frontend
open Lib

variable {Draft Print : Type} {spec : AutosaveSpec Draft Print} {s t : Editor Draft Print}
  {e : Action Draft} {os : List (Notice Print)} {d : Draft} {i : Nat} {r : Request Print}

/-- The last request of the draft in the editor was sent with this payload. -/
def Sent (s : Editor Draft Print) (m : Option Print) : Prop :=
  ∃ r ∈ s.requests, r.draft = s.number ∧ (∀ other ∈ s.requests, other.seq ≤ r.seq) ∧
    some r.mark = m

/-- The payload is what was last written for the draft in the editor, and nothing of the draft
    is on its way. -/
def Written (s : Editor Draft Print) (m : Option Print) : Prop :=
  s.disk s.number = m ∧ ∀ r ∈ s.requests, r.draft = s.number → r.answer ≠ none

/-- No request to leave the draft has succeeded with the same contents. -/
def NotLeft (spec : AutosaveSpec Draft Print) (s : Editor Draft Print) : Prop :=
  ∀ d ∈ s.draft, ∀ r ∈ s.requests, r.draft = s.number → (∀ other ∈ s.requests, other.seq ≤ r.seq) →
    some r.mark = spec.fingerprintOf d → r.detached = true → r.answer ≠ some true

/-- The newest request is detached or answered. -/
def Released (s : Editor Draft Print) : Prop :=
  ∀ r ∈ s.requests, r.seq = s.seq → r.answer = none → r.detached = true

def Parted (spec : AutosaveSpec Draft Print) (s : Editor Draft Print) : Action Draft → Prop
  | .opened _ _ => Released s ∧
      ∀ d ∈ s.draft, spec.blockReasonOf d = none → s.flushed = true
  | .clear => Released s
  | .flush .switch => NotLeft spec s ∧ ∀ d ∈ s.draft, spec.blockReasonOf d = none →
      -- what is on its way with the same payload is of this draft
      (∀ p ∈ s.inFlight, some p.2 = spec.fingerprintOf d →
        ∃ r ∈ s.requests, r.seq = p.1 ∧ r.draft = s.number) ∧
      -- the baseline is what was sent last or what is written
      (spec.fingerprintOf d = s.lastSavedFingerprint →
        Sent s (spec.fingerprintOf d) ∨ Written s (spec.fingerprintOf d))
  | .expire | .saveNow | .flush .close => NotLeft spec s
  | _ => True

/-- The drafts do not interfere at the step `e` from `s` to `t`. -/
structure Apart (spec : AutosaveSpec Draft Print) (s : Editor Draft Print) (e : Action Draft)
    (t : Editor Draft Print) (os : List (Notice Print)) : Prop where
  /-- An answer that belongs to another draft changes neither baseline nor status. -/
  foreign : ∀ i ok message, e = .respond i ok message → ∀ r ∈ s.requests[i]?,
    s.draft = none ∨ r.draft ≠ s.number →
    t.lastSavedFingerprint = s.lastSavedFingerprint ∧ t.autosaveState = s.autosaveState
  /-- A draft opened as saved and never edited is not persisted. -/
  untouched : ∀ n m, .persist n m ∈ os →
    n = s.number ∧ (s.edited = true ∨ s.openedSaved = false)
  /-- The contents of a draft that is left and not blocked were sent, or are written. -/
  kept : ∀ d saved, e = .opened d saved → ∀ old ∈ s.draft, spec.blockReasonOf old = none →
    Sent s (spec.fingerprintOf old) ∨ Written s (spec.fingerprintOf old)
  /-- They are sent again only if that failed. -/
  once : ∀ n m, .persist n m ∈ os → ∀ r ∈ s.requests, r.draft = n →
    (∀ other ∈ s.requests, other.seq ≤ r.seq) → r.mark = m → r.answer = some false
  /-- A failure of the last request of a draft is reported. -/
  told : ∀ i message, e = .respond i false message → ∀ r ∈ s.requests[i]?,
    (∀ other ∈ s.requests, other.draft = r.draft → other.seq ≤ r.seq) →
    ∃ text, .toast text ∈ os

/-! ## Requests that stay -/

/-- The requests of `t` are those of `s`, some answered or written meanwhile. -/
structure Follows (s t : Editor Draft Print) : Prop where
  back : Pool.All (fun j a => ∃ b : Request Print, s.requests[j]? = some b ∧ b.draft = a.draft ∧
    b.seq = a.seq ∧ b.mark = a.mark ∧ b.detached = a.detached ∧
    (a.answer = none → b.answer = none)) t.requests
  forth : Pool.All (fun j b => ∃ a : Request Print, t.requests[j]? = some a ∧ a.draft = b.draft ∧
    a.seq = b.seq ∧ a.mark = b.mark ∧ a.detached = b.detached) s.requests

theorem follows_of_eq (h : t.requests = s.requests) : Follows s t := by
  refine ⟨fun j a ha => ⟨a, h ▸ ha, rfl, rfl, rfl, rfl, id⟩, fun j b hb => ⟨b, ?_, rfl, rfl, rfl, rfl⟩⟩
  rw [h]
  exact hb

theorem follows_of_set (hat : s.requests[i]? = some r) {b : Request Print}
    (h : t.requests = s.requests.set i b) (hdraft : b.draft = r.draft) (hseq : b.seq = r.seq)
    (hmark : b.mark = r.mark) (hdetached : b.detached = r.detached)
    (hanswer : b.answer = none → r.answer = none) : Follows s t := by
  refine ⟨fun j a ha => ?_, fun j a ha => ?_⟩
  · rw [h] at ha
    rcases Pool.of_set ha with ⟨rfl, rfl⟩ | ⟨-, ha⟩
    · exact ⟨r, hat, hdraft.symm, hseq.symm, hmark.symm, hdetached.symm, hanswer⟩
    · exact ⟨a, ha, rfl, rfl, rfl, rfl, id⟩
  · rw [h]
    by_cases hij : i = j
    · subst hij
      rw [hat] at ha
      cases ha
      exact ⟨b, List.getElem?_set_self (List.getElem?_eq_some_iff.mp hat).1, hdraft, hseq, hmark,
        hdetached⟩
    · exact ⟨a, (List.getElem?_set_ne hij).trans ha, rfl, rfl, rfl, rfl⟩

theorem Follows.newest (h : Follows s t) {n : Nat} :
    (∀ other ∈ t.requests, other.seq ≤ n) ↔ ∀ other ∈ s.requests, other.seq ≤ n := by
  constructor
  · intro hall other hother
    obtain ⟨j, hj⟩ := List.mem_iff_getElem?.mp hother
    obtain ⟨a, ha, -, hseq, -⟩ := h.forth j other hj
    rw [← hseq]
    exact hall a (List.mem_of_getElem? ha)
  · intro hall other hother
    obtain ⟨j, hj⟩ := List.mem_iff_getElem?.mp hother
    obtain ⟨b, hb, -, hseq, -⟩ := h.back j other hj
    rw [← hseq]
    exact hall b (List.mem_of_getElem? hb)

theorem Follows.sent (h : Follows s t) (hnumber : t.number = s.number) {m : Option Print}
    (hsent : Sent s m) : Sent t m := by
  obtain ⟨r, hr, hdraft, hnewest, hmark⟩ := hsent
  obtain ⟨j, hj⟩ := List.mem_iff_getElem?.mp hr
  obtain ⟨a, ha, hdraft', hseq, hmark', -⟩ := h.forth j r hj
  refine ⟨a, List.mem_of_getElem? ha, hdraft'.trans (hdraft.trans hnumber.symm), ?_,
    by rw [hmark', hmark]⟩
  rw [hseq]
  exact h.newest.mpr hnewest

theorem Follows.written (h : Follows s t) (hnumber : t.number = s.number)
    (hdisk : t.disk s.number = s.disk s.number) {m : Option Print} (hwritten : Written s m) :
    Written t m := by
  refine ⟨by rw [hnumber, hdisk, hwritten.1], fun a ha hdraft hanswer => ?_⟩
  obtain ⟨j, hj⟩ := List.mem_iff_getElem?.mp ha
  obtain ⟨b, hb, hdraft', -, -, -, hback⟩ := h.back j a hj
  exact hwritten.2 b (List.mem_of_getElem? hb) (hdraft'.trans (hdraft.trans hnumber))
    (hback hanswer)

/-! ## Reachable states -/

structure DraftsInv (spec : AutosaveSpec Draft Print) (s : Editor Draft Print) : Prop where
  flight : Flight s
  owner : Pool.All (fun _ r => r.draft ≤ s.number) s.requests
  /-- The requests of a later draft have higher numbers. -/
  order : ∀ (i j : Nat) (a b : Request Print), s.requests[i]? = some a → s.requests[j]? = some b →
    a.draft < b.draft → a.seq < b.seq
  top : s.draft.isSome = true → Pool.All (fun _ r => r.draft = s.number → s.Newest r →
    r.seq = s.seq) s.requests
  foreign : Pool.All (fun _ r => r.answer = none → r.detached = false → r.seq = s.seq →
    s.draft.isSome = true ∧ r.draft = s.number) s.requests
  /-- An earlier draft was not left with its last save attached and on its way. -/
  left : Pool.All (fun _ r => r.answer = none → r.detached = false →
    s.draft = none ∨ r.draft ≠ s.number →
    ∃ (j : Nat) (other : Request Print), s.requests[j]? = some other ∧ other.draft = r.draft ∧
      r.seq < other.seq) s.requests
  fresh : ∀ d, s.draft = some d → s.edited = false → s.openedSaved = true →
    spec.fingerprintOf d = s.lastSavedFingerprint ∧
      Pool.All (fun _ r => r.draft ≠ s.number) s.requests
  settled : s.draft.isSome = true → Pool.All (fun _ r => r.draft = s.number → s.Newest r →
    r.detached = false → r.answer = some true → s.lastSavedFingerprint = some r.mark) s.requests
  flushed : s.flushed = true → ∀ d, s.draft = some d →
    Sent s (spec.fingerprintOf d) ∨ Written s (spec.fingerprintOf d)

theorem newest_iff : s.Newest r ↔ ∀ other ∈ s.requests, other.seq ≤ r.seq := by
  constructor
  · intro h other hother
    obtain ⟨j, hj⟩ := List.mem_iff_getElem?.mp hother
    exact h j other hj
  · intro h j other hj
    exact h other (List.mem_of_getElem? hj)

theorem Follows.newest_of (h : Follows s t) {a b : Request Print} (hseq : b.seq = a.seq)
    (hnewest : t.Newest a) : s.Newest b := by
  rw [newest_iff, hseq]
  exact h.newest.mp (newest_iff.mp hnewest)

/-- A step that keeps the requests, but for what is answered or written, and the draft. -/
theorem DraftsInv.follow (hs : DraftsInv spec s) (h : Follows s t) (hflight : Flight t)
    (hseq : t.seq = s.seq) (hnumber : t.number = s.number)
    (hdraft : t.draft.isSome = s.draft.isSome)
    (hfresh : ∀ d, t.draft = some d → t.edited = false → t.openedSaved = true →
      spec.fingerprintOf d = t.lastSavedFingerprint ∧
        Pool.All (fun _ r => r.draft ≠ s.number) s.requests)
    (hsettled : t.draft.isSome = true → Pool.All (fun _ r => r.draft = s.number → t.Newest r →
      r.detached = false → r.answer = some true → t.lastSavedFingerprint = some r.mark) t.requests)
    (hflushed : t.flushed = true → ∀ d, t.draft = some d →
      Sent t (spec.fingerprintOf d) ∨ Written t (spec.fingerprintOf d)) : DraftsInv spec t := by
  have hnone : t.draft = none ↔ s.draft = none := by
    rw [← Option.isNone_iff_eq_none, ← Option.isNone_iff_eq_none, ← Option.not_isSome,
      ← Option.not_isSome, hdraft]
  refine ⟨hflight, fun j a ha => ?_, fun j k a b ha hb hlt => ?_, fun hsome j a ha hown hnew => ?_,
    fun j a ha hanswer hattached htop => ?_, fun j a ha hanswer hattached hother => ?_,
    fun d hd hedited hopened => ?_, ?_, hflushed⟩
  · obtain ⟨b, hb, hb', -⟩ := h.back j a ha
    rw [hnumber, ← hb']
    exact hs.owner j b hb
  · obtain ⟨a', ha', hda, hsa, -⟩ := h.back j a ha
    obtain ⟨b', hb', hdb, hsb, -⟩ := h.back k b hb
    have := hs.order j k a' b' ha' hb' (by omega)
    omega
  · obtain ⟨b, hb, hdb, hsb, -⟩ := h.back j a ha
    rw [hseq, ← hsb]
    exact hs.top (hdraft ▸ hsome) j b hb (by omega) (h.newest_of hsb hnew)
  · obtain ⟨b, hb, hdb, hsb, -, hdet, hans⟩ := h.back j a ha
    obtain ⟨hsome, hown⟩ := hs.foreign j b hb (hans hanswer) (hdet.trans hattached) (by omega)
    exact ⟨hdraft ▸ hsome, by omega⟩
  · obtain ⟨b, hb, hdb, hsb, -, hdet, hans⟩ := h.back j a ha
    rw [hnone, hnumber, ← hdb] at hother
    obtain ⟨k, c, hc, hdc, hlt⟩ := hs.left j b hb (hans hanswer) (hdet.trans hattached) hother
    obtain ⟨c', hc', hdc', hsc', -⟩ := h.forth k c hc
    exact ⟨k, c', hc', by omega, by omega⟩
  · obtain ⟨heq, hnothing⟩ := hfresh d hd hedited hopened
    refine ⟨heq, fun j a ha => ?_⟩
    obtain ⟨b, hb, hdb, -⟩ := h.back j a ha
    rw [hnumber, ← hdb]
    exact hnothing j b hb
  · rw [hnumber]
    exact hsettled

/-- The draft in the editor is left: its last save is not attached and on its way. -/
theorem DraftsInv.leave (hs : DraftsInv spec s) (hreleased : Released s)
    (hrequests : t.requests = s.requests) (hflight : Flight t) (hseq : s.seq ≤ t.seq)
    (hnumber : s.number ≤ t.number) (hnext : t.draft = none ∨ t.number = s.number + 1)
    (hfresh : ∀ d, t.draft = some d → t.openedSaved = true →
      spec.fingerprintOf d = t.lastSavedFingerprint)
    (hflushed : t.draft = none ∨ t.flushed = false) : DraftsInv spec t := by
  have hnothing : t.draft.isSome = true → Pool.All (fun _ r => r.draft ≠ t.number) s.requests := by
    intro hsome j a ha heq
    rcases hnext with hnone | hnew
    · rw [hnone] at hsome
      cases hsome
    · have := hs.owner j a ha
      omega
  refine ⟨hflight, ?_, ?_, fun hsome => ?_, ?_, ?_, fun d hd _ hopened => ?_, fun hsome => ?_, ?_⟩
  · rw [hrequests]
    exact hs.owner.imp fun _ _ hle => Nat.le_trans hle hnumber
  · rw [hrequests]
    exact hs.order
  · rw [hrequests]
    exact (hnothing hsome).imp fun _ _ hne heq => absurd heq hne
  · rw [hrequests]
    intro j a ha hanswer hattached htop
    have hle := hs.flight.bound j a ha
    have hdetached := hreleased a (List.mem_of_getElem? ha) (by omega) hanswer
    rw [hattached] at hdetached
    cases hdetached
  · rw [hrequests]
    intro j a ha hanswer hattached _
    by_cases hother : s.draft = none ∨ a.draft ≠ s.number
    · exact hs.left j a ha hanswer hattached hother
    · -- A request of this very draft: it is not the newest, and what is newer is the draft's too.
      simp only [not_or, not_not] at hother
      obtain ⟨hsome, hown⟩ := hother
      have hnot : ¬s.Newest a := by
        intro hnewest
        have htop := hs.top (Option.isSome_iff_ne_none.mpr hsome) j a ha hown hnewest
        have hdetached := hreleased a (List.mem_of_getElem? ha) htop hanswer
        rw [hattached] at hdetached
        cases hdetached
      simp only [Editor.Newest, Pool.All, not_forall] at hnot
      obtain ⟨k, other, hk, hlt⟩ := hnot
      refine ⟨k, other, hk, ?_, by omega⟩
      by_contra hne
      have := hs.owner k other hk
      have := hs.order k j other a hk ha (by omega)
      omega
  · rw [hrequests]
    exact ⟨hfresh d hd hopened, hnothing (by rw [hd]; rfl)⟩
  · rw [hrequests]
    exact (hnothing hsome).imp fun _ _ hne heq => absurd heq hne
  · intro hflush d hd
    rcases hflushed with hnone | hfalse
    · rw [hnone] at hd
      cases hd
    · rw [hfalse] at hflush
      cases hflush

theorem DraftsInv.send (hs : DraftsInv spec s) (hd : s.draft = some d) {mark : Print}
    (hmark : spec.fingerprintOf d = some mark) (hchanged : some mark ≠ s.lastSavedFingerprint)
    (detached f : Bool) : DraftsInv spec ((s.stopped f).send mark detached) := by
  have hstopped : Flight (s.stopped f) := hs.flight.frame rfl rfl (Nat.le_refl _)
  have hat : ((s.stopped f).send mark detached).requests[s.requests.length]? =
      some { draft := s.number, seq := s.seq + 1, mark, detached } := List.getElem?_concat_length
  have hold : ∀ {j : Nat} {a : Request Print}, s.requests[j]? = some a →
      ((s.stopped f).send mark detached).requests[j]? = some a := fun ha =>
    (List.getElem?_append_left (List.getElem?_eq_some_iff.mp ha).1).trans ha
  have hnewest : ∀ {j : Nat} {a : Request Print}, s.requests[j]? = some a →
      ¬((s.stopped f).send mark detached).Newest a := by
    intro j a ha hnew
    have hle : s.seq + 1 ≤ a.seq := hnew _ _ hat
    have := hs.flight.bound j a ha
    omega
  refine ⟨hstopped.sent mark detached, hs.owner.spawn (fun _ _ h => h) (Nat.le_refl _), ?_, ?_, ?_,
    ?_, ?_, ?_, ?_⟩
  · intro j k a b ha hb hlt
    rcases Pool.of_spawn ha with ha | ⟨-, rfl⟩ <;> rcases Pool.of_spawn hb with hb | ⟨-, rfl⟩
    · exact hs.order j k a b ha hb hlt
    · exact Nat.lt_succ_of_le (hs.flight.bound j a ha)
    · have hle := hs.owner k b hb
      exact absurd hlt (Nat.not_lt.mpr hle)
    · exact absurd hlt (Nat.lt_irrefl _)
  · intro _ j a ha _ hnew
    rcases Pool.of_spawn ha with ha | ⟨-, rfl⟩
    · exact absurd hnew (hnewest ha)
    · rfl
  · intro j a ha hanswer hattached htop
    have hsome : ((s.stopped f).send mark detached).draft.isSome = true := by
      rw [show ((s.stopped f).send mark detached).draft = some d from hd]
      rfl
    rcases Pool.of_spawn ha with ha | ⟨-, rfl⟩
    · have hle := hs.flight.bound j a ha
      have htop : a.seq = s.seq + 1 := htop
      omega
    · exact ⟨hsome, rfl⟩
  · intro j a ha hanswer hattached hother
    rcases Pool.of_spawn ha with ha | ⟨-, rfl⟩
    · obtain ⟨k, other, hk, hdraft, hlt⟩ := hs.left j a ha hanswer hattached hother
      exact ⟨k, other, hold hk, hdraft, hlt⟩
    · rcases hother with hnone | hne
      · rw [show ((s.stopped f).send mark detached).draft = some d from hd] at hnone
        cases hnone
      · exact absurd rfl hne
  · intro d' hd' hedited hopened
    cases hd.symm.trans hd'
    exact absurd (hmark.symm.trans (hs.fresh d hd hedited hopened).1) hchanged
  · intro _ j a ha _ hnew _ hanswer
    rcases Pool.of_spawn ha with ha | ⟨-, rfl⟩
    · exact absurd hnew (hnewest ha)
    · cases hanswer
  · intro _ d' hd'
    cases hd.symm.trans hd'
    refine .inl ⟨_, List.mem_of_getElem? hat, rfl, ?_, hmark.symm⟩
    intro other hother
    rcases List.mem_append.mp hother with hmem | hmem
    · obtain ⟨j, hj⟩ := List.mem_iff_getElem?.mp hmem
      exact Nat.le_succ_of_le (hs.flight.bound j other hj)
    · cases List.mem_singleton.mp hmem
      exact Nat.le_refl _

theorem settled_follow (hs : DraftsInv spec s)
    (hback : Pool.All (fun j a => ∃ b : Request Print, s.requests[j]? = some b ∧ b.draft = a.draft ∧
      b.seq = a.seq ∧ b.mark = a.mark ∧ b.detached = a.detached ∧
      (a.answer = some true → b.answer = some true)) t.requests) (h : Follows s t)
    (hdraft : t.draft.isSome = s.draft.isSome)
    (hlast : t.lastSavedFingerprint = s.lastSavedFingerprint) :
    t.draft.isSome = true → Pool.All (fun _ r => r.draft = s.number → t.Newest r →
      r.detached = false → r.answer = some true → t.lastSavedFingerprint = some r.mark)
      t.requests := by
  intro hsome j a ha hown hnew hattached hanswer
  obtain ⟨b, hb, hdb, hsb, hmb, hdet, hans⟩ := hback j a ha
  rw [hlast, ← hmb]
  exact hs.settled (hdraft ▸ hsome) j b hb (hdb.trans hown) (h.newest_of hsb hnew)
    (hdet.trans hattached) (hans hanswer)

/-- A step that leaves the requests and the baseline as they are. -/
theorem DraftsInv.frame (hs : DraftsInv spec s) (hrequests : t.requests = s.requests)
    (hflight : t.inFlight = s.inFlight) (hseq : t.seq = s.seq) (hnumber : t.number = s.number)
    (hdraft : t.draft.isSome = s.draft.isSome)
    (hlast : t.lastSavedFingerprint = s.lastSavedFingerprint)
    (hfresh : ∀ d, t.draft = some d → t.edited = false → t.openedSaved = true →
      spec.fingerprintOf d = s.lastSavedFingerprint ∧
        Pool.All (fun _ r => r.draft ≠ s.number) s.requests)
    (hflushed : t.flushed = true → ∀ d, t.draft = some d →
      Sent s (spec.fingerprintOf d) ∨ Written t (spec.fingerprintOf d)) : DraftsInv spec t := by
  have hfollows : Follows s t := follows_of_eq hrequests
  refine hs.follow hfollows (hs.flight.frame hrequests hflight (Nat.le_of_eq hseq.symm)) hseq hnumber
    hdraft ?_ (settled_follow hs ?_ hfollows hdraft hlast) ?_
  · rw [hlast]
    exact hfresh
  · rw [hrequests]
    exact fun j a ha => ⟨a, ha, rfl, rfl, rfl, rfl, id⟩
  · intro hflush d hd
    exact (hflushed hflush d hd).imp (hfollows.sent hnumber) id

theorem DraftsInv.wrote (hs : DraftsInv spec s) (hat : s.requests[i]? = some r)
    (hanswer : r.answer = none) : DraftsInv spec (s.wrote i r) := by
  have hfollows : Follows s (s.wrote i r) := follows_of_set hat rfl rfl rfl rfl rfl id
  refine hs.follow hfollows (hs.flight.wrote hat) rfl rfl rfl hs.fresh
    (settled_follow hs ?_ hfollows rfl rfl) fun hflush d hd => ?_
  · intro j a ha
    rcases Pool.of_set ha with ⟨rfl, rfl⟩ | ⟨-, ha⟩
    · exact ⟨r, hat, rfl, rfl, rfl, rfl, id⟩
    · exact ⟨a, ha, rfl, rfl, rfl, rfl, id⟩
  · rcases hs.flushed hflush d hd with hsent | hwritten
    · exact .inl (hfollows.sent rfl hsent)
    · -- Nothing of this draft is on its way, so it is another's file that is written.
      refine .inr (hfollows.written rfl ?_ hwritten)
      have hne : s.number ≠ r.draft := fun heq =>
        hwritten.2 r (List.mem_of_getElem? hat) heq.symm hanswer
      exact if_neg hne

/-- A request is answered; `hlast` is what becomes of the baseline if it was a success. -/
theorem DraftsInv.answered (hs : DraftsInv spec s) (hat : s.requests[i]? = some r)
    (hanswer : r.answer = none) (ok : Bool) (hpayload : SamePayload spec (s.answered i r ok) t)
    {u : Editor Draft Print}
    (hu : ∃ last state, u = { t with lastSavedFingerprint := last, autosaveState := state })
    (hlast : if ok ∧ r.detached = false ∧ r.seq = s.seq then u.lastSavedFingerprint = some r.mark
      else u.lastSavedFingerprint = s.lastSavedFingerprint) : DraftsInv spec u := by
  obtain ⟨⟨draft, watching, ht⟩, hsome, hsame⟩ := hpayload
  obtain ⟨last, state, hu⟩ := hu
  have hdraft : u.draft = t.draft := by rw [hu]
  rw [ht] at hu
  have hrequests : u.requests = s.requests.set i { r with answer := some ok } := by rw [hu]; rfl
  have hseq : u.seq = s.seq := by rw [hu]; rfl
  have hnumber : u.number = s.number := by rw [hu]; rfl
  have hfollows : Follows s u :=
    follows_of_set hat hrequests rfl rfl rfl rfl fun h => by cases h
  have hflight : Flight u :=
    (hs.flight.answered hat ok).frame hrequests (by rw [hu]) (Nat.le_of_eq hseq.symm)
  rw [← hdraft] at hsome hsame
  refine hs.follow hfollows hflight hseq hnumber hsome ?_ ?_ ?_
  · intro d hd hedited hopened
    obtain ⟨old, hold, hprint⟩ := hsame d hd
    have hedited : s.edited = false := by rw [hu] at hedited; exact hedited
    have hopened : s.openedSaved = true := by rw [hu] at hopened; exact hopened
    obtain ⟨heq, hnothing⟩ := hs.fresh old hold hedited hopened
    have hother : ¬(ok = true ∧ r.detached = false ∧ r.seq = s.seq) := by
      rintro ⟨-, hattached, hnew⟩
      exact hnothing i r hat (hs.foreign i r hat hanswer hattached hnew).2
    rw [if_neg hother] at hlast
    rw [hprint, heq]
    exact ⟨hlast.symm, hnothing⟩
  · intro hsome' j a ha hown hnew hattached hanswered
    have hsome' : s.draft.isSome = true := hsome.symm.trans hsome'
    rw [hrequests] at ha
    rcases Pool.of_set ha with ⟨rfl, rfl⟩ | ⟨hne, hold⟩
    · have htop := hs.top hsome' j r hat hown (hfollows.newest_of rfl hnew)
      have hok : ok = true := by simpa using hanswered
      rwa [if_pos ⟨hok, hattached, htop⟩] at hlast
    · -- Another request that was the newest: this one is not.
      have hnew' := hfollows.newest_of (b := a) rfl hnew
      have hsettled := hs.settled hsome' j a hold hown hnew' hattached hanswered
      have hother : ¬(ok = true ∧ r.detached = false ∧ r.seq = s.seq) := by
        rintro ⟨-, -, htop⟩
        have hle := hs.flight.bound j a hold
        have hge := hnew' i r hat
        exact hne (hs.flight.distinct j i a r hold hat (by omega))
      rw [if_neg hother] at hlast
      exact hlast.trans hsettled
  · intro hflush d hd
    obtain ⟨old, hold, hprint⟩ := hsame d hd
    have hflush : s.flushed = true := by rw [hu] at hflush; exact hflush
    rw [hprint]
    exact (hs.flushed hflush old hold).imp (hfollows.sent hnumber)
      (hfollows.written hnumber (by rw [hu]; rfl))

section
variable [DecidableEq Draft]

theorem DraftsInv.succeeded (hs : DraftsInv spec s) (hat : s.requests[i]? = some r)
    (hanswer : r.answer = none) : DraftsInv spec ((s.answered i r true).succeeded spec r) := by
  have hpayload : SamePayload spec _ _ := onSaved_samePayload (s.answered i r true) r
  obtain ⟨draft, watching, heq⟩ := hpayload.same
  unfold Editor.succeeded
  split
  next hother =>
    refine hs.answered hat hanswer true hpayload ⟨_, _, rfl⟩ ?_
    have hother : ¬(r.detached = false ∧ r.seq = s.seq) := by
      rintro ⟨hattached, hnew⟩
      have hnew : r.seq = (s.answered i r true).seq := hnew
      simp [hattached, hnew] at hother
    rw [if_neg fun h => hother h.2, heq]
    rfl
  next hown =>
    refine hs.answered hat hanswer true hpayload ⟨_, _, rfl⟩ ?_
    simp only [Bool.or_eq_true, decide_eq_true_eq, not_or, not_not, Bool.not_eq_true] at hown
    rw [if_pos ⟨rfl, hown.2, hown.1⟩]

omit [DecidableEq Draft] in
theorem DraftsInv.failed (hs : DraftsInv spec s) (hat : s.requests[i]? = some r)
    (hanswer : r.answer = none) (message : String) :
    DraftsInv spec ((s.answered i r false).failed spec r message).1 := by
  have hsame : SamePayload spec (s.answered i r false) (s.answered i r false) :=
    ⟨⟨s.draft, s.watching, rfl⟩, rfl, fun d hd => ⟨d, hd, rfl⟩⟩
  unfold Editor.failed
  repeat' split
  all_goals exact hs.answered hat hanswer false hsame ⟨_, _, rfl⟩ (by rw [if_neg (by simp)]; rfl)

variable [DecidableEq Print]

theorem DraftsInv.step (hs : DraftsInv spec s) (hparted : Parted spec s e)
    (h : Does spec s e t os) : DraftsInv spec t := by
  cases h with
  | @edit old d hold =>
    refine hs.frame rfl rfl rfl rfl (by rw [hold]; rfl) rfl ?_ fun h => by cases h
    intro d' hd' hedited hopened
    cases hd'
    have hedited : (s.edited || decide (spec.fingerprintOf d ≠ spec.fingerprintOf old)) = false :=
      hedited
    simp only [Bool.or_eq_false_iff, decide_eq_false_iff_not, not_not] at hedited
    rw [hedited.2]
    exact hs.fresh old hold hedited.1 hopened
  | watch =>
    unfold Editor.watch
    split
    · exact hs.frame rfl rfl rfl rfl rfl rfl hs.fresh hs.flushed
    · split
      · exact hs.frame rfl rfl rfl rfl rfl rfl hs.fresh hs.flushed
      · exact hs.frame rfl rfl rfl rfl rfl rfl hs.fresh hs.flushed
  | noDraft => exact hs.frame rfl rfl rfl rfl rfl rfl hs.fresh hs.flushed
  | @flushed reason d hd hpending heq =>
    refine hs.frame rfl rfl rfl rfl rfl rfl hs.fresh fun hflush d' hd' => ?_
    cases hd.symm.trans hd'
    have hflush : s.leaving spec d reason = true := hflush
    simp only [Editor.leaving, Bool.or_eq_true, Bool.and_eq_true, beq_iff_eq,
      Option.isNone_iff_eq_none] at hflush
    rcases hflush with ⟨rfl, hfree⟩ | hflush
    · exact (hparted.2 d hd hfree).2 heq
    · exact hs.flushed hflush d hd
  | blocked => exact hs.frame rfl rfl rfl rfl rfl rfl hs.fresh hs.flushed
  | @settled _ d detached f hruns hd hflush hor =>
    have hstopped : DraftsInv spec (s.stopped f) := by
      refine hs.frame rfl rfl rfl rfl rfl rfl hs.fresh fun hflushed d' hd' => ?_
      cases hd.symm.trans hd'
      cases hruns with
      | expire | saveNow | close => exact hs.flushed hflushed d hd
      | switch =>
        have hfree := (hflush .switch rfl).1
        rcases hor with hblocked | heq
        · rw [hfree] at hblocked
          cases hblocked
        · exact (hparted.2 d hd hfree).2 heq
    unfold Editor.settle
    split
    · exact hstopped
    · exact hstopped.frame rfl rfl rfl rfl rfl rfl hstopped.fresh hstopped.flushed
  | @underway _ d detached f n mark hruns hd hfree hmark hflight =>
    refine hs.frame rfl rfl rfl rfl rfl rfl hs.fresh fun hflushed d' hd' => ?_
    cases hd.symm.trans hd'
    cases hruns with
    | expire | saveNow | close => exact hs.flushed hflushed d hd
    | switch =>
      -- The request on its way is of this draft.
      obtain ⟨j, a, ha, hseq, hm, -, hnewest⟩ := hs.flight.flight n mark hflight
      obtain ⟨b, hb, hbseq, hbdraft⟩ := (hparted.2 d hd hfree).1 (n, mark) hflight hmark.symm
      obtain ⟨k, hk⟩ := List.mem_iff_getElem?.mp hb
      have hjk := hs.flight.distinct j k a b ha hk (hseq.trans hbseq.symm)
      subst hjk
      cases ha.symm.trans hk
      exact .inl ⟨a, hb, hbdraft, newest_iff.mp hnewest, by rw [hmark, hm]⟩
  | sent _ hd _ hmark hchanged => exact hs.send hd hmark hchanged _ _
  | @opened d saved =>
    unfold Editor.opened
    have hflight : ∀ {u : Editor Draft Print}, u.requests = s.requests → u.inFlight = s.inFlight →
        s.seq ≤ u.seq → Flight u := fun hr hf hq => hs.flight.frame hr hf hq
    split
    · refine hs.leave hparted.1 rfl (hflight rfl rfl (Nat.le_refl _)) (Nat.le_refl _)
        (Nat.le_succ _) (.inr rfl) (fun d' hd' _ => ?_) (.inr rfl)
      cases hd'
      rfl
    next hunsaved =>
      refine hs.leave hparted.1 rfl (hflight rfl rfl (Nat.le_succ _)) (Nat.le_succ _)
        (Nat.le_succ _) (.inr rfl) (fun d' hd' hopened => ?_) (.inr rfl)
      exact absurd hopened hunsaved
  | clear =>
    exact hs.leave hparted rfl (hs.flight.frame rfl rfl (Nat.le_succ _)) (Nat.le_succ _)
      (Nat.le_refl _) (.inl rfl) (fun d hd => by cases hd) (.inl rfl)
  | write hat hanswer => exact hs.wrote hat hanswer
  | succeeded hat hanswer => exact hs.succeeded hat hanswer
  | failed hat hanswer => exact hs.failed hat hanswer _

/-! ## The drafts over every run -/

/-- An answer to a request of another draft: its number was taken over, or it is detached. -/
theorem foreign_answer (hs : DraftsInv spec s) {ok : Bool} {message : String}
    (h : Does spec s (.respond i ok message) t os) (hat : s.requests[i]? = some r)
    (hother : s.draft = none ∨ r.draft ≠ s.number) :
    t.lastSavedFingerprint = s.lastSavedFingerprint ∧ t.autosaveState = s.autosaveState := by
  obtain ⟨r', hat', hanswer, hcases⟩ := respond_cases h
  cases hat.symm.trans hat'
  have hnot : ¬(r.detached = false ∧ r.seq = s.seq) := by
    rintro ⟨hattached, hnew⟩
    obtain ⟨hsome, hown⟩ := hs.foreign i r hat hanswer hattached hnew
    rcases hother with hnone | hne
    · rw [hnone] at hsome
      cases hsome
    · exact hne hown
  rcases hcases with ⟨rfl, rfl⟩ | ⟨rfl, heq⟩
  · obtain ⟨draft, watching, heq⟩ :=
      (onSaved_samePayload (s.answered i r true) r : SamePayload spec _ _).same
    unfold Editor.succeeded
    split
    · rw [heq]
      exact ⟨rfl, rfl⟩
    next hown =>
      simp only [Bool.or_eq_true, decide_eq_true_eq, not_or, not_not, Bool.not_eq_true] at hown
      exact absurd ⟨hown.2, hown.1⟩ hnot
  · have ht : t = ((s.answered i r false).failed spec r message).1 := congrArg Prod.fst heq
    rw [ht]
    unfold Editor.failed
    split
    · exact ⟨rfl, rfl⟩
    next hattached =>
      split
      · exact ⟨rfl, rfl⟩
      next hnew =>
        exact absurd ⟨by simpa using hattached, not_not.mp hnew⟩ hnot

/-- The last request of a draft fails: somebody is told. -/
theorem told_of_last (hs : DraftsInv spec s) {message : String}
    (h : Does spec s (.respond i false message) t os) (hat : s.requests[i]? = some r)
    (hlast : ∀ other ∈ s.requests, other.draft = r.draft → other.seq ≤ r.seq) :
    ∃ text, .toast text ∈ os := by
  obtain ⟨r', hat', hanswer, hcases⟩ := respond_cases h
  cases hat.symm.trans hat'
  rcases hcases with ⟨hok, -⟩ | ⟨-, heq⟩
  · cases hok
  have hos : os = ((s.answered i r false).failed spec r message).2 := congrArg Prod.snd heq
  rw [hos]
  unfold Editor.failed
  split
  · exact ⟨_, List.mem_cons_self⟩
  next hattached =>
    have hattached : r.detached = false := by simpa using hattached
    have hcurrent : s.draft ≠ none ∧ r.draft = s.number := by
      by_contra hnot
      obtain ⟨j, other, hj, hdraft, hlt⟩ := hs.left i r hat hanswer hattached (by
        by_cases hnone : s.draft = none
        · exact .inl hnone
        · exact .inr fun hown => hnot ⟨hnone, hown⟩)
      have := hlast other (List.mem_of_getElem? hj) hdraft
      omega
    have hnewest : s.Newest r := by
      intro j other hj
      by_cases hdraft : other.draft = r.draft
      · exact hlast other (List.mem_of_getElem? hj) hdraft
      · have hle := hs.owner j other hj
        exact Nat.le_of_lt (hs.order j i other r hj hat (by omega))
    have htop := hs.top (Option.isSome_iff_ne_none.mpr hcurrent.1) i r hat hcurrent.2 hnewest
    split
    next hold => exact absurd htop hold
    next => exact ⟨_, List.mem_cons_self⟩

theorem apart_of_parted (hs : DraftsInv spec s) (hparted : Parted spec s e)
    (h : Does spec s e t os) : Apart spec s e t os where
  foreign := by
    rintro i ok message rfl r hr hother
    exact foreign_answer hs h hr hother
  untouched := by
    intro n m hsent
    obtain ⟨hn, d, detached, f, -, hd, hmark, hchanged, -⟩ := persist_cases h hsent
    refine ⟨hn, ?_⟩
    by_contra hnot
    simp only [not_or, Bool.not_eq_true, Bool.not_eq_false] at hnot
    exact hchanged (hmark.symm.trans (hs.fresh d hd hnot.1 hnot.2).1)
  kept := by
    rintro d saved rfl old hold hfree
    exact hs.flushed (hparted.2 old hold hfree) old hold
  once := by
    intro n m hsent r hr hdraft hnewest hmark
    obtain ⟨hn, d, detached, f, hruns, hd, hprint, hchanged, hfresh⟩ := persist_cases h hsent
    obtain ⟨i, hi⟩ := List.mem_iff_getElem?.mp hr
    have hown : r.draft = s.number := hdraft.trans hn
    have hleft : NotLeft spec s := by
      cases hruns with
      | expire | saveNow | close => exact hparted
      | switch => exact hparted.1
    cases hanswer : r.answer with
    | none => exact absurd (hmark ▸ hs.flight.newest i r hi hanswer (newest_iff.mpr hnewest)) (hfresh _)
    | some ok =>
      cases ok with
      | false => rfl
      | true =>
        cases hattached : r.detached with
        | true => exact absurd hanswer (hleft d hd r hr hown hnewest (by rw [hmark, hprint]) hattached)
        | false =>
          have hlast := hs.settled (by rw [hd]; rfl) i r hi hown (newest_iff.mpr hnewest) hattached
            hanswer
          rw [hmark] at hlast
          exact absurd hlast.symm hchanged
  told := by
    rintro i message rfl r hr hlast
    exact told_of_last hs h hr hlast

omit [DecidableEq Draft] [DecidableEq Print] in
theorem draftsInv_empty : DraftsInv spec ({} : Editor Draft Print) := by
  have hempty : ∀ {P : Nat → Request Print → Prop}, Pool.All P [] := .nil
  refine ⟨flight_empty, hempty, fun i j a b ha => ?_, fun _ => hempty, hempty, hempty, ?_,
    fun _ => hempty, fun h => (Bool.false_ne_true h).elim⟩
  · cases List.getElem?_nil.symm.trans ha
  · intro d hd
    cases hd

/-- In every run of the panel whose steps are parted, no step lets the drafts interfere. -/
theorem drafts_apart (spec : AutosaveSpec Draft Print) {es : List (Action Draft)}
    (hparted : (autosaveMachine spec).Along (Parted spec) {} es) :
    (autosaveMachine spec).Along
      (fun s e => ∀ t os, Editor.step spec s e = some (t, os) → Apart spec s e t os) {} es := by
  refine Machine.along_of_invariant (I := DraftsInv spec) ?_ draftsInv_empty hparted
  intro s e hs hC
  exact ⟨fun t os hstep => apart_of_parted hs hC (does_of_step hstep),
    fun t os hstep => hs.step hC (does_of_step hstep)⟩

instance instDecidableSent (s : Editor Draft Print) (m : Option Print) : Decidable (Sent s m) :=
  inferInstanceAs (Decidable (∃ r ∈ s.requests, r.draft = s.number ∧
    (∀ other ∈ s.requests, other.seq ≤ r.seq) ∧ some r.mark = m))

instance instDecidableWritten (s : Editor Draft Print) (m : Option Print) :
    Decidable (Written s m) :=
  inferInstanceAs (Decidable (s.disk s.number = m ∧
    ∀ r ∈ s.requests, r.draft = s.number → r.answer ≠ none))

instance instDecidableNotLeft (spec : AutosaveSpec Draft Print) (s : Editor Draft Print) :
    Decidable (NotLeft spec s) :=
  inferInstanceAs (Decidable (∀ d ∈ s.draft, ∀ r ∈ s.requests, r.draft = s.number →
    (∀ other ∈ s.requests, other.seq ≤ r.seq) → some r.mark = spec.fingerprintOf d →
    r.detached = true → r.answer ≠ some true))

instance instDecidableReleased (s : Editor Draft Print) : Decidable (Released s) :=
  inferInstanceAs (Decidable (∀ r ∈ s.requests, r.seq = s.seq → r.answer = none →
    r.detached = true))

instance instDecidableParted (spec : AutosaveSpec Draft Print) (s : Editor Draft Print) :
    ∀ e : Action Draft, Decidable (Parted spec s e)
  | .opened _ _ => inferInstanceAs (Decidable (Released s ∧
      ∀ d ∈ s.draft, spec.blockReasonOf d = none → s.flushed = true))
  | .clear => inferInstanceAs (Decidable (Released s))
  | .flush .switch => inferInstanceAs (Decidable (NotLeft spec s ∧
      ∀ d ∈ s.draft, spec.blockReasonOf d = none →
        (∀ p ∈ s.inFlight, some p.2 = spec.fingerprintOf d →
          ∃ r ∈ s.requests, r.seq = p.1 ∧ r.draft = s.number) ∧
        (spec.fingerprintOf d = s.lastSavedFingerprint →
          Sent s (spec.fingerprintOf d) ∨ Written s (spec.fingerprintOf d))))
  | .expire | .saveNow | .flush .close => inferInstanceAs (Decidable (NotLeft spec s))
  | .watch | .edit _ | .write _ | .respond _ _ _ => isTrue trivial

end

/-- A draft is edited and left for another before its debounce runs out. -/
def leftInTime : List (Action Nat) :=
  [.opened 0 true, .watch, .edit 1, .watch, .flush .switch, .opened 5 true, .watch]

theorem drafts_apart_sample : ∃ t os, (autosaveMachine plainSpec).Steps {} leftInTime os t ∧
    ∀ u os', Editor.step plainSpec t (.respond 0 false "") = some (u, os') →
      Apart plainSpec t (.respond 0 false "") u os' := by
  have hrun : (autosaveMachine plainSpec).Steps {} leftInTime _ _ := Machine.steps_of_exec rfl
  have hparted : (autosaveMachine plainSpec).Along (Parted plainSpec) {}
      (leftInTime ++ [.respond 0 false ""]) := by decide
  exact ⟨_, _, hrun, (drafts_apart plainSpec hparted).at hrun⟩

/-- A draft is left while its save is on its way. -/
def leftTooSoon : List (Action Nat) :=
  [.opened 0 true, .watch, .edit 1, .watch, .expire, .flush .switch, .opened 5 true, .watch, .write 0]

theorem answer_reaches_next_draft : ¬∀ (spec : AutosaveSpec Nat Nat) (es : List (Action Nat)),
    (autosaveMachine spec).Along
      (fun s e => ∀ t os, Editor.step spec s e = some (t, os) → Apart spec s e t os) {} es := by
  intro h
  have hrun : (autosaveMachine plainSpec).Steps {} leftTooSoon _ _ := Machine.steps_of_exec rfl
  have hapart := (h plainSpec (leftTooSoon ++ [.respond 0 true ""])).at hrun _ _ rfl
  have hbaseline := (hapart.foreign 0 true "" rfl _ rfl (.inr (by decide))).1
  cases hbaseline

end CampusAuth.Frontend
