import CampusAuth.Frontend.Autosave

/- What a step of the autosave controller can do (`Does`), and what every run keeps about the
   requests: their numbers ascend, and the one in flight is the newest while it waits for its
   answer (`Flight`). -/
namespace CampusAuth.Frontend
open Lib

variable {Draft Print : Type} {spec : AutosaveSpec Draft Print} {s t : Editor Draft Print}
  {e : Action Draft}
  {os : List (Notice Print)} {d : Draft} {i : Nat} {r : Request Print}

/-! ## Kinds of steps -/

/-- The action runs a save of the draft, detached or not; only leaving it flushes it. -/
inductive Runs : Action Draft → (detached flushed flushed' : Bool) → Prop
  | expire {f : Bool} : Runs .expire false f f
  | saveNow {f : Bool} : Runs .saveNow false f f
  | close {f : Bool} : Runs (.flush .close) false f f
  | switch {f : Bool} : Runs (.flush .switch) true f true

/-- The debounce is over, and the draft may have been flushed. -/
def Editor.stopped (s : Editor Draft Print) (f : Bool) : Editor Draft Print :=
  { s with timer := false, pendingChanges := false, flushed := f }

section
variable [DecidableEq Draft] [DecidableEq Print]

/-- Every kind of step, with what it was taken under. -/
inductive Does (spec : AutosaveSpec Draft Print) (s : Editor Draft Print) :
    Action Draft → Editor Draft Print → List (Notice Print) → Prop
  | edit {old d : Draft} : s.draft = some old → Does spec s (.edit d) (s.edit spec old d) []
  | watch : s.watching = true → Does spec s .watch (s.watch spec) []
  | noDraft {e : Action Draft} {p : Bool} : e = .expire ∨ (∃ reason, e = .flush reason) →
      s.draft = none →
      Does spec s e { s with timer := false, pendingChanges := p } []
  /-- A flush has nothing to do. -/
  | flushed {reason : FlushReason} {d : Draft} : s.draft = some d → s.pendingChanges = false →
      spec.fingerprintOf d = s.lastSavedFingerprint →
      Does spec s (.flush reason)
        { s with timer := false, flushed := s.leaving spec d reason } []
  /-- A flush finds the draft blocked. -/
  | blocked {reason : FlushReason} {d : Draft} {os : List (Notice Print)} : s.draft = some d →
      (spec.blockReasonOf d).isSome = true → (∀ n m, .persist n m ∉ os) →
      Does spec s (.flush reason) (s.stopped s.flushed) os
  /-- A save has nothing to send. -/
  | settled {e : Action Draft} {d : Draft} {detached f : Bool} : Runs e detached s.flushed f →
      s.draft = some d →
      (∀ reason, e = .flush reason → spec.blockReasonOf d = none ∧
        (s.pendingChanges = false → spec.fingerprintOf d ≠ s.lastSavedFingerprint)) →
      ((spec.blockReasonOf d).isSome = true ∨ spec.fingerprintOf d = s.lastSavedFingerprint) →
      Does spec s e ((s.stopped f).settle detached) []
  /-- The same payload is on its way. -/
  | underway {e : Action Draft} {d : Draft} {detached f : Bool} {n : Nat} {mark : Print} :
      Runs e detached s.flushed f → s.draft = some d → spec.blockReasonOf d = none →
      spec.fingerprintOf d = some mark → s.inFlight = some (n, mark) → Does spec s e (s.stopped f) []
  | sent {e : Action Draft} {d : Draft} {detached f : Bool} {mark : Print} :
      Runs e detached s.flushed f → s.draft = some d → spec.blockReasonOf d = none →
      spec.fingerprintOf d = some mark → some mark ≠ s.lastSavedFingerprint →
      (∀ n, s.inFlight ≠ some (n, mark)) →
      Does spec s e ((s.stopped f).send mark detached) [.persist s.number mark]
  | opened {d : Draft} {saved : Bool} : Does spec s (.opened d saved) (s.opened spec d saved) []
  | clear : Does spec s .clear { s.resetMachine with draft := none, watching := true } []
  | write {i : Nat} {r : Request Print} : s.requests[i]? = some r → r.answer = none →
      r.written = false → Does spec s (.write i) (s.wrote i r) []
  | succeeded {i : Nat} {r : Request Print} {message : String} : s.requests[i]? = some r →
      r.answer = none → r.written = true →
      Does spec s (.respond i true message) ((s.answered i r true).succeeded spec r) []
  | failed {i : Nat} {r : Request Print} {message : String} : s.requests[i]? = some r →
      r.answer = none →
      Does spec s (.respond i false message) ((s.answered i r false).failed spec r message).1
        ((s.answered i r false).failed spec r message).2

theorem does_of_run {detached f : Bool} (hruns : Runs e detached s.flushed f)
    (hd : s.draft = some d)
    (hflush : ∀ reason, e = .flush reason → spec.blockReasonOf d = none ∧
      (s.pendingChanges = false → spec.fingerprintOf d ≠ s.lastSavedFingerprint))
    (h : Editor.run spec (s.stopped f) d detached = (t, os)) : Does spec s e t os := by
  unfold Editor.run at h
  split at h
  next hblocked =>
    cases h
    exact .settled hruns hd hflush (.inl hblocked)
  next hfree =>
    have hfree : spec.blockReasonOf d = none := by simpa using hfree
    split at h
    next hnone =>
      have hsome := spec.payload d hfree
      rw [hnone] at hsome
      cases hsome
    next mark hmark =>
      split at h
      next hsaved =>
        cases h
        exact .settled hruns hd hflush (.inr (hmark.trans hsaved))
      next hchanged =>
        split at h
        next hunderway =>
          cases h
          obtain ⟨⟨n, m⟩, hflight, heq⟩ := (Option.any_eq_true ..).mp hunderway
          have heq : m = mark := by simpa using heq
          exact .underway hruns hd hfree hmark (heq ▸ hflight)
        next hfresh =>
          cases h
          refine .sent hruns hd hfree hmark hchanged fun n hflight => hfresh ?_
          have hflight : (s.stopped f).inFlight = some (n, mark) := hflight
          rw [hflight]
          simp

theorem pending_cases (h : s.pending i = some r) :
    s.requests[i]? = some r ∧ r.answer = none := by
  obtain ⟨hat, hanswer⟩ := Option.filter_eq_some_iff.mp h
  exact ⟨hat, by simpa using hanswer⟩

theorem does_of_flush {reason : FlushReason} (hd : s.draft = some d)
    (h : Editor.flush spec { s with flushed := s.leaving spec d reason } d reason = (t, os)) :
    Does spec s (.flush reason) t os := by
  unfold Editor.flush at h
  split at h
  next hnothing =>
    cases h
    simp only [Bool.and_eq_true, Bool.not_eq_true', decide_eq_true_eq] at hnothing
    exact .flushed hd hnothing.1 hnothing.2
  next hsomething =>
    have hflush : s.pendingChanges = false → spec.fingerprintOf d ≠ s.lastSavedFingerprint := by
      intro hpending heq
      exact hsomething (by simp [hpending, heq])
    split at h
    next reasonText hblocked =>
      cases h
      have hsame : s.leaving spec d reason = s.flushed := by simp [Editor.leaving, hblocked]
      rw [hsame]
      refine .blocked hd (by rw [hblocked]; rfl) ?_
      split
      all_goals simp
    next hfree =>
      cases reason with
      | switch =>
        have hleaving : s.leaving spec d .switch = true := by simp [Editor.leaving, hfree]
        rw [hleaving] at h
        exact does_of_run .switch hd (fun _ _ => ⟨hfree, hflush⟩) h
      | close => exact does_of_run .close hd (fun _ _ => ⟨hfree, hflush⟩) h

theorem does_of_step (h : Editor.step spec s e = some (t, os)) : Does spec s e t os := by
  cases e with
  | edit d =>
    obtain ⟨old, hold, heq⟩ := Option.map_eq_some_iff.mp h
    cases heq
    exact .edit hold
  | watch =>
    simp only [Editor.step] at h
    split at h
    next hwatching =>
      cases h
      exact .watch hwatching
    · cases h
  | expire =>
    simp only [Editor.step] at h
    split at h
    next =>
      split at h
      next hnone =>
        cases h
        exact .noDraft (.inl rfl) hnone
      next d hd => exact does_of_run .expire hd (by intro reason he; cases he) (Option.some.inj h)
    · cases h
  | saveNow =>
    obtain ⟨d, hd, heq⟩ := Option.map_eq_some_iff.mp h
    exact does_of_run .saveNow hd (by intro reason he; cases he) heq
  | flush reason =>
    simp only [Editor.step] at h
    split at h
    next hnone =>
      cases h
      exact .noDraft (.inr ⟨reason, rfl⟩) hnone
    next d hd => exact does_of_flush hd (Option.some.inj h)
  | opened d saved =>
    cases h
    exact .opened
  | clear =>
    cases h
    exact .clear
  | write i =>
    simp only [Editor.step] at h
    split at h
    next r hr =>
      obtain ⟨hat, hanswer⟩ := pending_cases hr
      split at h
      · cases h
      next hwritten =>
        cases h
        exact .write hat hanswer (by simpa using hwritten)
    · cases h
  | respond i ok message =>
    simp only [Editor.step] at h
    split at h
    next r hr =>
      obtain ⟨hat, hanswer⟩ := pending_cases hr
      split at h
      next hok =>
        subst hok
        split at h
        next hwritten =>
          cases h
          exact .succeeded hat hanswer hwritten
        · cases h
      next hfailed =>
        have hfailed : ok = false := by simpa using hfailed
        subst hfailed
        have heq : (s.answered i r false).failed spec r message = (t, os) := Option.some.inj h
        have hdoes : Does spec s (.respond i false message) _ _ := .failed hat hanswer
        rwa [heq] at hdoes
    · cases h

/-- What an answer does. -/
theorem respond_cases {ok : Bool} {message : String}
    (h : Does spec s (.respond i ok message) t os) : ∃ r, s.requests[i]? = some r ∧
      r.answer = none ∧ ((ok = true ∧ t = (s.answered i r true).succeeded spec r) ∨
        (ok = false ∧ (t, os) = (s.answered i r false).failed spec r message)) := by
  cases h with
  | noDraft he =>
    rcases he with he | ⟨_, he⟩
    · cases he
    · cases he
  | settled hruns | underway hruns | sent hruns => cases hruns
  | succeeded hat hanswer => exact ⟨_, hat, hanswer, .inl ⟨rfl, rfl⟩⟩
  | failed hat hanswer => exact ⟨_, hat, hanswer, .inr ⟨rfl, rfl⟩⟩

/-- What a step that sends has found. -/
theorem persist_cases {n : Nat} {m : Print} (h : Does spec s e t os) (hsent : .persist n m ∈ os) :
    n = s.number ∧ ∃ d detached f, Runs e detached s.flushed f ∧ s.draft = some d ∧
      spec.fingerprintOf d = some m ∧ some m ≠ s.lastSavedFingerprint ∧
      ∀ k, s.inFlight ≠ some (k, m) := by
  cases h with
  | sent hruns hd hfree hmark hchanged hfresh =>
    cases List.mem_singleton.mp hsent
    exact ⟨rfl, _, _, _, hruns, hd, hmark, hchanged, hfresh⟩
  | blocked hd hblocked hnone => exact absurd hsent (hnone n m)
  | @failed i r message =>
    revert hsent
    unfold Editor.failed
    repeat' split
    all_goals simp
  | _ => cases hsent

end

/-! ## The request in flight -/

/-- No request has a higher number. -/
def Editor.Newest (s : Editor Draft Print) (r : Request Print) : Prop :=
  Pool.All (fun _ other => other.seq ≤ r.seq) s.requests

structure Flight (s : Editor Draft Print) : Prop where
  distinct : ∀ (i j : Nat) (a b : Request Print), s.requests[i]? = some a → s.requests[j]? = some b →
    a.seq = b.seq → i = j
  bound : Pool.All (fun _ r => r.seq ≤ s.seq) s.requests
  flight : ∀ n m, s.inFlight = some (n, m) → ∃ (i : Nat) (r : Request Print),
    s.requests[i]? = some r ∧ r.seq = n ∧
    r.mark = m ∧ r.answer = none ∧ s.Newest r
  newest : Pool.All (fun _ r => r.answer = none → s.Newest r →
    s.inFlight = some (r.seq, r.mark)) s.requests

theorem flight_empty : Flight ({} : Editor Draft Print) where
  distinct := by intro i j a b ha; cases (List.getElem?_nil.symm.trans ha)
  bound := .nil
  flight := by intro n m h; cases h
  newest := .nil

/-- A step that leaves the requests and does not lower the number. -/
theorem Flight.frame (hs : Flight s) (hrequests : t.requests = s.requests)
    (hflight : t.inFlight = s.inFlight) (hseq : s.seq ≤ t.seq) : Flight t := by
  obtain ⟨hdistinct, hbound, hfl, hnewest⟩ := hs
  unfold Editor.Newest at hfl hnewest
  rw [← hrequests] at hdistinct hbound hfl hnewest
  rw [← hflight] at hfl hnewest
  exact ⟨hdistinct, hbound.imp fun _ _ hle => Nat.le_trans hle hseq, hfl, hnewest⟩

theorem Flight.sent (hs : Flight s) (mark : Print) (detached : Bool) :
    Flight (s.send mark detached) := by
  have hnew : (s.send mark detached).Newest
      { draft := s.number, seq := s.seq + 1, mark, detached } :=
    hs.bound.spawn (fun _ _ hle => Nat.le_succ_of_le hle) (Nat.le_refl _)
  have hat : (s.send mark detached).requests[s.requests.length]? =
      some { draft := s.number, seq := s.seq + 1, mark, detached } := List.getElem?_concat_length
  refine ⟨fun i j a b ha hb heq => ?_,
    hs.bound.spawn (fun _ _ hle => Nat.le_succ_of_le hle) (Nat.le_refl _), ?_, ?_⟩
  · rcases Pool.of_spawn ha with ha | ⟨rfl, rfl⟩ <;> rcases Pool.of_spawn hb with hb | ⟨rfl, rfl⟩
    · exact hs.distinct i j a b ha hb heq
    · have hle := hs.bound i a ha
      have heq : a.seq = s.seq + 1 := heq
      omega
    · have hle := hs.bound j b hb
      have heq : s.seq + 1 = b.seq := heq
      omega
    · rfl
  · intro n m h
    cases h
    exact ⟨_, _, hat, rfl, rfl, rfl, hnew⟩
  · intro i r hr _ hnewest
    rcases Pool.of_spawn hr with hold | ⟨-, rfl⟩
    · -- An older request is not the newest any more.
      have hle := hnewest _ _ hat
      have hle : s.seq + 1 ≤ r.seq := hle
      have := hs.bound i r hold
      omega
    · rfl

/-- A move of one request that keeps its number leaves what is newest. -/
theorem newest_set (hat : s.requests[i]? = some r) {b : Request Print} (hseq : b.seq = r.seq)
    (hrequests : t.requests = s.requests.set i b) (a : Request Print) :
    t.Newest a ↔ s.Newest a := by
  unfold Editor.Newest
  rw [hrequests]
  constructor
  · intro h j other hother
    by_cases hij : i = j
    · subst hij
      rw [hat] at hother
      cases hother
      have hself : b.seq ≤ a.seq := h i b (List.getElem?_set_self (List.getElem?_eq_some_iff.mp hat).1)
      rwa [hseq] at hself
    · exact h j other ((List.getElem?_set_ne hij).trans hother)
  · intro h
    exact h.set (fun _ _ _ hle => hle) (Nat.le_trans (Nat.le_of_eq hseq) (h i r hat))

theorem distinct_set (hs : Flight s) (hat : s.requests[i]? = some r) {b : Request Print}
    (hseq : b.seq = r.seq) (j k : Nat) (a c : Request Print)
    (ha : (s.requests.set i b)[j]? = some a) (hc : (s.requests.set i b)[k]? = some c)
    (heq : a.seq = c.seq) : j = k := by
  rcases Pool.of_set ha with ⟨rfl, rfl⟩ | ⟨-, hja⟩ <;>
    rcases Pool.of_set hc with ⟨rfl, rfl⟩ | ⟨-, hkc⟩
  · rfl
  · exact hs.distinct j k r c hat hkc (hseq.symm.trans heq)
  · exact hs.distinct j k a r hja hat (heq.trans hseq)
  · exact hs.distinct j k a c hja hkc heq

theorem Flight.wrote (hs : Flight s) (hat : s.requests[i]? = some r) : Flight (s.wrote i r) := by
  have hnewest := newest_set (t := s.wrote i r) hat (b := { r with written := true }) rfl rfl
  refine ⟨distinct_set hs hat rfl, hs.bound.set (fun _ _ _ hle => hle) (hs.bound i r hat), ?_, ?_⟩
  · intro n m h
    obtain ⟨j, a, ha, hseq, hmark, hanswer, hnew⟩ := hs.flight n m h
    by_cases hij : i = j
    · subst hij
      rw [hat] at ha
      cases ha
      exact ⟨i, _, List.getElem?_set_self (List.getElem?_eq_some_iff.mp hat).1, hseq, hmark, hanswer,
        (hnewest _).mpr hnew⟩
    · exact ⟨j, a, (List.getElem?_set_ne hij).trans ha, hseq, hmark, hanswer, (hnewest a).mpr hnew⟩
  · exact hs.newest.set (fun j a _ hold hanswer hnew => hold hanswer ((hnewest a).mp hnew))
      fun hanswer hnew => hs.newest i r hat hanswer ((hnewest _).mp hnew)

theorem Flight.answered (hs : Flight s) (hat : s.requests[i]? = some r) (ok : Bool) :
    Flight (s.answered i r ok) := by
  have hnewest := newest_set (t := s.answered i r ok) hat (b := { r with answer := some ok }) rfl rfl
  refine ⟨distinct_set hs hat rfl, hs.bound.set (fun _ _ _ hle => hle) (hs.bound i r hat), ?_, ?_⟩
  · intro n m h
    obtain ⟨hflight, hne⟩ := Option.filter_eq_some_iff.mp h
    have hne : n ≠ r.seq := by simpa using hne
    obtain ⟨j, a, ha, hseq, hmark, hanswer, hnew⟩ := hs.flight n m hflight
    have hij : i ≠ j := by
      rintro rfl
      rw [hat] at ha
      cases ha
      exact hne hseq.symm
    exact ⟨j, a, (List.getElem?_set_ne hij).trans ha, hseq, hmark, hanswer, (hnewest a).mpr hnew⟩
  · intro j a ha hanswer hnew
    rcases Pool.of_set ha with ⟨-, rfl⟩ | ⟨hne, ha⟩
    · cases hanswer
    · have hflight := hs.newest j a ha hanswer ((hnewest a).mp hnew)
      refine Option.filter_eq_some_iff.mpr ⟨hflight, ?_⟩
      have hseq : a.seq ≠ r.seq := fun heq => hne (hs.distinct j i a r ha hat heq)
      simpa using hseq

/-- `t` is `s` but for the draft and the watcher, and its draft has the payload of that of `s`. -/
structure SamePayload (spec : AutosaveSpec Draft Print) (s t : Editor Draft Print) : Prop where
  same : ∃ draft watching, t = { s with draft, watching }
  isSome : t.draft.isSome = s.draft.isSome
  payload : ∀ d, t.draft = some d → ∃ old, s.draft = some old ∧
    spec.fingerprintOf d = spec.fingerprintOf old

theorem onSaved_samePayload [DecidableEq Draft] (s : Editor Draft Print) (r : Request Print) :
    SamePayload spec s (s.onSaved spec r) := by
  unfold Editor.onSaved
  split
  · exact ⟨⟨s.draft, s.watching, rfl⟩, rfl, fun d hd => ⟨d, hd, rfl⟩⟩
  next old hold =>
    split
    · exact ⟨⟨s.draft, s.watching, rfl⟩, rfl, fun d hd => ⟨d, hd, rfl⟩⟩
    · refine ⟨⟨_, _, rfl⟩, by rw [hold]; rfl, fun d hd => ⟨old, hold, ?_⟩⟩
      cases hd
      exact spec.onSaved_payload old

theorem Flight.step [DecidableEq Draft] [DecidableEq Print] (hs : Flight s)
    (h : Does spec s e t os) : Flight t := by
  cases h with
  | edit | noDraft | flushed | blocked | underway => exact hs.frame rfl rfl (Nat.le_refl _)
  | watch =>
    unfold Editor.watch
    split
    · exact hs.frame rfl rfl (Nat.le_refl _)
    · split
      · exact hs.frame rfl rfl (Nat.le_refl _)
      · exact hs.frame rfl rfl (Nat.le_refl _)
  | settled =>
    unfold Editor.settle
    split
    · exact hs.frame rfl rfl (Nat.le_refl _)
    · exact hs.frame rfl rfl (Nat.le_refl _)
  | @sent _ _ detached f mark =>
    have hstopped : Flight (s.stopped f) := hs.frame rfl rfl (Nat.le_refl _)
    exact hstopped.sent mark detached
  | opened =>
    unfold Editor.opened
    split
    · exact hs.frame rfl rfl (Nat.le_refl _)
    · exact hs.frame rfl rfl (Nat.le_succ _)
  | clear => exact hs.frame rfl rfl (Nat.le_succ _)
  | write hat => exact hs.wrote hat
  | @succeeded i r _ hat =>
    obtain ⟨draft, watching, heq⟩ := (onSaved_samePayload (s.answered i r true) r : SamePayload spec _ _).same
    unfold Editor.succeeded
    rw [heq]
    split
    · exact (hs.answered hat true).frame rfl rfl (Nat.le_refl _)
    · exact (hs.answered hat true).frame rfl rfl (Nat.le_refl _)
  | failed hat =>
    unfold Editor.failed
    repeat' split
    all_goals exact (hs.answered hat false).frame rfl rfl (Nat.le_refl _)

end CampusAuth.Frontend
