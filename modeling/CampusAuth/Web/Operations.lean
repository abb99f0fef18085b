import CampusAuth.Lib.Machine
import CampusAuth.Lib.Pool
import CampusAuth.Lib.Assoc

/- The registry of long web operations (`web/operations.rs`): a capacity, cancellation tokens,
   pausing, and the guard whose drop takes the entry out again.

   A registration is its number; the token in the map is the token of the registration it was
   made with, so an entry is an id with that number. A drop takes two moments, the token before
   the lock and the entry under it, and anything may fall in between.

   A drained registration has no entry any more, but its drop removes whatever stands under its
   id. Where that is nothing or its own entry the registry keeps its promises
   (`registry_lawful_iff`); `reused_id_is_freed` is the run where it is another's. -/
namespace CampusAuth.Web
open Lib

inductive RegisterError where
  | paused
  | capacityReached
  | duplicateId
  deriving DecidableEq, Repr

inductive Stage where
  | live
  /-- The drop has cancelled the token and has yet to take the lock. -/
  | dropping
  | dropped
  deriving DecidableEq, Repr

/-- `OperationRegistration`, with its token. -/
structure Registration where
  id : String
  cancelled : Bool := false
  cancelAction : Bool := false
  finished : Bool := false
  stage : Stage := .live
  deriving DecidableEq, Repr

/-- The registration is alive and its token is not cancelled. -/
def Registration.active (r : Registration) : Bool := r.stage == .live && !r.cancelled

/-- `OperationRegistry` with all registrations ever made, and how many guards of a pause live. -/
structure Registry where
  capacity : Option Nat
  operations : List (String × Nat) := []
  pauseDepth : Nat := 0
  registrations : Pool Registration := []
  guards : Nat := 0
  deriving DecidableEq, Repr

inductive Op where
  | register (id : String)
  | withCancelAction (i : Nat)
  | finish (i : Nat)
  | drop (i : Nat)
  /-- The drop of registration `i` has the lock. -/
  | remove (i : Nat)
  | pauseAndDrain
  | dropPaused
  deriving DecidableEq, Repr

inductive Reply where
  | registered (i : Nat)
  | refused (error : RegisterError)
  /-- The cancel action is called with the id. -/
  | acted (id : String)
  /-- The ids of the pause. -/
  | drained (ids : List String)
  deriving DecidableEq, Repr

namespace Registry

def register (s : Registry) (id : String) : Registry × List Reply :=
  if s.pauseDepth > 0 then (s, [.refused .paused])
  else if (s.operations.lookup id).isSome then (s, [.refused .duplicateId])
  else if s.capacity.any (s.operations.length ≥ ·) then (s, [.refused .capacityReached])
  else ({ s with operations := (id, s.registrations.length) :: s.operations
                 registrations := s.registrations ++ [{ id }] },
    [.registered s.registrations.length])

/-- Depths are counted in a `usize` and saturate. -/
def pauseAndDrain (s : Registry) : Registry × List Reply :=
  ({ s with operations := []
            pauseDepth := min (s.pauseDepth + 1) (UInt64.size - 1)
            registrations := s.registrations.mapIdx fun i r =>
              if s.operations.any (·.2 == i) then { r with cancelled := true } else r
            guards := s.guards + 1 },
    [.drained (s.operations.map (·.1))])

/-- The drop of a live registration up to the lock. -/
def drop (s : Registry) (i : Nat) (r : Registration) : Registry × List Reply :=
  ({ s with registrations := s.registrations.set i { r with cancelled := true, stage := .dropping } },
    if !r.finished && r.cancelAction then [.acted r.id] else [])

def remove (s : Registry) (i : Nat) (r : Registration) : Registry :=
  { s with operations := s.operations.filter (·.1 ≠ r.id)
           registrations := s.registrations.set i { r with stage := .dropped } }

/-- Registration `i`, if it is alive. -/
def live (s : Registry) (i : Nat) : Option Registration :=
  (s.registrations[i]?).filter (·.stage == .live)

/-- Registration `i`, if its drop waits for the lock. -/
def dropping (s : Registry) (i : Nat) : Option Registration :=
  (s.registrations[i]?).filter (·.stage == .dropping)

def step (s : Registry) : Op → Option (Registry × List Reply)
  | .register id => some (s.register id)
  | .withCancelAction i => (s.live i).map fun r =>
    ({ s with registrations := s.registrations.set i { r with cancelAction := true } }, [])
  | .finish i => (s.live i).map fun r => s.drop i { r with finished := true }
  | .drop i => (s.live i).map (s.drop i)
  | .remove i => (s.dropping i).map fun r => (s.remove i r, [])
  | .pauseAndDrain => some s.pauseAndDrain
  | .dropPaused =>
    if s.guards = 0 then none
    else some ({ s with pauseDepth := s.pauseDepth - 1, guards := s.guards - 1 }, [])

end Registry

def registryMachine : Machine Registry Op Reply := ⟨Registry.step⟩

def newRegistry (capacity : Option Nat) : Registry := { capacity }

/-! ## What the registry promises -/

/-- The step `e` from `s` to `t` keeps the promises of the registry. -/
structure Lawful (s : Registry) (e : Op) (t : Registry) (os : List Reply) : Prop where
  /-- The capacity bounds the live registrations that are not cancelled. -/
  capacity : ∀ c, t.capacity = some c → t.registrations.countP Registration.active ≤ c
  /-- A drop frees its own entry only. -/
  frees : ∀ i, e ∈ [.finish i, .drop i, .remove i] → ∀ entry ∈ s.operations, entry.2 ≠ i →
    entry ∈ t.operations
  /-- A pause cancels and reports every live registration that was not cancelled. -/
  drains : e = .pauseAndDrain → ∀ (i : Nat) (r : Registration),
    s.registrations[i]? = some r → r.active = true →
    (∃ r' : Registration, t.registrations[i]? = some r' ∧ r'.cancelled = true) ∧
      ∃ ids, os = [.drained ids] ∧ r.id ∈ ids

/-- A drop that has the lock finds its own entry under its id, or none. -/
def OwnEntry (s : Registry) : Op → Prop
  | .remove i => ∀ r j, s.dropping i = some r → s.operations.lookup r.id = some j → j = i
  | _ => True

/-! ## Entries and registrations -/

/-- Every entry is of a registration with its id, and every live registration that is not
    cancelled has its entry. -/
structure Registered (s : Registry) : Prop where
  keys : (s.operations.map (·.1)).Nodup
  entries : ∀ id i, (id, i) ∈ s.operations → ∃ r, s.registrations[i]? = some r ∧ r.id = id
  active : Pool.All (fun i r => r.active = true → (r.id, i) ∈ s.operations) s.registrations
  bound : ∀ c, s.capacity = some c → s.operations.length ≤ c

theorem registered_new (capacity : Option Nat) : Registered (newRegistry capacity) where
  keys := .nil
  entries := by intro id i h; cases h
  active := .nil
  bound := fun _ _ => Nat.zero_le _

variable {s t : Registry} {e : Op} {os : List Reply} {i : Nat} {r : Registration}

theorem Registered.countP_le (hs : Registered s) {c : Nat} (hc : s.capacity = some c) :
    s.registrations.countP Registration.active ≤ c := by
  have hcount : s.registrations.countP Registration.active ≤ (s.operations.map (·.2)).length :=
    Pool.countP_le_length fun i r hr hactive => List.mem_map.mpr ⟨_, hs.active i r hr hactive, rfl⟩
  rw [List.length_map] at hcount
  exact Nat.le_trans hcount (hs.bound c hc)

theorem live_cases (h : s.live i = some r) : s.registrations[i]? = some r ∧ r.stage = .live := by
  obtain ⟨hat, hstage⟩ := Option.filter_eq_some_iff.mp h
  exact ⟨hat, eq_of_beq hstage⟩

theorem dropping_cases (h : s.dropping i = some r) :
    s.registrations[i]? = some r ∧ r.stage = .dropping := by
  obtain ⟨hat, hstage⟩ := Option.filter_eq_some_iff.mp h
  exact ⟨hat, eq_of_beq hstage⟩

/-- What a registration turns into keeps its id. -/
theorem Registered.move (hs : Registered s) (hat : s.registrations[i]? = some r)
    {r' : Registration} (hid : r'.id = r.id) (hactive : r'.active = true → r.active = true) :
    Registered { s with registrations := s.registrations.set i r' } where
  keys := hs.keys
  entries := by
    intro id j hmem
    obtain ⟨other, hother, rfl⟩ := hs.entries id j hmem
    by_cases hij : i = j
    · subst hij
      rw [hat] at hother
      cases hother
      exact ⟨r', List.getElem?_set_self (List.getElem?_eq_some_iff.mp hat).1, hid⟩
    · exact ⟨other, (List.getElem?_set_ne hij).trans hother, rfl⟩
  active := hs.active.set (fun _ _ _ hold => hold) fun h => by
    rw [hid]
    exact hs.active i r hat (hactive h)
  bound := hs.bound

theorem Registered.register (hs : Registered s) (id : String) : Registered (s.register id).1 := by
  unfold Registry.register
  split
  · exact hs
  split
  · exact hs
  split
  · exact hs
  next hfresh hroom =>
    have hnone : ∀ i, (id, i) ∉ s.operations := fun i hmem => by
      have hsome := lookup_isSome_of_any (List.any_eq_true.mpr ⟨_, hmem, beq_self_eq_true id⟩)
      exact hfresh hsome
    refine ⟨?_, ?_, ?_, ?_⟩
    · refine List.nodup_cons.mpr ⟨fun hmem => ?_, hs.keys⟩
      obtain ⟨entry, hentry, rfl⟩ := List.mem_map.mp hmem
      exact hnone entry.2 hentry
    · intro id' j hmem
      rcases List.mem_cons.mp hmem with heq | hmem
      · cases heq
        exact ⟨{ id }, List.getElem?_concat_length, rfl⟩
      · obtain ⟨other, hother, hid⟩ := hs.entries id' j hmem
        have hlt := (List.getElem?_eq_some_iff.mp hother).1
        exact ⟨other, (List.getElem?_append_left hlt).trans hother, hid⟩
    · exact hs.active.spawn (fun j other hold h => List.mem_cons_of_mem _ (hold h))
        fun _ => List.mem_cons_self
    · intro c hc
      rw [hc] at hroom
      simpa [Nat.succ_le_iff] using hroom

theorem Registered.pauseAndDrain (hs : Registered s) : Registered s.pauseAndDrain.1 where
  keys := .nil
  entries := by intro id j h; cases h
  active := by
    intro j r' hr' hactive
    -- What is active still had its entry, and its entry was drained.
    obtain ⟨r, hr, rfl⟩ := Option.map_eq_some_iff.mp (List.getElem?_mapIdx.symm.trans hr')
    split at hactive
    · simp [Registration.active] at hactive
    next hnone => exact absurd (List.any_eq_true.mpr ⟨_, hs.active j r hr hactive, by simp⟩) hnone
  bound := fun _ _ => Nat.zero_le _

theorem Registered.remove (hs : Registered s) (hr : s.dropping i = some r)
    (hown : OwnEntry s (.remove i)) : Registered (s.remove i r) := by
  obtain ⟨hat, hstage⟩ := dropping_cases hr
  have hmoved : Registered { s with registrations := s.registrations.set i { r with stage := .dropped } } :=
    hs.move hat rfl (by simp [Registration.active])
  refine ⟨hs.keys.sublist (List.Sublist.map _ List.filter_sublist), ?_, ?_, ?_⟩
  · intro id j hmem
    exact hmoved.entries id j (List.mem_of_mem_filter hmem)
  · intro j other hother hactive
    have hmem := hmoved.active j other hother hactive
    refine List.mem_filter.mpr ⟨hmem, ?_⟩
    -- Another one with the id would be the entry that the drop finds.
    have hne : other.id ≠ r.id := by
      intro hid
      have hji := hown r j hr (lookup_of_mem hs.keys (hid ▸ hmem))
      subst hji
      have hself : (s.remove j r).registrations[j]? = some { r with stage := .dropped } :=
        List.getElem?_set_self (List.getElem?_eq_some_iff.mp hat).1
      rw [hself] at hother
      cases hother
      simp [Registration.active] at hactive
    simpa using hne
  · exact fun c hc => Nat.le_trans (List.length_filter_le _ _) (hs.bound c hc)

theorem Registered.step (hs : Registered s) (hown : OwnEntry s e) (h : s.step e = some (t, os)) :
    Registered t := by
  cases e with
  | register id =>
    have heq : s.register id = (t, os) := Option.some.inj h
    have ht := hs.register id
    rwa [heq] at ht
  | withCancelAction i =>
    obtain ⟨r, hr, heq⟩ := Option.map_eq_some_iff.mp h
    cases heq
    exact hs.move (live_cases hr).1 rfl id
  | finish i | drop i =>
    obtain ⟨r, hr, heq⟩ := Option.map_eq_some_iff.mp h
    cases heq
    exact hs.move (live_cases hr).1 rfl (by simp [Registration.active])
  | remove i =>
    obtain ⟨r, hr, heq⟩ := Option.map_eq_some_iff.mp h
    cases heq
    exact hs.remove hr hown
  | pauseAndDrain =>
    cases h
    exact hs.pauseAndDrain
  | dropPaused =>
    simp only [Registry.step] at h
    split at h <;> cases h
    exact ⟨hs.keys, hs.entries, hs.active, hs.bound⟩

/-! ## The promises over every run -/

/-- A pause drains whatever is registered. -/
theorem drains_of_registered (hs : Registered s) (hat : s.registrations[i]? = some r)
    (hactive : r.active = true) :
    (∃ r' : Registration, s.pauseAndDrain.1.registrations[i]? = some r' ∧ r'.cancelled = true) ∧
      r.id ∈ s.operations.map (·.1) := by
  have hmem := hs.active i r hat hactive
  have hany : s.operations.any (·.2 == i) = true := List.any_eq_true.mpr ⟨_, hmem, by simp⟩
  refine ⟨⟨{ r with cancelled := true }, ?_, rfl⟩, List.mem_map.mpr ⟨_, hmem, rfl⟩⟩
  exact (List.getElem?_mapIdx ..).trans (by rw [hat, Option.map_some, if_pos hany])

theorem lawful_of_own (hs : Registered s) (hown : OwnEntry s e) (h : s.step e = some (t, os)) :
    Lawful s e t os where
  capacity := fun c hc => (hs.step hown h).countP_le hc
  frees := by
    intro i he entry hentry hne
    simp only [List.mem_cons, List.not_mem_nil, or_false] at he
    rcases he with rfl | rfl | rfl
    · obtain ⟨r, -, heq⟩ := Option.map_eq_some_iff.mp h
      cases heq
      exact hentry
    · obtain ⟨r, -, heq⟩ := Option.map_eq_some_iff.mp h
      cases heq
      exact hentry
    · obtain ⟨r, hr, heq⟩ := Option.map_eq_some_iff.mp h
      cases heq
      refine List.mem_filter.mpr ⟨hentry, ?_⟩
      have hid : entry.1 ≠ r.id := fun hid =>
        hne (hown r entry.2 hr (lookup_of_mem hs.keys (hid ▸ hentry)))
      simpa using hid
  drains := by
    rintro rfl i r hat hactive
    cases h
    obtain ⟨hcancelled, hreported⟩ := drains_of_registered hs hat hactive
    exact ⟨hcancelled, _, rfl, hreported⟩

/-- The registry is lawful at a step exactly when a drop does not find another's entry. -/
theorem own_iff_lawful (hs : Registered s) :
    OwnEntry s e ↔ ∀ t os, s.step e = some (t, os) → Lawful s e t os := by
  refine ⟨fun hown t os h => lawful_of_own hs hown h, fun hlawful => ?_⟩
  cases e with
  | remove i =>
    intro r j hr hlookup
    by_contra hne
    -- The entry is gone, and it was not the registration's own.
    have hlaw := hlawful (s.remove i r) [] (by simp [Registry.step, hr])
    have hkept := hlaw.frees i (by simp) (r.id, j) (mem_of_lookup hlookup) hne
    have hgone := (List.mem_filter.mp hkept).2
    simp at hgone
  | _ => trivial

/-- Over every run the registry keeps its promises at each step exactly when no drop finds
    another registration's entry under its id. -/
theorem registry_lawful_iff (capacity : Option Nat) (es : List Op) :
    registryMachine.Along (fun s e => ∀ t os, s.step e = some (t, os) → Lawful s e t os)
        (newRegistry capacity) es ↔
      registryMachine.Along OwnEntry (newRegistry capacity) es :=
  (Machine.along_iff (I := Registered) (fun _ _ hs => own_iff_lawful hs)
    (fun _ _ _ _ hs hown hstep => hs.step hown hstep) (registered_new capacity)).symm

/-- An operation is drained, its id is taken again after the pause, and its end frees the entry
    of the second, so that a third one is let in. -/
def reused : List Op :=
  [.register "ocr", .pauseAndDrain, .dropPaused, .register "ocr", .drop 0, .remove 0]

theorem reused_id_is_freed : ¬∀ (capacity : Option Nat) (es : List Op),
    registryMachine.Along (fun s e => ∀ t os, s.step e = some (t, os) → Lawful s e t os)
      (newRegistry capacity) es := by
  intro h
  have hrun : registryMachine.Steps (newRegistry (some 1)) reused _ _ := Machine.steps_of_exec rfl
  have hlaw := (h (some 1) (reused ++ [.register "next"])).at hrun _ _ rfl
  exact absurd (hlaw.capacity 1 rfl) (by decide)

end CampusAuth.Web
