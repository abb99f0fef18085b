import Mathlib.Algebra.Order.Ring.Nat
import CampusAuth.Bridge.Session
import CampusAuth.Lib.Assoc
import CampusAuth.Lib.Since

/- Which tokens the registry of cancellations cancels over a whole run (`bridge/session.rs`,
   `CancelRegistry`).

   A cancellation that comes before the registration is kept for it, and one that comes after
   finds the token; what was removed is never cancelled by what came before (`honoured`). Two
   steps break this, and `Fits` is that neither is taken: `trigger_all` also drops the
   cancellations that are kept, and a lightweight token that is registered over a session token
   of the same id is not the one a trigger finds. -/
namespace CampusAuth.Bridge
open Lib

variable {τ : Type*}

/-! ## Runs -/

/-- An operation on the registry, or time that passes. -/
inductive RegistryOp (τ : Type*) where
  | register (cancelId : String) (token : τ) (lightweight : Bool)
  | trigger (cancelId : String)
  | triggerAll
  | remove (cancelId : String)
  | clear
  | advance (nanos : Nat)

namespace RegistryOp

def Registers (cancelId : String) (op : RegistryOp τ) : Prop :=
  ∃ token lightweight, op = .register cancelId token lightweight

/-- The id is removed, alone or with all others. -/
def Forgets (cancelId : String) (op : RegistryOp τ) : Prop := op = .remove cancelId ∨ op = .clear

/-- The session token of the id is no longer registered. -/
def EndsSession (cancelId : String) (op : RegistryOp τ) : Prop :=
  (∃ token, op = .register cancelId token false) ∨ op = .trigger cancelId ∨ op = .triggerAll ∨
    op.Forgets cancelId

def nanos : RegistryOp τ → Nat
  | .advance nanos => nanos
  | _ => 0

end RegistryOp

/-- The time that passes. -/
def elapsed (ops : List (RegistryOp τ)) : Nat := (ops.map RegistryOp.nanos).sum

/-- The registry and the clock. -/
structure TimedRegistry (τ : Type*) where
  now : Nat := 0
  registry : CancelRegistry τ := {}

/-- A token of the id is registered, of either kind. -/
def CancelRegistry.contains (registry : CancelRegistry τ) (cancelId : String) : Bool :=
  (registry.map.lookup cancelId).isSome || (registry.lightweight.lookup cancelId).isSome

namespace TimedRegistry

/-- An operation, and the tokens it cancels under their ids. -/
def step (s : TimedRegistry τ) : RegistryOp τ → TimedRegistry τ × List (String × τ)
  | .register cancelId token lightweight =>
    let after := s.registry.register s.now cancelId token lightweight
    ({ s with registry := after.1 }, after.2.map fun t => (cancelId, t))
  | .trigger cancelId =>
    let after := s.registry.trigger s.now cancelId
    ({ s with registry := after.1 }, after.2.map fun t => (cancelId, t))
  | .triggerAll => ({ s with registry := s.registry.triggerAll.1 }, s.registry.map)
  | .remove cancelId => ({ s with registry := s.registry.remove cancelId }, [])
  | .clear => ({ s with registry := CancelRegistry.clear }, [])
  | .advance nanos => ({ s with now := s.now + nanos }, [])

theorem triggerAll_tokens (s : TimedRegistry τ) :
    (s.step .triggerAll).2.map (·.2) = s.registry.triggerAll.2 := rfl

def exec (s : TimedRegistry τ) (ops : List (RegistryOp τ)) : TimedRegistry τ :=
  ops.foldl (fun s op => (s.step op).1) s

/-- What is cancelled on the way. -/
def cancelled (s : TimedRegistry τ) : List (RegistryOp τ) → List (String × τ)
  | [] => []
  | op :: ops => (s.step op).2 ++ cancelled (s.step op).1 ops

/-- The state after a run of an empty registry. -/
def reached (run : List (RegistryOp τ)) : TimedRegistry τ := exec {} run

end TimedRegistry

open TimedRegistry

/-! ## What is asked of a run -/

/-- A session token is registered and has not been taken out since. -/
def SessionToken (entry : String × τ) : List (RegistryOp τ) → Prop :=
  Since (· = .register entry.1 entry.2 false) (RegistryOp.EndsSession entry.1)

/-- The law of the registry, for every place in a run. -/
structure Honoured (run : List (RegistryOp τ)) : Prop where
  /-- A trigger reaches the token that is registered, before it or by it. -/
  later : ∀ before cancelId token lightweight between after,
    run = before ++ .register cancelId token lightweight ::
      (between ++ .trigger cancelId :: after) →
    (∀ op ∈ between, ¬op.Forgets cancelId ∧ ¬op.Registers cancelId) →
    (cancelId, token) ∈ (reached (before ++ [.register cancelId token lightweight])).cancelled
      (between ++ [.trigger cancelId])
  /-- A trigger that finds no token reaches the one that is registered within the time. -/
  earlier : ∀ before cancelId token lightweight between after,
    run = before ++ .trigger cancelId ::
      (between ++ .register cancelId token lightweight :: after) →
    (reached before).registry.contains cancelId = false →
    (∀ op ∈ between, ¬op.Forgets cancelId ∧ ¬op.Registers cancelId) →
    elapsed between < pendingTtl →
    (cancelId, token) ∈ ((reached (before ++ .trigger cancelId :: between)).step
      (.register cancelId token lightweight)).2
  /-- All session tokens are cancelled at once, and nothing else is. -/
  all : ∀ before after, run = before ++ .triggerAll :: after → ∀ entry,
    entry ∈ ((reached before).step .triggerAll).2 ↔ SessionToken entry before
  /-- What is cancelled after a removal was registered and is triggered after it. -/
  removed : ∀ before removal between op after entry,
    run = before ++ removal :: (between ++ op :: after) → removal.Forgets entry.1 →
    entry ∈ ((reached (before ++ removal :: between)).step op).2 →
    ((∃ lightweight, op = .register entry.1 entry.2 lightweight) ∧ .trigger entry.1 ∈ between) ∨
      ((op = .trigger entry.1 ∨ op = .triggerAll) ∧
        ∃ lightweight, .register entry.1 entry.2 lightweight ∈ between)

/-- No cancellation that is still kept is dropped with all others, and no lightweight token is
    registered over another session token of its id. -/
def RegistryOp.Fits (s : TimedRegistry τ) : RegistryOp τ → Prop
  | .triggerAll => ∀ p ∈ s.registry.pending, pendingTtl ≤ s.now - p.2
  | .register cancelId token true =>
    ∀ other, s.registry.map.lookup cancelId = some other → other = token
  | _ => True

/-- Every step fits the state it is taken in. -/
def Fits (run : List (RegistryOp τ)) : Prop :=
  ∀ before op after, run = before ++ op :: after → op.Fits (reached before)

/-! ## A token that is registered -/

section
variable {s : TimedRegistry τ} {cancelId : String} {token : τ} {op : RegistryOp τ}

/-- The next trigger of the id finds the token. -/
def Reaches (s : TimedRegistry τ) (cancelId : String) (token : τ) : Prop :=
  s.registry.map.lookup cancelId = some token ∨
    s.registry.map.lookup cancelId = none ∧ s.registry.lightweight.lookup cancelId = some token

theorem reaches_register {lightweight : Bool}
    (hfits : (RegistryOp.register cancelId token lightweight).Fits s) :
    Reaches (s.step (.register cancelId token lightweight)).1 cancelId token := by
  cases lightweight with
  | false => exact .inl (by simp [step, CancelRegistry.register])
  | true =>
    have hlight : (s.step (.register cancelId token true)).1.registry.lightweight.lookup cancelId =
        some token := by simp [step, CancelRegistry.register]
    cases hmap : s.registry.map.lookup cancelId with
    | none => exact .inr ⟨hmap, hlight⟩
    | some other => exact .inl (hmap.trans (congrArg some (hfits other hmap)))

theorem Reaches.triggered (h : Reaches s cancelId token) :
    (cancelId, token) ∈ (s.step (.trigger cancelId)).2 := by
  rcases h with hmap | ⟨hmap, hlight⟩
  · simp [step, CancelRegistry.trigger, hmap]
  · simp [step, CancelRegistry.trigger, hmap, hlight]

/-- The two kinds of tokens behind a registration of another id. -/
theorem lookup_register {other : String} {t : τ} {lightweight : Bool} (hne : cancelId ≠ other) :
    (s.registry.register s.now other t lightweight).1.map.lookup cancelId =
        s.registry.map.lookup cancelId ∧
      (s.registry.register s.now other t lightweight).1.lightweight.lookup cancelId =
        s.registry.lightweight.lookup cancelId := by
  cases lightweight with
  | false =>
    refine ⟨?_, rfl⟩
    show (_ :: s.registry.map.filter (·.1 ≠ other)).lookup cancelId = _
    rw [lookup_cons_ite, if_neg hne, lookup_filter_ne, if_neg hne]
  | true =>
    refine ⟨rfl, ?_⟩
    show (_ :: s.registry.lightweight.filter (·.1 ≠ other)).lookup cancelId = _
    rw [lookup_cons_ite, if_neg hne, lookup_filter_ne, if_neg hne]

theorem lookup_trigger {other : String} (hne : cancelId ≠ other) :
    (s.registry.trigger s.now other).1.map.lookup cancelId = s.registry.map.lookup cancelId ∧
      (s.registry.trigger s.now other).1.lightweight.lookup cancelId =
        s.registry.lightweight.lookup cancelId := by
  unfold CancelRegistry.trigger
  split
  · exact ⟨by rw [lookup_filter_ne, if_neg hne], rfl⟩
  · split
    · exact ⟨rfl, by rw [lookup_filter_ne, if_neg hne]⟩
    · exact ⟨rfl, rfl⟩

theorem lookup_remove {other : String} (hne : cancelId ≠ other) :
    (s.registry.remove other).map.lookup cancelId = s.registry.map.lookup cancelId ∧
      (s.registry.remove other).lightweight.lookup cancelId =
        s.registry.lightweight.lookup cancelId := by
  unfold CancelRegistry.remove
  exact ⟨by rw [lookup_filter_ne, if_neg hne], by rw [lookup_filter_ne, if_neg hne]⟩

theorem Reaches.congr {s' : TimedRegistry τ} (h : Reaches s cancelId token)
    (hsame : s'.registry.map.lookup cancelId = s.registry.map.lookup cancelId ∧
      s'.registry.lightweight.lookup cancelId = s.registry.lightweight.lookup cancelId) :
    Reaches s' cancelId token := by
  unfold Reaches
  rwa [hsame.1, hsame.2]

/-- A step cancels the token or leaves it where the next trigger finds it. -/
theorem Reaches.step (h : Reaches s cancelId token) (hforgets : ¬op.Forgets cancelId)
    (hregisters : ¬op.Registers cancelId) :
    (cancelId, token) ∈ (s.step op).2 ∨ Reaches (s.step op).1 cancelId token := by
  cases op with
  | register other t lightweight =>
    have hne : cancelId ≠ other := fun heq => hregisters ⟨t, lightweight, by rw [heq]⟩
    exact .inr (h.congr (lookup_register hne))
  | trigger other =>
    by_cases heq : cancelId = other
    · subst heq
      exact .inl h.triggered
    · exact .inr (h.congr (lookup_trigger heq))
  | triggerAll =>
    rcases h with hmap | ⟨hmap, hlight⟩
    · exact .inl (mem_of_lookup hmap)
    · exact .inr (.inr ⟨rfl, hlight⟩)
  | remove other =>
    have hne : cancelId ≠ other := fun heq => hforgets (.inl (by rw [heq]))
    exact .inr (h.congr (lookup_remove hne))
  | clear => exact (hforgets (.inr rfl)).elim
  | advance nanos => exact .inr h

theorem Reaches.run {ops : List (RegistryOp τ)} (h : Reaches s cancelId token)
    (hops : ∀ op ∈ ops, ¬op.Forgets cancelId ∧ ¬op.Registers cancelId) :
    (cancelId, token) ∈ s.cancelled (ops ++ [.trigger cancelId]) := by
  induction ops generalizing s with
  | nil => exact List.mem_append_left _ h.triggered
  | cons op ops ih =>
    obtain ⟨hop, hops⟩ := List.forall_mem_cons.mp hops
    rcases h.step hop.1 hop.2 with hnow | hnext
    · exact List.mem_append_left _ hnow
    · exact List.mem_append_right _ (ih hnext hops)

/-! ## A cancellation that is kept -/

/-- No token of the id is registered, and a cancellation not older than `since` is kept for it. -/
structure Waits (s : TimedRegistry τ) (cancelId : String) (since : Nat) : Prop where
  map : s.registry.map.lookup cancelId = none
  lightweight : s.registry.lightweight.lookup cancelId = none
  kept : ∃ time, since ≤ time ∧ s.registry.pending.lookup cancelId = some time
  past : since ≤ s.now

/-- The first entry of an id is found again behind a filter it passes. -/
theorem lookup_filter_of_pos {α : Type*} {entries : List (String × α)} {key : String} {a : α}
    {p : String × α → Bool} (h : entries.lookup key = some a) (hp : p (key, a) = true) :
    (entries.filter p).lookup key = some a := by
  induction entries with
  | nil => cases h
  | cons entry entries ih =>
    obtain ⟨first, b⟩ := entry
    rw [lookup_cons_ite] at h
    split at h
    next heq =>
      subst heq
      cases h
      rw [List.filter_cons_of_pos hp, lookup_cons_ite, if_pos rfl]
    next hne =>
      rw [List.filter_cons]
      split
      · rw [lookup_cons_ite, if_neg hne, ih h]
      · exact ih h

/-- A cancellation kept within its time is kept by the other ids' operations. -/
theorem lookup_prune_drop {other : String} {time : Nat} (hne : cancelId ≠ other)
    (h : s.registry.pending.lookup cancelId = some time) (hfresh : s.now - time < pendingTtl) :
    ((s.registry.prunePending s.now).dropPending other).pending.lookup cancelId = some time := by
  show ((s.registry.pending.filter fun p => s.now - p.2 < pendingTtl).filter
    (·.1 ≠ other)).lookup cancelId = some time
  rw [lookup_filter_ne, if_neg hne]
  exact lookup_filter_of_pos h (by simpa using hfresh)

theorem pending_register (other : String) (t : τ) (lightweight : Bool) :
    (s.registry.register s.now other t lightweight).1.pending =
      ((s.registry.prunePending s.now).dropPending other).pending := by
  cases lightweight <;> rfl

/-- A trigger that finds no token is kept. -/
theorem trigger_early (hmap : s.registry.map.lookup cancelId = none)
    (hlight : s.registry.lightweight.lookup cancelId = none) :
    s.registry.trigger s.now cancelId =
      ({ map := s.registry.map
         lightweight := s.registry.lightweight
         pending := (cancelId, s.now) ::
          ((s.registry.prunePending s.now).dropPending cancelId).pending }, []) := by
  unfold CancelRegistry.trigger
  rw [hmap, hlight]
  rfl

theorem Waits.step {since : Nat} (h : Waits s cancelId since) (hfresh : s.now - since < pendingTtl)
    (hforgets : ¬op.Forgets cancelId) (hregisters : ¬op.Registers cancelId) (hfits : op.Fits s) :
    Waits (s.step op).1 cancelId since := by
  obtain ⟨time, htime, hkept⟩ := h.kept
  have hlive : s.now - time < pendingTtl := by omega
  cases op with
  | register other t lightweight =>
    have hne : cancelId ≠ other := fun heq => hregisters ⟨t, lightweight, by rw [heq]⟩
    obtain ⟨hmap, hlight⟩ := lookup_register (s := s) (t := t) hne
    refine ⟨hmap.trans h.map, hlight.trans h.lightweight, ⟨time, htime, ?_⟩, h.past⟩
    show (s.registry.register s.now other t lightweight).1.pending.lookup cancelId = some time
    rw [pending_register]
    exact lookup_prune_drop hne hkept hlive
  | trigger other =>
    by_cases heq : cancelId = other
    · subst heq
      have hearly := congrArg Prod.fst (trigger_early h.map h.lightweight)
      refine ⟨?_, ?_, ⟨s.now, h.past, ?_⟩, h.past⟩
      · exact (congrArg (fun r => r.map.lookup cancelId) hearly).trans h.map
      · exact (congrArg (fun r => r.lightweight.lookup cancelId) hearly).trans h.lightweight
      · refine (congrArg (fun r => r.pending.lookup cancelId) hearly).trans ?_
        rw [lookup_cons_ite, if_pos rfl]
    · obtain ⟨hmap, hlight⟩ := lookup_trigger (s := s) heq
      refine ⟨hmap.trans h.map, hlight.trans h.lightweight, ⟨time, htime, ?_⟩, h.past⟩
      show (s.registry.trigger s.now other).1.pending.lookup cancelId = some time
      unfold CancelRegistry.trigger
      split
      · exact hkept
      · split
        · exact hkept
        · rw [lookup_cons_ite, if_neg heq]
          exact lookup_prune_drop heq hkept hlive
  | triggerAll =>
    have hold := hfits (cancelId, time) (mem_of_lookup hkept)
    exact (Nat.not_lt.mpr hold hlive).elim
  | remove other =>
    have hne : cancelId ≠ other := fun heq => hforgets (.inl (by rw [heq]))
    obtain ⟨hmap, hlight⟩ := lookup_remove (s := s) hne
    refine ⟨hmap.trans h.map, hlight.trans h.lightweight, ⟨time, htime, ?_⟩, h.past⟩
    show (s.registry.pending.filter (·.1 ≠ other)).lookup cancelId = some time
    rw [lookup_filter_ne, if_neg hne, hkept]
  | clear => exact (hforgets (.inr rfl)).elim
  | advance nanos =>
    exact ⟨h.map, h.lightweight, h.kept, Nat.le_trans h.past (Nat.le_add_right _ _)⟩

theorem waits_trigger (h : s.registry.contains cancelId = false) :
    Waits (s.step (.trigger cancelId)).1 cancelId s.now := by
  rw [CancelRegistry.contains, Bool.or_eq_false_iff, Option.isSome_eq_false_iff,
    Option.isSome_eq_false_iff, Option.isNone_iff_eq_none, Option.isNone_iff_eq_none] at h
  obtain ⟨hmap, hlight⟩ := h
  have hearly := congrArg Prod.fst (trigger_early hmap hlight)
  refine ⟨?_, ?_, ⟨s.now, Nat.le_refl _, ?_⟩, Nat.le_refl _⟩
  · exact (congrArg (fun r => r.map.lookup cancelId) hearly).trans hmap
  · exact (congrArg (fun r => r.lightweight.lookup cancelId) hearly).trans hlight
  · refine (congrArg (fun r => r.pending.lookup cancelId) hearly).trans ?_
    rw [lookup_cons_ite, if_pos rfl]

theorem cancelled_register (t : τ) (lightweight : Bool) :
    (s.registry.register s.now cancelId t lightweight).2 =
      if (s.registry.prunePending s.now).pending.any (·.1 = cancelId) then [t] else [] := by
  cases lightweight <;> rfl

theorem Waits.registered {since : Nat} (h : Waits s cancelId since)
    (hfresh : s.now - since < pendingTtl) (lightweight : Bool) :
    (cancelId, token) ∈ (s.step (.register cancelId token lightweight)).2 := by
  obtain ⟨time, htime, hkept⟩ := h.kept
  have hfound : (s.registry.prunePending s.now).pending.any (·.1 = cancelId) = true := by
    refine List.any_eq_true.mpr
      ⟨(cancelId, time), List.mem_filter.mpr ⟨mem_of_lookup hkept, ?_⟩, ?_⟩
    · simp only [decide_eq_true_eq]; omega
    · simp
  show (cancelId, token) ∈ (s.registry.register s.now cancelId token lightweight).2.map _
  rw [cancelled_register, if_pos hfound]
  exact List.mem_singleton_self _

end

/-! ## Runs from the start -/

theorem exec_append (s : TimedRegistry τ) (front back : List (RegistryOp τ)) :
    s.exec (front ++ back) = (s.exec front).exec back := List.foldl_append

theorem reached_concat (run : List (RegistryOp τ)) (op : RegistryOp τ) :
    reached (run ++ [op]) = ((reached run).step op).1 := exec_append {} run [op]

theorem now_step (s : TimedRegistry τ) (op : RegistryOp τ) :
    (s.step op).1.now = s.now + op.nanos := by
  cases op <;> rfl

theorem now_exec (s : TimedRegistry τ) (ops : List (RegistryOp τ)) :
    (s.exec ops).now = s.now + elapsed ops := by
  induction ops generalizing s with
  | nil => rfl
  | cons op ops ih =>
    show ((s.step op).1.exec ops).now = s.now + (op.nanos + elapsed ops)
    rw [ih, now_step, Nat.add_assoc]

theorem Fits.front {front back : List (RegistryOp τ)} (h : Fits (front ++ back)) : Fits front :=
  fun before op after heq => h before op (after ++ back) (by rw [heq]; simp)

theorem Fits.nil : Fits ([] : List (RegistryOp τ)) := by
  intro before op after hrun
  simp at hrun

theorem Fits.concat {run : List (RegistryOp τ)} (h : Fits run) (op : RegistryOp τ)
    (hop : op.Fits (reached run)) : Fits (run ++ [op]) := by
  intro before o after hrun
  cases after using List.reverseRecOn with
  | nil =>
    obtain ⟨rfl, heq⟩ := List.append_inj' hrun rfl
    obtain rfl := (List.cons.inj heq).1
    exact hop
  | append_singleton after last =>
    rw [← List.cons_append, ← List.append_assoc] at hrun
    exact h before o after (List.append_inj' hrun rfl).1

theorem Fits.last {run : List (RegistryOp τ)} {op : RegistryOp τ} (h : Fits (run ++ [op])) :
    op.Fits (reached run) := h run op [] rfl

/-- A cancellation stays kept for its time, over operations that leave its id alone. -/
theorem Waits.run {cancelId : String} {since : Nat} {before ops : List (RegistryOp τ)}
    (h : Waits (reached before) cancelId since) (hfits : Fits (before ++ ops))
    (hops : ∀ op ∈ ops, ¬op.Forgets cancelId ∧ ¬op.Registers cancelId)
    (hfresh : (reached (before ++ ops)).now - since < pendingTtl) :
    Waits (reached (before ++ ops)) cancelId since := by
  induction ops using List.reverseRecOn with
  | nil => rwa [List.append_nil]
  | append_singleton ops op ih =>
    rw [← List.append_assoc] at hfits hfresh ⊢
    rw [reached_concat, now_step] at hfresh
    have hop := hops op (by simp)
    have hwaits := ih hfits.front (fun o ho => hops o (by simp [ho])) (by omega)
    rw [reached_concat]
    exact hwaits.step (by omega) hop.1 hop.2 hfits.last

/-! ## Where the entries come from -/

/-- A trigger leaves no session token of its id. -/
theorem mem_map_trigger {registry : CancelRegistry τ} {now : Nat} {cancelId : String}
    {entry : String × τ} :
    entry ∈ (registry.trigger now cancelId).1.map ↔
      entry ∈ registry.map ∧ entry.1 ≠ cancelId := by
  unfold CancelRegistry.trigger
  cases hmap : registry.map.lookup cancelId with
  | some token => simp
  | none =>
    have hfree : entry ∈ registry.map → entry.1 ≠ cancelId := by
      intro hmem heq
      have hne := List.lookup_eq_none_iff.mp hmap entry hmem
      simp [heq] at hne
    have hsame : entry ∈ registry.map ↔ entry ∈ registry.map ∧ entry.1 ≠ cancelId :=
      ⟨fun hmem => ⟨hmem, hfree hmem⟩, fun h => h.1⟩
    cases registry.lightweight.lookup cancelId with
    | some token => exact hsame
    | none => exact hsame

theorem mem_map_step {s : TimedRegistry τ} {op : RegistryOp τ} {entry : String × τ} :
    entry ∈ (s.step op).1.registry.map ↔
      op = .register entry.1 entry.2 false ∨
        entry ∈ s.registry.map ∧ ¬op.EndsSession entry.1 := by
  obtain ⟨key, token⟩ := entry
  cases op with
  | register other t lightweight =>
    cases lightweight with
    | true =>
      simp [step, CancelRegistry.register, RegistryOp.EndsSession, RegistryOp.Forgets,
        CancelRegistry.dropPending, CancelRegistry.prunePending]
    | false =>
      show (key, token) ∈ (other, t) :: s.registry.map.filter (·.1 ≠ other) ↔ _
      simp [RegistryOp.EndsSession, RegistryOp.Forgets, @eq_comm _ key other, @eq_comm _ token t]
  | trigger other =>
    show (key, token) ∈ (s.registry.trigger s.now other).1.map ↔ _
    rw [mem_map_trigger]
    simp [RegistryOp.EndsSession, RegistryOp.Forgets, @eq_comm _ key other]
  | triggerAll => simp [step, CancelRegistry.triggerAll, RegistryOp.EndsSession]
  | remove other =>
    show (key, token) ∈ s.registry.map.filter (·.1 ≠ other) ↔ _
    simp [RegistryOp.EndsSession, RegistryOp.Forgets, @eq_comm _ key other]
  | clear => simp [step, CancelRegistry.clear, RegistryOp.EndsSession, RegistryOp.Forgets]
  | advance nanos => simp [step, RegistryOp.EndsSession, RegistryOp.Forgets]

/-- The session tokens of the registry are those the run has registered. -/
theorem mem_map_iff (run : List (RegistryOp τ)) (entry : String × τ) :
    entry ∈ (reached run).registry.map ↔ SessionToken entry run := by
  refine since_iff_of_property (P := fun run => entry ∈ (reached run).registry.map) ?_ ?_ run
  · exact List.not_mem_nil
  · intro run op
    rw [reached_concat, mem_map_step]

theorem mem_lightweight_step {s : TimedRegistry τ} {op : RegistryOp τ} {entry : String × τ}
    (h : entry ∈ (s.step op).1.registry.lightweight) :
    op = .register entry.1 entry.2 true ∨
      entry ∈ s.registry.lightweight ∧ ¬op.Forgets entry.1 := by
  cases op with
  | register other t lightweight =>
    cases lightweight with
    | true =>
      rcases List.mem_cons.mp h with rfl | hold
      · exact .inl rfl
      · exact .inr ⟨(List.mem_filter.mp hold).1, by simp [RegistryOp.Forgets]⟩
    | false => exact .inr ⟨h, by simp [RegistryOp.Forgets]⟩
  | trigger other =>
    refine .inr ⟨?_, by simp [RegistryOp.Forgets]⟩
    change entry ∈ (s.registry.trigger s.now other).1.lightweight at h
    unfold CancelRegistry.trigger at h
    split at h
    · exact h
    · split at h
      · exact (List.mem_filter.mp h).1
      · exact h
  | triggerAll => exact .inr ⟨h, by simp [RegistryOp.Forgets]⟩
  | remove other =>
    obtain ⟨hold, hne⟩ := List.mem_filter.mp h
    refine .inr ⟨hold, ?_⟩
    rintro (heq | heq)
    · cases heq
      simp at hne
    · cases heq
  | clear => cases h
  | advance nanos => exact .inr ⟨h, by simp [RegistryOp.Forgets]⟩

theorem since_of_mem_lightweight {run : List (RegistryOp τ)} {entry : String × τ}
    (h : entry ∈ (reached run).registry.lightweight) :
    Since (· = .register entry.1 entry.2 true) (RegistryOp.Forgets entry.1) run := by
  refine since_of_property (P := fun run => entry ∈ (reached run).registry.lightweight)
    List.not_mem_nil ?_ h
  intro run op hmem
  rw [reached_concat] at hmem
  exact mem_lightweight_step hmem

/-- A cancellation is kept from a trigger that found no token. -/
theorem mem_pending_step {s : TimedRegistry τ} {op : RegistryOp τ} {p : String × Nat}
    (h : p ∈ (s.step op).1.registry.pending) :
    (op = .trigger p.1 ∧ s.registry.contains p.1 = false ∧ p.2 = s.now) ∨
      p ∈ s.registry.pending ∧ ¬op.Forgets p.1 ∧ ¬op.Registers p.1 := by
  have hpruned : ∀ {other : String},
      p ∈ ((s.registry.prunePending s.now).dropPending other).pending →
        p ∈ s.registry.pending ∧ p.1 ≠ other := by
    intro other hp
    obtain ⟨hkept, hne⟩ := List.mem_filter.mp hp
    exact ⟨(List.mem_filter.mp hkept).1, of_decide_eq_true hne⟩
  cases op with
  | register other t lightweight =>
    change p ∈ (s.registry.register s.now other t lightweight).1.pending at h
    rw [pending_register] at h
    obtain ⟨hold, hne⟩ := hpruned h
    refine .inr ⟨hold, by simp [RegistryOp.Forgets], ?_⟩
    rintro ⟨t', lightweight', heq⟩
    cases heq
    exact hne rfl
  | trigger other =>
    have hquiet : ¬(RegistryOp.trigger (τ := τ) other).Forgets p.1 ∧
        ¬(RegistryOp.trigger (τ := τ) other).Registers p.1 := by
      simp [RegistryOp.Forgets, RegistryOp.Registers]
    change p ∈ (s.registry.trigger s.now other).1.pending at h
    unfold CancelRegistry.trigger at h
    split at h
    next => exact .inr ⟨h, hquiet⟩
    next hmap =>
      split at h
      next => exact .inr ⟨h, hquiet⟩
      next hlight =>
        rcases List.mem_cons.mp h with rfl | hold
        · refine .inl ⟨rfl, ?_, rfl⟩
          unfold CancelRegistry.contains
          rw [hmap, hlight]
          rfl
        · exact .inr ⟨(hpruned hold).1, hquiet⟩
  | triggerAll => cases h
  | remove other =>
    obtain ⟨hold, hne⟩ := List.mem_filter.mp h
    refine .inr ⟨hold, ?_, by simp [RegistryOp.Registers]⟩
    rintro (heq | heq)
    · cases heq
      simp at hne
    · cases heq
  | clear => cases h
  | advance nanos => exact .inr ⟨h, by simp [RegistryOp.Forgets, RegistryOp.Registers]⟩

theorem since_of_mem_pending {run : List (RegistryOp τ)} {p : String × Nat}
    (h : p ∈ (reached run).registry.pending) :
    Since (· = .trigger p.1) (RegistryOp.Forgets p.1) run := by
  refine since_of_property (P := fun run => p ∈ (reached run).registry.pending)
    List.not_mem_nil ?_ h
  intro run op hmem
  rw [reached_concat] at hmem
  exact (mem_pending_step hmem).imp And.left fun hold => ⟨hold.1, hold.2.1⟩

/-- The trigger a cancellation is kept from, and when it came. -/
theorem early_trigger {run : List (RegistryOp τ)} {p : String × Nat}
    (h : p ∈ (reached run).registry.pending) :
    ∃ before between, run = before ++ .trigger p.1 :: between ∧
      (reached before).registry.contains p.1 = false ∧ p.2 = (reached before).now ∧
      ∀ op ∈ between, ¬op.Forgets p.1 ∧ ¬op.Registers p.1 := by
  induction run using List.reverseRecOn with
  | nil => cases h
  | append_singleton run op ih =>
    rw [reached_concat] at h
    rcases mem_pending_step h with ⟨rfl, hnone, htime⟩ | ⟨hold, hquiet⟩
    · exact ⟨run, [], rfl, hnone, htime, by simp⟩
    · obtain ⟨before, between, rfl, hnone, htime, hbetween⟩ := ih hold
      refine ⟨before, between ++ [op], by simp, hnone, htime, fun o ho => ?_⟩
      rcases List.mem_append.mp ho with ho | ho
      · exact hbetween o ho
      · rw [List.mem_singleton.mp ho]
        exact hquiet

/-! ## The law -/

variable {run : List (RegistryOp τ)}

theorem later_of_fits (hfits : Fits run) {before between after : List (RegistryOp τ)}
    {cancelId : String} {token : τ} {lightweight : Bool}
    (hrun : run = before ++ .register cancelId token lightweight ::
      (between ++ .trigger cancelId :: after))
    (hbetween : ∀ op ∈ between, ¬op.Forgets cancelId ∧ ¬op.Registers cancelId) :
    (cancelId, token) ∈ (reached (before ++ [.register cancelId token lightweight])).cancelled
      (between ++ [.trigger cancelId]) := by
  have hop := hfits before _ _ hrun
  rw [reached_concat]
  exact (reaches_register hop).run hbetween

theorem earlier_of_fits (hfits : Fits run) {before between after : List (RegistryOp τ)}
    {cancelId : String} {token : τ} {lightweight : Bool}
    (hrun : run = before ++ .trigger cancelId ::
      (between ++ .register cancelId token lightweight :: after))
    (hnone : (reached before).registry.contains cancelId = false)
    (hbetween : ∀ op ∈ between, ¬op.Forgets cancelId ∧ ¬op.Registers cancelId)
    (htime : elapsed between < pendingTtl) :
    (cancelId, token) ∈ ((reached (before ++ .trigger cancelId :: between)).step
      (.register cancelId token lightweight)).2 := by
  have hsplit : before ++ .trigger cancelId :: between =
      (before ++ [.trigger cancelId]) ++ between := by simp
  have hfits : Fits ((before ++ [.trigger cancelId]) ++ between) := by
    have hfront : (before ++ [.trigger cancelId]) ++ between ++
        .register cancelId token lightweight :: after = run := by simp [hrun]
    exact Fits.front (hfront.symm ▸ hfits)
  have hstart : Waits (reached (before ++ [.trigger cancelId])) cancelId (reached before).now := by
    rw [reached_concat]
    exact waits_trigger hnone
  have hfresh : (reached ((before ++ [.trigger cancelId]) ++ between)).now -
      (reached before).now < pendingTtl := by
    unfold reached
    rw [exec_append, exec_append, now_exec, now_exec]
    have hzero : elapsed [RegistryOp.trigger (τ := τ) cancelId] = 0 := rfl
    rw [hzero]
    omega
  rw [hsplit]
  exact (hstart.run hfits hbetween hfresh).registered hfresh lightweight

theorem trigger_cancels {s : TimedRegistry τ} {cancelId : String} {entry : String × τ}
    (h : entry ∈ (s.step (.trigger cancelId)).2) :
    entry.1 = cancelId ∧ (entry ∈ s.registry.map ∨ entry ∈ s.registry.lightweight) := by
  obtain ⟨t, ht, rfl⟩ := List.mem_map.mp h
  refine ⟨rfl, ?_⟩
  unfold CancelRegistry.trigger at ht
  split at ht
  next token hmap =>
    obtain rfl := List.mem_singleton.mp ht
    exact .inl (mem_of_lookup hmap)
  next =>
    split at ht
    next token hlight =>
      obtain rfl := List.mem_singleton.mp ht
      exact .inr (mem_of_lookup hlight)
    next => cases ht

theorem register_cancels {s : TimedRegistry τ} {cancelId : String} {token : τ} {lightweight : Bool}
    {entry : String × τ} (h : entry ∈ (s.step (.register cancelId token lightweight)).2) :
    entry = (cancelId, token) ∧ ∃ time, (cancelId, time) ∈ s.registry.pending := by
  obtain ⟨t, ht, rfl⟩ := List.mem_map.mp h
  rw [cancelled_register] at ht
  split at ht
  next hfound =>
    obtain ⟨⟨key, time⟩, hmem, hkey⟩ := List.any_eq_true.mp hfound
    obtain rfl : key = cancelId := of_decide_eq_true hkey
    exact ⟨by rw [List.mem_singleton.mp ht], time, (List.mem_filter.mp hmem).1⟩
  next => cases ht

theorem RegistryOp.Forgets.endsSession {op : RegistryOp τ} {cancelId : String}
    (h : op.Forgets cancelId) : op.EndsSession cancelId := .inr (.inr (.inr h))

/-- A token that is registered behind a removal was registered behind it. -/
theorem registered_after {before between : List (RegistryOp τ)} {removal : RegistryOp τ}
    {entry : String × τ} (hforgets : removal.Forgets entry.1)
    (h : entry ∈ (reached (before ++ removal :: between)).registry.map ∨
      entry ∈ (reached (before ++ removal :: between)).registry.lightweight) :
    ∃ lightweight, .register entry.1 entry.2 lightweight ∈ between := by
  have hother : ∀ lightweight, ¬removal = .register entry.1 entry.2 lightweight := by
    rintro lightweight rfl
    rcases hforgets with heq | heq <;> cases heq
  rcases h with hmap | hlight
  · have hsince := (mem_map_iff _ entry).mp hmap
    obtain ⟨op, hop, rfl⟩ := hsince.started_after hforgets.endsSession (hother false)
    exact ⟨false, hop⟩
  · have hsince := since_of_mem_lightweight hlight
    obtain ⟨op, hop, rfl⟩ := hsince.started_after hforgets (hother true)
    exact ⟨true, hop⟩

theorem removed_law {before between : List (RegistryOp τ)} {removal op : RegistryOp τ}
    {entry : String × τ} (hforgets : removal.Forgets entry.1)
    (h : entry ∈ ((reached (before ++ removal :: between)).step op).2) :
    ((∃ lightweight, op = .register entry.1 entry.2 lightweight) ∧ .trigger entry.1 ∈ between) ∨
      ((op = .trigger entry.1 ∨ op = .triggerAll) ∧
        ∃ lightweight, .register entry.1 entry.2 lightweight ∈ between) := by
  cases op with
  | register cancelId token lightweight =>
    obtain ⟨rfl, time, hpending⟩ := register_cancels h
    have hother : ¬removal = .trigger cancelId := by
      rintro rfl
      rcases hforgets with heq | heq <;> cases heq
    obtain ⟨op, hop, rfl⟩ := (since_of_mem_pending hpending).started_after hforgets hother
    exact .inl ⟨⟨lightweight, rfl⟩, hop⟩
  | trigger cancelId =>
    obtain ⟨rfl, hmem⟩ := trigger_cancels h
    exact .inr ⟨.inl rfl, registered_after hforgets hmem⟩
  | triggerAll => exact .inr ⟨.inr rfl, registered_after hforgets (.inl h)⟩
  | remove | clear | advance => cases h

/-- The law holds at every place of a run whose steps all fit. -/
theorem cancellations_honoured (run : List (RegistryOp τ)) (hfits : Fits run) : Honoured run where
  later _ _ _ _ _ _ hrun hbetween := later_of_fits hfits hrun hbetween
  earlier _ _ _ _ _ _ hrun hnone hbetween htime :=
    earlier_of_fits hfits hrun hnone hbetween htime
  all before _ _ entry := mem_map_iff before entry
  removed _ _ _ _ _ _ _ hforgets h := removed_law hforgets h

/-- A run in which every step fits: the id is reused after a removal, and all session tokens are
    cancelled while a lightweight one is registered. -/
def sampleRun : List (RegistryOp Nat) :=
  [.trigger "a", .advance 5, .register "a" 1 false, .remove "a", .register "b" 2 true,
    .register "a" 3 false, .triggerAll, .trigger "b"]

theorem sampleRun_fits : Fits sampleRun := by
  have hfirst : Fits (sampleRun.take 4) :=
    (((Fits.nil.concat (.trigger "a") trivial).concat (.advance 5) trivial).concat
      (.register "a" 1 false) trivial).concat (.remove "a") trivial
  have hlight : Fits (sampleRun.take 5) := by
    refine hfirst.concat (.register "b" 2 true) fun other hother => ?_
    have hnone : (reached (sampleRun.take 4)).registry.map.lookup "b" = none := by decide
    rw [hnone] at hother
    cases hother
  have hall : Fits (sampleRun.take 7) := by
    refine (hlight.concat (.register "a" 3 false) trivial).concat .triggerAll fun p hp => ?_
    have hempty : (reached (sampleRun.take 6)).registry.pending = [] := by decide
    change p ∈ (reached (sampleRun.take 6)).registry.pending at hp
    rw [hempty] at hp
    cases hp
  exact hall.concat (.trigger "b") trivial

theorem cancellations_honoured_sample : Fits sampleRun ∧ Honoured sampleRun :=
  ⟨sampleRun_fits, cancellations_honoured sampleRun sampleRun_fits⟩

/-- A cancellation that comes before its registration is lost when all are cancelled between. -/
theorem early_trigger_lost : ¬∀ run : List (RegistryOp Nat), Honoured run := by
  intro h
  have hreached := (h [.trigger "a", .triggerAll, .register "a" 1 false]).earlier [] "a" 1 false
    [.triggerAll] [] rfl rfl (by simp [RegistryOp.Forgets, RegistryOp.Registers]) (by decide)
  exact absurd hreached (by decide)

/-! ## Every other step may break it -/

theorem triggerAll_loses {p : String × Nat} (hp : p ∈ (reached run).registry.pending)
    (hlive : (reached run).now - p.2 < pendingTtl) (token : τ) :
    ¬Honoured (run ++ [.triggerAll, .register p.1 token false]) := by
  intro h
  obtain ⟨before, between, rfl, hnone, htime, hbetween⟩ := early_trigger hp
  have hnow : (reached (before ++ .trigger p.1 :: between)).now = p.2 + elapsed between := by
    have hstep : elapsed (RegistryOp.trigger (τ := τ) p.1 :: between) = elapsed between :=
      Nat.zero_add _
    unfold reached at htime ⊢
    rw [exec_append, now_exec, htime, hstep]
  have helapsed : elapsed (between ++ [RegistryOp.triggerAll]) = elapsed between := by
    simp [elapsed, RegistryOp.nanos]
  have hcancelled := h.earlier before p.1 token false (between ++ [.triggerAll]) []
    (by simp) hnone ?_ (by omega)
  · have hsplit : before ++ .trigger p.1 :: (between ++ [.triggerAll]) =
        (before ++ .trigger p.1 :: between) ++ [.triggerAll] := by simp
    rw [hsplit, reached_concat] at hcancelled
    obtain ⟨-, time, hnothing⟩ := register_cancels hcancelled
    cases hnothing
  · intro op hop
    rcases List.mem_append.mp hop with hop | hop
    · exact hbetween op hop
    · rw [List.mem_singleton.mp hop]
      simp [RegistryOp.Forgets, RegistryOp.Registers]

theorem lightweight_overlooked {cancelId : String} {token other : τ}
    (hmap : (reached run).registry.map.lookup cancelId = some other) (hne : other ≠ token) :
    ¬Honoured (run ++ [.register cancelId token true, .trigger cancelId]) := by
  intro h
  have hcancelled := h.later run cancelId token true [] [] rfl (by simp)
  have hfound : ((reached (run ++ [.register cancelId token true])).step (.trigger cancelId)).2 =
      [(cancelId, other)] := by
    have hkept : (reached (run ++ [.register cancelId token true])).registry.map.lookup cancelId =
        some other := by rwa [reached_concat]
    simp [step, CancelRegistry.trigger, hkept]
  rw [List.nil_append, cancelled, cancelled, List.append_nil, hfound] at hcancelled
  exact hne (congrArg Prod.snd (List.mem_singleton.mp hcancelled)).symm

theorem unfit_breaks (op : RegistryOp τ) (token : τ) (hunfit : ¬op.Fits (reached run)) :
    ∃ more, ¬Honoured (run ++ op :: more) := by
  cases op with
  | triggerAll =>
    have hlive : ∃ p ∈ (reached run).registry.pending, (reached run).now - p.2 < pendingTtl := by
      by_contra hnone
      exact hunfit fun p hp => Nat.le_of_not_lt fun hlt => hnone ⟨p, hp, hlt⟩
    obtain ⟨p, hp, hlive⟩ := hlive
    exact ⟨[.register p.1 token false], triggerAll_loses hp hlive token⟩
  | register cancelId t lightweight =>
    cases lightweight with
    | true =>
      obtain ⟨other, hother⟩ := not_forall.mp hunfit
      obtain ⟨hmap, hne⟩ := Classical.not_imp.mp hother
      exact ⟨[.trigger cancelId], lightweight_overlooked hmap hne⟩
    | false => exact (hunfit trivial).elim
  | trigger | remove | clear | advance => exact (hunfit trivial).elim

end CampusAuth.Bridge
