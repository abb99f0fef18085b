import CampusAuth.Update.Operations

/- The gate that a cancellation shuts. At most one task is in its critical part; while the gate
   is shut no record is committed and no helper is spawned, since both happen under the state
   lock, with the gate looked at when the lock is taken; and a cancellation that is over and
   whose removals succeeded leaves neither a record nor a staging directory, until an update is
   applied anew.

   A removal that fails is only logged. What a cancellation returns says so: it returns `true`
   only when nothing is left (`update_gate`), and what is left otherwise is
   `cancel_may_leave_pending`. -/
namespace CampusAuth.Update
open Lib

/-! ## What a turn does -/

section
variable {g g' : Gate} {i : Nat} {kind : Kind} {ans : Answer} {stage stage' : Stage}
  {os : List Effect}

theorem enter_cases {inside refused : Stage} (h : g.enter i inside refused = some (g', stage', os)) :
    os = [] ∧ g.stateLock = none ∧
      ((g.updateCancelled = true ∧ g' = g ∧ stage' = refused) ∨
        (g.updateCancelled = false ∧ g' = { g with stateLock := some i } ∧ stage' = inside)) := by
  unfold Gate.enter at h
  split at h
  · cases h
  next hfree =>
    have hfree : g.stateLock = none := by simpa using hfree
    split at h
    next hcancelled =>
      cases h
      exact ⟨rfl, hfree, .inl ⟨hcancelled, rfl, rfl⟩⟩
    next hopen =>
      cases h
      exact ⟨rfl, hfree, .inr ⟨by simpa using hopen, rfl, rfl⟩⟩

/-- What an effect says about the turn that emits it. -/
def Effect.Tells (g g' : Gate) (stage stage' : Stage) : Effect → Prop
  | .committed _ | .helperSpawned _ => stage.guarded = true
  | .cancelled _ => g'.updateCancelled = true
  | .cancelDone _ removed result => ∃ had, stage = .cancelLeaving had removed ∧ stage' = .ended ∧
      g' = { g with operationLock := none } ∧ result = (had && !g.pending && !g.staging)
  | .begun .. | .restored => True

/-- What a turn does to the locks and to the gate, and what it emits. -/
structure TurnFacts (g g' : Gate) (i : Nat) (kind : Kind) (stage stage' : Stage)
    (os : List Effect) : Prop where
  operation : Pool.Passes i g.operationLock g'.operationLock stage.critical stage'.critical
  state : Pool.Passes i g.stateLock g'.stateLock stage.guarded stage'.guarded
  /-- The state lock is held while the gate is open only. -/
  shut : (g.stateLock.isSome = true → g.updateCancelled = false) →
    g'.stateLock.isSome = true → g'.updateCancelled = false
  /-- No turn restores the gate. -/
  kept : g.updateCancelled = true → g'.updateCancelled = true
  outputs : ∀ o ∈ os, o.Tells g g' stage stage'

theorem turn_facts (h : g.turn i kind ans stage = some (g', stage', os)) :
    TurnFacts g g' i kind stage stage' os := by
  cases stage with
  | calling =>
    cases kind with
    | cancel =>
      simp only [Gate.turn, Gate.call] at h
      split at h
      · cases h
      next hfree =>
        cases h
        exact ⟨.inl ⟨rfl, rfl⟩, .inl ⟨rfl, rfl⟩, fun _ hheld => absurd hheld hfree,
          fun _ => rfl, by simp [Effect.Tells]⟩
    | shutdown =>
      simp only [Gate.turn, Gate.call] at h
      split at h <;> cases h <;> exact ⟨.inl ⟨rfl, rfl⟩, .inl ⟨rfl, rfl⟩, id, id, by simp [Effect.Tells]⟩
    | applyUpdate | uploadedPackage | startup =>
      simp only [Gate.turn, Gate.call] at h
      split at h
      · cases h
        exact ⟨.inl ⟨rfl, rfl⟩, .inl ⟨rfl, rfl⟩, id, id, by simp [Effect.Tells]⟩
      next hfree =>
        cases h
        exact ⟨.inr (.inl ⟨by simpa using hfree, rfl, rfl⟩), .inl ⟨rfl, rfl⟩, id, id, by simp [Effect.Tells]⟩
  | gate =>
    simp only [Gate.turn] at h
    repeat' split at h
    · cases h
    · cases h
      exact ⟨.inr (.inr ⟨rfl, rfl, rfl⟩), .inl ⟨rfl, rfl⟩, id, id, by simp [Effect.Tells]⟩
    · cases h
      exact ⟨.inl ⟨rfl, rfl⟩, .inl ⟨rfl, rfl⟩, id, id, by simp [Effect.Tells]⟩
  | started =>
    cases h
    have hstart : (g.start ans kind).critical = true ∧ (g.start ans kind).guarded = false := by
      unfold Gate.start
      repeat' split
      all_goals exact ⟨rfl, rfl⟩
    exact ⟨.inl ⟨rfl, hstart.1⟩, .inl ⟨rfl, hstart.2⟩, id, id, by simp [Effect.Tells]⟩
  | staging | finalizing | hashing | checking =>
    cases h
    refine ⟨.inl ⟨rfl, ?_⟩, .inl ⟨rfl, ?_⟩, id, id, by simp [Effect.Tells]⟩
    all_goals repeat' split
    all_goals rfl
  | offering | waking | entering | ensuring =>
    -- The gate is looked at with the state lock just taken.
    obtain ⟨rfl, hfree, ⟨-, rfl, rfl⟩ | ⟨hopen, rfl, rfl⟩⟩ := enter_cases h
    · exact ⟨.inl ⟨rfl, rfl⟩, .inl ⟨rfl, rfl⟩, id, id, by simp [Effect.Tells]⟩
    · exact ⟨.inl ⟨rfl, rfl⟩, .inr (.inl ⟨hfree, rfl, rfl⟩), fun _ _ => hopen, id,
        by simp⟩
  | committing =>
    simp only [Gate.turn] at h
    split at h <;> cases h
    · exact ⟨.inl ⟨rfl, rfl⟩, .inr (.inr ⟨rfl, rfl, rfl⟩), by simp, id,
        by simp [Effect.Tells, Stage.guarded]⟩
    · exact ⟨.inl ⟨rfl, rfl⟩, .inr (.inr ⟨rfl, rfl, rfl⟩), by simp, id,
        by simp [Effect.Tells, Stage.guarded]⟩
  | spawning | ensuringSpawn =>
    cases h
    refine ⟨.inl ⟨rfl, rfl⟩, .inr (.inr ⟨rfl, rfl, rfl⟩), by simp, id, ?_⟩
    split
    all_goals simp [Effect.Tells, Stage.guarded]
  | applying =>
    cases h
    refine ⟨.inl ⟨rfl, ?_⟩, .inr (.inr ⟨rfl, rfl, ?_⟩), by simp, id,
        by simp [Effect.Tells, Stage.guarded]⟩
    all_goals split
    all_goals rfl
  | clearing | sweeping | cancelClearing | cancelSweeping =>
    cases h
    exact ⟨.inl ⟨rfl, rfl⟩, .inl ⟨rfl, rfl⟩, id, id, by simp [Effect.Tells]⟩
  | finishing =>
    simp only [Gate.turn] at h
    split at h <;> cases h
    exact ⟨.inl ⟨rfl, rfl⟩, .inl ⟨rfl, rfl⟩, id, id, by simp [Effect.Tells]⟩
  | releasing =>
    cases h
    exact ⟨.inr (.inr ⟨rfl, rfl, rfl⟩), .inl ⟨rfl, rfl⟩, id, id, by simp⟩
  | cancelLeaving had removed =>
    cases h
    refine ⟨.inr (.inr ⟨rfl, rfl, rfl⟩), .inl ⟨rfl, rfl⟩, id, id, fun o ho => ?_⟩
    cases List.mem_singleton.mp ho
    exact ⟨had, rfl, rfl, rfl, rfl⟩
  | waiting =>
    simp only [Gate.turn] at h
    split at h
    · cases h
    next hfree =>
      cases h
      exact ⟨.inr (.inl ⟨by simpa using hfree, rfl, rfl⟩), .inl ⟨rfl, rfl⟩, id, id, by simp [Effect.Tells]⟩
  | ended => cases h

/-- An update is applied anew. -/
def Effect.Applies (o : Effect) : Prop :=
  ∃ i, o = .begun i .applyUpdate ∨ o = .begun i .uploadedPackage

/-- The stages of a task that may still create a staging directory or a record. -/
def Stage.produces (kind : Kind) : Stage → Bool
  | .started => kind == .applyUpdate || kind == .uploadedPackage
  | .staging | .finalizing | .hashing | .offering | .committing => true
  | _ => false

theorem critical_of_produces (h : stage.produces kind = true) : stage.critical = true := by
  cases stage with
  | started | staging | finalizing | hashing | offering | committing => rfl
  | _ => cases h

/-- What a turn does to the files: only a task in its critical part touches them, and only one
    that produces creates them. -/
structure FileFacts (g g' : Gate) (i : Nat) (kind : Kind) (stage stage' : Stage)
    (os : List Effect) : Prop where
  touched : stage.critical = true ∨ g'.pending = g.pending ∧ g'.staging = g.staging
  created : stage.produces kind = false → (g'.pending = true → g.pending = true) ∧
    (g'.staging = true → g.staging = true)
  begun : stage'.produces kind = true → stage.produces kind = true ∨ ∃ o ∈ os, o.Applies

theorem file_facts (h : g.turn i kind ans stage = some (g', stage', os)) :
    FileFacts g g' i kind stage stage' os := by
  cases stage with
  | calling =>
    cases kind with
    | cancel | applyUpdate | uploadedPackage | startup =>
      simp only [Gate.turn, Gate.call] at h
      split at h <;> cases h <;> exact ⟨.inr ⟨rfl, rfl⟩, fun _ => ⟨id, id⟩, by simp [Stage.produces]⟩
    | shutdown =>
      simp only [Gate.turn, Gate.call] at h
      split at h <;> cases h <;> exact ⟨.inr ⟨rfl, rfl⟩, fun _ => ⟨id, id⟩, by simp [Stage.produces]⟩
  | gate =>
    simp only [Gate.turn] at h
    repeat' split at h
    all_goals cases h
    · exact ⟨.inl rfl, fun _ => ⟨id, id⟩, by simp [Stage.produces]⟩
    · refine ⟨.inl rfl, fun _ => ⟨id, id⟩, fun hproduces => .inr ⟨_, List.mem_cons_self, i, ?_⟩⟩
      cases kind with
      | applyUpdate => exact .inl rfl
      | uploadedPackage => exact .inr rfl
      | _ => cases hproduces
  | started =>
    cases h
    refine ⟨.inl rfl, fun _ => ⟨id, id⟩, fun hproduces => .inl ?_⟩
    cases kind with
    | applyUpdate | uploadedPackage => rfl
    | _ =>
      revert hproduces
      simp only [Gate.start]
      repeat' split
      all_goals exact fun hproduces => hproduces
  | staging | committing | offering | finalizing | hashing =>
    exact ⟨.inl rfl, by simp [Stage.produces], fun _ => .inl rfl⟩
  | waking | entering =>
    obtain ⟨-, -, ⟨-, rfl, rfl⟩ | ⟨-, rfl, rfl⟩⟩ := enter_cases h
    · exact ⟨.inl rfl, fun _ => ⟨id, id⟩, by simp [Stage.produces]⟩
    · exact ⟨.inl rfl, fun _ => ⟨id, id⟩, by simp [Stage.produces]⟩
  | ensuring =>
    obtain ⟨-, -, ⟨-, rfl, rfl⟩ | ⟨-, rfl, rfl⟩⟩ := enter_cases h
    · exact ⟨.inr ⟨rfl, rfl⟩, fun _ => ⟨id, id⟩, by simp [Stage.produces]⟩
    · exact ⟨.inr ⟨rfl, rfl⟩, fun _ => ⟨id, id⟩, by simp [Stage.produces]⟩
  | ensuringSpawn =>
    cases h
    exact ⟨.inr ⟨rfl, rfl⟩, fun _ => ⟨id, id⟩, by simp [Stage.produces]⟩
  | spawning | releasing | cancelLeaving =>
    cases h
    exact ⟨.inl rfl, fun _ => ⟨id, id⟩, by simp [Stage.produces]⟩
  | checking | applying =>
    cases h
    refine ⟨.inl rfl, fun _ => ⟨id, id⟩, ?_⟩
    repeat' split
    all_goals simp [Stage.produces]
  | clearing | sweeping | cancelClearing | cancelSweeping =>
    cases h
    exact ⟨.inl rfl, fun _ => by simp +contextual, by simp [Stage.produces]⟩
  | finishing =>
    simp only [Gate.turn] at h
    split at h <;> cases h
    exact ⟨.inl rfl, fun _ => ⟨id, id⟩, by simp [Stage.produces]⟩
  | waiting =>
    simp only [Gate.turn] at h
    split at h <;> cases h
    exact ⟨.inr ⟨rfl, rfl⟩, fun _ => ⟨id, id⟩, by simp [Stage.produces]⟩
  | ended => cases h

end

/-! ## Reachable states -/

/-- The stages of a cancellation that has removed files. -/
def Emptied (g : Gate) : Stage → Prop
  | .cancelSweeping _ removed => removed = true → g.pending = false
  | .cancelLeaving _ removed => removed = true → g.pending = false ∧ g.staging = false
  | _ => True

structure UpdaterInv (s : Updater) : Prop where
  operation : Pool.Owned (fun task => task.stage.critical) s.gate.operationLock s.tasks
  state : Pool.Owned (fun task => task.stage.guarded) s.gate.stateLock s.tasks
  shut : s.gate.stateLock.isSome = true → s.gate.updateCancelled = false
  emptied : Pool.All (fun _ task => Emptied s.gate task.stage) s.tasks

variable {s t : Updater} {e : Event} {os : List Effect}

theorem updaterInv_new (pending staging : Bool) : UpdaterInv (newUpdater pending staging) where
  operation := .nil
  state := .nil
  shut := by intro h; cases h
  emptied := .nil

/-- A step is a new task, a caller that is gone, the turn of a task, or the gate restored. -/
theorem step_cases (h : s.step e = some (t, os)) :
    (∃ kind, e = .call kind ∧ os = [] ∧ t = { s with tasks := s.tasks ++ [⟨kind, .calling⟩] }) ∨
    (∃ i, e = .drop i ∧ os = [] ∧ (t = s ∨ ∃ kind, s.tasks[i]? = some ⟨kind, .calling⟩ ∧
      t = { s with tasks := s.tasks.set i ⟨kind, .ended⟩ })) ∨
    (∃ i ans task gate stage, e = .turn i ans ∧ s.tasks[i]? = some task ∧
      s.gate.turn i task.kind ans task.stage = some (gate, stage, os) ∧
      t = ⟨gate, s.tasks.set i ⟨task.kind, stage⟩⟩) ∨
    (e = .restore ∧ os = [.restored] ∧ s.gate.stateLock = none ∧
      t = { s with gate := { s.gate with updateCancelled := false } }) := by
  cases e with
  | call kind =>
    cases h
    exact .inl ⟨kind, rfl, rfl, rfl⟩
  | drop i =>
    refine .inr (.inl ⟨i, rfl, ?_⟩)
    simp only [Updater.step] at h
    split at h
    next kind hat =>
      cases h
      exact ⟨rfl, .inr ⟨kind, hat, rfl⟩⟩
    · cases h
      exact ⟨rfl, .inl rfl⟩
    · cases h
  | turn i ans =>
    simp only [Updater.step] at h
    split at h
    · cases h
    next task hat =>
      split at h
      · cases h
      next gate stage os' hturn =>
        cases h
        exact .inr (.inr (.inl ⟨i, ans, task, gate, stage, rfl, hat, hturn, rfl⟩))
  | restore =>
    simp only [Updater.step] at h
    split at h
    · cases h
    next hfree =>
      cases h
      exact .inr (.inr (.inr ⟨rfl, rfl, by simpa using hfree, rfl⟩))

/-- A cancellation that has removed a file: the next stage of it knows. -/
theorem emptied_turn {g g' : Gate} {i : Nat} {kind : Kind} {ans : Answer} {stage stage' : Stage}
    (h : g.turn i kind ans stage = some (g', stage', os)) (hemptied : Emptied g stage) :
    Emptied g' stage' := by
  cases stage with
  | cancelClearing =>
    cases h
    intro hremoved
    simpa only [Bool.not_eq_true'] using hremoved
  | cancelSweeping had removed =>
    cases h
    intro hremoved
    simp only [Bool.and_eq_true, Bool.not_eq_true'] at hremoved
    exact ⟨hemptied hremoved.1, hremoved.2⟩
  | offering | waking | entering | ensuring =>
    obtain ⟨-, -, ⟨-, rfl, rfl⟩ | ⟨-, rfl, rfl⟩⟩ := enter_cases h
    · trivial
    · trivial
  | calling =>
    cases kind <;> simp only [Gate.turn, Gate.call] at h <;> split at h <;> cases h <;> trivial
  | started =>
    cases h
    unfold Gate.start
    repeat' split
    all_goals trivial
  | staging | finalizing | hashing | checking | applying =>
    cases h
    repeat' split
    all_goals trivial
  | gate | committing | finishing | waiting =>
    simp only [Gate.turn] at h
    repeat' split at h
    all_goals cases h
    all_goals trivial
  | spawning | clearing | sweeping | releasing | cancelLeaving | ensuringSpawn =>
    cases h
    trivial
  | ended => cases h

theorem emptied_of_files {g g' : Gate} {stage : Stage} (hpending : g'.pending = g.pending)
    (hstaging : g'.staging = g.staging) (h : Emptied g stage) : Emptied g' stage := by
  cases stage with
  | cancelSweeping | cancelLeaving => simpa only [Emptied, hpending, hstaging] using h
  | _ => trivial

theorem emptied_of_not_critical {g : Gate} {stage : Stage} (h : stage.critical = false) :
    Emptied g stage := by
  cases stage with
  | cancelSweeping | cancelLeaving => cases h
  | _ => trivial

theorem UpdaterInv.step (hs : UpdaterInv s) (h : s.step e = some (t, os)) : UpdaterInv t := by
  rcases step_cases h with ⟨kind, -, -, rfl⟩ | ⟨i, -, -, rfl | ⟨kind, hat, rfl⟩⟩ |
    ⟨i, ans, task, gate, stage, -, hat, hturn, rfl⟩ | ⟨-, -, -, rfl⟩
  · exact ⟨hs.operation.spawn rfl, hs.state.spawn rfl, hs.shut,
      hs.emptied.spawn (fun _ _ hold => hold) trivial⟩
  · exact hs
  · exact ⟨hs.operation.set hat (.inl ⟨rfl, rfl⟩), hs.state.set hat (.inl ⟨rfl, rfl⟩), hs.shut,
      hs.emptied.set (fun _ _ _ hold => hold) trivial⟩
  · obtain ⟨hoperation, hstate, hshut, -, -⟩ := turn_facts hturn
    refine ⟨hs.operation.set hat hoperation, hs.state.set hat hstate, hshut hs.shut, ?_⟩
    -- Only the one task in its critical part touches the files.
    refine Pool.All.set (P := fun j other => Emptied s.gate other.stage ∧
      (other.stage.critical = true ↔ s.gate.operationLock = some j))
      (fun j other hj => ⟨hs.emptied j other hj, hs.operation.owner j other hj⟩)
      (fun j other hne hother => ?_) (emptied_turn hturn (hs.emptied i task hat))
    rcases (file_facts hturn).touched with hcritical | ⟨hpending, hstaging⟩
    · have hlock := (hs.operation.owner i task hat).mp hcritical
      refine emptied_of_not_critical (Bool.eq_false_iff.mpr fun hholds => ?_)
      have hother := hother.2.mp hholds
      rw [hlock] at hother
      exact hne (Option.some.inj hother).symm
    · exact emptied_of_files hpending hstaging hother.1
  · exact ⟨hs.operation, hs.state, fun _ => rfl, hs.emptied⟩

theorem updaterInv_of_steps {pending staging : Bool} {es : List Event}
    (h : updateMachine.Steps (newUpdater pending staging) es os s) : UpdaterInv s :=
  h.invariant (C := fun _ _ => True) (fun hI _ hstep => hI.step hstep)
    (Machine.along_of_forall fun _ _ => trivial) (updaterInv_new pending staging)

/-! ## The gate -/

/-- A record is committed, or a helper spawned. -/
def Effect.Commits (o : Effect) : Prop := ∃ i, o = .committed i ∨ o = .helperSpawned i

/-- With the gate shut, a step neither commits a record nor spawns a helper, and unless it
    restores the gate, the gate stays shut. -/
theorem shut_step (hs : UpdaterInv s) (hshut : s.gate.updateCancelled = true)
    (hrestore : e ≠ .restore) (h : s.step e = some (t, os)) :
    t.gate.updateCancelled = true ∧ ∀ o ∈ os, ¬o.Commits := by
  rcases step_cases h with ⟨kind, -, rfl, rfl⟩ | ⟨i, -, rfl, rfl | ⟨kind, -, rfl⟩⟩ |
    ⟨i, ans, task, gate, stage, -, hat, hturn, rfl⟩ | ⟨rfl, -, -, -⟩
  · exact ⟨hshut, by simp⟩
  · exact ⟨hshut, by simp⟩
  · exact ⟨hshut, by simp⟩
  · have hfacts := turn_facts hturn
    refine ⟨hfacts.kept hshut, fun o ho hcommits => ?_⟩
    -- A commit is made with the state lock, and that is held while the gate is open only.
    have hguarded : task.stage.guarded = true := by
      obtain ⟨j, rfl | rfl⟩ := hcommits
      · exact hfacts.outputs _ ho
      · exact hfacts.outputs _ ho
    have hlock := (hs.state.owner i task hat).mp hguarded
    have hopen := hs.shut (by rw [hlock]; rfl)
    rw [hshut] at hopen
    cases hopen
  · exact absurd rfl hrestore

/-- The turn of a cancellation that says so shuts the gate. -/
theorem shut_of_cancelled (h : s.step e = some (t, os)) (hcancelled : ∃ i, .cancelled i ∈ os) :
    t.gate.updateCancelled = true := by
  obtain ⟨j, hj⟩ := hcancelled
  rcases step_cases h with ⟨kind, -, rfl, rfl⟩ | ⟨i, -, rfl, -⟩ |
    ⟨i, ans, task, gate, stage, -, hat, hturn, rfl⟩ | ⟨-, rfl, -, -⟩
  · cases hj
  · cases hj
  · exact (turn_facts hturn).outputs _ hj
  · simp at hj

theorem shut_run {es : List Event} (h : updateMachine.Steps s es os t) (hs : UpdaterInv s)
    (hshut : s.gate.updateCancelled = true) (hrestore : .restore ∉ es) :
    ∀ o ∈ os, ¬o.Commits := by
  refine (h.emits (I := fun s => UpdaterInv s ∧ s.gate.updateCancelled = true)
    (C := fun _ e => e ≠ .restore) (Q := fun os => ∀ o ∈ os, ¬o.Commits) (by simp)
    (fun h h' o ho => ?_) ?_ (Machine.along_of_forall ?_) ⟨hs, hshut⟩).2
  · exact (List.mem_append.mp ho).elim (h o) (h' o)
  · rintro s e t os ⟨hs, hshut⟩ hrestore hstep
    obtain ⟨hshut', hos⟩ := shut_step hs hshut hrestore hstep
    exact ⟨⟨hs.step hstep, hshut'⟩, hos⟩
  · rintro e he rfl
    exact hrestore he

/-! ## Nothing comes back -/

/-- There is nothing of an update, and nobody who is about to create it. -/
structure Quiet (s : Updater) : Prop where
  pending : s.gate.pending = false
  staging : s.gate.staging = false
  producers : Pool.All (fun _ task => task.stage.produces task.kind = false) s.tasks

theorem false_of_imp {a b : Bool} (h : a = true → b = true) (hb : b = false) : a = false :=
  Bool.eq_false_iff.mpr fun ha => Bool.false_ne_true (hb.symm.trans (h ha))

theorem Quiet.step (hs : Quiet s) (h : s.step e = some (t, os)) (hnone : ∀ o ∈ os, ¬o.Applies) :
    Quiet t := by
  rcases step_cases h with ⟨kind, -, rfl, rfl⟩ | ⟨i, -, rfl, rfl | ⟨kind, -, rfl⟩⟩ |
    ⟨i, ans, task, gate, stage, -, hat, hturn, rfl⟩ | ⟨-, -, -, rfl⟩
  · exact ⟨hs.pending, hs.staging, hs.producers.spawn (fun _ _ hold => hold) rfl⟩
  · exact hs
  · exact ⟨hs.pending, hs.staging, hs.producers.set (fun _ _ _ hold => hold) rfl⟩
  · have hfiles := file_facts hturn
    obtain ⟨hpending, hstaging⟩ := hfiles.created (hs.producers i task hat)
    refine ⟨false_of_imp hpending hs.pending, false_of_imp hstaging hs.staging,
      hs.producers.set (fun _ _ _ hold => hold) ?_⟩
    refine Bool.eq_false_iff.mpr fun hproduces => ?_
    rcases hfiles.begun hproduces with hbefore | hbegun
    · exact Bool.false_ne_true ((hs.producers i task hat).symm.trans hbefore)
    · obtain ⟨o, ho, happlies⟩ := hbegun
      exact hnone o ho happlies
  · exact ⟨hs.pending, hs.staging, hs.producers⟩

theorem Quiet.run {es : List Event} (h : updateMachine.Steps s es os t) (hs : Quiet s)
    (hnone : ∀ o ∈ os, ¬o.Applies) : Quiet t := by
  induction h with
  | nil => exact hs
  | cons hstep _ ih =>
    exact ih (hs.step hstep fun o ho => hnone o (List.mem_append_left _ ho))
      fun o ho => hnone o (List.mem_append_right _ ho)

/-- A cancellation is over and its removals succeeded: there is nothing left, and nobody is
    about to create anything, since they would hold the operation lock. -/
theorem quiet_of_cancel_done {i : Nat} {removed result : Bool} (hs : UpdaterInv s)
    (h : s.step e = some (t, os)) (hdone : .cancelDone i removed result ∈ os)
    (hremoved : removed = true ∨ result = true) : Quiet t := by
  rcases step_cases h with ⟨kind, -, rfl, rfl⟩ | ⟨i, -, rfl, -⟩ |
    ⟨i, ans, task, gate, stage, -, hat, hturn, rfl⟩ | ⟨-, rfl, -, -⟩
  · cases hdone
  · cases hdone
  · obtain ⟨had, hstage, rfl, rfl, hresult⟩ := (turn_facts hturn).outputs _ hdone
    have hempty : s.gate.pending = false ∧ s.gate.staging = false := by
      rcases hremoved with hremoved | rfl
      · have hemptied : Emptied s.gate task.stage := hs.emptied i task hat
        rw [hstage] at hemptied
        exact hemptied hremoved
      · have hboth := hresult.symm
        simp only [Bool.and_eq_true, Bool.not_eq_true'] at hboth
        exact ⟨hboth.1.2, hboth.2⟩
    have hself : s.gate.operationLock = some i :=
      (hs.operation.owner i task hat).mp (by rw [hstage]; rfl)
    refine ⟨hempty.1, hempty.2, Pool.All.set (fun j other hj => hs.operation.owner j other hj)
      (fun j other hne howner => Bool.eq_false_iff.mpr fun hproduces => hne ?_) rfl⟩
    have hother := howner.mp (critical_of_produces hproduces)
    rw [hself] at hother
    exact (Option.some.inj hother).symm
  · simp at hdone

/-! ## The gate over every run -/

/-- In every run of the updater, whatever the order of its operations and whichever callers are
    gone: two tasks in the critical part of their operations are the same one; from a
    cancellation that has shut the gate until the gate is restored no record is committed and
    no helper is spawned; and once a cancellation is over whose removals succeeded, as they did
    whenever it returns `true`, there is neither a record nor a staging directory, then and
    until an update is applied anew. -/
theorem update_gate {pending staging : Bool} {es : List Event}
    (h : updateMachine.Steps (newUpdater pending staging) es os s) :
    (∀ (i j : Nat) (a b : Task), s.tasks[i]? = some a → s.tasks[j]? = some b → a.stage.critical = true →
      b.stage.critical = true → i = j) ∧
    (∀ e t os', s.step e = some (t, os') → (∃ i, .cancelled i ∈ os') →
      ∀ es u os'', updateMachine.Steps t es os'' u → .restore ∉ es → ∀ o ∈ os'', ¬o.Commits) ∧
    (∀ e t os' i removed result, s.step e = some (t, os') →
      .cancelDone i removed result ∈ os' → removed = true ∨ result = true →
      ∀ es u os'', updateMachine.Steps t es os'' u → (∀ o ∈ os'', ¬o.Applies) →
        u.gate.pending = false ∧ u.gate.staging = false) := by
  have hs := updaterInv_of_steps h
  refine ⟨fun i j a b ha hb hca hcb => hs.operation.unique ha hb hca hcb, ?_, ?_⟩
  · intro e t os' hstep hcancelled es u os'' hrun hrestore
    exact shut_run hrun (hs.step hstep) (shut_of_cancelled hstep hcancelled) hrestore
  · intro e t os' i removed result hstep hdone hremoved es u os'' hrun hnone
    have hquiet := (quiet_of_cancel_done hs hstep hdone hremoved).run hrun hnone
    exact ⟨hquiet.pending, hquiet.staging⟩

/-- The turns of a cancellation up to its last one, with what the removals answer. -/
def cancelling (ans : Answer) : List Event :=
  [.call .cancel, .turn 0 {}, .turn 0 {}, .turn 0 ans, .turn 0 ans]

/-- A cancellation removes what a pending update left, and nothing comes of a start after it. -/
theorem update_gate_sample : ∃ s t u os os', updateMachine.Steps (newUpdater true true)
    (cancelling {}) os s ∧ s.step (.turn 0 {}) = some (t, [.cancelDone 0 true true]) ∧
    updateMachine.Steps t [.call .startup, .turn 1 {}, .turn 1 {}] os' u ∧
    u.gate.pending = false ∧ u.gate.staging = false := by
  have hrun : updateMachine.Steps (newUpdater true true) (cancelling {}) _ _ :=
    Machine.steps_of_exec rfl
  have hrest : updateMachine.Steps
      ⟨{ updateCancelled := true, pending := false, staging := false }, [⟨.cancel, .ended⟩]⟩
      [.call .startup, .turn 1 {}, .turn 1 {}] _ _ :=
    Machine.steps_of_exec rfl
  refine ⟨_, _, _, _, _, hrun, rfl, hrest, ?_⟩
  exact (update_gate hrun).2.2 (.turn 0 {}) _ _ 0 true true rfl List.mem_cons_self (.inl rfl)
    _ _ _ hrest (by simp [Effect.Applies])

/-- A cancellation is over and the record is still there: its removal failed. -/
theorem cancel_may_leave_pending : ¬∀ (pending staging : Bool) (es : List Event)
    (os os' : List Effect) (s t : Updater) (e : Event) (i : Nat) (removed result : Bool),
    updateMachine.Steps (newUpdater pending staging) es os s → s.step e = some (t, os') →
    .cancelDone i removed result ∈ os' → t.gate.pending = false ∧ t.gate.staging = false := by
  intro h
  have := h true true (cancelling { failed := true }) _ _ _ _ (.turn 0 {}) 0 false false
    (Machine.steps_of_exec rfl) rfl List.mem_cons_self
  exact Bool.false_ne_true this.1.symm

end CampusAuth.Update
