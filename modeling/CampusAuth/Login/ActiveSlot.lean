import CampusAuth.Login.OrchestratorInvariant

/- The active slot: who is in it, who may take a session out of it and who clears it. -/
namespace CampusAuth.Login
open Lib Status

namespace Orchestrator
variable {w t : Orchestrator} {e : OrchestratorEvent} {id : Nat} {os : List OrchestratorEffect}

/-- The session `id` is spawned, has not notified its end and no submit took it out. -/
structure Unpreempted (w : Orchestrator) (id : Nat) (source : LoginSource) : Prop where
  spawned : ∃ r task, w.requests id = some r ∧ r.task = some task ∧ r.source = source ∧
    task.finished = false ∧ task.preemptedAt = none

/-- A session that runs and was not taken out is the one in the slot. -/
theorem Inv.unpreempted {source : LoginSource} (hI : Inv w) (h : w.Unpreempted id source) :
    w.activeSession = some { source, sessionId := id } := by
  obtain ⟨r, task, hr, htask, rfl, hfinished, hpre⟩ := h.spawned
  apply hI.slot hr htask hpre
  rw [Bool.eq_false_iff]
  intro hclean
  rw [hI.finished hr htask hclean] at hfinished
  cases hfinished

/-- The cancellation token of a session. -/
def sessionCancelled (w : Orchestrator) (id : Nat) : Option Bool :=
  (w.requests id).bind fun r => r.task.map (·.session.cancelToken)

/-- A preemption takes the session in the slot out for a request that may do so. -/
theorem preempt_allowed {old new : Nat} (h : w.step e = some (t, os))
    (hmem : .preempt old new ∈ os) : ∃ a r, w.activeSession = some a ∧ a.sessionId = old ∧
      w.requests new = some r ∧ r.stage = .deciding ∧ MayPreempt r.source a.source := by
  cases step_kind h with
  | settles _ _ _ _ _ hlocal => exact False.elim (hlocal _ hmem)
  | admits => cases hmem
  | moves _ _ _ _ hlocal => exact False.elim (hlocal _ hmem)
  | @preempts id r taken a owner hr hstage ha hmay _ =>
    rcases List.mem_cons.mp hmem with heq | hmem
    · cases heq
      exact ⟨a, r, ha, rfl, hr, hstage, hmay⟩
    · exact False.elim (cancelsAttempt_local (w := w) (e := e) _ _ hmem)
  | installs => simp at hmem
  | cleans => cases hmem

/-- A step that is no cancellation leaves the token of a session alone unless it takes the
    session out of the slot. -/
theorem cancelled_by_preemption (hI : Inv w) (h : w.step e = some (t, os))
    (hc : e.cancels = false) (hbefore : w.sessionCancelled id = some false)
    (hafter : t.sessionCancelled id = some true) : ∃ new, .preempt id new ∈ os := by
  obtain ⟨r, hr, hbefore⟩ := Option.bind_eq_some_iff.mp hbefore
  obtain ⟨task, htask, hbefore⟩ := Option.map_eq_some_iff.mp hbefore
  obtain ⟨r', hr', hafter⟩ := Option.bind_eq_some_iff.mp hafter
  obtain ⟨task', htask', hafter⟩ := Option.map_eq_some_iff.mp hafter
  -- the token is not touched when the request is the same as before
  have hsame : w.requests id = some r' → ∃ new, .preempt id new ∈ os := by
    intro h'
    rw [hr] at h'
    cases h'
    rw [htask] at htask'
    cases htask'
    rw [hbefore] at hafter
    cases hafter
  have hlive : ∀ {j r₁}, w.requests j = some r₁ → r₁.stage.live = true → j ≠ id := by
    rintro j r₁ h₁ hlive rfl
    rw [hr] at h₁
    cases h₁
    rw [hI.no_task_of_live hr hlive] at htask
    cases htask
  cases step_kind h with
  | settles hreq =>
    have hrel := hreq id
    rw [hr, hr'] at hrel
    cases hrel with
    | some hg =>
      obtain ⟨task₁, htask₁, hgt⟩ := task_forth hg htask
      rw [htask'] at htask₁
      cases htask₁
      rw [hgt.uncancelled (by rw [hc]; nofun), hbefore] at hafter
      cases hafter
  | admits source profileId =>
    rcases of_update hr' with ⟨rfl, -⟩ | ⟨-, hr'⟩
    · exact absurd (hI.fresh hr) (Nat.lt_irrefl _)
    · exact hsame hr'
  | moves hr₁ hnext =>
    rcases of_update hr' with ⟨rfl, -⟩ | ⟨-, hr'⟩
    · exact absurd rfl (hlive hr₁ hnext.live)
    · exact hsame hr'
  | preempts hr₁ hstage ha =>
    rcases of_update hr' with ⟨rfl, -⟩ | ⟨-, hr'⟩
    · exact absurd rfl (hlive hr₁ (by rw [hstage]; rfl))
    · rcases of_update hr' with ⟨rfl, -⟩ | ⟨-, hr'⟩
      · exact ⟨_, List.mem_cons_self⟩
      · exact hsame hr'
  | installs hr₁ hstage =>
    rcases of_update hr' with ⟨rfl, -⟩ | ⟨-, hr'⟩
    · exact absurd rfl (hlive hr₁ (by rw [hstage]; rfl))
    · exact hsame hr'
  | cleans _ hr₁ htask₁ =>
    rcases of_update hr' with ⟨rfl, rfl⟩ | ⟨-, hr'⟩
    · rw [hr] at hr₁
      cases hr₁
      rw [htask] at htask₁
      cases htask₁
      cases htask'
      rw [hbefore] at hafter
      cases hafter
    · exact hsame hr'

/-- The clean-up behind the session `id` empties the slot only of that session. -/
theorem cleanUp_slot (h : w.step (.cleanUp id) = some (t, os)) :
    (∃ r task, w.requests id = some r ∧ r.task = some task ∧ task.finished = true) ∧
      t.activeSession = if w.occupies id then none else w.activeSession := by
  obtain ⟨r, hr, hreq⟩ := Option.bind_eq_some_iff.mp h
  obtain ⟨task, htask, htaskstep⟩ := Option.bind_eq_some_iff.mp hreq
  have hstep : w.stepCleanUp id r task = some (t, os) := htaskstep
  unfold stepCleanUp at hstep
  by_cases hguard : (task.finished && !task.cleaned) = true
  · rw [if_pos hguard] at hstep
    cases hstep
    rw [Bool.and_eq_true] at hguard
    exact ⟨⟨r, task, hr, htask, hguard.1⟩, rfl⟩
  · rw [if_neg hguard] at hstep
    cases hstep

/-- The slot is emptied by a preemption or by the clean-up behind the session in it, and
    filled only when it is empty. -/
theorem slot_changes (h : w.step e = some (t, os)) (hne : t.activeSession ≠ w.activeSession) :
    (∃ a, w.activeSession = some a ∧ t.activeSession = none ∧
      ((∃ new, .preempt a.sessionId new ∈ os) ∨ e = .cleanUp a.sessionId)) ∨
    (w.activeSession = none ∧ ∃ a, t.activeSession = some a ∧ .started a.sessionId ∈ os) := by
  cases step_kind h with
  | settles _ hactive => exact absurd hactive hne
  | admits => exact absurd rfl hne
  | moves => exact absurd rfl hne
  | @preempts id r taken a owner _ _ ha => exact .inl ⟨a, ha, rfl, .inl ⟨id, List.mem_cons_self⟩⟩
  | installs _ _ ha => exact .inr ⟨ha, _, rfl, List.mem_cons_self⟩
  | @cleans id r task he =>
    subst he
    by_cases hocc : w.occupies id = true
    · obtain ⟨a, ha, hid⟩ := occupies_iff.mp hocc
      exact .inl ⟨a, ha, by simp [hocc], .inr (by rw [hid])⟩
    · exact absurd (by simp [hocc]) hne

/-- What one step of the orchestrator may do to the slot. -/
structure SlotDiscipline (w : Orchestrator) (e : OrchestratorEvent) (t : Orchestrator)
    (os : List OrchestratorEffect) : Prop where
  /-- A running session that was not taken out is the one in the slot, -/
  occupant : ∀ id source, t.Unpreempted id source →
    t.activeSession = some { source, sessionId := id }
  /-- so there is at most one. -/
  one : ∀ id source id' source', t.Unpreempted id source → t.Unpreempted id' source' → id = id'
  /-- It is taken out only for a request that may preempt its source, -/
  preempts : ∀ old new, .preempt old new ∈ os → ∃ r r', w.requests old = some r ∧
    w.activeSession = some { source := r.source, sessionId := old } ∧
    w.requests new = some r' ∧ MayPreempt r'.source r.source
  /-- and without a cancellation only so is its token set. -/
  cancels : ∀ id, e.cancels = false → w.sessionCancelled id = some false →
    t.sessionCancelled id = some true → ∃ new, .preempt id new ∈ os
  /-- The clean-up behind a session leaves another session in the slot alone. -/
  clears : ∀ id a, e = .cleanUp id → w.activeSession = some a → a.sessionId ≠ id →
    t.activeSession = some a
  changes : t.activeSession ≠ w.activeSession →
    (∃ a, w.activeSession = some a ∧ t.activeSession = none ∧
      ((∃ new, .preempt a.sessionId new ∈ os) ∨ e = .cleanUp a.sessionId)) ∨
    (w.activeSession = none ∧ ∃ a, t.activeSession = some a ∧ .started a.sessionId ∈ os)

theorem slot_discipline (hw : w.Reachable) (h : w.step e = some (t, os)) :
    SlotDiscipline w e t os := by
  have hI := reachable_inv hw
  have hI' := inv_step hI h
  refine ⟨fun _ _ => hI'.unpreempted, fun id source id' source' hid hid' => ?_,
    fun old new hmem => ?_, fun id => cancelled_by_preemption hI h, fun id a he ha hne => ?_,
    slot_changes h⟩
  · have hslot := hI'.unpreempted hid
    rw [hI'.unpreempted hid'] at hslot
    cases hslot
    rfl
  · obtain ⟨a, r', ha, rfl, hr', -, hmay⟩ := preempt_allowed h hmem
    obtain ⟨r, task, hr, -, hsource, -⟩ := hI.active ha
    exact ⟨r, r', hr, by rw [ha, hsource], hr', hsource ▸ hmay⟩
  · subst he
    rw [(cleanUp_slot h).2, if_neg, ha]
    intro hocc
    obtain ⟨a', ha', hid⟩ := occupies_iff.mp hocc
    rw [ha] at ha'
    cases ha'
    exact hne hid

/-- An automatic login runs and a manual one has the gate. -/
def sampleContest : List OrchestratorEvent :=
  [.submit .auto "campus", .lockGate 0, .decide 0, .install 0 sampleParams,
   .submit .manual "campus", .lockGate 1]

/-- The manual login takes the automatic one out of the slot. -/
theorem slot_discipline_sample : ∃ (w t : Orchestrator) (os : List OrchestratorEffect),
    w.Reachable ∧ w.step (.decide 1) = some (t, os) ∧ ∃ r r' : Request, w.requests 0 = some r ∧
      w.activeSession = some { source := r.source, sessionId := 0 } ∧
      w.requests 1 = some r' ∧ MayPreempt r'.source r.source := by
  have hrun : (orchestratorMachine.exec {} sampleContest).any
      (fun s => (s.1.step (.decide 1)).any fun d =>
        d.2.any fun | .preempt 0 1 => true | _ => false) = true := by
    decide +kernel
  obtain ⟨w, os₀, hw, hdecide⟩ := Machine.steps_of_any hrun
  obtain ⟨⟨t, os⟩, hstep, hpreempt⟩ := (Option.any_eq_true ..).mp hdecide
  obtain ⟨o, ho, hshape⟩ := List.any_eq_true.mp hpreempt
  have hmem : .preempt 0 1 ∈ os := by
    split at hshape
    · exact ho
    · cases hshape
  exact ⟨w, t, os, ⟨_, _, hw⟩, hstep,
    (slot_discipline ⟨_, _, hw⟩ hstep).preempts 0 1 hmem⟩

end Orchestrator
end CampusAuth.Login
