import CampusAuth.Login.OrchestratorInvariant

/- Sessions do not overlap, as long as no submit gives up its wait.

   `Attended` says that a session whose end is still to come is in the slot or waited for.
   A submit that took a session out and then gives up its wait leaves it behind with the
   slot empty: the next submit starts at once (`sessions_overlap`). -/
namespace CampusAuth.Login
open Lib Status

/-- A submit that is cancelled or dropped. -/
def OrchestratorEvent.abandons : OrchestratorEvent → Bool
  | .waitCancelled _ | .drop _ => true
  | _ => false

namespace Orchestrator
variable {w t : Orchestrator} {e : OrchestratorEvent} {id : Nat} {r : Request}
  {os : List OrchestratorEffect}

/-- The session has notified its end, or the budget of the submit that asked it to stop is
    used up. -/
def Settled (w : Orchestrator) (task : SessionTask) : Prop :=
  task.finished = true ∨ ∃ askedAt, task.preemptedAt = some askedAt ∧
    askedAt + preemptWaitBudget ≤ w.now

/-- A submit waits for the session `id`. -/
def Awaited (w : Orchestrator) (id : Nat) : Prop :=
  ∃ g r askedAt owner, w.requests g = some r ∧ r.stage = .waitingOld id askedAt owner

/-- Every session taken out of the slot is settled or waited for. -/
def Attended (w : Orchestrator) : Prop :=
  ∀ id r task, w.requests id = some r → r.task = some task → task.preemptedAt ≠ none →
    w.Settled task ∨ w.Awaited id

theorem attended_init : Attended {} := by
  intro id r task hr
  cases hr

/-- A session that is not in the slot was taken out of it or has finished. -/
theorem Inv.settled_or_slot {task : SessionTask} (hI : Inv w) (hA : Attended w)
    (hr : w.requests id = some r) (htask : r.task = some task) :
    w.Settled task ∨ w.Awaited id ∨
      w.activeSession = some { source := r.source, sessionId := id } := by
  cases hpre : task.preemptedAt with
  | some askedAt =>
    exact (hA id r task hr htask (by rw [hpre]; nofun)).imp (fun h => h) .inl
  | none =>
    cases hclean : task.cleaned with
    | true => exact .inl (.inl (hI.finished hr htask hclean))
    | false => exact .inr (.inr (hI.slot hr htask hpre hclean))

theorem attended_settles {c : Prop} {wrote : Nat → LoginResult → Prop} (hA : Attended w)
    (hreq : ∀ id, Option.Rel (Request.Goes c (wrote id)) (w.requests id) (t.requests id))
    (hnow : w.now ≤ t.now) : Attended t := by
  intro id r' task' hr' htask' hpre
  obtain ⟨r, hr, hg⟩ := goes_back (hr' ▸ hreq id)
  obtain ⟨task, htask, hgt⟩ := task_back hg htask'
  rcases hA id r task hr htask (hgt.preemptedAt ▸ hpre) with (hf | ⟨askedAt, hat, hle⟩) | hwait
  · exact .inl (.inl (hgt.finished hf))
  · exact .inl (.inr ⟨askedAt, hgt.preemptedAt.trans hat, Nat.le_trans hle hnow⟩)
  · obtain ⟨g, rg, askedAt, owner, hrg, hstage⟩ := hwait
    obtain ⟨rg', hrg', hgg⟩ := goes_forth (hrg ▸ hreq g)
    exact .inr ⟨g, rg', askedAt, owner, hrg', hgg.stage.trans hstage⟩

/-- A submit leaves its wait only when it is over. -/
theorem attended_moves {stage : SubmitStage} {gate : Option Nat} (hI : Inv w) (hA : Attended w)
    (hr : w.requests id = some r) (hlive : r.stage.live = true)
    (hleft : ∀ old askedAt owner, r.stage = .waitingOld old askedAt owner →
      w.WaitOver old askedAt) :
    Attended { w.setStage id r stage with submitGate := gate } := by
  have hnone : r.task = none := hI.no_task_of_live hr hlive
  intro j r' task hr₁ htask hpre
  rcases of_update hr₁ with ⟨-, rfl⟩ | ⟨-, hr'⟩
  · rw [hnone] at htask; cases htask
  rcases hA j r' task hr' htask hpre with hset | ⟨g, rg, askedAt, owner, hrg, hstage⟩
  · exact .inl hset
  by_cases hg : g = id
  · subst hg
    rw [hr] at hrg
    cases hrg
    obtain ⟨ro, task₀, hro, htask₀, hat⟩ := hI.waiting hr hstage
    rw [hr'] at hro
    cases hro
    rw [htask] at htask₀
    cases htask₀
    rcases hleft j askedAt owner hstage with hover | hover
    · simp only [oldFinished, hr', Option.bind_some, htask] at hover
      exact .inl (.inl hover)
    · exact .inl (.inr ⟨askedAt, hat, hover⟩)
  · exact .inr ⟨g, rg, askedAt, owner, (Function.update_of_ne hg ..).trans hrg, hstage⟩

theorem attended_step (hI : Inv w) (hA : Attended w) (hkeep : ¬w.GivesUp e)
    (h : w.step e = some (t, os)) : Attended t := by
  cases step_kind h with
  | settles hreq _ _ _ hnow => exact attended_settles hA hreq hnow
  | admits source profileId =>
    intro j r' task hr' htask hpre
    rcases of_update hr' with ⟨rfl, rfl⟩ | ⟨-, hr'⟩
    · cases htask
    · rcases hA j r' task hr' htask hpre with hset | ⟨g, rg, askedAt, owner, hrg, hstage⟩
      · exact .inl hset
      · have := hI.fresh hrg
        exact .inr ⟨g, rg, askedAt, owner, (Function.update_of_ne (by omega) ..).trans hrg, hstage⟩
  | moves hr hnext _ hleft =>
    exact attended_moves hI hA hr hnext.live fun old askedAt owner hstage =>
      (hleft old askedAt owner hstage).resolve_right hkeep
  | @preempts id r old a owner hr hstage ha _ hold =>
    have hin : r.stage.inGate = true := by rw [hstage]; rfl
    have hnone : r.task = none := hI.no_task_of_live hr (by rw [hstage]; rfl)
    intro j r' task hr₁ htask hpre
    rcases of_update hr₁ with ⟨-, rfl⟩ | ⟨-, hr'⟩
    · rw [hnone] at htask; cases htask
    rcases of_update hr' with ⟨rfl, -⟩ | ⟨-, hr'⟩
    · exact .inr ⟨id, _, w.now, owner, Function.update_self .., rfl⟩
    · rcases hA j r' task hr' htask hpre with hset | ⟨g, rg, askedAt, owner', hrg, hstage'⟩
      · exact .inl hset
      -- nobody waits while another submit decides
      · have hg := hI.alone hr hin hrg (by rw [hstage']; rfl)
        subst hg
        rw [hr] at hrg
        cases hrg
        rw [hstage] at hstage'
        cases hstage'
  | @installs id r session hr hstage ha =>
    have hin : r.stage.inGate = true := by rw [hstage]; rfl
    intro j r' task hr' htask hpre
    rcases of_update hr' with ⟨rfl, rfl⟩ | ⟨-, hr'⟩
    · cases htask; exact absurd rfl hpre
    · rcases hA j r' task hr' htask hpre with hset | ⟨g, rg, askedAt, owner, hrg, hstage'⟩
      · exact .inl hset
      · have hg := hI.alone hr hin hrg (by rw [hstage']; rfl)
        subst hg
        rw [hr] at hrg
        cases hrg
        rw [hstage] at hstage'
        cases hstage'
  | @cleans id r task₀ _ hr htask₀ hfinished =>
    intro j r' task hr' htask hpre
    rcases of_update hr' with ⟨rfl, rfl⟩ | ⟨-, hr'⟩
    · cases htask; exact .inl (.inl hfinished)
    · rcases hA j r' task hr' htask hpre with hset | ⟨g, rg, askedAt, owner, hrg, hstage⟩
      · exact .inl hset
      · by_cases hg : g = id
        · subst hg
          rw [hr] at hrg
          cases hrg
          exact .inr ⟨g, _, askedAt, owner, Function.update_self .., hstage⟩
        · exact .inr ⟨g, rg, askedAt, owner, (Function.update_of_ne hg ..).trans hrg, hstage⟩

/-- A session starts only when every other one is settled. -/
theorem started_settled (hI : Inv w) (hA : Attended w) (h : w.step e = some (t, os))
    (hstart : .started id ∈ os) {other : Nat} {task : SessionTask}
    (hr : w.requests other = some r) (htask : r.task = some task) : w.Settled task := by
  cases step_kind h with
  | settles _ _ _ _ _ hlocal => exact False.elim (hlocal _ hstart)
  | admits => exact absurd hstart List.not_mem_nil
  | moves _ _ _ _ hlocal => exact False.elim (hlocal _ hstart)
  | preempts =>
    rcases List.mem_cons.mp hstart with heq | hmem
    · cases heq
    · exact False.elim (cancelsAttempt_local (w := w) (e := e) _ _ hmem)
  | @installs id r₁ session hr₁ hstage ha =>
    rcases hI.settled_or_slot hA hr htask with hset | ⟨g, rg, askedAt, owner, hrg, hwait⟩ | hslot
    · exact hset
    · -- the starting submit has the gate, so nobody waits
      have hg := hI.alone hr₁ (by rw [hstage]; rfl) hrg (by rw [hwait]; rfl)
      subst hg
      rw [hr₁] at hrg
      cases hrg
      rw [hstage] at hwait
      cases hwait
    · rw [ha] at hslot
      cases hslot
  | cleans => exact absurd hstart List.not_mem_nil

/-- Along a run on which no submit gives up its wait, no session is left behind. -/
theorem attended_run {es : List OrchestratorEvent} (h : orchestratorMachine.Steps {} es os w)
    (hkeep : orchestratorMachine.Along (fun w e => ¬w.GivesUp e) {} es) : Inv w ∧ Attended w :=
  h.invariant (I := fun w => Inv w ∧ Attended w)
    (fun hI hC hs => ⟨inv_step hI.1 hs, attended_step hI.1 hI.2 hC hs⟩) hkeep
    ⟨inv_init, attended_init⟩

/-- Over every run on which no submit gives up its wait for a session that has neither
    finished nor used up the budget: when a session starts, every session started before
    has notified its end or has been asked to stop a whole budget ago. -/
theorem sessions_do_not_overlap {es : List OrchestratorEvent} {os₀ : List OrchestratorEffect}
    (h : orchestratorMachine.Steps {} es os₀ w)
    (hkeep : orchestratorMachine.Along (fun w e => ¬w.GivesUp e) {} es)
    (hs : w.step e = some (t, os)) (hstart : .started id ∈ os) :
    ∀ other r task, w.requests other = some r → r.task = some task →
      task.finished = true ∨ ∃ askedAt, task.preemptedAt = some askedAt ∧
        askedAt + preemptWaitBudget ≤ w.now := by
  intro other r task hr htask
  obtain ⟨hI, hA⟩ := attended_run h hkeep
  exact started_settled hI hA hs hstart hr htask

theorem not_givesUp (h : OrchestratorEvent.abandons e = false) : ¬w.GivesUp e := by
  rintro ⟨id, r, old, askedAt, owner, rfl | rfl, -⟩ <;> cases h

/-- A manual login takes an automatic one out of the slot and waits until its task has
    finished. -/
def sampleHandover : List OrchestratorEvent :=
  [.submit .auto "campus", .lockGate 0, .decide 0, .install 0 sampleParams, .poll 0 { now := 0 },
   .submit .manual "campus", .lockGate 1, .decide 1, .poll 0 { now := 0 },
   .poll 0 { now := 0, ioReady := true }, .finish 0, .waitFinished 1]

theorem sessions_do_not_overlap_sample :
    ∃ (w t : Orchestrator) (os : List OrchestratorEffect), w.Reachable ∧
      w.step (.install 1 sampleParams) = some (t, os) ∧ .started 1 ∈ os ∧
      ∀ other r task, w.requests other = some r → r.task = some task →
        task.finished = true ∨ ∃ askedAt, task.preemptedAt = some askedAt ∧
          askedAt + preemptWaitBudget ≤ w.now := by
  have hrun : (orchestratorMachine.exec {} sampleHandover).any
      (fun s => (s.1.step (.install 1 sampleParams)).any fun d =>
        d.2.any fun | .started 1 => true | _ => false) = true := by
    decide +kernel
  obtain ⟨w, os₀, hw, hinstall⟩ := Machine.steps_of_any hrun
  obtain ⟨⟨t, os⟩, hstep, hstarted⟩ := (Option.any_eq_true ..).mp hinstall
  obtain ⟨o, ho, hshape⟩ := List.any_eq_true.mp hstarted
  have hmem : .started 1 ∈ os := by
    split at hshape
    · exact ho
    · cases hshape
  have hkeep : orchestratorMachine.Along (fun w e => ¬w.GivesUp e) {} sampleHandover :=
    (Machine.along_of_forall (C := fun e => OrchestratorEvent.abandons e = false)
      (by decide)).mono fun _ _ => not_givesUp
  exact ⟨w, t, os, ⟨_, _, hw⟩, hstep, hmem, sessions_do_not_overlap hw hkeep hstep hmem⟩

/-- The manual login is cancelled while the automatic one still closes its browser, and a
    third one is submitted. -/
def sampleAbandonment : List OrchestratorEvent :=
  [.submit .auto "campus", .lockGate 0, .decide 0,
   .install 0 { sampleParams with plan := .browser [] },
   .poll 0 { now := 0 }, .poll 0 { now := 0 }, .poll 0 { now := 0 },
   .submit .manual "campus", .lockGate 1, .decide 1, .poll 0 { now := 0 },
   .poll 0 { now := 0, ioReady := true, hasLiveWorker := true },
   .advance 1000, .cancelCurrent, .waitCancelled 1, .ret 1,
   .submit .manual "campus", .lockGate 2, .decide 2]

/-- The third session starts although the first has not finished and only a second of the
    budget has gone by. -/
theorem sessions_overlap :
    ¬∀ (w t : Orchestrator) (e : OrchestratorEvent) (os : List OrchestratorEffect) (id : Nat),
      w.Reachable → w.step e = some (t, os) → .started id ∈ os →
      ∀ other r task, w.requests other = some r → r.task = some task →
        task.finished = true ∨ ∃ askedAt, task.preemptedAt = some askedAt ∧
          askedAt + preemptWaitBudget ≤ w.now := by
  intro hall
  have hrun : (orchestratorMachine.exec {} sampleAbandonment).any
      (fun s => decide (s.1.now = 1000) &&
        ((s.1.requests 0).any fun r => r.task.any fun task =>
          !task.finished && decide (task.preemptedAt = some 0)) &&
        (s.1.step (.install 2 sampleParams)).any fun d =>
          d.2.any fun | .started 2 => true | _ => false) = true := by
    decide +kernel
  obtain ⟨w, os₀, hw, hend⟩ := Machine.steps_of_any hrun
  simp only [Bool.and_eq_true, decide_eq_true_eq] at hend
  obtain ⟨⟨hnow, htask⟩, hinstall⟩ := hend
  obtain ⟨r, hr, htask⟩ := (Option.any_eq_true ..).mp htask
  obtain ⟨task, htask, hopen⟩ := (Option.any_eq_true ..).mp htask
  simp only [Bool.and_eq_true, Bool.not_eq_true', decide_eq_true_eq] at hopen
  obtain ⟨⟨t, os⟩, hstep, hstarted⟩ := (Option.any_eq_true ..).mp hinstall
  obtain ⟨o, ho, hshape⟩ := List.any_eq_true.mp hstarted
  have hmem : .started 2 ∈ os := by
    split at hshape
    · exact ho
    · cases hshape
  rcases hall w t _ os 2 ⟨_, _, hw⟩ hstep hmem 0 r task hr htask with hfinished | ⟨askedAt, hat, hle⟩
  · rw [hopen.1] at hfinished
    cases hfinished
  · rw [hopen.2] at hat
    cases hat
    rw [hnow] at hle
    exact absurd hle (by decide)

end Orchestrator
end CampusAuth.Login
