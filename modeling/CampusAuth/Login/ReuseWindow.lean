import CampusAuth.Login.OrchestratorInvariant
import CampusAuth.Login.SessionAccount

/- The handle a submit gets that reuses the session in the slot (`login/mod.rs`, `submit`,
   `spawn_session_task`; `login/session.rs`, `emit`).

   A session writes its result first, then records it, closes its browser and is cleaned up;
   until then it stays in the slot. A submit that may not preempt it gets a session without a
   result exactly when it decides before that (`reuses_live_iff`). -/
namespace CampusAuth.Login
open Lib Status

/-- The session is past its result, or it panicked. -/
def SessionTask.ended (task : SessionTask) : Bool := !task.session.phase.running || task.panicked

/-- A result is there only behind the end of the session. -/
def SessionTask.Wrote (task : SessionTask) : Prop := task.result ≠ none → task.ended = true

namespace Orchestrator
variable {w t : Orchestrator} {e : OrchestratorEvent} {id : Nat} {r : Request}
  {os : List OrchestratorEffect}

/-- Every session of `w` has written its result only behind its end. -/
def Written (w : Orchestrator) : Prop :=
  ∀ id r task, w.requests id = some r → r.task = some task → task.Wrote

/-- The sessions of `t` are those of `w`, as far as phase and result go. -/
def Agrees (w t : Orchestrator) : Prop :=
  ∀ id r' task', t.requests id = some r' → r'.task = some task' →
    ∃ r task, w.requests id = some r ∧ r.task = some task ∧
      task'.session.phase = task.session.phase ∧ task'.panicked = task.panicked ∧
      task'.result = task.result

theorem Written.agrees (hw : Written w) (h : Agrees w t) : Written t := by
  intro id r' task' hr' htask' hresult
  obtain ⟨r, task, hr, htask, hphase, hpanicked, heq⟩ := h _ _ _ hr' htask'
  have hended := hw _ _ _ hr htask (heq ▸ hresult)
  rw [SessionTask.ended, hphase, hpanicked]
  exact hended

theorem agrees_setStage (hr : w.requests id = some r) (stage : SubmitStage) :
    Agrees w (w.setStage id r stage) := by
  intro j r' task' hr' htask'
  rcases of_update hr' with ⟨rfl, rfl⟩ | ⟨-, hr'⟩
  · exact ⟨r, task', hr, htask', rfl, rfl, rfl⟩
  · exact ⟨r', task', hr', htask', rfl, rfl, rfl⟩

theorem stepDecide_agrees (hr : w.requests id = some r) (h : w.stepDecide id r = some (t, os)) :
    Agrees w t := by
  unfold stepDecide at h
  dsimp only at h
  split at h
  · cases h
    exact agrees_setStage hr _
  next active _ =>
    split at h
    · cases h
    next old hold =>
      cases h
      -- the session taken out keeps its phase and its result
      intro j r' task' hr' htask'
      rcases of_update hr' with ⟨rfl, rfl⟩ | ⟨-, hr'⟩
      · exact ⟨r, task', hr, htask', rfl, rfl, rfl⟩
      rcases of_update hr' with ⟨rfl, rfl⟩ | ⟨-, hr'⟩
      · obtain ⟨task₁, htask₁, rfl⟩ := Option.map_eq_some_iff.mp htask'
        obtain ⟨task, htask, rfl⟩ := Option.map_eq_some_iff.mp htask₁
        exact ⟨old, task, hold, htask, rfl, rfl, rfl⟩
      · exact ⟨r', task', hr', htask', rfl, rfl, rfl⟩
  · cases h
    exact agrees_setStage hr _

theorem written_new {session : LoginSession} (h : session.phase = .starting) :
    SessionTask.Wrote { session } := by
  intro hresult
  exact absurd rfl hresult

theorem stepInstall_written {params : SessionParams} (hw : Written w) (hr : w.requests id = some r)
    (h : w.stepInstall id r params = some (t, os)) : Written t := by
  unfold stepInstall at h
  split at h
  · cases h
    intro j r' task' hr' htask'
    rcases of_update hr' with ⟨rfl, rfl⟩ | ⟨-, hr'⟩
    · cases htask'
      exact written_new rfl
    · exact hw _ _ _ hr' htask'
  · cases h
    exact hw.agrees (agrees_setStage hr _)

theorem stepSubmit_written (hw : Written w) (hr : w.requests id = some r)
    (h : w.stepSubmit id r e = some (t, os)) : Written t := by
  have hstage : ∀ stage, Written (w.setStage id r stage) := fun stage =>
    hw.agrees (agrees_setStage hr stage)
  cases e with
  | decide =>
    unfold stepSubmit at h
    dsimp only at h
    split at h
    · exact hw.agrees (stepDecide_agrees hr h)
    · cases h
  | install _ params =>
    unfold stepSubmit at h
    dsimp only at h
    split at h
    · exact stepInstall_written hw hr h
    · cases h
  | drop =>
    unfold stepSubmit at h
    dsimp only at h
    split at h
    · cases h; exact hstage _
    · cases h
  | refuse | lockGate | planMissing | ret =>
    unfold stepSubmit at h
    dsimp only at h
    split at h
    · cases h; exact hstage _
    · cases h
  | abandon | waitCancelled | waitFinished | waitTimedOut =>
    unfold stepSubmit at h
    dsimp only at h
    split at h
    · split at h
      · cases h; exact hstage _
      · cases h
    · cases h
  | submit | poll | panic | finish | cleanUp | cancelCurrent | cancelAutoPending | cancelHandle
  | shutdown | advance => cases h

/-- A poll leaves a result only where it ends the session. -/
theorem poll_wrote {task : SessionTask} {p : SessionPoll} {session : LoginSession}
    {effects : List SessionEffect} (hw : task.Wrote) (hpanicked : task.panicked = false)
    (h : task.session.poll p = some (session, effects)) :
    SessionTask.Wrote { task with
      session, result := effects.findSome? SessionEffect.result? <|> task.result } := by
  intro hresult
  have hfound : effects.findSome? SessionEffect.result? = (results effects).head? :=
    (List.head?_filterMap ..).symm
  rw [SessionTask.ended, hpanicked, Bool.or_false, Bool.not_eq_true']
  cases hrun : task.session.phase.running with
  | false => exact (over_step (e := .poll p) hrun h).1
  | true =>
    have hnone : task.result = none := by
      by_contra hsome
      have := hw hsome
      rw [SessionTask.ended, hrun, hpanicked] at this
      cases this
    cases LoginSession.poll_kind h with
    | ends he => rw [he.phase]; rfl
    | waits => exact absurd hnone hresult
    | sends _ _ hres => rw [hfound, hres, hnone] at hresult; exact absurd rfl hresult
    | moves _ hsilent => rw [hfound, hsilent.results, hnone] at hresult; exact absurd rfl hresult
    | verifies hv => rw [hfound, hv.results, hnone] at hresult; exact absurd rfl hresult
    | retries hr => rw [hfound, hr.results, hnone] at hresult; exact absurd rfl hresult

theorem written_setTask {task' : SessionTask} (hw : Written w) (h : task'.Wrote) :
    Written (w.setRequest id { r with task := some task' }) := by
  intro j r' task hr' htask
  rcases of_update hr' with ⟨rfl, rfl⟩ | ⟨-, hr'⟩
  · cases htask
    exact h
  · exact hw _ _ _ hr' htask

theorem stepTask_written {task : SessionTask} (hw : Written w) (hr : w.requests id = some r)
    (htask : r.task = some task) (h : w.stepTask id r task e = some (t, os)) : Written t := by
  have hwrote := hw _ _ _ hr htask
  cases e with
  | poll _ p =>
    unfold stepTask stepPoll at h
    dsimp only at h
    split at h
    · cases h
    next hpanicked =>
      split at h
      · cases h
      next session effects hpoll =>
        cases h
        exact written_setTask hw (poll_wrote hwrote (by simpa using hpanicked) hpoll)
  | panic =>
    unfold stepTask stepPanic at h
    dsimp only at h
    split at h
    · cases h
    · cases h
      refine written_setTask hw fun _ => ?_
      rw [SessionTask.ended, Bool.or_true]
  | finish =>
    unfold stepTask stepFinish at h
    dsimp only at h
    split at h
    · cases h
      exact written_setTask hw hwrote
    · cases h
  | cleanUp =>
    unfold stepTask stepCleanUp at h
    dsimp only at h
    split at h
    · cases h
      exact written_setTask hw hwrote
    · cases h
  | submit | refuse | abandon | lockGate | decide | waitCancelled | waitFinished | waitTimedOut
  | planMissing | install | ret | drop | cancelCurrent | cancelAutoPending | cancelHandle
  | shutdown | advance => cases h

theorem written_map {f : Nat → Request → Request} (hw : Written w)
    (hf : ∀ j r task', (f j r).task = some task' → ∃ task, r.task = some task ∧
      task'.session.phase = task.session.phase ∧ task'.panicked = task.panicked ∧
      task'.result = task.result) :
    Written { w with requests := fun j => (w.requests j).map (f j) } := by
  refine hw.agrees fun j r' task' hr' htask' => ?_
  obtain ⟨r, hr, rfl⟩ := Option.map_eq_some_iff.mp hr'
  obtain ⟨task, htask, hsame⟩ := hf j r task' htask'
  exact ⟨r, task, hr, htask, hsame⟩

theorem cancelPicked_task {which : LoginSource → Bool} {reason : String} {task' : SessionTask}
    (h : (w.cancelPicked which reason id r).task = some task') : ∃ task, r.task = some task ∧
      task'.session.phase = task.session.phase ∧ task'.panicked = task.panicked ∧
      task'.result = task.result := by
  unfold cancelPicked at h
  split at h
  · obtain ⟨task, htask, rfl⟩ := Option.map_eq_some_iff.mp h
    exact ⟨task, htask, rfl, rfl, rfl⟩
  · split at h
    · obtain ⟨task, htask, rfl⟩ := Option.map_eq_some_iff.mp h
      exact ⟨task, htask, rfl, rfl, rfl⟩
    · exact ⟨task', h, rfl, rfl, rfl⟩

theorem written_step (hw : Written w) (h : w.step e = some (t, os)) : Written t := by
  cases e with
  | submit source profileId =>
    cases h
    intro j r' task hr' htask
    rcases of_update hr' with ⟨rfl, rfl⟩ | ⟨-, hr'⟩
    · cases htask
    · exact hw _ _ _ hr' htask
  | refuse id | abandon id | lockGate id | decide id | waitCancelled id | waitFinished id
  | waitTimedOut id | planMissing id | install id | ret id | drop id =>
    obtain ⟨r, hr, hstep⟩ := Option.bind_eq_some_iff.mp h
    exact stepSubmit_written hw hr hstep
  | poll id | panic id | finish id | cleanUp id =>
    obtain ⟨r, hr, hreq⟩ := Option.bind_eq_some_iff.mp h
    obtain ⟨task, htask, hstep⟩ := Option.bind_eq_some_iff.mp hreq
    exact stepTask_written hw hr htask hstep
  | cancelCurrent => cases h; exact written_map hw fun _ _ _ => cancelPicked_task
  | cancelAutoPending => cases h; exact written_map hw fun _ _ _ => cancelPicked_task
  | cancelHandle id =>
    obtain ⟨r, hr, hreq⟩ := Option.bind_eq_some_iff.mp h
    obtain ⟨task, htask, hstep⟩ := Option.bind_eq_some_iff.mp hreq
    cases hstep
    refine hw.agrees fun j r' task' hr' htask' => ?_
    rcases of_update hr' with ⟨rfl, rfl⟩ | ⟨-, hr'⟩
    · obtain ⟨task₀, htask₀, rfl⟩ := Option.map_eq_some_iff.mp htask'
      exact ⟨r, task₀, hr, htask₀, rfl, rfl, rfl⟩
    · exact ⟨r', task', hr', htask', rfl, rfl, rfl⟩
  | shutdown =>
    cases h
    refine written_map hw fun _ _ task' htask' => ?_
    obtain ⟨task, htask, rfl⟩ := Option.map_eq_some_iff.mp htask'
    exact ⟨task, htask, rfl, rfl, rfl⟩
  | advance now =>
    unfold step at h
    dsimp only at h
    split at h
    · cases h; exact hw
    · cases h

/-! ## Reusing the session in the slot -/

/-- A session handed out by a decision has not written its result. -/
def ReusesLive (w : Orchestrator) (e : OrchestratorEvent) : Prop :=
  ∀ t os id j, w.step e = some (t, os) → e = .decide id → .returned id (.session j) ∈ os →
    ∃ r task, w.requests j = some r ∧ r.task = some task ∧ task.result = none

/-- A submit that may not preempt decides before the session in the slot comes to its end. -/
def InTime (w : Orchestrator) : OrchestratorEvent → Prop
  | .decide id => ∀ r a, w.requests id = some r → r.stage = .deciding →
      w.activeSession = some a → ¬MayPreempt r.source a.source →
      ∀ ra task, w.requests a.sessionId = some ra → ra.task = some task → task.ended = false
  | _ => True

/-- What a decision that may not preempt hands out. -/
theorem decide_reuses {a : ActiveSession} (hr : w.requests id = some r) (hstage : r.stage = .deciding)
    (ha : w.activeSession = some a) (hmay : ¬MayPreempt r.source a.source) :
    w.step (.decide id) = some (w.leave id r (.returned (.session a.sessionId)),
      [.returned id (.session a.sessionId)]) := by
  have hstep : w.step (.decide id) = w.stepDecide id r := by
    simp only [step, hr, Option.bind_some, stepSubmit, hstage]
  rw [hstep]
  simp only [stepDecide, ha, decide_reuse_of_not _ hmay]

theorem reusesLive_iff (hI : Inv w) (hw : Written w) (e : OrchestratorEvent) :
    ReusesLive w e ↔ InTime w e := by
  cases e with
  | decide id =>
    constructor
    · intro hlive r a hr hstage ha hmay ra task hra htask
      obtain ⟨r', task', hr', htask', hresult⟩ :=
        hlive _ _ id a.sessionId (decide_reuses hr hstage ha hmay) rfl List.mem_cons_self
      rw [hra] at hr'
      cases hr'
      rw [htask] at htask'
      cases htask'
      -- a session at its end has left its result
      by_contra hended
      rw [Bool.not_eq_false, SessionTask.ended, Bool.or_eq_true, Bool.not_eq_true'] at hended
      rcases hended with hover | hpanicked
      · exact (hI.told hra htask).ended hover hresult
      · exact (hI.told hra htask).panicked hpanicked hresult
    · rintro hintime t os id' j h ⟨rfl⟩ hmem
      obtain ⟨r, hr, hstep⟩ := Option.bind_eq_some_iff.mp h
      unfold stepSubmit at hstep
      dsimp only at hstep
      split at hstep
      next hstage =>
        cases ha : w.activeSession with
        | none =>
          simp only [stepDecide, ha] at hstep
          cases hstep
          cases hmem
        | some a =>
          by_cases hmay : MayPreempt r.source a.source
          · simp only [stepDecide, ha, (decide_preempt_iff _ _ _).mpr hmay] at hstep
            split at hstep
            · cases hstep
            · cases hstep
              rcases List.mem_cons.mp hmem with heq | hmem
              · cases heq
              · unfold cancelsAttempt at hmem
                split at hmem
                · rw [List.mem_singleton] at hmem
                  cases hmem
                · cases hmem
          · rw [decide_reuses hr hstage ha hmay] at h
            cases h
            rw [List.mem_singleton] at hmem
            cases hmem
            obtain ⟨ra, task, hra, htask, -⟩ := hI.active ha
            have hended := hintime r a hr hstage ha hmay ra task hra htask
            refine ⟨ra, task, hra, htask, ?_⟩
            by_contra hresult
            exact Bool.noConfusion (hended.symm.trans (hw _ _ _ hra htask hresult))
      · cases hstep
  | _ => exact ⟨fun _ => trivial, fun _ _ _ _ _ _ heq => by cases heq⟩

/-- In a run every submit that reuses a session gets one without a result exactly when none of
    them decides behind the end of the session in the slot. -/
theorem reuses_live_iff (es : List OrchestratorEvent) :
    orchestratorMachine.Along ReusesLive {} es ↔ orchestratorMachine.Along InTime {} es := by
  refine Machine.along_iff (I := fun w => Inv w ∧ Written w) ?_ ?_ ⟨inv_init, ?_⟩
  · exact fun w e hI => reusesLive_iff hI.1 hI.2 e
  · exact fun w e t os hI _ h => ⟨inv_step hI.1 h, written_step hI.2 h⟩
  · intro id r task hr
    cases hr

/-- An automatic login fails and is being recorded when the next one is submitted. -/
def failedThenSubmitted : List OrchestratorEvent :=
  [.submit .auto "campus", .lockGate 0, .decide 0, .install 0 sampleParams,
   .poll 0 { now := 0 }, .poll 0 { now := 0 },
   .poll 0 { now := 0, work := some (.inProcess ⟨.invalidCredential, "", .null⟩) },
   .submit .auto "campus", .lockGate 1]

/-- The second submit gets the handle of the login that has failed. -/
theorem reuse_of_ended_session :
    ¬∀ es : List OrchestratorEvent, orchestratorMachine.Along ReusesLive {} es := by
  intro hall
  have hrun : (orchestratorMachine.exec {} failedThenSubmitted).any
      (fun s => ((s.1.requests 0).any fun r => r.task.any fun task => task.result.isSome) &&
        (s.1.step (.decide 1)).any fun d =>
          d.2.any fun | .returned 1 (.session 0) => true | _ => false) = true := by
    decide +kernel
  obtain ⟨w, os₀, hw, hend⟩ := Machine.steps_of_any hrun
  rw [Bool.and_eq_true] at hend
  obtain ⟨r, hr, htask⟩ := (Option.any_eq_true ..).mp hend.1
  obtain ⟨task, htask, hresult⟩ := (Option.any_eq_true ..).mp htask
  obtain ⟨⟨t, os⟩, hstep, hreturned⟩ := (Option.any_eq_true ..).mp hend.2
  obtain ⟨o, ho, hshape⟩ := List.any_eq_true.mp hreturned
  have hmem : .returned 1 (.session 0) ∈ os := by
    split at hshape
    · exact ho
    · cases hshape
  have hlive := (hall (failedThenSubmitted ++ [.decide 1])).at hw
  obtain ⟨r', task', hr', htask', hnone⟩ := hlive t os 1 0 hstep rfl hmem
  rw [hr] at hr'
  cases hr'
  rw [htask] at htask'
  cases htask'
  rw [hnone] at hresult
  cases hresult

end Orchestrator
end CampusAuth.Login
