import CampusAuth.Login.Orchestrator
import CampusAuth.Login.SessionOutcome

/- The kinds of steps of the orchestrator and its invariant.

   `step_kind` sorts the steps: one that leaves every submit where it is, the admission of
   a request, one submit going on to another stage, the preemption, the start of a
   session, the clean-up behind one. `Inv` says who holds the gate, that the slot is empty
   behind a decision, and that the slot holds exactly the session that is neither
   preempted nor cleaned up. -/
namespace CampusAuth.Login
open Lib Status

/-! ## Kinds of steps -/

/-- The events of a user or of the engine that cancel requests. -/
def OrchestratorEvent.cancels : OrchestratorEvent → Bool
  | .cancelCurrent | .cancelAutoPending _ | .cancelHandle _ => true
  | _ => false

/-- The request whose submit or task takes the step. -/
def OrchestratorEvent.target : OrchestratorEvent → Option Nat
  | .refuse id _ | .abandon id | .lockGate id | .decide id | .waitCancelled id | .waitFinished id
  | .waitTimedOut id | .planMissing id | .install id _ | .ret id | .drop id | .poll id _
  | .panic id | .finish id | .cleanUp id | .cancelHandle id => some id
  | .submit _ _ | .cancelCurrent | .cancelAutoPending _ | .shutdown | .advance _ => none

/-- What a step may emit that neither fills nor empties the slot for another request. -/
def OrchestratorEffect.Local (w : Orchestrator) (e : OrchestratorEvent) : OrchestratorEffect → Prop
  | .preempt _ _ | .started _ => False
  | .session id effect => ∃ p r task s effects, e = .poll id p ∧ w.requests id = some r ∧
      r.task = some task ∧ task.session.poll { p with now := w.now } = some (s, effects) ∧
      effect ∈ effects
  | .setResult id _ => e = .panic id
  | .returned id (.immediate result) =>
    result.terminal = .cancelled ∨ ∃ r, w.requests id = some r ∧ r.stage = .ending result
  | _ => True

/-- The effects write the result into the slot of the session `id`. -/
def Wrote (os : List OrchestratorEffect) (id : Nat) (result : LoginResult) : Prop :=
  .session id (.setResult result) ∈ os ∨ .setResult id result ∈ os

/-- A session that is over has left its result. -/
structure SessionTask.Told (task : SessionTask) : Prop where
  ended : task.session.phase.running = false → task.result ≠ none
  panicked : task.panicked = true → task.result ≠ none
  finished : task.finished = true → task.over = true

/-- What a session's task keeps and what it can only gain; `c` allows its cancellation,
    `wrote` holds of the results written. -/
structure SessionTask.Goes (c : Prop) (wrote : LoginResult → Prop) (t t' : SessionTask) :
    Prop where
  params : t'.session.params = t.session.params
  cancelToken : t.session.cancelToken = true → t'.session.cancelToken = true
  uncancelled : ¬c → t'.session.cancelToken = t.session.cancelToken
  preemptedAt : t'.preemptedAt = t.preemptedAt
  finished : t.finished = true → t'.finished = true
  cleaned : t'.cleaned = t.cleaned
  result : ∀ r, t'.result = some r → t.result = some r ∨ wrote r
  told : t.Told → t'.Told

theorem SessionTask.Goes.refl {c : Prop} {wrote : LoginResult → Prop} (t : SessionTask) :
    t.Goes c wrote t :=
  ⟨rfl, id, fun _ => rfl, rfl, id, rfl, fun _ => .inl, id⟩

/-- Setting tokens and the reason keeps everything else. -/
theorem SessionTask.goes_touch {c : Prop} {wrote : LoginResult → Prop} (t : SessionTask)
    {session : LoginSession} (hparams : session.params = t.session.params)
    (hphase : session.phase = t.session.phase)
    (hcancel : t.session.cancelToken = true → session.cancelToken = true)
    (hsame : ¬c → session.cancelToken = t.session.cancelToken) :
    t.Goes c wrote { t with session } where
  params := hparams
  cancelToken := hcancel
  uncancelled := hsame
  preemptedAt := rfl
  finished := id
  cleaned := rfl
  result := fun _ => .inl
  told := fun h => ⟨fun hend => h.ended (hphase ▸ hend), h.panicked, fun hf => by
    have hover := h.finished hf
    unfold SessionTask.over at hover ⊢
    rwa [hphase]⟩

/-- The request stays at its stage; its task goes on. -/
structure Request.Goes (c : Prop) (wrote : LoginResult → Prop) (r r' : Request) : Prop where
  source : r'.source = r.source
  stage : r'.stage = r.stage
  cancelToken : r.cancelToken = true → r'.cancelToken = true
  task : Option.Rel (SessionTask.Goes c wrote) r.task r'.task

theorem Request.Goes.refl {c : Prop} {wrote : LoginResult → Prop} (r : Request) :
    r.Goes c wrote r := by
  refine ⟨rfl, rfl, id, ?_⟩
  cases r.task
  · exact .none
  · exact .some (.refl _)

/-- The old session has finished or its budget is used up. -/
def Orchestrator.WaitOver (w : Orchestrator) (old askedAt : Nat) : Prop :=
  w.oldFinished old = true ∨ askedAt + preemptWaitBudget ≤ w.now

/-- A submit that took a session out of the slot gives up its wait for it, by its token or
    because its caller drops it, while the wait is not over. -/
def Orchestrator.GivesUp (w : Orchestrator) (e : OrchestratorEvent) : Prop :=
  ∃ id r old askedAt owner, (e = .waitCancelled id ∨ e = .drop id) ∧
    w.requests id = some r ∧ r.stage = .waitingOld old askedAt owner ∧ ¬w.WaitOver old askedAt

/-- The stages a submit goes on to, without the decision to preempt and the start of its
    session. -/
inductive SubmitStage.Next (w : Orchestrator) : SubmitStage → SubmitStage → Prop
  | refused (result : LoginResult) : result.terminal ≠ .success →
      Next w .preparing (.ending result)
  | gated : Next w .preparing .deciding
  | reuses (a : Nat) : Next w .deciding (.returned (.session a))
  | creates : w.activeSession = none → Next w .deciding .creating
  | cancelled (old askedAt : Nat) (owner : Option String) (result : LoginResult) :
      result.terminal = .cancelled → Next w (.waitingOld old askedAt owner) (.ending result)
  | waited (old askedAt : Nat) (owner : Option String) : w.WaitOver old askedAt →
      Next w (.waitingOld old askedAt owner) .creating
  | unplanned (result : LoginResult) : result.terminal ≠ .success →
      Next w .creating (.ending result)
  | superseded (result : LoginResult) : w.activeSession ≠ none →
      Next w .creating (.returned (.immediate result))
  | returns (result : LoginResult) : Next w (.ending result) (.returned (.immediate result))
  | dropped (stage : SubmitStage) : stage.live = true → Next w stage .dropped

/-- The gate passes only to the request that takes it and only from the one that lets go. -/
structure GateMoves (w : Orchestrator) (id : Nat) (old stage : SubmitStage) (gate : Option Nat) :
    Prop where
  holds : stage.inGate = true → gate = some id ∨ (old.inGate = true ∧ gate = w.submitGate)
  others : ∀ j, j ≠ id → w.submitGate = some j → gate = some j

inductive StepKind (w : Orchestrator) (e : OrchestratorEvent) :
    Orchestrator → List OrchestratorEffect → Prop
  | settles {t : Orchestrator} {os : List OrchestratorEffect}
      (requests : ∀ id, Option.Rel (Request.Goes (e.cancels = true) (Wrote os id))
        (w.requests id) (t.requests id))
      (active : t.activeSession = w.activeSession) (gate : t.submitGate = w.submitGate)
      (next : t.nextSessionId = w.nextSessionId) (now : w.now ≤ t.now)
      (local_ : ∀ o ∈ os, o.Local w e) : StepKind w e t os
  | admits (source : LoginSource) (profileId : String) :
      StepKind w e { w.setRequest w.nextSessionId { source, profileId } with
        nextSessionId := w.nextSessionId + 1 } []
  | moves {id : Nat} {r : Request} {stage : SubmitStage} {gate : Option Nat}
      {os : List OrchestratorEffect} (request : w.requests id = some r)
      (next : SubmitStage.Next w r.stage stage) (moved : GateMoves w id r.stage stage gate)
      (left : ∀ old askedAt owner, r.stage = .waitingOld old askedAt owner →
        w.WaitOver old askedAt ∨ w.GivesUp e)
      (local_ : ∀ o ∈ os, o.Local w e) :
      StepKind w e { w.setStage id r stage with submitGate := gate } os
  | preempts {id : Nat} {r old : Request} {a : ActiveSession} {owner : Option String}
      (request : w.requests id = some r) (stage : r.stage = .deciding)
      (active : w.activeSession = some a) (may : MayPreempt r.source a.source)
      (taken : w.requests a.sessionId = some old) :
      StepKind w e ((({ w with activeSession := none } : Orchestrator).setRequest a.sessionId
          (w.takeOut old)).setStage id r (.waitingOld a.sessionId w.now owner))
        (.preempt a.sessionId id :: Orchestrator.cancelsAttempt old)
  | installs {id : Nat} {r : Request} {session : LoginSession}
      (request : w.requests id = some r) (stage : r.stage = .creating)
      (active : w.activeSession = none) (source : session.params.source = r.source)
      (cancelToken : session.cancelToken = r.cancelToken) (new : session.phase = .starting) :
      StepKind w e
        { w.leave id { r with task := some { session } } (.returned (.session id)) with
          activeSession := some { source := r.source, sessionId := id } }
        [.started id, .returned id (.session id)]
  | cleans {id : Nat} {r : Request} {task : SessionTask} (event : e = .cleanUp id)
      (request : w.requests id = some r) (spawned : r.task = some task)
      (finished : task.finished = true) :
      StepKind w e { w.setRequest id { r with task := some { task with cleaned := true } } with
        activeSession := if w.occupies id then none else w.activeSession } []

/-- A session that stops running has written its result. -/
theorem LoginSession.results_of_ended {s t : LoginSession} {p : SessionPoll}
    {os : List SessionEffect} (h : s.poll p = some (t, os)) (hrun : s.phase.running = true)
    (hend : t.phase.running = false) : results os ≠ [] := by
  have hstill (heq : t.phase.running = true) : results os ≠ [] := by
    rw [heq] at hend; cases hend
  cases poll_kind h with
  | waits => exact hstill hrun
  | sends => exact hstill rfl
  | moves _ _ _ hnext => exact hstill (hnext.running.trans hrun)
  | verifies hv => exact hstill (SessionPhase.isVerifying_facts hv.phase).1
  | retries hr => exact hstill (SessionPhase.isRetrying_facts hr.phase).1
  | ends he => rw [he.results]; nofun

namespace Orchestrator
variable {w t : Orchestrator} {e : OrchestratorEvent} {id : Nat} {r : Request}
  {os : List OrchestratorEffect}

theorem releaseGate_others (w : Orchestrator) (id : Nat) :
    ∀ j, j ≠ id → w.submitGate = some j → w.releaseGate id = some j := by
  intro j hj hgate
  rw [releaseGate, hgate, if_neg fun h => hj (Option.some.inj h)]

theorem local_nil : ∀ o ∈ ([] : List OrchestratorEffect), o.Local w e :=
  fun _ ho => absurd ho List.not_mem_nil

/-- A step that leaves every request but `id` alone. -/
theorem settles_one {r' : Request} (hr : w.requests id = some r)
    (hgoes : r.Goes (e.cancels = true) (Wrote os id) r') (hlocal : ∀ o ∈ os, o.Local w e) :
    StepKind w e (w.setRequest id r') os := by
  refine .settles (fun j => ?_) rfl rfl rfl (Nat.le_refl _) hlocal
  by_cases hj : j = id
  · subst hj
    rw [hr]
    simpa [setRequest] using hgoes
  · simp only [setRequest, Function.update_of_ne hj]
    cases w.requests j
    · exact .none
    · exact .some (.refl _)

/-- The task of one session goes on. -/
theorem settles_task {task task' : SessionTask} (hr : w.requests id = some r)
    (htask : r.task = some task) (hgoes : task.Goes (e.cancels = true) (Wrote os id) task')
    (hlocal : ∀ o ∈ os, o.Local w e) :
    StepKind w e (w.setRequest id { r with task := some task' }) os :=
  settles_one hr ⟨rfl, rfl, fun h => h, htask ▸ .some hgoes⟩ hlocal

/-- A submit goes on and the gate stays where it is. -/
theorem moves_within {stage : SubmitStage} (hr : w.requests id = some r)
    (hnext : SubmitStage.Next w r.stage stage)
    (hgate : stage.inGate = true → r.stage.inGate = true)
    (hleft : ∀ old askedAt owner, r.stage = .waitingOld old askedAt owner →
      w.WaitOver old askedAt ∨ w.GivesUp e)
    (hlocal : ∀ o ∈ os, o.Local w e) :
    StepKind w e (w.setStage id r stage) os :=
  @StepKind.moves w e id r stage w.submitGate os hr hnext
    ⟨fun h => .inr ⟨hgate h, rfl⟩, fun _ _ hg => hg⟩ hleft hlocal

theorem moves_endWith {h : LoginResult × List OrchestratorEffect} (hr : w.requests id = some r)
    (hnext : SubmitStage.Next w r.stage (.ending h.1))
    (hleft : ∀ old askedAt owner, r.stage = .waitingOld old askedAt owner →
      w.WaitOver old askedAt ∨ w.GivesUp e)
    (hlocal : ∀ o ∈ h.2, o.Local w e) :
    StepKind w e (w.endWith id r h).1 (w.endWith id r h).2 :=
  moves_within hr hnext nofun hleft hlocal

theorem immediate_local (r : Request) (terminal : LoginTerminal) (status : LoginStatus)
    (history : HistoryResult) (message historyMessage : String) :
    ∀ o ∈ (immediate r terminal status history message historyMessage).2,
      o.Local w e := by
  intro o ho
  simp only [immediate, List.mem_cons, List.not_mem_nil, or_false] at ho
  rcases ho with rfl | rfl <;> exact trivial

/-- A submit whose future ends lets go of the gate. -/
theorem moves_leave {stage : SubmitStage} (hr : w.requests id = some r)
    (hnext : SubmitStage.Next w r.stage stage) (hgate : stage.inGate = false)
    (hleft : ∀ old askedAt owner, r.stage = .waitingOld old askedAt owner →
      w.WaitOver old askedAt ∨ w.GivesUp e)
    (hlocal : ∀ o ∈ os, o.Local w e) :
    StepKind w e (w.leave id r stage) os :=
  .moves hr hnext ⟨fun h => absurd h (by rw [hgate]; nofun), w.releaseGate_others id⟩ hleft hlocal

theorem stepDecide_kind (hr : w.requests id = some r) (hstage : r.stage = .deciding)
    (h : w.stepDecide id r = some (t, os)) :
    StepKind w e t os := by
  have hleft : ∀ old askedAt owner, r.stage = .waitingOld old askedAt owner →
      w.WaitOver old askedAt ∨ w.GivesUp e := by rw [hstage]; nofun
  unfold stepDecide at h
  cases ha : w.activeSession with
  | none =>
    simp only [ha] at h
    cases h
    exact moves_within hr (hstage ▸ .creates ha) (fun _ => hstage ▸ rfl) hleft local_nil
  | some a =>
    simp only [ha] at h
    by_cases hmay : MayPreempt r.source a.source
    · rw [(decide_preempt_iff _ _ _).mpr hmay] at h
      split at h
      · next heq => cases heq
      · next heq =>
        cases heq
        split at h
        · cases h
        · next old hold =>
          cases h
          exact .preempts hr hstage ha hmay hold
      · next hne => exact absurd rfl (hne a rfl)
    · rw [decide_reuse_of_not _ hmay] at h
      cases h
      refine moves_leave hr (hstage ▸ .reuses _) rfl hleft ?_
      simp [OrchestratorEffect.Local]

theorem stepInstall_kind {params : SessionParams} (hr : w.requests id = some r)
    (hstage : r.stage = .creating) (h : w.stepInstall id r params = some (t, os)) :
    StepKind w e t os := by
  unfold stepInstall at h
  split at h
  · next ha =>
    cases h
    exact .installs hr hstage ha rfl rfl rfl
  · next a ha =>
    cases h
    refine moves_leave hr (hstage ▸ .superseded _ (by rw [ha]; nofun)) rfl ?_ ?_
    · rw [hstage]; nofun
    · simp [OrchestratorEffect.Local]

/-- A submit of `id` that leaves its wait has seen the end of it or gives it up. -/
theorem waitOver_or_givesUp (hr : w.requests id = some r)
    (he : e = .waitCancelled id ∨ e = .drop id) (old askedAt : Nat) (owner : Option String)
    (hstage : r.stage = .waitingOld old askedAt owner) : w.WaitOver old askedAt ∨ w.GivesUp e := by
  by_cases hover : w.WaitOver old askedAt
  · exact .inl hover
  · exact .inr ⟨id, r, old, askedAt, owner, he, hr, hstage, hover⟩

/-- A submit whose wait is over goes on to create its session. -/
theorem moves_waited {old askedAt : Nat} {owner : Option String} (hr : w.requests id = some r)
    (hstage : r.stage = .waitingOld old askedAt owner) (hover : w.WaitOver old askedAt)
    (hlocal : ∀ o ∈ os, o.Local w e) : StepKind w e (w.setStage id r .creating) os := by
  refine moves_within hr (hstage ▸ .waited _ _ _ hover) (fun _ => hstage ▸ rfl) ?_ hlocal
  intro old' askedAt' owner' hstage'
  rw [hstage] at hstage'
  cases hstage'
  exact .inl hover

theorem stepSubmit_kind (hr : w.requests id = some r) (htarget : e.target = some id)
    (h : w.stepSubmit id r e = some (t, os)) : StepKind w e t os := by
  unfold stepSubmit at h
  split at h
  · -- refuse
    split at h <;> cases h
    next hstage =>
    exact moves_endWith hr (hstage ▸ .refused _ nofun) (by rw [hstage]; nofun)
      (immediate_local _ _ _ _ _ _)
  · -- abandon
    split at h
    · next hstage =>
      split at h <;> cases h
      exact moves_endWith hr (hstage ▸ .refused _ nofun) (by rw [hstage]; nofun)
        (immediate_local _ _ _ _ _ _)
    · cases h
  · -- lockGate
    split at h <;> cases h
    next hstage hgate =>
    refine .moves hr (hstage ▸ .gated) ⟨fun _ => .inl rfl, ?_⟩ (by rw [hstage]; nofun) local_nil
    intro j _ hj
    rw [hgate] at hj
    cases hj
  · -- decide
    split at h
    · next hstage => exact stepDecide_kind hr hstage h
    · cases h
  · -- waitCancelled
    cases htarget
    split at h
    · next hstage =>
      split at h <;> cases h
      exact moves_endWith hr (hstage ▸ .cancelled _ _ _ _ rfl)
        (waitOver_or_givesUp hr (.inl rfl)) (immediate_local _ _ _ _ _ _)
    · cases h
  · -- waitFinished
    split at h
    · next hstage =>
      split at h <;> cases h
      next hover => exact moves_waited hr hstage (.inl hover) local_nil
    · cases h
  · -- waitTimedOut
    split at h
    · next hstage =>
      split at h <;> cases h
      next hover =>
      exact moves_waited hr hstage (.inr hover) (by simp [OrchestratorEffect.Local])
    · cases h
  · -- planMissing
    split at h <;> cases h
    next hstage =>
    exact moves_endWith hr (hstage ▸ .unplanned _ nofun) (by rw [hstage]; nofun)
      (immediate_local _ _ _ _ _ _)
  · -- install
    split at h
    · next hstage => exact stepInstall_kind hr hstage h
    · cases h
  · -- ret
    split at h <;> cases h
    cases htarget
    next result hstage =>
    refine moves_leave hr (hstage ▸ .returns _) rfl (by rw [hstage]; nofun) ?_
    intro o ho
    rw [List.mem_singleton] at ho
    subst ho
    exact .inr ⟨r, hr, hstage⟩
  · -- drop
    cases htarget
    split at h <;> cases h
    next hlive =>
    exact moves_leave hr (.dropped _ hlive) rfl (waitOver_or_givesUp hr (.inr rfl)) local_nil
  · cases h

/-- A poll of the session's machine keeps its parameters and its token; its result goes into
    the slot. -/
theorem goes_poll {task : SessionTask} {p : SessionPoll} {session : LoginSession}
    {effects : List SessionEffect} {c : Prop} (hpanic : task.panicked = false)
    (h : task.session.poll p = some (session, effects)) :
    task.Goes c (Wrote (effects.map (.session id)) id)
      { task with session, result := effects.findSome? SessionEffect.result? <|> task.result } := by
  have hkind := LoginSession.poll_kind h
  have hk := hkind.keeps
  have hwritten : effects.findSome? SessionEffect.result? = (results effects).head? :=
    List.head?_filterMap.symm
  refine ⟨hk.params, fun hc => hk.cancelToken.trans hc, fun _ => hk.cancelToken, rfl, fun hf => hf, rfl,
    fun r hr => ?_, fun hT => ⟨fun hend => ?_, fun hp => ?_, fun hf => ?_⟩⟩
  · cases hres : effects.findSome? SessionEffect.result? with
    | none => rw [hres] at hr; exact .inl hr
    | some r' =>
      rw [hres] at hr
      cases hr
      obtain ⟨o, ho, heq⟩ := List.exists_of_findSome?_eq_some hres
      refine .inr (.inl (List.mem_map.mpr ⟨o, ho, ?_⟩))
      cases o <;> cases heq
      rfl
  · -- the result is there when the session leaves its running phases
    have hnew : results effects ≠ [] ∨ task.result ≠ none := by
      by_cases hrun : task.session.phase.running = true
      · exact .inl (LoginSession.results_of_ended h hrun hend)
      · exact .inr (hT.ended (by simpa using hrun))
    rw [hwritten]
    rcases hnew with hne | hne
    · cases hres : results effects with
      | nil => exact absurd hres hne
      | cons r rs => nofun
    · cases (results effects).head? with
      | none => exact hne
      | some r => nofun
  · rw [hpanic] at hp; cases hp
  · have hover := hT.finished hf
    unfold SessionTask.over at hover
    split at hover
    · next hphase => simp [LoginSession.poll, hphase] at h
    · rw [hpanic] at hover; cases hover

theorem stepTask_kind {task : SessionTask} (hr : w.requests id = some r)
    (htask : r.task = some task) (htarget : e.target = some id)
    (h : w.stepTask id r task e = some (t, os)) : StepKind w e t os := by
  unfold stepTask at h
  split at h
  · -- poll
    cases htarget
    next p =>
    unfold stepPoll at h
    split at h
    · cases h
    · next hpanic =>
      split at h
      · cases h
      · next session effects hpoll =>
        cases h
        refine settles_task hr htask (goes_poll (by simpa using hpanic) hpoll) ?_
        intro o ho
        obtain ⟨effect, heffect, rfl⟩ := List.mem_map.mp ho
        exact ⟨p, r, task, session, effects, rfl, hr, htask, hpoll, heffect⟩
  · -- panic
    cases htarget
    unfold stepPanic at h
    split at h <;> cases h
    next hover =>
    refine settles_task hr htask ⟨rfl, fun hc => hc, fun _ => rfl, rfl, fun hf => hf, rfl,
      fun r' hr' => ?_, fun hT => ⟨nofun, nofun, fun hf => absurd (hT.finished hf) hover⟩⟩
      (by simp [OrchestratorEffect.Local])
    cases hr'
    exact .inr (.inr List.mem_cons_self)
  · -- finish
    unfold stepFinish at h
    split at h <;> cases h
    next hguard =>
    rw [Bool.and_eq_true] at hguard
    exact settles_task hr htask ⟨rfl, fun hc => hc, fun _ => rfl, rfl, fun _ => rfl, rfl,
      fun _ => .inl, fun hT => ⟨hT.ended, hT.panicked, fun _ => hguard.1⟩⟩
      (by simp [OrchestratorEffect.Local])
  · -- cleanUp
    cases htarget
    unfold stepCleanUp at h
    split at h <;> cases h
    next hguard =>
    rw [Bool.and_eq_true] at hguard
    exact .cleans rfl hr htask hguard.1
  · cases h

/-- A change of every request's token and session that keeps what `Goes` keeps. -/
theorem settles_map {f : Nat → Request → Request}
    (hgoes : ∀ i (r : Request), r.Goes (e.cancels = true) (Wrote os i) (f i r))
    (hreq : ∀ i, t.requests i = (w.requests i).map (f i))
    (hactive : t.activeSession = w.activeSession) (hgate : t.submitGate = w.submitGate)
    (hnext : t.nextSessionId = w.nextSessionId) (hnow : w.now ≤ t.now)
    (hlocal : ∀ o ∈ os, o.Local w e) : StepKind w e t os := by
  refine .settles (fun i => ?_) hactive hgate hnext hnow hlocal
  rw [hreq]
  cases w.requests i with
  | none => exact .none
  | some r => exact .some (hgoes i r)

theorem goes_cancelRequest {c : Prop} {wrote : LoginResult → Prop} (hc : c) (r : Request) :
    r.Goes c wrote (cancelRequest r) := by
  refine ⟨rfl, rfl, fun _ => rfl, ?_⟩
  rw [cancelRequest]
  cases r.task with
  | none => exact .none
  | some task => exact .some (task.goes_touch rfl rfl (fun _ => rfl) fun h => absurd hc h)

theorem goes_propagateCancel {c : Prop} {wrote : LoginResult → Prop} (hc : c) (r : Request)
    (reason : String) : r.Goes c wrote (propagateCancel r reason) := by
  refine ⟨rfl, rfl, fun _ => rfl, ?_⟩
  rw [propagateCancel]
  cases r.task with
  | none => exact .none
  | some task => exact .some (task.goes_touch rfl rfl (fun _ => rfl) fun h => absurd hc h)

theorem cancelsAttempt_local (r : Request) : ∀ o ∈ cancelsAttempt r, o.Local w e := by
  unfold cancelsAttempt
  split
  · simp [OrchestratorEffect.Local]
  · exact local_nil

theorem cancelMatching_kind {which : LoginSource → Bool} {reason : String}
    (hc : e.cancels = true) :
    StepKind w e (w.cancelMatching which reason).1 (w.cancelMatching which reason).2 := by
  refine settles_map (f := w.cancelPicked which reason) (fun i r => ?_) (fun i => rfl) rfl rfl rfl
    (Nat.le_refl _) ?_
  · unfold cancelPicked
    split
    · exact goes_propagateCancel hc r reason
    · split
      · exact goes_cancelRequest hc r
      · exact .refl r
  · simp only [cancelMatching]
    split
    · next active _ =>
      split
      · cases w.requests active.sessionId with
        | none => exact local_nil
        | some r => exact cancelsAttempt_local r
      · exact local_nil
    · exact local_nil

/-- Every step is of one of the kinds. -/
theorem step_kind (h : w.step e = some (t, os)) : StepKind w e t os := by
  cases e with
  | submit source profileId => cases h; exact .admits _ _
  | refuse i | abandon i | lockGate i | decide i | waitCancelled i | waitFinished i
  | waitTimedOut i | planMissing i | install i | ret i | drop i =>
    obtain ⟨r, hr, h⟩ := Option.bind_eq_some_iff.mp h
    exact stepSubmit_kind hr rfl h
  | poll i | panic i | finish i | cleanUp i =>
    obtain ⟨r, hr, h⟩ := Option.bind_eq_some_iff.mp h
    obtain ⟨task, htask, h⟩ := Option.bind_eq_some_iff.mp h
    exact stepTask_kind hr htask rfl h
  | cancelCurrent => cases h; exact cancelMatching_kind rfl
  | cancelAutoPending reason => cases h; exact cancelMatching_kind rfl
  | cancelHandle i =>
    obtain ⟨r, hr, h⟩ := Option.bind_eq_some_iff.mp h
    obtain ⟨task, htask, h⟩ := Option.bind_eq_some_iff.mp h
    cases h
    exact settles_one hr (goes_cancelRequest rfl r) local_nil
  | shutdown =>
    cases h
    refine settles_map (f := fun _ r => { r with task := r.task.map fun t =>
      { t with session := { t.session with shutdownToken := true } } })
      (fun i r => ⟨rfl, rfl, fun h => h, ?_⟩) (fun i => rfl) rfl rfl rfl (Nat.le_refl _)
      local_nil
    cases r.task with
    | none => exact .none
    | some task => exact .some (task.goes_touch rfl rfl (fun h => h) fun _ => rfl)
  | advance now =>
    simp only [step] at h
    split at h <;> cases h
    next hle =>
    refine .settles (fun i => ?_) rfl rfl rfl hle local_nil
    cases w.requests i with
    | none => exact .none
    | some r => exact .some (.refl r)

end Orchestrator
end CampusAuth.Login
