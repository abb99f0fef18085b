import CampusAuth.Login.OrchestratorInvariant

/- What a cancellation by the user comes to.

   `cancel_current` sets the token of every request that is registered, as a running submit
   or as the session in the slot. The token is shared with the session the request may
   still start and is never reset (`Stopped`), so no attempt is sent any more and what the
   session writes is `Cancelled`. A result that is there already stays
   (`cancelled_too_late`). -/
namespace CampusAuth.Login
open Lib Status

namespace Orchestrator
variable {w t u : Orchestrator} {e : OrchestratorEvent} {id : Nat} {r : Request}
  {os : List OrchestratorEffect}

/-- The request is pending in its submit or its session is in the slot. -/
def Registered (w : Orchestrator) (id : Nat) : Prop :=
  ∃ r, w.requests id = some r ∧ (r.stage.live = true ∨ w.occupies id = true)

/-- The token of the request is set, and so is the one of its session. -/
def Stopped (w : Orchestrator) (id : Nat) : Prop :=
  ∃ r, w.requests id = some r ∧ r.cancelToken = true ∧
    ∀ task, r.task = some task → task.session.cancelToken = true

/-- What is in the result slot of the session `id`. -/
def resultOf (w : Orchestrator) (id : Nat) : Option LoginResult :=
  (w.requests id).bind fun r => r.task.bind (·.result)

theorem stopped_propagateCancel (r : Request) (reason : String) :
    (propagateCancel r reason).cancelToken = true ∧
      ∀ task, (propagateCancel r reason).task = some task → task.session.cancelToken = true := by
  refine ⟨rfl, fun task htask => ?_⟩
  obtain ⟨_, -, rfl⟩ := Option.map_eq_some_iff.mp htask
  rfl

theorem stopped_cancelRequest (r : Request) :
    (cancelRequest r).cancelToken = true ∧
      ∀ task, (cancelRequest r).task = some task → task.session.cancelToken = true := by
  refine ⟨rfl, fun task htask => ?_⟩
  obtain ⟨_, -, rfl⟩ := Option.map_eq_some_iff.mp htask
  rfl

theorem cancelCurrent_stops (hreg : w.Registered id)
    (h : w.step .cancelCurrent = some (t, os)) : t.Stopped id := by
  obtain ⟨r, hr, hplace⟩ := hreg
  have hstep : some (w.cancelMatching (fun _ => true) "用户取消") = some (t, os) := h
  cases hstep
  refine ⟨_, congrArg (Option.map _) hr, ?_⟩
  unfold cancelPicked
  split
  · exact stopped_propagateCancel r _
  next hactive =>
    have hlive : r.stage.live = true := by
      refine hplace.resolve_right fun hocc => hactive ?_
      obtain ⟨a, ha, hid⟩ := occupies_iff.mp hocc
      simp [picksActive, ha, hid]
    rw [if_pos (by simp [hlive])]
    exact stopped_cancelRequest r

/-! ## What one step does -/

/-- Besides a preemption and the start of a session every effect is `Local`. -/
theorem effect_local (h : w.step e = some (t, os)) {o : OrchestratorEffect} (ho : o ∈ os)
    (hpreempt : ∀ old new, o ≠ .preempt old new) (hstart : ∀ i, o ≠ .started i) :
    o.Local w e := by
  cases step_kind h with
  | settles _ _ _ _ _ hlocal => exact hlocal o ho
  | admits => cases ho
  | moves _ _ _ _ hlocal => exact hlocal o ho
  | preempts =>
    rcases List.mem_cons.mp ho with rfl | ho
    · exact absurd rfl (hpreempt _ _)
    · exact cancelsAttempt_local _ o ho
  | installs =>
    simp only [List.mem_cons, List.not_mem_nil, or_false] at ho
    rcases ho with rfl | rfl
    · exact absurd rfl (hstart _)
    · trivial
  | cleans => cases ho

/-- A set token stays set, and the session a request starts takes it over. -/
theorem stopped_step (hI : Inv w) (hs : w.Stopped id) (h : w.step e = some (t, os)) :
    t.Stopped id := by
  obtain ⟨r, hr, hc, htasks⟩ := hs
  -- a write of another request leaves this one as it is
  have hother : ∀ {f : Nat → Option Request}, f id = w.requests id →
      ∃ r, f id = some r ∧ r.cancelToken = true ∧
        ∀ task, r.task = some task → task.session.cancelToken = true :=
    fun hf => ⟨r, hf.trans hr, hc, htasks⟩
  cases step_kind h with
  | settles hreq =>
    obtain ⟨r', hr', hg⟩ := goes_forth (hr ▸ hreq id)
    refine ⟨r', hr', hg.cancelToken hc, fun task' htask' => ?_⟩
    obtain ⟨task, htask, hgt⟩ := task_back hg htask'
    exact hgt.cancelToken (htasks task htask)
  | admits =>
    have := hI.fresh hr
    exact hother (Function.update_of_ne (by omega) ..)
  | @moves i r₁ stage gate os hr₁ =>
    by_cases hi : id = i
    · subst hi
      rw [hr] at hr₁
      cases hr₁
      exact ⟨_, Function.update_self .., hc, htasks⟩
    · exact hother (Function.update_of_ne hi ..)
  | @preempts i r₁ old a owner hr₁ _ _ _ hold =>
    by_cases hi : id = i
    · subst hi
      rw [hr] at hr₁
      cases hr₁
      exact ⟨_, Function.update_self .., hc, htasks⟩
    · by_cases ha : id = a.sessionId
      · subst ha
        refine ⟨w.takeOut old, ?_, rfl, fun task htask => ?_⟩
        · exact (Function.update_of_ne hi ..).trans (Function.update_self ..)
        · rw [takeOut_task] at htask
          obtain ⟨_, -, rfl⟩ := Option.map_eq_some_iff.mp htask
          rfl
      · exact hother ((Function.update_of_ne hi ..).trans (Function.update_of_ne ha ..))
  | @installs i r₁ session hr₁ _ _ _ htoken =>
    by_cases hi : id = i
    · subst hi
      rw [hr] at hr₁
      cases hr₁
      refine ⟨_, Function.update_self .., hc, fun task htask => ?_⟩
      cases htask
      exact htoken.trans hc
    · exact hother (Function.update_of_ne hi ..)
  | @cleans i r₁ task₁ _ hr₁ htask₁ =>
    by_cases hi : id = i
    · subst hi
      rw [hr] at hr₁
      cases hr₁
      refine ⟨_, Function.update_self .., hc, fun task htask => ?_⟩
      cases htask
      exact htasks task₁ htask₁
    · exact hother (Function.update_of_ne hi ..)

/-- A result that was not there before was written. -/
theorem resultOf_step (h : w.step e = some (t, os)) {result : LoginResult}
    (hafter : t.resultOf id = some result) : w.resultOf id = some result ∨ Wrote os id result := by
  obtain ⟨r', hr', hbind⟩ := Option.bind_eq_some_iff.mp hafter
  obtain ⟨task', htask', hres⟩ := Option.bind_eq_some_iff.mp hbind
  have hsame : ∀ {r task}, w.requests id = some r → r.task = some task →
      task.result = some result → w.resultOf id = some result := by
    intro r task hr htask hresult
    simp only [resultOf, hr, htask, Option.bind_some, hresult]
  cases step_kind h with
  | settles hreq =>
    obtain ⟨r, hr, hg⟩ := goes_back (hr' ▸ hreq id)
    obtain ⟨task, htask, hgt⟩ := task_back hg htask'
    exact (hgt.result result hres).imp_left (hsame hr htask)
  | admits =>
    rcases of_update hr' with ⟨-, rfl⟩ | ⟨-, hr'⟩
    · cases htask'
    · exact .inl (hsame hr' htask' hres)
  | moves hr =>
    rcases of_update hr' with ⟨rfl, rfl⟩ | ⟨-, hr'⟩
    · exact .inl (hsame hr htask' hres)
    · exact .inl (hsame hr' htask' hres)
  | @preempts _ _ old _ _ hr _ _ _ hold =>
    rcases of_update hr' with ⟨rfl, rfl⟩ | ⟨-, hr'⟩
    · exact .inl (hsame hr htask' hres)
    rcases of_update hr' with ⟨rfl, rfl⟩ | ⟨-, hr'⟩
    · rw [takeOut_task] at htask'
      obtain ⟨task, htask, rfl⟩ := Option.map_eq_some_iff.mp htask'
      exact .inl (hsame hold htask hres)
    · exact .inl (hsame hr' htask' hres)
  | installs hr =>
    rcases of_update hr' with ⟨rfl, rfl⟩ | ⟨-, hr'⟩
    · cases htask'; cases hres
    · exact .inl (hsame hr' htask' hres)
  | cleans _ hr htask =>
    rcases of_update hr' with ⟨rfl, rfl⟩ | ⟨-, hr'⟩
    · cases htask'; exact .inl (hsame hr htask hres)
    · exact .inl (hsame hr' htask' hres)

/-- The session of a stopped request sends no attempt and writes only `Cancelled`. -/
theorem stopped_session (hs : w.Stopped id) (h : w.step e = some (t, os))
    {effect : SessionEffect} (hmem : .session id effect ∈ os) :
    effect.executes = 0 ∧ ∀ result, effect = .setResult result → result.terminal = .cancelled := by
  obtain ⟨r, hr, -, htasks⟩ := hs
  obtain ⟨p, r', task, session, effects, -, hr', htask, hpoll, heffect⟩ :=
    effect_local h hmem nofun nofun
  rw [hr] at hr'
  cases hr'
  obtain ⟨-, hexec, hres⟩ := cancelled_step (e := .poll { p with now := w.now })
    (htasks task htask) hpoll
  refine ⟨?_, fun result heq => hres result ?_⟩
  · have hle : effect.executes ≤ executed effects := Machine.le_weigh_of_mem heffect
    omega
  · exact List.mem_filterMap.mpr ⟨effect, heffect, heq ▸ rfl⟩

/-! ## Runs after a cancellation -/

/-- What is known of the request `id` once it is stopped, `os` being what was done since
    then and `before` what its result slot held. -/
structure StoppedSince (before : Option LoginResult) (id : Nat) (w : Orchestrator)
    (os : List OrchestratorEffect) : Prop where
  inv : Inv w
  stopped : w.Stopped id
  silent : ∀ call, .session id (.execute call) ∉ os
  written : ∀ result, .session id (.setResult result) ∈ os → result.terminal = .cancelled
  refused : ∀ result, .returned id (.immediate result) ∈ os → result.terminal ≠ .success
  result : ∀ result, w.resultOf id = some result → before = some result ∨ Wrote os id result

theorem stoppedSince_step {before : Option LoginResult} {os₀ : List OrchestratorEffect}
    (hS : StoppedSince before id w os₀) (h : w.step e = some (t, os)) :
    StoppedSince before id t (os₀ ++ os) := by
  refine ⟨inv_step hS.inv h, stopped_step hS.inv hS.stopped h, ?_, ?_, ?_, ?_⟩
  · intro call hmem
    rcases List.mem_append.mp hmem with hmem | hmem
    · exact hS.silent call hmem
    · exact absurd (stopped_session hS.stopped h hmem).1 (by simp [SessionEffect.executes])
  · intro result hmem
    rcases List.mem_append.mp hmem with hmem | hmem
    · exact hS.written result hmem
    · exact (stopped_session hS.stopped h hmem).2 result rfl
  · intro result hmem
    rcases List.mem_append.mp hmem with hmem | hmem
    · exact hS.refused result hmem
    · rcases effect_local h hmem nofun nofun with hcancelled | ⟨r, hr, hending⟩
      · rw [hcancelled]; nofun
      · exact hS.inv.ending hr hending
  · intro result hresult
    rcases resultOf_step h hresult with hbefore | hwrote
    · rcases hS.result result hbefore with h | h
      · exact .inl h
      · exact .inr (h.imp (List.mem_append_left os) (List.mem_append_left os))
    · exact .inr (hwrote.imp (List.mem_append_right os₀) (List.mem_append_right os₀))

theorem stoppedSince_run {es : List OrchestratorEvent} (hI : Inv w) (hs : w.Stopped id)
    (h : orchestratorMachine.Steps w es os u) : StoppedSince (w.resultOf id) id u os :=
  h.tracing (C := fun _ _ => True) (I := StoppedSince (w.resultOf id) id)
    (fun hS _ hs => stoppedSince_step hS hs) (Machine.along_of_forall fun _ _ => trivial)
    ⟨hI, hs, fun _ => List.not_mem_nil, nofun, nofun, fun _ h => .inl h⟩

/-- Only the handling of a panic writes a result from outside the session. -/
theorem panic_of_setResult {es : List OrchestratorEvent} {result : LoginResult}
    (h : orchestratorMachine.Steps w es os u) (hmem : .setResult id result ∈ os) :
    .panic id ∈ es := by
  obtain ⟨es₁, e, es₂, -, os₂, -, v, v', rfl, -, hs, -, ho⟩ := h.output hmem
  have he : e = .panic id := effect_local hs ho nofun nofun
  exact he ▸ List.mem_append_right es₁ List.mem_cons_self

/-- A finished session has left its result. -/
theorem Inv.told_finished {task : SessionTask} (hI : Inv w) (hr : w.requests id = some r)
    (htask : r.task = some task) (hf : task.finished = true) : task.result ≠ none := by
  have hT := hI.told hr htask
  have hover := hT.finished hf
  unfold SessionTask.over at hover
  split at hover
  next hphase => exact hT.ended (by rw [hphase]; rfl)
  next => exact hT.panicked hover

/-- What a cancellation at `w` makes of the request `id`: `es` is the run after it, `os`
    what it did and `u` the state it comes to. -/
structure CancelHonoured (w : Orchestrator) (id : Nat) (es : List OrchestratorEvent)
    (os : List OrchestratorEffect) (u : Orchestrator) : Prop where
  /-- No attempt is sent. -/
  silent : ∀ call, .session id (.execute call) ∉ os
  written : ∀ result, .session id (.setResult result) ∈ os → result.terminal = .cancelled
  /-- A handle that is not of a session tells of no success. -/
  refused : ∀ result, .returned id (.immediate result) ∈ os → result.terminal ≠ .success
  /-- The handle of the session ends, with `Cancelled` unless the result was there before
      or `run` panicked. -/
  ends : ∀ r task, u.requests id = some r → r.task = some task → task.finished = true →
    ∃ result, task.result = some result ∧ (w.resultOf id = some result ∨
      result.terminal = .cancelled ∨ .panic id ∈ es)

/-- The session of `id` is in the slot, `cancel_current` runs and then `es`: the task has
    finished with this terminal. -/
def cancelledThen (es : List OrchestratorEvent) (id : Nat) (terminal : LoginTerminal)
    (w : Orchestrator) : Bool :=
  (w.requests id).isSome && w.occupies id && (w.step .cancelCurrent).any fun d =>
    (orchestratorMachine.exec d.1 es).any fun s => (s.1.requests id).any fun r =>
      r.task.any fun task => task.finished && task.result.any (·.terminal == terminal)

theorem of_cancelledThen {es : List OrchestratorEvent} {terminal : LoginTerminal}
    (h : w.cancelledThen es id terminal = true) : w.Registered id ∧ ∃ t os₀ os u r task result,
      w.step .cancelCurrent = some (t, os₀) ∧ orchestratorMachine.Steps t es os u ∧
      u.requests id = some r ∧ r.task = some task ∧ task.finished = true ∧
      task.result = some result ∧ result.terminal = terminal := by
  simp only [cancelledThen, Bool.and_eq_true] at h
  obtain ⟨⟨hr₀, hocc⟩, hcancel⟩ := h
  obtain ⟨r₀, hr₀⟩ := Option.isSome_iff_exists.mp hr₀
  obtain ⟨⟨t, os₀⟩, hc, hrun⟩ := (Option.any_eq_true ..).mp hcancel
  obtain ⟨u, os, hsteps, hend⟩ := Machine.steps_of_any hrun
  obtain ⟨r, hr, hend⟩ := (Option.any_eq_true ..).mp hend
  obtain ⟨task, htask, hend⟩ := (Option.any_eq_true ..).mp hend
  rw [Bool.and_eq_true] at hend
  obtain ⟨result, hresult, hterminal⟩ := (Option.any_eq_true ..).mp hend.2
  exact ⟨⟨r₀, hr₀, .inr hocc⟩, t, os₀, os, u, r, task, result, hc, hsteps, hr, htask, hend.1,
    hresult, eq_of_beq hterminal⟩

/-- The attempt of a manual login is under way. -/
def sampleAttempt : List OrchestratorEvent :=
  [.submit .manual "campus", .lockGate 0, .decide 0, .install 0 sampleParams,
   .poll 0 { now := 0 }, .poll 0 { now := 0 }, .poll 0 { now := 0 }]

end Orchestrator
end CampusAuth.Login
