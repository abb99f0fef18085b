import CampusAuth.Login.OrchestratorSteps

/- The invariant of the orchestrator: the submits past the decision hold the gate and find
   the slot empty, and the slot holds exactly the session that is neither preempted nor
   cleaned up. `reachable_inv` says it holds in every state the orchestrator reaches. -/
namespace CampusAuth.Login
open Lib Status

namespace SubmitStage
variable {w : Orchestrator} {a b : SubmitStage}

theorem Next.live (h : Next w a b) : a.live = true := by
  cases h <;> first | rfl | assumption

/-- Past the decision the slot is empty, if it was behind it. -/
theorem Next.emptied (h : Next w a b) (hb : b.emptied = true) :
    w.activeSession = none ∨ a.emptied = true := by
  cases h with
  | creates h => exact .inl h
  | waited => exact .inr rfl
  | _ => cases hb

theorem Next.ending {result : LoginResult} (h : Next w a (.ending result)) :
    result.terminal ≠ .success := by
  cases h with
  | refused _ h => exact h
  | cancelled _ _ _ _ h => rw [h]; nofun
  | unplanned _ h => exact h

theorem Next.not_waiting (h : Next w a b) (old askedAt : Nat) (owner : Option String) :
    b ≠ .waitingOld old askedAt owner := by
  cases h <;> nofun

theorem inGate_of_emptied (h : a.emptied = true) : a.inGate = true := by
  cases a <;> first | rfl | cases h

end SubmitStage

namespace Orchestrator

structure Inv (w : Orchestrator) : Prop where
  gate : ∀ {id r}, w.requests id = some r → r.stage.inGate = true → w.submitGate = some id
  emptied : ∀ {id r}, w.requests id = some r → r.stage.emptied = true → w.activeSession = none
  fresh : ∀ {id r}, w.requests id = some r → id < w.nextSessionId
  spawned : ∀ {id r task}, w.requests id = some r → r.task = some task →
    r.stage = .returned (.session id) ∧ task.session.params.source = r.source
  active : ∀ {a}, w.activeSession = some a → ∃ r task, w.requests a.sessionId = some r ∧
    r.task = some task ∧ r.source = a.source ∧ task.preemptedAt = none ∧ task.cleaned = false
  slot : ∀ {id r task}, w.requests id = some r → r.task = some task → task.preemptedAt = none →
    task.cleaned = false → w.activeSession = some { source := r.source, sessionId := id }
  waiting : ∀ {id r old askedAt owner}, w.requests id = some r →
    r.stage = .waitingOld old askedAt owner → ∃ ro task, w.requests old = some ro ∧
      ro.task = some task ∧ task.preemptedAt = some askedAt
  finished : ∀ {id r task}, w.requests id = some r → r.task = some task →
    task.cleaned = true → task.finished = true
  told : ∀ {id r task}, w.requests id = some r → r.task = some task → task.Told
  ending : ∀ {id r result}, w.requests id = some r → r.stage = .ending result →
    result.terminal ≠ .success

theorem inv_init : Inv {} where
  gate := nofun
  emptied := nofun
  fresh := nofun
  spawned := nofun
  active := nofun
  slot := nofun
  waiting := nofun
  finished := nofun
  told := nofun
  ending := nofun

variable {w t : Orchestrator} {e : OrchestratorEvent} {id : Nat} {r : Request}
  {os : List OrchestratorEffect}

/-- After a request is written, a request found is that one or one that was there. -/
theorem of_update {f : Nat → Option Request} {r' r'' : Request} {j : Nat}
    (h : Function.update f id (some r') j = some r'') :
    (j = id ∧ r'' = r') ∨ (j ≠ id ∧ f j = some r'') := by
  by_cases hj : j = id
  · subst hj
    rw [Function.update_self] at h
    exact .inl ⟨rfl, (Option.some.inj h).symm⟩
  · rw [Function.update_of_ne hj] at h
    exact .inr ⟨hj, h⟩

/-- A submit whose session is not spawned has no task. -/
theorem Inv.no_task (hI : Inv w) (hr : w.requests id = some r)
    (hstage : r.stage ≠ .returned (.session id)) : r.task = none := by
  cases htask : r.task with
  | none => rfl
  | some task => exact absurd (hI.spawned hr htask).1 hstage

/-! ## One lemma for each kind of step -/

theorem goes_back {c : Prop} {wrote : LoginResult → Prop} {a : Option Request} {r' : Request}
    (h : Option.Rel (Request.Goes c wrote) a (some r')) :
    ∃ r, a = some r ∧ r.Goes c wrote r' := by
  cases h with
  | some h => exact ⟨_, rfl, h⟩

theorem goes_forth {c : Prop} {wrote : LoginResult → Prop} {b : Option Request} {r : Request}
    (h : Option.Rel (Request.Goes c wrote) (some r) b) :
    ∃ r', b = some r' ∧ r.Goes c wrote r' := by
  cases h with
  | some h => exact ⟨_, rfl, h⟩

theorem task_back {c : Prop} {wrote : LoginResult → Prop} {r r' : Request} {task' : SessionTask}
    (h : r.Goes c wrote r') (htask : r'.task = some task') :
    ∃ task, r.task = some task ∧ task.Goes c wrote task' := by
  have hrel := h.task
  rw [htask] at hrel
  generalize r.task = a at hrel
  cases hrel with
  | some hg => exact ⟨_, rfl, hg⟩

theorem task_forth {c : Prop} {wrote : LoginResult → Prop} {r r' : Request} {task : SessionTask}
    (h : r.Goes c wrote r') (htask : r.task = some task) :
    ∃ task', r'.task = some task' ∧ task.Goes c wrote task' := by
  have hrel := h.task
  rw [htask] at hrel
  generalize r'.task = a at hrel
  cases hrel with
  | some hg => exact ⟨_, rfl, hg⟩

theorem Inv.settles {c : Prop} {wrote : Nat → LoginResult → Prop} (hI : Inv w)
    (hreq : ∀ id, Option.Rel (Request.Goes c (wrote id)) (w.requests id) (t.requests id))
    (hactive : t.activeSession = w.activeSession) (hgate : t.submitGate = w.submitGate)
    (hnext : t.nextSessionId = w.nextSessionId) : Inv t := by
  have hback : ∀ {id r'}, t.requests id = some r' →
      ∃ r, w.requests id = some r ∧ r.Goes c (wrote id) r' := fun h => goes_back (h ▸ hreq _)
  have hforth : ∀ {id r}, w.requests id = some r →
      ∃ r', t.requests id = some r' ∧ r.Goes c (wrote id) r' := fun h => goes_forth (h ▸ hreq _)
  constructor
  · intro id r' hr' hin
    obtain ⟨r, hr, hg⟩ := hback hr'
    rw [hgate]
    exact hI.gate hr (hg.stage ▸ hin)
  · intro id r' hr' hem
    obtain ⟨r, hr, hg⟩ := hback hr'
    rw [hactive]
    exact hI.emptied hr (hg.stage ▸ hem)
  · intro id r' hr'
    obtain ⟨r, hr, -⟩ := hback hr'
    rw [hnext]
    exact hI.fresh hr
  · intro id r' task' hr' htask'
    obtain ⟨r, hr, hg⟩ := hback hr'
    obtain ⟨task, htask, hgt⟩ := task_back hg htask'
    rw [hg.stage, hg.source, hgt.params]
    exact hI.spawned hr htask
  · intro a ha
    obtain ⟨r, task, hr, htask, hsource, hpre, hclean⟩ := hI.active (hactive ▸ ha)
    obtain ⟨r', hr', hg⟩ := hforth hr
    obtain ⟨task', htask', hgt⟩ := task_forth hg htask
    exact ⟨r', task', hr', htask', hg.source.trans hsource, hgt.preemptedAt.trans hpre,
      hgt.cleaned.trans hclean⟩
  · intro id r' task' hr' htask' hpre hclean
    obtain ⟨r, hr, hg⟩ := hback hr'
    obtain ⟨task, htask, hgt⟩ := task_back hg htask'
    rw [hactive, hg.source]
    exact hI.slot hr htask (hgt.preemptedAt ▸ hpre) (hgt.cleaned ▸ hclean)
  · intro id r' old askedAt owner hr' hstage
    obtain ⟨r, hr, hg⟩ := hback hr'
    obtain ⟨ro, task, hro, htask, hpre⟩ := hI.waiting hr (hg.stage ▸ hstage)
    obtain ⟨ro', hro', hgo⟩ := hforth hro
    obtain ⟨task', htask', hgt⟩ := task_forth hgo htask
    exact ⟨ro', task', hro', htask', hgt.preemptedAt.trans hpre⟩
  · intro id r' task' hr' htask' hclean
    obtain ⟨r, hr, hg⟩ := hback hr'
    obtain ⟨task, htask, hgt⟩ := task_back hg htask'
    exact hgt.finished (hI.finished hr htask (hgt.cleaned ▸ hclean))
  · intro id r' task' hr' htask'
    obtain ⟨r, hr, hg⟩ := hback hr'
    obtain ⟨task, htask, hgt⟩ := task_back hg htask'
    exact hgt.told (hI.told hr htask)
  · intro id r' result hr' hstage
    obtain ⟨r, hr, hg⟩ := hback hr'
    exact hI.ending hr (hg.stage ▸ hstage)

/-- A submit that is still running has no task. -/
theorem Inv.no_task_of_live (hI : Inv w) (hr : w.requests id = some r)
    (hlive : r.stage.live = true) : r.task = none :=
  hI.no_task hr fun h => by rw [h] at hlive; cases hlive

/-- Two submits do not both hold the gate. -/
theorem Inv.alone (hI : Inv w) {j : Nat} {r' : Request} (hr : w.requests id = some r)
    (hin : r.stage.inGate = true) (hr' : w.requests j = some r') (hin' : r'.stage.inGate = true) :
    j = id := by
  have hgate := hI.gate hr hin
  rw [hI.gate hr' hin'] at hgate
  exact Option.some.inj hgate

theorem Inv.admits (hI : Inv w) (source : LoginSource) (profileId : String) :
    Inv { w.setRequest w.nextSessionId { source, profileId } with
      nextSessionId := w.nextSessionId + 1 } := by
  have hold : ∀ {j r'}, w.requests j = some r' →
      Function.update w.requests w.nextSessionId (some { source, profileId }) j = some r' := by
    intro j r' hr'
    have := hI.fresh hr'
    rw [Function.update_of_ne (by omega), hr']
  constructor
  · intro j r' hr' hin
    rcases of_update hr' with ⟨-, rfl⟩ | ⟨-, hr'⟩
    · cases hin
    · exact hI.gate hr' hin
  · intro j r' hr' hem
    rcases of_update hr' with ⟨-, rfl⟩ | ⟨-, hr'⟩
    · cases hem
    · exact hI.emptied hr' hem
  · intro j r' hr'
    rcases of_update hr' with ⟨rfl, -⟩ | ⟨-, hr'⟩
    · exact Nat.lt_succ_self _
    · exact Nat.lt_succ_of_lt (hI.fresh hr')
  · intro j r' task hr' htask
    rcases of_update hr' with ⟨-, rfl⟩ | ⟨-, hr'⟩
    · cases htask
    · exact hI.spawned hr' htask
  · intro a ha
    obtain ⟨r, task, hr, hrest⟩ := hI.active ha
    exact ⟨r, task, hold hr, hrest⟩
  · intro j r' task hr' htask
    rcases of_update hr' with ⟨-, rfl⟩ | ⟨-, hr'⟩
    · cases htask
    · exact hI.slot hr' htask
  · intro j r' old askedAt owner hr' hstage
    rcases of_update hr' with ⟨-, rfl⟩ | ⟨-, hr'⟩
    · cases hstage
    · obtain ⟨ro, task, hro, hrest⟩ := hI.waiting hr' hstage
      exact ⟨ro, task, hold hro, hrest⟩
  · intro j r' task hr' htask
    rcases of_update hr' with ⟨-, rfl⟩ | ⟨-, hr'⟩
    · cases htask
    · exact hI.finished hr' htask
  · intro j r' task hr' htask
    rcases of_update hr' with ⟨-, rfl⟩ | ⟨-, hr'⟩
    · cases htask
    · exact hI.told hr' htask
  · intro j r' result hr' hstage
    rcases of_update hr' with ⟨-, rfl⟩ | ⟨-, hr'⟩
    · cases hstage
    · exact hI.ending hr' hstage

theorem Inv.moves {stage : SubmitStage} {gate : Option Nat} (hI : Inv w)
    (hr : w.requests id = some r) (hnext : SubmitStage.Next w r.stage stage)
    (hmoved : GateMoves w id r.stage stage gate) :
    Inv { w.setStage id r stage with submitGate := gate } := by
  have hnone : r.task = none := hI.no_task_of_live hr hnext.live
  -- a request with a session is not the one that moves
  have hold : ∀ {j r' task}, w.requests j = some r' → r'.task = some task →
      Function.update w.requests id (some { r with stage }) j = some r' := by
    intro j r' task hr' htask
    have hj : j ≠ id := by
      rintro rfl
      rw [hr] at hr'
      cases hr'
      rw [hnone] at htask
      cases htask
    rw [Function.update_of_ne hj, hr']
  constructor
  · intro j r' hr' hin
    rcases of_update hr' with ⟨rfl, rfl⟩ | ⟨hj, hr'⟩
    · rcases hmoved.holds hin with h | ⟨hin', h⟩
      · exact h
      · exact h.trans (hI.gate hr hin')
    · exact hmoved.others j hj (hI.gate hr' hin)
  · intro j r' hr' hem
    rcases of_update hr' with ⟨rfl, rfl⟩ | ⟨hj, hr'⟩
    · rcases hnext.emptied hem with h | h
      · exact h
      · exact hI.emptied hr h
    · exact hI.emptied hr' hem
  · intro j r' hr'
    rcases of_update hr' with ⟨rfl, -⟩ | ⟨-, hr'⟩
    · exact hI.fresh hr
    · exact hI.fresh hr'
  · intro j r' task hr' htask
    rcases of_update hr' with ⟨rfl, rfl⟩ | ⟨-, hr'⟩
    · rw [hnone] at htask; cases htask
    · exact hI.spawned hr' htask
  · intro a ha
    obtain ⟨r', task, hr', htask, hrest⟩ := hI.active ha
    exact ⟨r', task, hold hr' htask, htask, hrest⟩
  · intro j r' task hr' htask
    rcases of_update hr' with ⟨rfl, rfl⟩ | ⟨-, hr'⟩
    · rw [hnone] at htask; cases htask
    · exact hI.slot hr' htask
  · intro j r' old askedAt owner hr' hstage
    rcases of_update hr' with ⟨rfl, rfl⟩ | ⟨-, hr'⟩
    · exact absurd hstage (hnext.not_waiting old askedAt owner)
    · obtain ⟨ro, task, hro, htask, hrest⟩ := hI.waiting hr' hstage
      exact ⟨ro, task, hold hro htask, htask, hrest⟩
  · intro j r' task hr' htask
    rcases of_update hr' with ⟨rfl, rfl⟩ | ⟨-, hr'⟩
    · rw [hnone] at htask; cases htask
    · exact hI.finished hr' htask
  · intro j r' task hr' htask
    rcases of_update hr' with ⟨rfl, rfl⟩ | ⟨-, hr'⟩
    · rw [hnone] at htask; cases htask
    · exact hI.told hr' htask
  · intro j r' result hr' hstage
    rcases of_update hr' with ⟨rfl, rfl⟩ | ⟨-, hr'⟩
    · have hstage' : stage = .ending result := hstage
      exact SubmitStage.Next.ending (by rw [← hstage']; exact hnext)
    · exact hI.ending hr' hstage

/-- The task of a session that is taken out of the slot. -/
def takenOut (w : Orchestrator) (task : SessionTask) : SessionTask :=
  { task with
    session := { task.session with
      cancelToken := true, cancelReason := some "被更高优先级登录抢占" }
    preemptedAt := some w.now }

theorem takeOut_task (w : Orchestrator) (old : Request) :
    (w.takeOut old).task = old.task.map w.takenOut := by
  rw [takeOut, propagateCancel]
  cases old.task <;> rfl

theorem told_takenOut {task : SessionTask} (h : task.Told) (w : Orchestrator) :
    (w.takenOut task).Told :=
  ⟨h.ended, h.panicked, h.finished⟩

/-- The session in the slot belongs to a submit that has returned. -/
theorem Inv.active_ne (hI : Inv w) {a : ActiveSession} (ha : w.activeSession = some a)
    (hr : w.requests id = some r) (hlive : r.stage.live = true) : a.sessionId ≠ id := by
  obtain ⟨r', task, hr', htask, -⟩ := hI.active ha
  rintro rfl
  rw [hr] at hr'
  cases hr'
  rw [hI.no_task_of_live hr hlive] at htask
  cases htask

theorem Inv.preempts {old : Request} {a : ActiveSession} {owner : Option String} (hI : Inv w)
    (hr : w.requests id = some r) (hstage : r.stage = .deciding)
    (ha : w.activeSession = some a) (hold : w.requests a.sessionId = some old) :
    Inv ((({ w with activeSession := none } : Orchestrator).setRequest a.sessionId
      (w.takeOut old)).setStage id r (.waitingOld a.sessionId w.now owner)) := by
  have hlive : r.stage.live = true := by rw [hstage]; rfl
  have hin : r.stage.inGate = true := by rw [hstage]; rfl
  have hnone : r.task = none := hI.no_task_of_live hr hlive
  have hne : a.sessionId ≠ id := hI.active_ne ha hr hlive
  obtain ⟨old', task₀, hold', htask₀, -⟩ := hI.active ha
  rw [hold] at hold'
  cases hold'
  have hreturned : old.stage = .returned (.session a.sessionId) := (hI.spawned hold htask₀).1
  -- a request is the waiting one, the one taken out or another
  have hcases : ∀ {j r'}, Function.update (Function.update w.requests a.sessionId
      (some (w.takeOut old))) id (some { r with stage := .waitingOld a.sessionId w.now owner }) j =
        some r' →
      (j = id ∧ r' = { r with stage := .waitingOld a.sessionId w.now owner }) ∨
      (j = a.sessionId ∧ r' = w.takeOut old) ∨
      (j ≠ id ∧ j ≠ a.sessionId ∧ w.requests j = some r') := by
    intro j r' h
    rcases of_update h with h | ⟨hj, h⟩
    · exact .inl h
    · rcases of_update h with h | ⟨hj', h⟩
      · exact .inr (.inl h)
      · exact .inr (.inr ⟨hj, hj', h⟩)
  constructor
  · intro j r' hr' hin'
    rcases hcases hr' with ⟨rfl, rfl⟩ | ⟨rfl, rfl⟩ | ⟨-, -, hr'⟩
    · exact hI.gate hr hin
    · rw [show (w.takeOut old).stage = old.stage from rfl, hreturned] at hin'
      cases hin'
    · exact hI.gate hr' hin'
  · exact fun _ _ => rfl
  · intro j r' hr'
    rcases hcases hr' with ⟨rfl, -⟩ | ⟨rfl, -⟩ | ⟨-, -, hr'⟩
    · exact hI.fresh hr
    · exact hI.fresh hold
    · exact hI.fresh hr'
  · intro j r' task hr' htask
    rcases hcases hr' with ⟨rfl, rfl⟩ | ⟨rfl, rfl⟩ | ⟨-, -, hr'⟩
    · rw [hnone] at htask; cases htask
    · rw [takeOut_task, htask₀] at htask
      cases htask
      have hspawned := hI.spawned hold htask₀
      exact hspawned
    · exact hI.spawned hr' htask
  · nofun
  · intro j r' task hr' htask hpre hclean
    rcases hcases hr' with ⟨rfl, rfl⟩ | ⟨rfl, rfl⟩ | ⟨-, hj, hr'⟩
    · rw [hnone] at htask; cases htask
    · rw [takeOut_task, htask₀] at htask
      cases htask
      cases hpre
    · have := hI.slot hr' htask hpre hclean
      rw [ha] at this
      cases this
      exact absurd rfl hj
  · intro j r' o askedAt owner' hr' hstage'
    rcases hcases hr' with ⟨rfl, rfl⟩ | ⟨rfl, rfl⟩ | ⟨hj, -, hr'⟩
    · cases hstage'
      refine ⟨w.takeOut old, w.takenOut task₀, ?_, ?_, rfl⟩
      · show Function.update _ _ _ _ = _
        rw [Function.update_of_ne hne]
        exact Function.update_self ..
      · rw [takeOut_task, htask₀]; rfl
    · rw [show (w.takeOut old).stage = old.stage from rfl, hreturned] at hstage'
      cases hstage'
    · exact absurd (hI.alone hr hin hr' (by rw [hstage']; rfl)) hj
  · intro j r' task hr' htask hclean
    rcases hcases hr' with ⟨rfl, rfl⟩ | ⟨rfl, rfl⟩ | ⟨-, -, hr'⟩
    · rw [hnone] at htask; cases htask
    · rw [takeOut_task, htask₀] at htask
      cases htask
      have hfinished := hI.finished hold htask₀
      exact hfinished hclean
    · exact hI.finished hr' htask hclean
  · intro j r' task hr' htask
    rcases hcases hr' with ⟨rfl, rfl⟩ | ⟨rfl, rfl⟩ | ⟨-, -, hr'⟩
    · rw [hnone] at htask; cases htask
    · rw [takeOut_task, htask₀] at htask
      cases htask
      exact told_takenOut (hI.told hold htask₀) w
    · exact hI.told hr' htask
  · intro j r' result hr' hstage'
    rcases hcases hr' with ⟨rfl, rfl⟩ | ⟨rfl, rfl⟩ | ⟨-, -, hr'⟩
    · cases hstage'
    · rw [show (w.takeOut old).stage = old.stage from rfl, hreturned] at hstage'
      cases hstage'
    · exact hI.ending hr' hstage'

/-- A session that has not been polled owes no result yet. -/
theorem told_new {session : LoginSession} (h : session.phase = .starting) :
    SessionTask.Told { session } :=
  { ended := fun hend => by
      change session.phase.running = false at hend
      rw [h] at hend
      cases hend
    panicked := fun hp => by cases hp
    finished := fun hf => by cases hf }

theorem Inv.installs {session : LoginSession} (hI : Inv w) (hr : w.requests id = some r)
    (hstage : r.stage = .creating) (ha : w.activeSession = none)
    (hsource : session.params.source = r.source) (hnew : SessionTask.Told { session }) :
    Inv { w.leave id { r with task := some { session } } (.returned (.session id)) with
      activeSession := some { source := r.source, sessionId := id } } := by
  have hin : r.stage.inGate = true := by rw [hstage]; rfl
  -- no other submit is past the decision, no other session is in the slot
  have halone : ∀ {j r'}, j ≠ id → w.requests j = some r' → r'.stage.inGate = false := by
    intro j r' hj hr'
    by_contra hin'
    exact hj (hI.alone hr hin hr' (by simpa using hin'))
  have hold : ∀ {j r' task}, w.requests j = some r' → r'.task = some task → j ≠ id := by
    rintro j r' task hr' htask rfl
    rw [hr] at hr'
    cases hr'
    rw [hI.no_task_of_live hr (by rw [hstage]; rfl)] at htask
    cases htask
  constructor
  · intro j r' hr' hin'
    rcases of_update hr' with ⟨-, rfl⟩ | ⟨hj, hr'⟩
    · cases hin'
    · rw [halone hj hr'] at hin'; cases hin'
  · intro j r' hr' hem
    rcases of_update hr' with ⟨-, rfl⟩ | ⟨hj, hr'⟩
    · cases hem
    · exact absurd (SubmitStage.inGate_of_emptied hem) (by rw [halone hj hr']; nofun)
  · intro j r' hr'
    rcases of_update hr' with ⟨rfl, -⟩ | ⟨-, hr'⟩
    · exact hI.fresh hr
    · exact hI.fresh hr'
  · intro j r' task hr' htask
    rcases of_update hr' with ⟨rfl, rfl⟩ | ⟨-, hr'⟩
    · cases htask; exact ⟨rfl, hsource⟩
    · exact hI.spawned hr' htask
  · intro a ha'
    cases ha'
    exact ⟨_, _, Function.update_self .., rfl, rfl, rfl, rfl⟩
  · intro j r' task hr' htask hpre hclean
    rcases of_update hr' with ⟨rfl, rfl⟩ | ⟨-, hr'⟩
    · rfl
    · have := hI.slot hr' htask hpre hclean
      rw [ha] at this
      cases this
  · intro j r' o askedAt owner hr' hstage'
    rcases of_update hr' with ⟨-, rfl⟩ | ⟨hj, hr'⟩
    · cases hstage'
    · exact absurd (halone hj hr') (by rw [hstage']; nofun)
  · intro j r' task hr' htask hclean
    rcases of_update hr' with ⟨rfl, rfl⟩ | ⟨-, hr'⟩
    · cases htask; cases hclean
    · exact hI.finished hr' htask hclean
  · intro j r' task hr' htask
    rcases of_update hr' with ⟨rfl, rfl⟩ | ⟨-, hr'⟩
    · cases htask; exact hnew
    · exact hI.told hr' htask
  · intro j r' result hr' hstage'
    rcases of_update hr' with ⟨-, rfl⟩ | ⟨-, hr'⟩
    · cases hstage'
    · exact hI.ending hr' hstage'

theorem occupies_iff : w.occupies id = true ↔ ∃ a, w.activeSession = some a ∧ a.sessionId = id := by
  unfold occupies
  cases w.activeSession <;> simp

theorem Inv.cleans {task : SessionTask} (hI : Inv w) (hr : w.requests id = some r)
    (htask : r.task = some task) (hfinished : task.finished = true) :
    Inv { w.setRequest id { r with task := some { task with cleaned := true } } with
      activeSession := if w.occupies id then none else w.activeSession } := by
  constructor
  · intro j r' hr' hin
    rcases of_update hr' with ⟨rfl, rfl⟩ | ⟨-, hr'⟩
    · exact hI.gate hr hin
    · exact hI.gate hr' hin
  · intro j r' hr' hem
    have hnone : w.activeSession = none := by
      rcases of_update hr' with ⟨rfl, rfl⟩ | ⟨-, hr'⟩
      · exact hI.emptied hr hem
      · exact hI.emptied hr' hem
    simp [hnone]
  · intro j r' hr'
    rcases of_update hr' with ⟨rfl, -⟩ | ⟨-, hr'⟩
    · exact hI.fresh hr
    · exact hI.fresh hr'
  · intro j r' task' hr' htask'
    rcases of_update hr' with ⟨rfl, rfl⟩ | ⟨-, hr'⟩
    · cases htask'
      have hspawned := hI.spawned hr htask
      exact hspawned
    · exact hI.spawned hr' htask'
  · intro a ha
    have hfree : w.occupies id = false := by
      cases hocc : w.occupies id with
      | false => rfl
      | true => simp [hocc] at ha
    simp only [hfree, Bool.false_eq_true, if_false] at ha
    obtain ⟨r', task', hr', hrest⟩ := hI.active ha
    have hne : a.sessionId ≠ id := fun h => by
      rw [occupies_iff.mpr ⟨a, ha, h⟩] at hfree; cases hfree
    exact ⟨r', task', (Function.update_of_ne hne ..).trans hr', hrest⟩
  · intro j r' task' hr' htask' hpre hclean
    rcases of_update hr' with ⟨rfl, rfl⟩ | ⟨hj, hr'⟩
    · cases htask'; cases hclean
    · have hslot := hI.slot hr' htask' hpre hclean
      have hfree : w.occupies id = false := by
        rw [Bool.eq_false_iff]
        intro hocc
        obtain ⟨a, ha, hid⟩ := occupies_iff.mp hocc
        rw [hslot] at ha
        cases ha
        exact hj hid
      simpa [hfree] using hslot
  · intro j r' old askedAt owner hr' hstage
    have hwaits : ∃ ro task, w.requests old = some ro ∧ ro.task = some task ∧
        task.preemptedAt = some askedAt := by
      rcases of_update hr' with ⟨rfl, rfl⟩ | ⟨-, hr'⟩
      · exact hI.waiting hr hstage
      · exact hI.waiting hr' hstage
    obtain ⟨ro, task', hro, htask', hpre⟩ := hwaits
    by_cases hold : old = id
    · subst hold
      rw [hr] at hro
      cases hro
      rw [htask] at htask'
      cases htask'
      exact ⟨_, _, Function.update_self .., rfl, hpre⟩
    · exact ⟨ro, task', (Function.update_of_ne hold ..).trans hro, htask', hpre⟩
  · intro j r' task' hr' htask' hclean
    rcases of_update hr' with ⟨rfl, rfl⟩ | ⟨-, hr'⟩
    · cases htask'; exact hfinished
    · exact hI.finished hr' htask' hclean
  · intro j r' task' hr' htask'
    rcases of_update hr' with ⟨rfl, rfl⟩ | ⟨-, hr'⟩
    · cases htask'
      have htold := hI.told hr htask
      exact ⟨htold.ended, htold.panicked, htold.finished⟩
    · exact hI.told hr' htask'
  · intro j r' result hr' hstage
    rcases of_update hr' with ⟨rfl, rfl⟩ | ⟨-, hr'⟩
    · exact hI.ending hr hstage
    · exact hI.ending hr' hstage

theorem inv_step (hI : Inv w) (h : w.step e = some (t, os)) : Inv t := by
  cases step_kind h with
  | settles hreq hactive hgate hnext => exact hI.settles hreq hactive hgate hnext
  | admits source profileId => exact hI.admits source profileId
  | moves hr hnext hmoved => exact hI.moves hr hnext hmoved
  | preempts hr hstage ha _ hold => exact hI.preempts hr hstage ha hold
  | installs hr hstage ha hsource _ hstart => exact hI.installs hr hstage ha hsource (told_new hstart)
  | cleans _ hr htask hfinished => exact hI.cleans hr htask hfinished

theorem reachable_inv (h : w.Reachable) : Inv w := h.invariant inv_init inv_step

end Orchestrator
end CampusAuth.Login
