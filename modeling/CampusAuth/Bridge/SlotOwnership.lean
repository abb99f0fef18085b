import CampusAuth.Bridge.SlotInvariant

/- Who owns the worker, over whole runs: when the session slot is empty no request is in flight, a
   redirect test is in flight alone, and an idle timeout or `force_recycle_if_unowned` kills the
   worker only when no request is in flight.

   A request that takes the slot over from another leaves that one in flight without a slot, and the
   kills look at the slot in one section and take the process in a later one. The three properties
   hold in the runs in which neither matters (`SlotKept`): nobody empties the slot while a request
   other than his own is in flight, and none is sent between the two sections of such a kill. Where
   the slot is emptied the condition is exact. In the runs at the end a login is sent after a recycle
   has looked at the slot. -/
namespace CampusAuth.Bridge
open Lib

/-! ## The condition where the slot is emptied -/

section
variable {i : BridgeInner}

/-- A guard that lets go of the slot beside another request in flight breaks the claim. -/
theorem release_owned_iff (h : InnerOk i) {method cancelId : String} {id : Nat}
    (hsettled : i.currentRequestId = some id → ∀ p ∈ i.inFlight, p.id ≠ id) :
    SlotOwned (i.dropGuard method cancelId id) ↔
      (i.letsGo method id = true → ∀ p ∈ i.inFlight, p.id = id) := by
  constructor
  · intro howned hlets p hp
    by_contra hother
    -- The other request stays in flight, but the slot is empty.
    have hsession : (i.dropGuard method cancelId id).currentSession = none := by
      cases BridgeInner.dropped i method cancelId id with
      | released _ hsession _ => exact hsession
      | other hlets' | kept hlets' =>
        rw [hlets] at hlets'
        cases hlets'
    have hstays : p ∈ (i.dropGuard method cancelId id).inFlight :=
      BridgeInner.mem_inFlight_dropGuard hp hother
    rw [howned.empty hsession] at hstays
    cases hstays
  · exact fun hkept => (h.dropGuard hsettled hkept).owned

/-- So does a recycle with a request in flight. -/
theorem recycle_owned_iff (h : InnerOk i) : SlotOwned i.forgetSession.1 ↔ i.inFlight = [] := by
  constructor
  · exact fun howned => howned.empty rfl
  · intro hnil
    have hs : i.Shrinks i.forgetSession.1 := BridgeInner.shrinks_emptySlot (fun _ hp => hp) rfl rfl
    exact (h.of_nil hs hnil).owned

end

/-! ## Whole runs -/

/-- In a run in which the slot is kept for the requests in flight, no idle timeout and no recycle
    kills a request, an empty slot means that none is in flight, and a redirect test is alone. -/
theorem worker_slot_owned {environment : Bool} {es : List Event} {os : List Effect}
    {t : BridgeSupervisor} (hrun : bridgeMachine.Steps (.init environment) es os t)
    (hkept : bridgeMachine.Along SlotKept (.init environment) es) :
    KillsSpare os ∧ SlotOwned t.inner := by
  have h := hrun.emits killsSpare_nil KillsSpare.append slotInv_step hkept
    (slotInv_init environment)
  exact ⟨h.2, h.1.inner.owned⟩

/-- A login and its answer, a redirect test and its answer, and the idle timeout. -/
def keptRun : List Event :=
  firstRequest "execute_login_attempt" "login" ++ .response 2 true :: turns 0 4 ++
    .execute "test_redirect" "redirect" :: turns 1 4 ++ .response 3 true :: turns 1 4 ++
    [.idleTimeout, .loopTurn]

theorem worker_slot_owned_sample : ∃ os t, bridgeMachine.Steps (.init true) keptRun os t ∧
    os = [.killed .idle 0 []] ∧ KillsSpare os ∧ SlotOwned t.inner := by
  have hrun : (bridgeMachine.exec (.init true) keptRun).any
      (fun r => decide (r.2 = [.killed .idle 0 []])) = true := by decide
  obtain ⟨t, os, hs, hos⟩ := Machine.steps_of_any hrun
  exact ⟨os, t, hs, of_decide_eq_true hos, worker_slot_owned hs (by decide)⟩

/-- The worker is idle, a recycle finds the slot empty, a login is sent, and the recycle goes on. -/
def emptiedRun : List Event :=
  firstRequest "execute_login_attempt" "first" ++ .response 2 true :: turns 0 4 ++
    .recycleIfUnowned none :: .helperTurn 0 ::
    .execute "execute_login_attempt" "login" :: turns 1 4 ++ [.helperTurn 0]

/-- A redirect test starts beside the login. -/
def besideRun : List Event := emptiedRun ++ .execute "test_redirect" "redirect" :: turns 2 6

def loginInFlight : Pending := ⟨3, some "execute_login_attempt", 0⟩

def redirectInFlight : Pending := ⟨4, some "test_redirect", 0⟩

/-- None of the three holds of every run. -/
theorem sent_in_between :
    (¬∀ (environment : Bool) (es : List Event) (os : List Effect) (t : BridgeSupervisor),
      bridgeMachine.Steps (.init environment) es os t → KillsSpare os) ∧
    (¬∀ (environment : Bool) (es : List Event) (os : List Effect) (t : BridgeSupervisor),
      bridgeMachine.Steps (.init environment) es os t →
        t.inner.currentSession = none → t.inner.inFlight = []) ∧
    ¬∀ (environment : Bool) (es : List Event) (os : List Effect) (t : BridgeSupervisor),
      bridgeMachine.Steps (.init environment) es os t →
        ∀ p ∈ t.inner.inFlight, p.method = some "test_redirect" → ∀ q ∈ t.inner.inFlight, q = p := by
  refine ⟨fun hall => ?_, fun hall => ?_, fun hall => ?_⟩
  · have hrun : (bridgeMachine.exec (.init true) (emptiedRun ++ [.helperTurn 0])).any
        (fun r => decide (r.2 = [.killed .unowned 0 [loginInFlight]])) = true := by decide
    obtain ⟨t, os, hs, hos⟩ := Machine.steps_of_any hrun
    have hos : os = [.killed .unowned 0 [loginInFlight]] := of_decide_eq_true hos
    have hnil : [loginInFlight] = [] := by
      refine hall true _ os t hs .unowned 0 _ ?_ rfl
      rw [hos]
      exact List.mem_singleton_self _
    cases hnil
  · have hrun : (bridgeMachine.exec (.init true) emptiedRun).any (fun r => decide
        (r.1.inner.currentSession = none ∧ r.1.inner.inFlight = [loginInFlight])) = true := by decide
    obtain ⟨t, os, hs, hend⟩ := Machine.steps_of_any hrun
    obtain ⟨hnone, hlogin⟩ := of_decide_eq_true hend
    have hnil : t.inner.inFlight = [] := hall true emptiedRun os t hs hnone
    rw [hlogin] at hnil
    cases hnil
  · have hrun : (bridgeMachine.exec (.init true) besideRun).any (fun r => decide
        (r.1.inner.inFlight = [loginInFlight, redirectInFlight])) = true := by decide
    obtain ⟨t, os, hs, hend⟩ := Machine.steps_of_any hrun
    have hboth : t.inner.inFlight = [loginInFlight, redirectInFlight] := of_decide_eq_true hend
    have heq : loginInFlight = redirectInFlight := by
      refine hall true besideRun os t hs redirectInFlight ?_ rfl loginInFlight ?_
      · rw [hboth]
        decide
      · rw [hboth]
        decide
    exact absurd heq (by decide)

end CampusAuth.Bridge
