import CampusAuth.Scheduler.Steps

/- A task has one run at a time, and it is marked as running just as long as it has one.

   The invariant `MarkInv` keeps runs of one task apart: next to one that is queued or running, or
   handed over and not to be refused, any other is over. So a run that clears the mark on its way
   out never clears the mark of another one, also where a cancelled run clears it twice. -/
namespace CampusAuth.Scheduler
open Lib
namespace SchedulerService

/-- Run `pid` is one of the task, queued or running. -/
def Executes (s : SchedulerService) (id : String) (pid : Nat) : Prop :=
  ∃ run : Run, s.runs[pid]? = some run ∧ run.task.id = id ∧ run.stage.active = true

/-- A run of the task is marked, and about to be queued or refused. -/
def HandingOver (s : SchedulerService) (id : String) : Prop :=
  ∃ (pid : Nat) (run : Run), s.runs[pid]? = some run ∧ run.task.id = id ∧ run.stage = .admitted

/-- The run is queued or running, or will be queued. -/
def Live (s : SchedulerService) (run : Run) : Prop :=
  run.stage.active = true ∨ (run.stage = .admitted ∧ s.cancelled = false)

structure MarkInv (s : SchedulerService) : Prop where
  apart : ∀ (i j : Nat) (run other : Run), s.runs[i]? = some run → s.runs[j]? = some other → i ≠ j →
    other.task.id = run.task.id → s.Live run → other.stage = .ended
  marked : ∀ (i : Nat) (run : Run), s.runs[i]? = some run → s.Live run → run.task.id ∈ s.runningIds
  owned : ∀ id ∈ s.runningIds, (∃ i, s.Executes id i) ∨ s.HandingOver id
  clearing : ∀ (i : Nat) (run : Run), s.runs[i]? = some run → run.stage = .clearing → s.cancelled = true

section
variable {s t : SchedulerService} {env : Env} {e : Event} {os : List Effect} {id : String}

theorem MarkInv.new {now : Nat} {files : List (String × ScheduledTask)}
    {histories : List (String × List HistoryRecord)} {loginOnce : Bool} :
    MarkInv (new now files histories loginOnce) where
  apart := by intro i j run other hi; cases hi
  marked := by intro i run hi; cases hi
  owned := by intro id hid; cases hid
  clearing := by intro i run hi; cases hi

/-- A run that is not over has no live run of its task next to it. -/
theorem MarkInv.alone (h : MarkInv s) {i j : Nat} {run other : Run} (hi : s.runs[i]? = some run)
    (hstage : run.stage ≠ .ended) (hj : s.runs[j]? = some other) (hne : j ≠ i)
    (hid : other.task.id = run.task.id) : ¬ s.Live other :=
  fun hlive => hstage (h.apart j i other run hj hi hne hid.symm hlive)

theorem Live.of_cancelled {run : Run} (h : t.Live run)
    (hcancelled : s.cancelled = true → t.cancelled = true) : s.Live run := by
  rcases h with hactive | ⟨hstage, hnot⟩
  · exact .inl hactive
  · refine .inr ⟨hstage, ?_⟩
    cases hs : s.cancelled with
    | false => rfl
    | true =>
      rw [hcancelled hs] at hnot
      cases hnot

/-- An id that is not marked has no live run. -/
theorem MarkInv.not_live (h : MarkInv s) (hfree : id ∉ s.runningIds) {i : Nat} {run : Run}
    (hi : s.runs[i]? = some run) (hid : run.task.id = id) : ¬ s.Live run :=
  fun hlive => hfree (hid ▸ h.marked i run hi hlive)

/-- Without a live run of the task, and as long as runs are accepted, all its runs are over. -/
theorem MarkInv.ended (h : MarkInv s) (hcancelled : s.cancelled = false) {i : Nat} {run : Run}
    (hi : s.runs[i]? = some run) (hlive : ¬ s.Live run) : run.stage = .ended := by
  rcases hstage : run.stage with _ | _ | _ | _ | _ | _ | _ | _ | _ | _ | _ | _ | _
  case admitted => exact (hlive (.inr ⟨hstage, hcancelled⟩)).elim
  case clearing =>
    have := h.clearing i run hi hstage
    rw [hcancelled] at this
    cases this
  case ended => rfl
  all_goals exact (hlive (.inl (by rw [hstage]; rfl))).elim

theorem MarkInv.same (h : MarkInv s) (hruns : t.runs = s.runs) (hids : t.runningIds = s.runningIds)
    (hcancelled : s.cancelled = true → t.cancelled = true) : MarkInv t where
  apart := by
    intro i j run other hi hj hne hid hlive
    exact h.apart i j run other (hruns ▸ hi) (hruns ▸ hj) hne hid (hlive.of_cancelled hcancelled)
  marked := by
    intro i run hi hlive
    exact hids ▸ h.marked i run (hruns ▸ hi) (hlive.of_cancelled hcancelled)
  owned := by
    intro id hid
    rcases h.owned id (hids ▸ hid) with ⟨i, run, hi, hrun⟩ | ⟨i, run, hi, hrun⟩
    · exact .inl ⟨i, run, hruns ▸ hi, hrun⟩
    · exact .inr ⟨i, run, hruns ▸ hi, hrun⟩
  clearing := fun i run hi hstage => hcancelled (h.clearing i run (hruns ▸ hi) hstage)

/-- A run that is handed over: no run of its task was live before. -/
theorem MarkInv.handsOver (h : MarkInv s) {task : ScheduledTask} {source : RunSource}
    (hfree : task.id ∉ s.runningIds) (hruns : t.runs = s.runs ++ [⟨task, source, .admitted⟩])
    (hids : t.runningIds = task.id :: s.runningIds) (hcancelled : t.cancelled = s.cancelled) :
    MarkInv t where
  apart := by
    intro i j run other hi hj hne hid hlive
    have hlive := hlive.of_cancelled (s := s) (fun hc => hcancelled ▸ hc)
    rcases Pool.of_spawn (hruns ▸ hi) with hi | ⟨rfl, rfl⟩ <;>
      rcases Pool.of_spawn (hruns ▸ hj) with hj | ⟨rfl, rfl⟩
    · exact h.apart i j run other hi hj hne hid hlive
    · exact (h.not_live hfree hi hid.symm hlive).elim
    · -- The new run is live, so runs are still accepted.
      have hopen : s.cancelled = false := by
        rcases hlive with hactive | ⟨-, hopen⟩
        · cases hactive
        · exact hopen
      exact h.ended hopen hj (h.not_live hfree hj hid)
    · exact (hne rfl).elim
  marked := by
    intro i run hi hlive
    rw [hids]
    rcases Pool.of_spawn (hruns ▸ hi) with hi | ⟨-, rfl⟩
    · exact List.mem_cons_of_mem _
        (h.marked i run hi (hlive.of_cancelled (fun hc => hcancelled ▸ hc)))
    · exact List.mem_cons_self
  owned := by
    intro id hid
    rw [hids] at hid
    rcases List.mem_cons.mp hid with rfl | hid
    · refine .inr ⟨s.runs.length, ⟨task, source, .admitted⟩, ?_, rfl, rfl⟩
      rw [hruns, List.getElem?_concat_length]
    · have hold : ∀ {i : Nat} {run : Run}, s.runs[i]? = some run → t.runs[i]? = some run := by
        intro i run hi
        rw [hruns, List.getElem?_append_left (List.getElem?_eq_some_iff.mp hi).1]
        exact hi
      rcases h.owned id hid with ⟨i, run, hi, hrun⟩ | ⟨i, run, hi, hrun⟩
      · exact .inl ⟨i, run, hold hi, hrun⟩
      · exact .inr ⟨i, run, hold hi, hrun⟩
  clearing := by
    intro i run hi hstage
    rcases Pool.of_spawn (hruns ▸ hi) with hi | ⟨-, rfl⟩
    · exact hcancelled ▸ h.clearing i run hi hstage
    · cases hstage

/-- The runs of other tasks are where they were. -/
theorem others_stay {pid i : Nat} {run run' run₁ : Run} (hat : s.runs[pid]? = some run)
    (hruns : t.runs = s.runs.set pid run') (hi : s.runs[i]? = some run₁)
    (hother : run₁.task.id ≠ run.task.id) : t.runs[i]? = some run₁ := by
  rw [hruns, List.getElem?_set_ne]
  · exact hi
  · rintro rfl
    rw [hat] at hi
    cases hi
    exact hother rfl

/-- A run that goes on was live, so it had its task for itself. -/
theorem MarkInv.moves (h : MarkInv s) {pid : Nat} {run run' : Run} (hat : s.runs[pid]? = some run)
    (hlive : s.Live run) (hid : run'.task.id = run.task.id) (hactive : run'.stage.active = true)
    (hruns : t.runs = s.runs.set pid run') (hids : t.runningIds = s.runningIds)
    (hcancelled : t.cancelled = s.cancelled) : MarkInv t where
  apart := by
    intro i j run₁ run₂ hi hj hne hsame hlive₁
    have hlive₁ := hlive₁.of_cancelled (s := s) (fun hc => hcancelled ▸ hc)
    rcases Pool.of_set (hruns ▸ hi) with ⟨rfl, rfl⟩ | ⟨hi', hi⟩ <;>
      rcases Pool.of_set (hruns ▸ hj) with ⟨rfl, rfl⟩ | ⟨hj', hj⟩
    · exact (hne rfl).elim
    · exact h.apart i j run run₂ hat hj hne (hsame.trans hid) hlive
    · have hover := h.apart i j run₁ run hi hat hne (hid.symm.trans hsame) hlive₁
      rcases hlive with hactive | ⟨hadmitted, -⟩
      · rw [hover] at hactive
        cases hactive
      · rw [hover] at hadmitted
        cases hadmitted
    · exact h.apart i j run₁ run₂ hi hj hne hsame hlive₁
  marked := by
    intro i run₁ hi hlive₁
    rw [hids]
    rcases Pool.of_set (hruns ▸ hi) with ⟨rfl, rfl⟩ | ⟨-, hi⟩
    · exact hid ▸ h.marked i run hat hlive
    · exact h.marked i run₁ hi (hlive₁.of_cancelled (fun hc => hcancelled ▸ hc))
  owned := by
    intro id hmarked
    have hthis : t.runs[pid]? = some run' := by
      rw [hruns]
      exact List.getElem?_set_self (List.getElem?_eq_some_iff.mp hat).1
    by_cases hmine : run.task.id = id
    · exact .inl ⟨pid, run', hthis, hid.trans hmine, hactive⟩
    · rcases h.owned id (hids ▸ hmarked) with ⟨i, run₁, hi, rfl, hact⟩ | ⟨i, run₁, hi, rfl, hadm⟩
      · exact .inl ⟨i, run₁, others_stay hat hruns hi (Ne.symm hmine), rfl, hact⟩
      · exact .inr ⟨i, run₁, others_stay hat hruns hi (Ne.symm hmine), rfl, hadm⟩
  clearing := by
    intro i run₁ hi hstage
    rcases Pool.of_set (hruns ▸ hi) with ⟨rfl, rfl⟩ | ⟨-, hi⟩
    · rw [hstage] at hactive
      cases hactive
    · exact hcancelled ▸ h.clearing i run₁ hi hstage

/-- A run that clears the mark leaves no other live run of its task behind. -/
theorem MarkInv.exits (h : MarkInv s) {pid : Nat} {run run' : Run} (hat : s.runs[pid]? = some run)
    (hstage : run.stage ≠ .ended) (hid : run'.task.id = run.task.id)
    (hgone : run'.stage = .ended ∨ (run'.stage = .clearing ∧ s.cancelled = true))
    (hruns : t.runs = s.runs.set pid run')
    (hids : t.runningIds = s.runningIds.filter (· ≠ run.task.id))
    (hcancelled : t.cancelled = s.cancelled) : MarkInv t := by
  have hdead : ¬ s.Live run' := by
    rintro (hactive | ⟨hadmitted, -⟩) <;> rcases hgone with hgone | ⟨hgone, -⟩
    · rw [hgone] at hactive; cases hactive
    · rw [hgone] at hactive; cases hactive
    · rw [hgone] at hadmitted; cases hadmitted
    · rw [hgone] at hadmitted; cases hadmitted
  have hback : ∀ {run₁}, t.Live run₁ → s.Live run₁ :=
    fun hlive => hlive.of_cancelled (fun hc => hcancelled ▸ hc)
  refine ⟨?_, ?_, ?_, ?_⟩
  · intro i j run₁ run₂ hi hj hne hsame hlive₁
    rcases Pool.of_set (hruns ▸ hi) with ⟨rfl, rfl⟩ | ⟨hi', hi⟩
    · exact (hdead (hback hlive₁)).elim
    rcases Pool.of_set (hruns ▸ hj) with ⟨rfl, rfl⟩ | ⟨hj', hj⟩
    · exact (h.alone hat hstage hi hne (hid ▸ hsame).symm (hback hlive₁)).elim
    · exact h.apart i j run₁ run₂ hi hj hne hsame (hback hlive₁)
  · intro i run₁ hi hlive₁
    rcases Pool.of_set (hruns ▸ hi) with ⟨rfl, rfl⟩ | ⟨hi', hi⟩
    · exact (hdead (hback hlive₁)).elim
    rw [hids]
    refine List.mem_filter.mpr ⟨h.marked i run₁ hi (hback hlive₁), ?_⟩
    have hother : run₁.task.id ≠ run.task.id :=
      fun hsame => h.alone hat hstage hi hi' hsame (hback hlive₁)
    simpa using hother
  · intro id hmarked
    rw [hids] at hmarked
    obtain ⟨hmarked, hother⟩ := List.mem_filter.mp hmarked
    have hother : id ≠ run.task.id := by simpa using hother
    rcases h.owned id hmarked with ⟨i, run₁, hi, rfl, hact⟩ | ⟨i, run₁, hi, rfl, hadm⟩
    · exact .inl ⟨i, run₁, others_stay hat hruns hi hother, rfl, hact⟩
    · exact .inr ⟨i, run₁, others_stay hat hruns hi hother, rfl, hadm⟩
  · intro i run₁ hi hstage₁
    rcases Pool.of_set (hruns ▸ hi) with ⟨rfl, rfl⟩ | ⟨-, hi⟩
    · rcases hgone with hgone | ⟨-, hc⟩
      · rw [hgone] at hstage₁
        cases hstage₁
      · exact hcancelled ▸ hc
    · exact hcancelled ▸ h.clearing i run₁ hi hstage₁

theorem MarkInv.step (h : MarkInv s) (hstep : s.step env e = some (t, os)) : MarkInv t := by
  cases marks hstep with
  | same hruns hids hcancelled => exact h.same hruns hids hcancelled
  | handsOver task source hfree hruns hids hcancelled =>
    exact h.handsOver hfree hruns hids hcancelled
  | moves pid run run' hat hlive hid hactive hruns hids hcancelled =>
    exact h.moves hat hlive hid hactive hruns hids hcancelled
  | exits pid run run' hat hstage hid hgone hruns hids hcancelled =>
    exact h.exits hat hstage hid hgone hruns hids hcancelled

/-- A queued or running run that is so no more has cleared the mark. -/
theorem exit_clears {pid : Nat} (hstep : s.step env e = some (t, os)) (hwas : s.Executes id pid)
    (hnot : ¬ t.Executes id pid) : id ∉ t.runningIds := by
  obtain ⟨run, hat, hid, hactive⟩ := hwas
  cases marks hstep with
  | same hruns _ _ => exact (hnot ⟨run, hruns ▸ hat, hid, hactive⟩).elim
  | handsOver task source _ hruns _ _ =>
    refine (hnot ⟨run, ?_, hid, hactive⟩).elim
    rw [hruns, List.getElem?_append_left (List.getElem?_eq_some_iff.mp hat).1]
    exact hat
  | moves pid₁ run₁ run' hat₁ _ hid' hactive' hruns _ _ =>
    refine (hnot ?_).elim
    by_cases hsame : pid₁ = pid
    · subst hsame
      obtain rfl : run₁ = run := Option.some.inj (hat₁.symm.trans hat)
      refine ⟨run', ?_, hid'.trans hid, hactive'⟩
      rw [hruns]
      exact List.getElem?_set_self (List.getElem?_eq_some_iff.mp hat).1
    · exact ⟨run, by rw [hruns, List.getElem?_set_ne hsame]; exact hat, hid, hactive⟩
  | exits pid₁ run₁ run' hat₁ _ _ _ hruns hids _ =>
    by_cases hsame : pid₁ = pid
    · subst hsame
      obtain rfl : run₁ = run := Option.some.inj (hat₁.symm.trans hat)
      rw [hids, hid]
      intro hmem
      have := (List.mem_filter.mp hmem).2
      simp at this
    · exact (hnot ⟨run, by rw [hruns, List.getElem?_set_ne hsame]; exact hat, hid, hactive⟩).elim

end

/-! ## The result -/

/-- In every reachable state at most one run of a task is queued or running, and it is marked; a
    mark is the one of such a run or of a run that is just handed over; and a run that is queued or
    running no more has cleared the mark. -/
theorem single_run (env : Env) (now : Nat) (files : List (String × ScheduledTask))
    (histories : List (String × List HistoryRecord)) (loginOnce : Bool) {s : SchedulerService}
    (h : (schedulerMachine env).Reach (new now files histories loginOnce) s) (id : String) :
    (∀ i j, s.Executes id i → s.Executes id j → i = j) ∧
      (∀ i, s.Executes id i → id ∈ s.runningIds) ∧
      (¬ s.HandingOver id → (id ∈ s.runningIds ↔ ∃ i, s.Executes id i)) ∧
      (s.cancelled = false →
        (id ∈ s.runningIds ↔ (∃ i, s.Executes id i) ∨ s.HandingOver id)) ∧
      (∀ e t os i, (schedulerMachine env).step s e = some (t, os) → s.Executes id i →
        ¬ t.Executes id i → id ∉ t.runningIds) := by
  have hinv : MarkInv s := h.invariant MarkInv.new (fun hI hs => hI.step hs)
  have hmarked : ∀ i, s.Executes id i → id ∈ s.runningIds := by
    rintro i ⟨run, hat, rfl, hactive⟩
    exact hinv.marked i run hat (.inl hactive)
  refine ⟨?_, hmarked, ?_, ?_, fun e t os i hs => exit_clears hs⟩
  · rintro i j ⟨run, hi, hid, hactive⟩ ⟨other, hj, hother, hactive'⟩
    by_contra hne
    have hover := hinv.apart i j run other hi hj hne (hother.trans hid.symm) (.inl hactive)
    rw [hover] at hactive'
    cases hactive'
  · intro hnone
    exact ⟨fun hmem => (hinv.owned id hmem).resolve_right hnone, fun ⟨i, hi⟩ => hmarked i hi⟩
  · intro hopen
    refine ⟨hinv.owned id, ?_⟩
    rintro (⟨i, hi⟩ | ⟨i, run, hi, rfl, hadmitted⟩)
    · exact hmarked i hi
    · exact hinv.marked i run hi (.inr ⟨hadmitted, hopen⟩)

/-- A task is loaded, and a run of it is asked for: it waits for a permit and is the only one. -/
theorem single_run_queued : ∃ s : SchedulerService,
    (schedulerMachine .small).Reach (new 0 [("a", { id := "a", targetId := "t" })] [] false) s ∧
      s.Executes "a" 0 ∧ "a" ∈ s.runningIds ∧ ∀ i, s.Executes "a" i → i = 0 := by
  have hrun : ((schedulerMachine .small).exec
      (new 0 [("a", { id := "a", targetId := "t" })] [] false)
      [.loopTurn, .loopTurn, .loopTurn, .loopTurn, .loopTurn, .runManually "a", .opTurn 0,
        .runTurn 0]).any
      (fun r => (r.1.runs[0]?).any fun run => run.task.id = "a" && run.stage.active) = true := by
    decide
  obtain ⟨s, os, hs, hend⟩ := Machine.steps_of_any hrun
  obtain ⟨run, hat, hqueued⟩ := (Option.any_eq_true ..).mp hend
  have hqueued : run.task.id = "a" ∧ run.stage.active = true := by simpa using hqueued
  have hexecutes : s.Executes "a" 0 := ⟨run, hat, hqueued⟩
  have hreach := (Machine.Reach.refl (M := schedulerMachine .small) _).steps hs
  obtain ⟨halone, hmarked, -⟩ := single_run .small 0 _ [] false hreach "a"
  exact ⟨s, hreach, hexecutes, hmarked 0 hexecutes, fun i hi => halone i 0 hi hexecutes⟩

end SchedulerService
end CampusAuth.Scheduler
