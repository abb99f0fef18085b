import CampusAuth.Scheduler.Files

/- A deleted task stays deleted, as long as nothing is written for it any more.

   The update of a task file looks whether the file is there, and has the lock then. The records of
   a run are written without either, and so is the file by an update whose run has been cancelled.
   `KeepsDeleted` is the condition on these writes, `DeletedInv` what a deletion half way relies on,
   and the run at the end leaves the records of a deleted task behind. -/
namespace CampusAuth.Scheduler
open Lib

/-! ## What is claimed, and when -/

/-- Is the task deleted after the effect? -/
def deletedAfter (id : String) (before : Bool) : Effect → Bool
  | .saved other => if other = id then false else before
  | .deleted other => if other = id then true else before
  | .recorded .. | .fired .. | .passed .. => before

/-- The last deletion of the task has returned, and the task has not been saved since. -/
def deletedLast (id : String) (os : List Effect) : Bool := os.foldl (deletedAfter id) false

def Op.removesHistoryOf (id : String) : Op → Bool
  | .deleting other .removingHistory => other = id
  | _ => false

/-- The run is about to write the records of its task. -/
def RunStage.writesRecords : RunStage → Bool
  | .recording _ (some _) => true
  | _ => false

def Closure.writesRecordsOf (id : String) : Closure → Bool
  | .history other _ _ _ (some _) => other = id
  | _ => false

def Closure.writesFileOf (id : String) : Closure → Bool
  | .update other _ (some _) => other = id
  | _ => false

namespace SchedulerService

/-- Records that are written now are still removed, or belong to a task that is there. -/
def acceptsRecords (s : SchedulerService) (id : String) : Bool :=
  s.hasFile id || s.ops.any (·.removesHistoryOf id)

/-- The records of the task are written only while its file is there or their removal is still to
    come; its file is written by a cancelled update only while it is there; and where records are to
    be removed, that does not fail. -/
def KeepsDeleted (id : String) (s : SchedulerService) : Event → Prop
  | .opTurn pid fault => fault = true → ∀ op ∈ s.ops[pid]?, op.removesHistoryOf id = true →
      s.histories.lookup id = none
  | .runTurn pid fault => fault = false → ∀ run ∈ s.runs[pid]?, run.task.id = id →
      run.stage.writesRecords = true → s.acceptsRecords id = true
  | .closureTurn pid fault => fault = false → ∀ closure ∈ s.closures[pid]?,
      (closure.writesRecordsOf id = true → s.acceptsRecords id = true) ∧
        (closure.writesFileOf id = true → s.hasFile id = true)
  | _ => True

instance (id : String) (s : SchedulerService) : ∀ e, Decidable (KeepsDeleted id s e)
  | .opTurn .. => inferInstanceAs (Decidable (_ → ∀ op ∈ _, _))
  | .runTurn .. => inferInstanceAs (Decidable (_ → ∀ run ∈ _, _))
  | .closureTurn .. => inferInstanceAs (Decidable (_ → ∀ closure ∈ _, _))
  | .tick _ | .create _ | .update .. | .toggle _ | .delete _ | .runManually _ | .attempted ..
  | .panic _ | .cancelRun _ | .wake | .reload | .scan _ | .stop | .loopTurn _ => .isTrue trivial

end SchedulerService

theorem foldl_deletedAfter {id : String} {d : Bool} {os : List Effect}
    (h : ∀ o ∈ os, o.onFiles = false) : os.foldl (deletedAfter id) d = d := by
  induction os with
  | nil => rfl
  | cons o os ih =>
    have ho := h o List.mem_cons_self
    have hrest := ih fun o ho => h o (List.mem_cons_of_mem _ ho)
    cases o <;> first | exact hrest | cases ho

theorem foldl_recorded {id other : String} {d : Bool} (kind : UpdateKind) :
    (kind.recorded other).foldl (deletedAfter id) d = d := by
  cases kind <;> rfl

/-! ## The invariant -/

section
variable (id : String) (s : SchedulerService) (d : Bool)

/-- What a deletion of the task half way relies on. -/
def Op.Deletes : Op → Prop
  | .deleting other .removingHistory => other = id → s.files.lookup id = none ∧ d = false
  | .deleting other .forgetting =>
    other = id → s.files.lookup id = none ∧ s.histories.lookup id = none ∧ d = false
  | .deleting _ .locking | .deleting _ .removing | .toggling .. | .saving .. | .triggering _ | .done
  | .refused => True

/-- A copy of the task that is about to be written has been found in its file. -/
def Found (other : String) (_ : ScheduledTask) : Prop :=
  other = id → (s.files.lookup id).isSome = true

structure SchedulerService.DeletedInv : Prop where
  deleted : d = true → s.files.lookup id = none ∧ s.histories.lookup id = none
  ops : Pool.All (fun _ op => op.Deletes id s d) s.ops
  runs : Copies (Found id s) s.runs

end

namespace SchedulerService
variable {id : String} {s t : SchedulerService} {d : Bool} {env : Env} {e : Event}
  {os : List Effect} {pid : Nat} {fault : Bool} {op op' : Op} {run run' : Run}

theorem DeletedInv.new {now : Nat} {files : List (String × ScheduledTask)}
    {histories : List (String × List HistoryRecord)} {loginOnce : Bool} :
    DeletedInv id (new now files histories loginOnce) false where
  deleted := fun h => nomatch h
  ops := .nil
  runs := .nil

/-- A task that has a file is not deleted. -/
theorem DeletedInv.not_deleted (h : DeletedInv id s d) (hfile : (s.files.lookup id).isSome = true) :
    d = false := by
  cases d with
  | false => rfl
  | true =>
    rw [(h.deleted rfl).1] at hfile
    cases hfile

theorem deletes_of_not_locks (h : op.locks = false) : op.Deletes id s d := by
  rcases op with _ | _ | ⟨other, _ | _ | _ | _⟩ | _ | _ | _ <;> first | trivial | cases h

theorem deletes_of_about (h : op.aboutToChange = true) : op.Deletes id s d := by
  rcases op with _ | _ | ⟨other, _ | _ | _ | _⟩ | _ | _ | _ <;> first | trivial | cases h

/-- No deletion of the task is half way while it has a file. -/
theorem deletes_of_file {d' : Bool} (hfile : (s.files.lookup id).isSome = true)
    (h : op.Deletes id s d) : op.Deletes id t d' := by
  rcases op with _ | _ | ⟨other, _ | _ | _ | _⟩ | _ | _ | _
  case deleting.removingHistory =>
    intro hid
    rw [(h hid).1] at hfile
    cases hfile
  case deleting.forgetting =>
    intro hid
    rw [(h hid).1] at hfile
    cases hfile
  all_goals trivial

theorem deletes_congr (hfile : t.files.lookup id = s.files.lookup id)
    (hhistory : t.histories.lookup id = s.histories.lookup id) (h : op.Deletes id s d) :
    op.Deletes id t d := by
  rcases op with _ | _ | ⟨other, _ | _ | _ | _⟩ | _ | _ | _
  case deleting.removingHistory => exact fun hid => ⟨hfile.trans (h hid).1, (h hid).2⟩
  case deleting.forgetting =>
    exact fun hid => ⟨hfile.trans (h hid).1, hhistory.trans (h hid).2.1, (h hid).2.2⟩
  all_goals trivial

theorem found_mono {runs : Pool Run} (h : Copies (Found id s) runs)
    (hfile : (s.files.lookup id).isSome = true → (t.files.lookup id).isSome = true) :
    Copies (Found id t) runs :=
  h.imp fun _ _ hfound hid => hfile (hfound hid)

/-- A step that does not touch the files of the task. -/
theorem DeletedInv.frame (h : DeletedInv id s d) (hfile : t.files.lookup id = s.files.lookup id)
    (hhistory : t.histories.lookup id = s.histories.lookup id)
    (hops : Pool.All (fun _ op => op.Deletes id s d) t.ops)
    (hruns : Copies (Found id s) t.runs) : DeletedInv id t d where
  deleted hd := ⟨hfile.trans (h.deleted hd).1, hhistory.trans (h.deleted hd).2⟩
  ops := hops.imp fun _ _ hop => deletes_congr hfile hhistory hop
  runs := found_mono hruns fun hs => hfile ▸ hs

theorem DeletedInv.op_acts (h : DeletedInv id s d) (hlock : LockInv s) (hat : s.ops[pid]? = some op)
    (hcond : fault = true → op.removesHistoryOf id = true → s.histories.lookup id = none)
    (hops : t.ops = s.ops.set pid op') (hruns : HandsOver s t)
    (hacts : OpActs s t pid fault op op' os) :
    DeletedInv id t (os.foldl (deletedAfter id) d) := by
  have hquiet : SameFiles s t → op'.Deletes id s d → DeletedInv id t d := by
    intro hsame hop'
    refine h.frame (by rw [hsame.files]) (by rw [hsame.histories]) ?_ ?_
    · rw [hops]
      exact h.ops.set (fun _ _ _ hother => hother) hop'
    · exact copies_handsOver h.runs hruns
  -- While the request has the lock, no other deletion and no update is half way.
  have halone : op.locks = true → ∀ {d'}, op'.Deletes id t d' →
      (d' = true → t.files.lookup id = none ∧ t.histories.lookup id = none) →
      DeletedInv id t d' := by
    intro hlocks d' hop' hdeleted
    refine ⟨hdeleted, ?_, ?_⟩
    · rw [hops]
      exact (hlock.other_ops hat hlocks).set
        (fun i other hne hother => deletes_of_not_locks (hother hne)) hop'
    · exact copies_handsOver (copies_of_not_locks (hlock.no_run hat hlocks)) hruns
  cases hacts with
  | waits _ hop' hsame => exact hquiet hsame (deletes_of_not_locks hop')
  | locks _ hop' hsame => exact hquiet hsame (deletes_of_about hop')
  | unlocks _ hop' hsame => exact hquiet hsame (deletes_of_not_locks hop')
  | saves other task hop hop' _ hfiles hhistories =>
    subst hop hop'
    refine halone rfl trivial ?_
    show (if other = id then false else d) = true → _
    split
    · intro hd; cases hd
    next hne =>
      intro hd
      rw [hfiles, hhistories, lookup_put, if_neg (Ne.symm hne)]
      exact h.deleted hd
  | removes other hop hop' _ hfile hfiles hhistories =>
    subst hop hop'
    refine halone rfl ?_ ?_
    · intro hid
      subst hid
      refine ⟨?_, h.not_deleted hfile⟩
      rw [hfiles, lookup_takeOut, if_pos rfl]
    · intro hd
      have hold := h.deleted hd
      rw [hfiles, hhistories, lookup_takeOut]
      refine ⟨?_, hold.2⟩
      split
      · rfl
      · exact hold.1
  | removesHistory other hop hop' hfiles hhistories =>
    subst hop hop'
    have hmine := h.ops pid _ hat
    refine halone rfl ?_ ?_
    · intro hid
      obtain ⟨hnone, hd⟩ := hmine hid
      refine ⟨by rw [hfiles]; exact hnone, ?_, hd⟩
      cases fault with
      | false => rw [hhistories, if_neg (by simp), lookup_takeOut, if_pos hid.symm]
      | true =>
        rw [hhistories, if_pos rfl]
        exact hcond rfl (by simpa [Op.removesHistoryOf] using hid)
    · intro hd
      have hold := h.deleted hd
      refine ⟨by rw [hfiles]; exact hold.1, ?_⟩
      rw [hhistories]
      split
      · exact hold.2
      · rw [lookup_takeOut]
        split
        · rfl
        · exact hold.2
  | forgets other hop hop' hsame =>
    subst hop
    have hmine := h.ops pid _ hat
    refine halone rfl (deletes_of_not_locks hop') ?_
    rw [hsame.files, hsame.histories]
    show (if other = id then true else d) = true → _
    split
    next hid => exact fun _ => ⟨(hmine hid).1, (hmine hid).2.1⟩
    next => exact h.deleted

/-- The task file is written while it is there. -/
theorem DeletedInv.writes {other : String} {task : ScheduledTask} (h : DeletedInv id s d)
    (hfile : other = id → (s.files.lookup id).isSome = true) (hops : t.ops = s.ops)
    (hruns : Copies (Found id s) t.runs)
    (hfiles : t.files = put s.files other task) (hhistories : t.histories = s.histories) :
    DeletedInv id t d := by
  by_cases hid : other = id
  · have hthere := hfile hid
    have hput : t.files.lookup id = some task := by rw [hfiles, lookup_put, if_pos hid.symm]
    refine ⟨fun hd => ?_, ?_, ?_⟩
    · rw [h.not_deleted hthere] at hd
      cases hd
    · rw [hops]
      exact h.ops.imp fun _ _ hop => deletes_of_file hthere hop
    · exact found_mono hruns fun _ => by rw [hput]; rfl
  · refine h.frame ?_ (by rw [hhistories]) (by rw [hops]; exact h.ops) hruns
    rw [hfiles, lookup_put, if_neg (Ne.symm hid)]

/-- Records of the task are written while it is there, or before they are removed. -/
theorem DeletedInv.records {other : String} {runs : List HistoryRecord} (h : DeletedInv id s d)
    (hlock : LockInv s) (haccepts : other = id → s.acceptsRecords id = true) (hops : t.ops = s.ops)
    (hruns : Copies (Found id s) t.runs) (hfiles : t.files = s.files)
    (hhistories : t.histories = put s.histories other runs) : DeletedInv id t d := by
  by_cases hid : other = id
  · have hfound : Copies (Found id t) t.runs := found_mono hruns fun hs => hfiles ▸ hs
    have haccepts := haccepts hid
    unfold acceptsRecords at haccepts
    rcases Bool.or_eq_true .. |>.mp haccepts with hfile | hremoving
    · refine ⟨fun hd => ?_, ?_, hfound⟩
      · rw [h.not_deleted hfile] at hd
        cases hd
      · rw [hops]
        exact h.ops.imp fun _ _ hop => deletes_of_file hfile hop
    · -- The deletion that is about to remove the records has the lock, so it is the only one.
      obtain ⟨op, hmem, hop⟩ := List.any_eq_true.mp hremoving
      obtain ⟨pid, hat⟩ := List.mem_iff_getElem?.mp hmem
      obtain rfl : op = .deleting id .removingHistory := by
        rcases op with _ | _ | ⟨other, _ | _ | _ | _⟩ | _ | _ | _ <;>
          simp only [Op.removesHistoryOf, decide_eq_true_eq, Bool.false_eq_true] at hop
        rw [hop]
      obtain ⟨hnone, hd⟩ := h.ops pid _ hat rfl
      refine ⟨fun hd' => ?_, ?_, hfound⟩
      · rw [hd] at hd'
        cases hd'
      · rw [hops]
        intro i other hi
        by_cases hne : i = pid
        · subst hne
          rw [hat] at hi
          cases hi
          exact fun _ => ⟨by rw [hfiles]; exact hnone, hd⟩
        · exact deletes_of_not_locks (hlock.other_ops hat rfl i other hi hne)
  · refine h.frame (by rw [hfiles]) ?_ (by rw [hops]; exact h.ops) hruns
    rw [hhistories, lookup_put, if_neg (Ne.symm hid)]

theorem DeletedInv.run_acts (h : DeletedInv id s d) (hlock : LockInv s)
    (hat : s.runs[pid]? = some run) (hcond : s.KeepsDeleted id e) (hops : t.ops = s.ops)
    (hruns : t.runs = s.runs.set pid run') (hid : run'.task.id = run.task.id)
    (hacts : RunActs s t e pid run run' os) :
    DeletedInv id t (os.foldl (deletedAfter id) d) := by
  have hruns : Copies (Found id s) t.runs := by
    refine copies_run_acts h.runs hruns hid (fun read hread hmine => ?_) hacts
    rw [loadFrom, Option.map_eq_some_iff] at hread
    obtain ⟨file, hfile, -⟩ := hread
    rw [← hmine, hfile]
    rfl
  have hquiet : t.files = s.files → t.histories = s.histories → DeletedInv id t d :=
    fun hfiles hhistories => h.frame (by rw [hfiles]) (by rw [hhistories])
      (by rw [hops]; exact h.ops) hruns
  cases hacts with
  | waits _ _ hsame | unlocks _ _ hsame => exact hquiet hsame.files hsame.histories
  | locks _ _ _ hsame => exact hquiet hsame.files hsame.histories
  | reads _ _ _ _ _ _ hsame => exact hquiet hsame.files hsame.histories
  | leaves _ hfiles hhistories => exact hquiet hfiles hhistories
  | fails _ _ _ _ _ _ _ _ hsame =>
    rw [foldl_recorded]
    exact hquiet hsame.files hsame.histories
  | writes report kind read _ hrun _ hfiles hhistories =>
    rw [foldl_recorded]
    exact h.writes (h.runs pid run hat read (by rw [Run.copy, hrun]; rfl)) hops hruns hfiles
      hhistories
  | records report read runs he hrun _ hfiles hhistories =>
    subst he
    exact h.records hlock (fun hmine => hcond rfl run hat hmine (by rw [hrun]; rfl)) hops hruns
      hfiles hhistories

theorem DeletedInv.step (h : DeletedInv id s d) (hlock : LockInv s) (hcond : s.KeepsDeleted id e)
    (hstep : s.step env e = some (t, os)) : DeletedInv id t (os.foldl (deletedAfter id) d) := by
  cases acts hstep with
  | idle _ hsame _ hops hruns hos =>
    rw [foldl_deletedAfter hos]
    exact h.frame (by rw [hsame.files]) (by rw [hsame.histories]) (by rw [hops]; exact h.ops)
      (copies_handsOver h.runs hruns)
  | asks _ op hop hsame _ hops hruns hos =>
    subst hos
    refine h.frame (by rw [hsame.files]) (by rw [hsame.histories]) ?_ (by rw [hruns]; exact h.runs)
    rw [hops]
    exact h.ops.spawn (fun _ _ hold => hold) (deletes_of_not_locks (Op.not_locks_of_starts hop))
  | op _ pid fault op op' he hat hops hruns hacts =>
    subst he
    exact h.op_acts hlock hat (fun hfault hremoves => hcond hfault op hat hremoves) hops hruns hacts
  | run _ pid run run' hat hops hruns hid hacts =>
    exact h.run_acts hlock hat hcond hops hruns hid hacts
  | closure _ pid fault closure closure' he hat hops hruns _ _ hacts =>
    subst he
    have hruns' : Copies (Found id s) t.runs := by rw [hruns]; exact h.runs
    have hquiet : t.files = s.files → t.histories = s.histories → DeletedInv id t d :=
      fun hfiles hhistories => h.frame (by rw [hfiles]) (by rw [hhistories])
        (by rw [hops]; exact h.ops) hruns'
    cases hacts with
    | reads other kind read _ _ _ hfiles hhistories => exact hquiet hfiles hhistories
    | fails other kind read _ _ _ hfiles hhistories =>
      rw [foldl_recorded]
      exact hquiet hfiles hhistories
    | writes other kind read hclosure _ hfault hfiles hhistories =>
      rw [foldl_recorded]
      refine h.writes (fun hid => ?_) hops hruns' hfiles hhistories
      refine (hcond hfault closure hat).2 ?_
      rw [hclosure]
      simpa [Closure.writesFileOf] using hid
    | readsHistory other status message trigger read _ _ hfiles hhistories =>
      exact hquiet hfiles hhistories
    | records other status message trigger read runs hclosure _ hfault hfiles hhistories =>
      refine h.records hlock (fun hid => ?_) hops hruns' hfiles hhistories
      refine (hcond hfault closure hat).1 ?_
      rw [hclosure]
      simpa [Closure.writesRecordsOf] using hid

/-! ## The result -/

/-- Where the condition holds of every step, a task that has been deleted and not been saved since
    has neither a file nor records. -/
theorem deleted_stays_deleted (env : Env) (id : String) (now : Nat)
    (files : List (String × ScheduledTask)) (histories : List (String × List HistoryRecord))
    (loginOnce : Bool) {es : List Event} {os : List Effect} {s : SchedulerService}
    (h : (schedulerMachine env).Steps (new now files histories loginOnce) es os s)
    (hcond : (schedulerMachine env).Along (KeepsDeleted id) (new now files histories loginOnce) es)
    (hdeleted : deletedLast id os = true) :
    s.files.lookup id = none ∧ s.histories.lookup id = none := by
  have hinv := h.tracing (I := fun s os => LockInv s ∧ DeletedInv id s (deletedLast id os))
    (fun {s e t os₀ os} hI hC hs => by
      refine ⟨hI.1.step hs, ?_⟩
      have hstep := hI.2.step hI.1 hC hs
      unfold deletedLast at hstep ⊢
      rwa [List.foldl_append])
    hcond ⟨.new, .new⟩
  exact hinv.2.deleted hdeleted

/-- The task is loaded, and a run of it is on its way to its attempt. -/
def startedRun : List Event :=
  [.loopTurn, .loopTurn, .loopTurn, .loopTurn, .loopTurn, .runManually "a", .opTurn 0, .runTurn 0,
    .runTurn 0, .runTurn 0]

/-- The attempt is over, and its result is in the file of the task. -/
def updatedRun : List Event :=
  startedRun ++ [.attempted 0 true "ok", .runTurn 0, .runTurn 0, .runTurn 0, .runTurn 0]

def deletion : List Event := [.delete "a", .opTurn 1, .opTurn 1, .opTurn 1, .opTurn 1]

def oneTask : SchedulerService := new 0 [("a", { id := "a", targetId := "t" })] [] false

/-- The run writes its records and ends, and then the task is deleted. -/
theorem deleted_stays_deleted_sample : ∃ os s,
    (schedulerMachine .small).Steps oneTask
      (updatedRun ++ [.runTurn 0, .runTurn 0, .runTurn 0, .runTurn 0] ++ deletion) os s ∧
      deletedLast "a" os = true ∧ s.files.lookup "a" = none ∧ s.histories.lookup "a" = none := by
  have hrun : ((schedulerMachine .small).exec oneTask
      (updatedRun ++ [.runTurn 0, .runTurn 0, .runTurn 0, .runTurn 0] ++ deletion)).any
      (fun r => deletedLast "a" r.2) = true := by decide
  obtain ⟨s, os, hs, hdeleted⟩ := Machine.steps_of_any hrun
  exact ⟨os, s, hs, hdeleted,
    deleted_stays_deleted .small "a" 0 _ [] false hs (by decide) hdeleted⟩

/-- The task is deleted between the update of its file and the records of the same run. -/
theorem records_of_deleted :
    ¬∀ (env : Env) (id : String) (now : Nat) (files : List (String × ScheduledTask))
      (histories : List (String × List HistoryRecord)) (loginOnce : Bool) (es : List Event)
      (os : List Effect) (s : SchedulerService),
      (schedulerMachine env).Steps (new now files histories loginOnce) es os s →
        deletedLast id os = true → s.files.lookup id = none ∧ s.histories.lookup id = none := by
  intro hall
  have hrun : ((schedulerMachine .small).exec oneTask
      (updatedRun ++ deletion ++ [.runTurn 0, .runTurn 0])).any
      (fun r => deletedLast "a" r.2 && (r.1.histories.lookup "a").isSome) = true := by decide
  obtain ⟨s, os, hs, hend⟩ := Machine.steps_of_any hrun
  obtain ⟨hdeleted, hthere⟩ := Bool.and_eq_true .. |>.mp hend
  have hnone := (hall .small "a" 0 _ [] false _ os s hs hdeleted).2
  rw [hnone] at hthere
  cases hthere

end SchedulerService
end CampusAuth.Scheduler
