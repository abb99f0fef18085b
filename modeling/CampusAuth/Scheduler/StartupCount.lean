import CampusAuth.Scheduler.Files

/- The successes of a startup task, in its file and as they have been recorded.

   `CountInv` says of every day to come that the file counts what was recorded on it. A record keeps
   this under the lock. A request writes the whole task as it was in memory some time before: it
   keeps the count when that copy has the count of the file. -/
namespace CampusAuth.Scheduler
open Lib

/-- How many successes of the task have been recorded on the day. -/
def recordedOn (id day : String) (os : List Effect) : Nat := os.count (.recorded id day)

namespace SchedulerService

/-- The successes of the day in the file of the task. -/
def diskCount (s : SchedulerService) (id day : String) : Nat :=
  successesOn ((s.files.lookup id).bind (·.startupSuccess)) day

/-! ## The condition -/

section
variable (env : Env) (id : String) (s : SchedulerService)

/-- For today and every later day, the copy of the task has the count of the file. -/
def Agrees (task : ScheduledTask) : Prop :=
  ∀ n, s.now ≤ n →
    successesOn task.startupSuccess (env.localDate n) = s.diskCount id (env.localDate n)

/-- The file counts nothing for another day that is still to come. -/
def CountsOnly (today : String) : Prop :=
  ∀ n, s.now ≤ n → env.localDate n ≠ today → s.diskCount id (env.localDate n) = 0

/-- A save writes an up-to-date copy, and the task is not deleted. -/
def OpKeepsCount : Op → Prop
  | .saving other task .writing => other = id → s.Agrees env id task
  | .deleting other .removing => other = id → s.hasFile id = false
  | _ => True

/-- A record finds the file, writes it, and writes no count of a later day away. -/
def RunKeepsCount (fault : Bool) : RunStage → Prop
  | .updating _ (.success _) .reading => fault = false ∧ s.hasFile id = true
  | .updating _ (.success today) (.writing _) => fault = false ∧ s.CountsOnly env id today
  | _ => True

/-- What a cancelled run leaves behind writes an up-to-date copy, and records only while no run is
    between its reading and its writing of the file. -/
def ClosureKeepsCount (fault : Bool) : Closure → Prop
  | .update other (.success _) none => other = id → fault = false ∧ s.hasFile id = true
  | .update other (.lastRun ..) (some read) => other = id → fault = false → s.Agrees env id read
  | .update other (.success today) (some read) => other = id →
      fault = false ∧ s.Agrees env id read ∧ s.CountsOnly env id today ∧
        ∀ (i : Nat) run, s.runs[i]? = some run → run.task.id = id → run.stage.writesTask = false
  | _ => True

def KeepsCount : Event → Prop
  | .opTurn pid fault => fault = false → ∀ op ∈ s.ops[pid]?, s.OpKeepsCount env id op
  | .runTurn pid fault => ∀ run ∈ s.runs[pid]?, run.task.id = id →
      s.RunKeepsCount env id fault run.stage
  | .closureTurn pid fault => ∀ closure ∈ s.closures[pid]?, s.ClosureKeepsCount env id fault closure
  | _ => True

end

/-! ## The invariant -/

section
variable (env : Env) (id : String) (atStart : String → Nat) (s : SchedulerService) (os : List Effect)

/-- A copy that is about to be written is up to date. -/
def UpToDate (other : String) (read : ScheduledTask) : Prop := other = id → s.Agrees env id read

structure CountInv : Prop where
  counted : ∀ n, s.now ≤ n → s.diskCount id (env.localDate n) =
    atStart (env.localDate n) + recordedOn id (env.localDate n) os
  runs : Copies (s.UpToDate env id) s.runs

end

variable {env : Env} {id : String} {atStart : String → Nat} {s t : SchedulerService}
  {os os' : List Effect} {e : Event} {pid : Nat} {fault : Bool} {op op' : Op} {run run' : Run}

theorem CountInv.new {now : Nat} {files : List (String × ScheduledTask)}
    {histories : List (String × List HistoryRecord)} {loginOnce : Bool} :
    CountInv env id ((new now files histories loginOnce).diskCount id)
      (new now files histories loginOnce) [] := ⟨fun _ _ => rfl, .nil⟩

/-! ### What is recorded -/

theorem recordedOn_append (day : String) :
    recordedOn id day (os ++ os') = recordedOn id day os + recordedOn id day os' :=
  List.count_append ..

theorem recordedOn_idle (day : String) (h : ∀ o ∈ os, o.onFiles = false) :
    recordedOn id day os = 0 := by
  refine List.count_eq_zero.mpr fun hmem => ?_
  cases h _ hmem

theorem recordedOn_other {other : String} (kind : UpdateKind) (day : String) (h : other ≠ id) :
    recordedOn id day (kind.recorded other) = 0 := by
  refine List.count_eq_zero.mpr fun hmem => ?_
  cases kind with
  | lastRun => cases hmem
  | success today =>
    have heq := List.mem_singleton.mp hmem
    exact h (Effect.recorded.inj heq).1.symm

/-- What an up-to-date copy counts once the update is applied. -/
theorem Agrees.apply {read : ScheduledTask} {kind : UpdateKind} (h : s.Agrees env id read)
    (honly : ∀ today, kind = .success today → s.CountsOnly env id today) :
    ∀ n, s.now ≤ n → successesOn (kind.apply read).startupSuccess (env.localDate n) =
      s.diskCount id (env.localDate n) + recordedOn id (env.localDate n) (kind.recorded id) := by
  intro n hn
  cases kind with
  | lastRun time result => exact h n hn
  | success today =>
    show successesOn (some (nextSuccessCount read.startupSuccess today)) _ = _
    rw [successesOn_next]
    by_cases hday : today = env.localDate n
    · rw [if_pos hday, hday, h n hn]
      simp [recordedOn, UpdateKind.recorded]
    · have hnone : recordedOn id (env.localDate n) (UpdateKind.recorded id (.success today)) = 0 := by
        simp [recordedOn, UpdateKind.recorded, hday]
      rw [if_neg hday, hnone, honly today rfl n hn (Ne.symm hday)]

/-! ### Steps -/

theorem diskCount_congr (h : t.files.lookup id = s.files.lookup id) (day : String) :
    t.diskCount id day = s.diskCount id day := by rw [diskCount, diskCount, h]

theorem diskCount_put {task : ScheduledTask} (h : t.files = put s.files id task) (day : String) :
    t.diskCount id day = successesOn task.startupSuccess day := by
  rw [diskCount, h, lookup_put, if_pos rfl]
  rfl

theorem Agrees.mono {task : ScheduledTask} (h : s.Agrees env id task) (hnow : s.now ≤ t.now)
    (hcount : ∀ n, t.now ≤ n → t.diskCount id (env.localDate n) = s.diskCount id (env.localDate n)) :
    t.Agrees env id task :=
  fun n hn => (h n (Nat.le_trans hnow hn)).trans (hcount n hn).symm

/-- A step that leaves the counts as they are, and records nothing. -/
theorem CountInv.frame (h : CountInv env id atStart s os) (hnow : s.now ≤ t.now)
    (hcount : ∀ n, t.now ≤ n → t.diskCount id (env.localDate n) = s.diskCount id (env.localDate n))
    (hnone : ∀ day, recordedOn id day os' = 0)
    (hruns : Copies (s.UpToDate env id) t.runs) :
    CountInv env id atStart t (os ++ os') where
  counted n hn := by
    rw [hcount n hn, h.counted n (Nat.le_trans hnow hn), recordedOn_append, hnone, Nat.add_zero]
  runs := hruns.imp fun _ _ hread hid => (hread hid).mono hnow hcount

/-- The file is written with an up-to-date copy, and what is recorded with it. -/
theorem CountInv.writes {read : ScheduledTask} {kind : UpdateKind}
    (h : CountInv env id atStart s os) (hnow : s.now ≤ t.now) (hread : s.Agrees env id read)
    (honly : ∀ today, kind = .success today → s.CountsOnly env id today)
    (hfiles : t.files = put s.files id (kind.apply read))
    (hruns : Copies (t.UpToDate env id) t.runs) :
    CountInv env id atStart t (os ++ kind.recorded id) where
  counted n hn := by
    have hle := Nat.le_trans hnow hn
    calc t.diskCount id (env.localDate n)
        = successesOn (kind.apply read).startupSuccess (env.localDate n) := diskCount_put hfiles _
      _ = s.diskCount id (env.localDate n) +
            recordedOn id (env.localDate n) (kind.recorded id) := hread.apply honly n hle
      _ = atStart (env.localDate n) + recordedOn id (env.localDate n) (os ++ kind.recorded id) := by
          rw [h.counted n hle, recordedOn_append, Nat.add_assoc]
  runs := hruns

/-- No file of the task has changed. -/
theorem CountInv.same (h : CountInv env id atStart s os) (hnow : s.now ≤ t.now)
    (hfile : t.files.lookup id = s.files.lookup id) (hnone : ∀ day, recordedOn id day os' = 0)
    (hruns : Copies (s.UpToDate env id) t.runs) :
    CountInv env id atStart t (os ++ os') :=
  h.frame hnow (fun _ _ => diskCount_congr hfile _) hnone hruns

theorem CountInv.op_acts (h : CountInv env id atStart s os) (hlock : LockInv s)
    (hnow : s.now ≤ t.now) (hat : s.ops[pid]? = some op)
    (hcond : fault = false → s.OpKeepsCount env id op) (hruns : HandsOver s t)
    (hacts : OpActs s t pid fault op op' os') : CountInv env id atStart t (os ++ os') := by
  have hquiet : t.files.lookup id = s.files.lookup id → (∀ day, recordedOn id day os' = 0) →
      CountInv env id atStart t (os ++ os') := fun hfile hnone =>
    h.same hnow hfile hnone (copies_handsOver h.runs hruns)
  cases hacts with
  | waits _ _ hsame | locks _ _ hsame | unlocks _ _ hsame =>
    exact hquiet (by rw [hsame.files]) (fun _ => rfl)
  | forgets other _ _ hsame => exact hquiet (by rw [hsame.files]) (fun _ => rfl)
  | removesHistory other _ _ hfiles => exact hquiet (by rw [hfiles]) (fun _ => rfl)
  | saves other task hop _ hfault hfiles =>
    subst hop
    by_cases hid : other = id
    · subst hid
      have hcopy : s.Agrees env other task := hcond hfault rfl
      -- No run is between its reading and its writing of a file while a request saves one.
      refine h.frame hnow (fun n hn => ?_) (fun _ => rfl)
        (copies_handsOver (copies_of_not_locks (hlock.no_run hat rfl)) hruns)
      rw [diskCount_put hfiles]
      exact hcopy n (Nat.le_trans hnow hn)
    · exact hquiet (by rw [hfiles, lookup_put, if_neg (Ne.symm hid)]) (fun _ => rfl)
  | removes other hop _ hfault hfile hfiles =>
    subst hop
    by_cases hid : other = id
    · subst hid
      have hnone : s.hasFile other = false := hcond hfault rfl
      rw [hasFile, hfile] at hnone
      cases hnone
    · exact hquiet (by rw [hfiles, lookup_takeOut, if_neg (Ne.symm hid)]) (fun _ => rfl)

theorem CountInv.run_acts (h : CountInv env id atStart s os) (hlock : LockInv s)
    (hnow : s.now ≤ t.now) (hat : s.runs[pid]? = some run) (hcond : s.KeepsCount env id e)
    (hruns : t.runs = s.runs.set pid run') (hid : run'.task.id = run.task.id)
    (hacts : RunActs s t e pid run run' os') : CountInv env id atStart t (os ++ os') := by
  have hcopies : Copies (s.UpToDate env id) t.runs := by
    refine copies_run_acts h.runs hruns hid (fun read hread hmine n _ => ?_) hacts
    -- What has just been read is what is there.
    subst hmine
    obtain ⟨file, hfile, rfl⟩ := Option.map_eq_some_iff.mp hread
    rw [diskCount, hfile]
    rfl
  have hquiet : t.files.lookup id = s.files.lookup id → (∀ day, recordedOn id day os' = 0) →
      CountInv env id atStart t (os ++ os') :=
    fun hfile hnone => h.same hnow hfile hnone hcopies
  cases hacts with
  | waits _ _ hsame | unlocks _ _ hsame => exact hquiet (by rw [hsame.files]) (fun _ => rfl)
  | locks _ _ _ hsame => exact hquiet (by rw [hsame.files]) (fun _ => rfl)
  | reads _ _ _ _ _ _ hsame => exact hquiet (by rw [hsame.files]) (fun _ => rfl)
  | leaves _ hfiles => exact hquiet (by rw [hfiles]) (fun _ => rfl)
  | records _ _ _ _ _ _ hfiles => exact hquiet (by rw [hfiles]) (fun _ => rfl)
  | fails failure report kind stage he hrun hfails _ hsame =>
    subst he
    refine hquiet (by rw [hsame.files]) (fun day => ?_)
    by_cases hmine : run.task.id = id
    · cases kind with
      | lastRun => rfl
      | success today =>
        -- A record that fails is excluded.
        have hrecord := hcond run hat hmine
        rw [hrun] at hrecord
        rcases hfails with ⟨rfl, hfails⟩ | ⟨⟨read, rfl⟩, hfault⟩
        · obtain ⟨hno, hfile⟩ : failure = false ∧ s.hasFile id = true := hrecord
          rcases hfails with hfault | hnone
          · rw [hno] at hfault
            cases hfault
          · rw [hmine, loadFrom, Option.map_eq_none_iff] at hnone
            rw [hasFile, hnone] at hfile
            cases hfile
        · rw [hrecord.1] at hfault
          cases hfault
    · exact recordedOn_other kind day hmine
  | writes report kind read he hrun hrun' hfiles =>
    subst he
    by_cases hmine : run.task.id = id
    · have hread : s.Agrees env id read :=
        h.runs pid run hat read (by rw [Run.copy, hrun]; rfl) hmine
      have honly : ∀ today, kind = .success today → s.CountsOnly env id today := by
        rintro today rfl
        have hrecord := hcond run hat hmine
        rw [hrun] at hrecord
        exact hrecord.2
      -- No other run is between its reading and its writing while this one has the lock.
      have hothers : Copies (t.UpToDate env id) t.runs :=
        hlock.copies_written hat (by rw [hrun]; rfl) hruns (by rw [hrun']; rfl)
      rw [hmine] at hfiles ⊢
      exact h.writes hnow hread honly hfiles hothers
    · exact hquiet (by rw [hfiles, lookup_put, if_neg (Ne.symm hmine)])
        (fun day => recordedOn_other kind day hmine)

theorem CountInv.closure_acts {closure closure' : Closure} (h : CountInv env id atStart s os)
    (hnow : s.now ≤ t.now) (hcond : s.ClosureKeepsCount env id fault closure)
    (hruns : t.runs = s.runs) (hacts : ClosureActs s t pid fault closure closure' os') :
    CountInv env id atStart t (os ++ os') := by
  have hquiet : t.files.lookup id = s.files.lookup id → (∀ day, recordedOn id day os' = 0) →
      CountInv env id atStart t (os ++ os') :=
    fun hfile hnone => h.same hnow hfile hnone (by rw [hruns]; exact h.runs)
  cases hacts with
  | reads other kind read _ _ _ hfiles => exact hquiet (by rw [hfiles]) (fun _ => rfl)
  | readsHistory other status message trigger read _ _ hfiles =>
    exact hquiet (by rw [hfiles]) (fun _ => rfl)
  | records other status message trigger read runs _ _ _ hfiles =>
    exact hquiet (by rw [hfiles]) (fun _ => rfl)
  | fails other kind read hclosure _ hfails hfiles =>
    refine hquiet (by rw [hfiles]) fun day => ?_
    subst hclosure
    by_cases hmine : other = id
    · cases kind with
      | lastRun => rfl
      | success today =>
        cases read with
        | none =>
          obtain ⟨hno, hfile⟩ : fault = false ∧ s.hasFile id = true := hcond hmine
          rcases hfails with hfault | ⟨-, hnone⟩
          · rw [hno] at hfault
            cases hfault
          · rw [hmine, loadFrom, Option.map_eq_none_iff] at hnone
            rw [hasFile, hnone] at hfile
            cases hfile
        | some read =>
          rcases hfails with hfault | ⟨hread, -⟩
          · rw [(hcond hmine).1] at hfault
            cases hfault
          · cases hread
    · exact recordedOn_other kind day hmine
  | writes other kind read hclosure _ hfault hfiles =>
    subst hclosure
    by_cases hmine : other = id
    · subst hmine
      cases kind with
      | lastRun time result =>
        have hread : s.Agrees env other read := hcond rfl hfault
        refine h.frame hnow (fun n hn => ?_) (fun _ => rfl) (by rw [hruns]; exact h.runs)
        rw [diskCount_put hfiles]
        exact hread n (Nat.le_trans hnow hn)
      | success today =>
        obtain ⟨-, hread, honly, hcalm⟩ := hcond rfl
        refine h.writes hnow hread (fun day hday => UpdateKind.success.inj hday ▸ honly) hfiles ?_
        rw [hruns]
        intro i run hi copy hcopy hrun
        rw [Run.copy_of_not_writes (hcalm i run hi hrun)] at hcopy
        cases hcopy
    · exact hquiet (by rw [hfiles, lookup_put, if_neg (Ne.symm hmine)])
        (fun day => recordedOn_other kind day hmine)

theorem CountInv.step (h : CountInv env id atStart s os) (hlock : LockInv s)
    (hcond : s.KeepsCount env id e) (hstep : s.step env e = some (t, os')) :
    CountInv env id atStart t (os ++ os') := by
  cases acts hstep with
  | idle hnow hsame _ _ hruns hos =>
    exact h.same hnow (by rw [hsame.files]) (fun day => recordedOn_idle day hos)
      (copies_handsOver h.runs hruns)
  | asks hnow _ _ hsame _ _ hruns hos =>
    subst hos
    exact h.same hnow (by rw [hsame.files]) (fun _ => rfl) (by rw [hruns]; exact h.runs)
  | op hnow pid fault op op' he hat _ hruns hacts =>
    subst he
    exact h.op_acts hlock hnow hat (fun hfault => hcond hfault op hat) hruns hacts
  | run hnow pid run run' hat _ hruns hid hacts =>
    exact h.run_acts hlock hnow hat hcond hruns hid hacts
  | closure hnow pid fault closure closure' he hat _ hruns _ _ hacts =>
    subst he
    exact h.closure_acts hnow (hcond closure hat) hruns hacts

/-! ## The result -/

/-- Where the condition holds of every step, the file of the task counts for the current day what it
    counted at first and what has been recorded since. -/
theorem startup_successes_kept (env : Env) (id : String) (now : Nat)
    (files : List (String × ScheduledTask)) (histories : List (String × List HistoryRecord))
    (loginOnce : Bool) {es : List Event} {os : List Effect} {s : SchedulerService}
    (h : (schedulerMachine env).Steps (new now files histories loginOnce) es os s)
    (hcond : (schedulerMachine env).Along (KeepsCount env id)
      (new now files histories loginOnce) es) :
    s.diskCount id (env.localDate s.now) =
      (new now files histories loginOnce).diskCount id (env.localDate s.now) +
        recordedOn id (env.localDate s.now) os := by
  have hinv := h.tracing
    (I := fun s os => LockInv s ∧
      CountInv env id ((new now files histories loginOnce).diskCount id) s os)
    (fun hI hC hs => ⟨hI.1.step hs, hI.2.step hI.1 hC hs⟩) hcond ⟨.new, .new⟩
  exact hinv.2.counted s.now (Nat.le_refl _)

/-- The startup run is on its way to its first attempt. -/
def startupRun : List Event :=
  [.loopTurn, .loopTurn, .loopTurn, .loopTurn, .loopTurn, .loopTurn, .runTurn 0, .runTurn 0,
    .runTurn 0, .runTurn 0, .runTurn 0]

/-- The attempt succeeds, and the run goes on until the success is in the file and in memory. -/
def success : List Event :=
  .attempted 0 true "ok" :: List.replicate 10 (.runTurn 0)

def oneStartupTask : List (String × ScheduledTask) :=
  [("a", { id := "a", targetId := "t", trigger := .startup })]

/-- A stricter condition that can be computed: what is saved has the same count as the file, records
    do not fail, and nothing is deleted or left behind. -/
def opCopiesCount (id : String) (s : SchedulerService) : Op → Bool
  | .saving _ task .writing => task.startupSuccess = (s.files.lookup id).bind (·.startupSuccess)
  | .deleting .. => false
  | _ => true

def runCopiesCount (id : String) (s : SchedulerService) (fault : Bool) : RunStage → Bool
  | .updating _ (.success today) _ => !fault && s.hasFile id &&
      ((s.files.lookup id).bind (·.startupSuccess)).all (·.date = today)
  | _ => true

def CopiesCount (id : String) (s : SchedulerService) : Event → Prop
  | .opTurn pid _ => ∀ op ∈ s.ops[pid]?, s.opCopiesCount id op = true
  | .runTurn pid fault => ∀ run ∈ s.runs[pid]?, s.runCopiesCount id fault run.stage = true
  | .closureTurn .. => False
  | _ => True

instance (id : String) (s : SchedulerService) : ∀ e, Decidable (CopiesCount id s e)
  | .opTurn .. => inferInstanceAs (Decidable (∀ op ∈ _, _))
  | .runTurn .. => inferInstanceAs (Decidable (∀ run ∈ _, _))
  | .closureTurn .. => .isFalse not_false
  | .tick _ | .create _ | .update .. | .toggle _ | .delete _ | .runManually _ | .attempted ..
  | .panic _ | .cancelRun _ | .wake | .reload | .scan _ | .stop | .loopTurn _ => .isTrue trivial

theorem keepsCount_of_copies (h : s.CopiesCount id e) : s.KeepsCount env id e := by
  cases e with
  | opTurn pid fault =>
    intro _ op hat
    have hop : s.opCopiesCount id op = true := h op hat
    rcases op with _ | ⟨other, task, _ | _ | _ | _⟩ | _ | _ | _ | _
    case saving.writing =>
      intro _ n _
      rw [of_decide_eq_true hop]
      rfl
    case deleting => cases hop
    all_goals trivial
  | runTurn pid fault =>
    intro run hat _
    have hrun : s.runCopiesCount id fault run.stage = true := h run hat
    unfold RunKeepsCount
    split
    next hstage =>
      rw [hstage, runCopiesCount] at hrun
      simp only [Bool.and_eq_true, Bool.not_eq_true'] at hrun
      exact hrun.1
    next today _ hstage =>
      rw [hstage, runCopiesCount] at hrun
      simp only [Bool.and_eq_true, Bool.not_eq_true'] at hrun
      obtain ⟨⟨hfault, -⟩, hdate⟩ := hrun
      refine ⟨hfault, fun n _ hother => ?_⟩
      unfold diskCount
      cases hcount : (s.files.lookup id).bind (·.startupSuccess) with
      | none => rfl
      | some count =>
        rw [hcount] at hdate
        have hday : count.date = today := of_decide_eq_true hdate
        exact if_neg fun hsame => hother (hsame.symm.trans hday)
    next => trivial
  | closureTurn => exact h.elim
  | _ => trivial

/-- The success is recorded, and then the task is switched off and on. -/
theorem startup_successes_kept_sample : ∃ os s,
    (schedulerMachine .small).Steps (new 0 oneStartupTask [] false)
      (startupRun ++ success ++ [.toggle "a", .opTurn 0, .opTurn 0, .opTurn 0, .opTurn 0]) os s ∧
      recordedOn "a" "1" os = 1 ∧ s.diskCount "a" "1" = 1 := by
  have hrun : ((schedulerMachine .small).exec (new 0 oneStartupTask [] false)
      (startupRun ++ success ++ [.toggle "a", .opTurn 0, .opTurn 0, .opTurn 0, .opTurn 0])).any
      (fun r => recordedOn "a" "1" r.2 = 1 && r.1.now = 0) = true := by decide
  obtain ⟨s, os, hs, hend⟩ := Machine.steps_of_any hrun
  obtain ⟨hcount, hnow⟩ : recordedOn "a" "1" os = 1 ∧ s.now = 0 := by simpa using hend
  have hcond : (schedulerMachine .small).Along (CopiesCount "a") (new 0 oneStartupTask [] false)
      (startupRun ++ success ++ [.toggle "a", .opTurn 0, .opTurn 0, .opTurn 0, .opTurn 0]) := by
    decide
  have hkept := startup_successes_kept .small "a" 0 oneStartupTask [] false hs
    (hcond.mono fun _ _ => keepsCount_of_copies)
  rw [hnow] at hkept
  exact ⟨os, s, hs, hcount, hkept.trans (congrArg (0 + ·) hcount)⟩

/-- The task is switched off by a request that has read it from memory before the success. -/
theorem success_overwritten :
    ¬∀ (env : Env) (id : String) (now : Nat) (files : List (String × ScheduledTask))
      (histories : List (String × List HistoryRecord)) (loginOnce : Bool) (es : List Event)
      (os : List Effect) (s : SchedulerService),
      (schedulerMachine env).Steps (new now files histories loginOnce) es os s →
        (∀ o ∈ os, o ≠ .deleted id) →
        s.diskCount id (env.localDate s.now) =
          (new now files histories loginOnce).diskCount id (env.localDate s.now) +
            recordedOn id (env.localDate s.now) os := by
  intro hall
  have hrun : ((schedulerMachine .small).exec (new 0 oneStartupTask [] false)
      (startupRun ++ [.toggle "a", .opTurn 0, .opTurn 0] ++ success ++
        [.opTurn 0, .opTurn 0, .opTurn 0])).any
      (fun r => r.2 = [.recorded "a" "1", .saved "a"] && r.1.now = 0 &&
        r.1.diskCount "a" "1" = 0) = true := by decide
  obtain ⟨s, os, hs, hend⟩ := Machine.steps_of_any hrun
  obtain ⟨⟨rfl, hnow⟩, hlost⟩ :
      (os = [.recorded "a" "1", .saved "a"] ∧ s.now = 0) ∧ s.diskCount "a" "1" = 0 := by
    simpa using hend
  have hcount := hall .small "a" 0 oneStartupTask [] false _ _ s hs (by decide)
  rw [hnow] at hcount
  have hone : s.diskCount "a" "1" = 1 := hcount
  rw [hlost] at hone
  cases hone

end SchedulerService
end CampusAuth.Scheduler
