import CampusAuth.Scheduler.Copies

/- The due instants of a cron task: each is fired, passes while a run of the task is marked, or is
   still to be fired.

   The loop reads the clock to see what is due and again to find the upcoming instant. As long as an
   entry of the task stays in the table, the first instant it has missed is the one it waits for. In
   between the loop may have no entry of the task, and an instant that passes then is lost. -/
namespace CampusAuth.Scheduler
open Lib

/-! ## What is claimed, and when -/

/-- A firing for an earlier or the same instant comes after the instant, or a run of the task is
    marked when the instant passes. -/
def Accounted (id : String) (d : Nat) (os : List Effect) : Prop :=
  (∃ fireAt time, .fired id fireAt time ∈ os ∧ fireAt ≤ d ∧ d ≤ time) ∨
    ∃ before after running, .passed before after running ∈ os ∧ before < d ∧ d ≤ after ∧ id ∈ running

def TaskSchedule.due (now : Nat) (entry : TaskSchedule) : Bool :=
  match entry.nextFireAt with
  | some fireAt => fireAt ≤ now
  | none => false

/-- The entries that the loop will look at again: before a reload only those that are fired first. -/
def LoopStage.keeps (table : List TaskSchedule) : LoopStage → List TaskSchedule
  | .ready | .greeting | .dispatching .. => table
  | .scanning ids => table.filter (·.taskId ∈ ids)
  | .firing _ done todo .sleep | .advancing _ done _ todo .sleep => done ++ todo
  | .firing now _ todo .reload | .advancing now _ _ todo .reload => todo.filter (·.due now)
  | .loading _ _ _ schedules _ => schedules
  | .listing _ | .stopped => []

/-- All entries that the loop has at hand. -/
def LoopStage.entries (table : List TaskSchedule) : LoopStage → List TaskSchedule
  | .ready | .greeting | .dispatching .. | .scanning _ => table
  | .firing _ done todo _ => done ++ todo
  | .advancing _ done entry todo _ => done ++ entry :: todo
  | .loading _ _ _ schedules _ => schedules
  | .listing _ | .stopped => []

namespace SchedulerService
variable (env : Env) (S : Schedule) (id : String) (s : SchedulerService)

/-- The loop has an entry of the task. -/
def covered : Bool := (s.loop.keeps s.taskSchedules).any (·.taskId = id)

/-- An entry of the task waits for an instant up to `d`. -/
def Pending (d : Nat) : Prop :=
  ∃ entry ∈ s.loop.keeps s.taskSchedules, entry.taskId = id ∧
    ∃ fireAt, entry.nextFireAt = some fireAt ∧ fireAt ≤ d

/-- No instant passes while the loop has no entry of the task and no run of it is marked; and the
    table is not dropped while an instant is due. -/
def NoGap : Event → Prop
  | .tick elapsed => s.covered id = false → id ∉ s.runningIds →
      ∀ d, S.instant d → s.now < d → s.now + elapsed < d
  | .scan fault => fault = true →
      ∀ entry ∈ s.taskSchedules, entry.taskId = id → entry.due s.now = false
  | .stop => ∀ entry ∈ s.taskSchedules, entry.taskId = id → entry.due s.now = false
  | _ => True

/-- The memory that the table will be used with has the task. -/
def knows : Bool :=
  match s.loop with
  | .loading _ _ loaded _ _ => loaded.any (·.id = id)
  | _ => (s.getTask id).isSome

/-- An entry waits for the next instant after some time that has been. -/
def Planned (entry : TaskSchedule) : Prop :=
  entry.schedule = some S ∧ ∃ τ, τ ≤ s.now ∧ entry.nextFireAt = S.after τ

end SchedulerService

section
variable (env : Env) (S : Schedule) (id : String) (s : SchedulerService)

/-- The scheduler has the task in this version wherever it stands, in its table too. -/
structure TakenUp : Prop extends FileHolds env S id s, MemoryHolds env S id s where
  planned : ∀ entry ∈ s.loop.entries s.taskSchedules, entry.taskId = id →
    s.Planned S entry ∧ s.knows id = true

structure GapInv (start : Nat) (os : List Effect) : Prop extends TakenUp env S id s where
  accounted : ∀ d, S.instant d → start < d → d ≤ s.now → Accounted id d os ∨ s.Pending id d

end

open SchedulerService
variable {env : Env} {S : Schedule} {id : String} {s t : SchedulerService} {e : Event}
  {os os' : List Effect} {pid start : Nat} {fault : Bool}

theorem Accounted.append {d : Nat} (h : Accounted id d os) : Accounted id d (os ++ os') := by
  rcases h with ⟨fireAt, time, hmem, hd⟩ | ⟨before, after, running, hmem, hd⟩
  · exact .inl ⟨fireAt, time, List.mem_append_left _ hmem, hd⟩
  · exact .inr ⟨before, after, running, List.mem_append_left _ hmem, hd⟩

theorem Accounted.append_right {d : Nat} (h : Accounted id d os') : Accounted id d (os ++ os') := by
  rcases h with ⟨fireAt, time, hmem, hd⟩ | ⟨before, after, running, hmem, hd⟩
  · exact .inl ⟨fireAt, time, List.mem_append_right _ hmem, hd⟩
  · exact .inr ⟨before, after, running, List.mem_append_right _ hmem, hd⟩

theorem due_iff {now : Nat} {entry : TaskSchedule} :
    entry.due now = true ↔ ∃ fireAt, entry.nextFireAt = some fireAt ∧ fireAt ≤ now := by
  unfold TaskSchedule.due
  cases entry.nextFireAt with
  | none => simp
  | some fireAt => simp

theorem planned_later {entry : TaskSchedule} (h : s.Planned S entry) (hnow : s.now ≤ t.now) :
    t.Planned S entry := by
  obtain ⟨hschedule, τ, hτ, hnext⟩ := h
  exact ⟨hschedule, τ, Nat.le_trans hτ hnow, hnext⟩

/-- The upcoming instant, computed now. -/
theorem planned_now {entry : TaskSchedule} (h : entry.schedule = some S) :
    s.Planned S { entry with nextFireAt := entry.schedule.bind (·.after s.now) } :=
  ⟨h, s.now, Nat.le_refl _, by simp only [h]; rfl⟩

/-- What the loop looks at again it has at hand. -/
theorem mem_entries_of_keeps {table : List TaskSchedule} {loop : LoopStage} {entry : TaskSchedule}
    (h : entry ∈ loop.keeps table) : entry ∈ loop.entries table := by
  rcases loop with _ | ⟨now, done, todo, next⟩ | ⟨now, done, other, todo, next⟩ | _ | _ | _ | _ |
    ids | _
  case firing =>
    cases next with
    | sleep => exact h
    | reload => exact List.mem_append_right _ (List.mem_filter.mp h).1
  case advancing =>
    cases next with
    | sleep =>
      rcases List.mem_append.mp h with h | h
      · exact List.mem_append_left _ h
      · exact List.mem_append_right _ (List.mem_cons_of_mem _ h)
    | reload => exact List.mem_append_right _ (List.mem_cons_of_mem _ (List.mem_filter.mp h).1)
  case scanning => exact (List.mem_filter.mp h).1
  case listing | stopped => cases h
  all_goals exact h

/-- A step that takes no time keeps what is accounted for or pending. -/
theorem GapInv.keep (h : GapInv env S id s start os) (htaken : TakenUp env S id t)
    (hnow : t.now = s.now)
    (hpending : ∀ d, d ≤ s.now → s.Pending id d → Accounted id d os' ∨ t.Pending id d) :
    GapInv env S id t start (os ++ os') where
  toTakenUp := htaken
  accounted d hd hstart hle := by
    rw [hnow] at hle
    rcases h.accounted d hd hstart hle with hdone | hwaits
    · exact .inl hdone.append
    · rcases hpending d hle hwaits with hdone | hwaits
      · exact .inl hdone.append_right
      · exact .inr hwaits

/-! ## Steps of the main loop -/

/-- The memory and the clock are as they were. -/
structure SameMemory (s t : SchedulerService) : Prop where
  now : t.now = s.now
  tasks : t.tasks = s.tasks
  table : t.taskSchedules = s.taskSchedules

theorem SameMemory.getTask (h : SameMemory s t) (id : String) : t.getTask id = s.getTask id := by
  rw [SchedulerService.getTask, SchedulerService.getTask, h.tasks]

/-- What the loop does with an entry. -/
inductive Fires (s t : SchedulerService) (now : Nat) (done : List TaskSchedule)
    (entry : TaskSchedule) (todo : List TaskSchedule) (next : AfterFiring) : List Effect → Prop
  | passes (hdue : entry.due now = false) (hloop : t.loop = .firing now (done ++ [entry]) todo next) :
      Fires s t now done entry todo next []
  | skips (htask : ∀ task, s.getTask entry.taskId = some task → task.enabled = false)
      (hloop : t.loop = .advancing now done entry todo next) :
      Fires s t now done entry todo next []
  | fires (fireAt : Nat) (hfire : entry.nextFireAt = some fireAt)
      (hloop : t.loop = .advancing now done entry todo next) :
      Fires s t now done entry todo next [.fired entry.taskId fireAt s.now]

theorem fireTurn_fires (s : SchedulerService) (now : Nat) (done : List TaskSchedule)
    (entry : TaskSchedule) (todo : List TaskSchedule) (next : AfterFiring) :
    SameMemory s (s.fireTurn now done entry todo next).1 ∧
      Fires s (s.fireTurn now done entry todo next).1 now done entry todo next
        (s.fireTurn now done entry todo next).2 := by
  unfold fireTurn
  split
  next hnone => exact ⟨⟨rfl, rfl, rfl⟩, .passes (by rw [TaskSchedule.due, hnone]) rfl⟩
  next fireAt hfire =>
    split
    next hlater =>
      refine ⟨⟨rfl, rfl, rfl⟩, .passes ?_ rfl⟩
      rw [TaskSchedule.due, hfire]
      exact decide_eq_false (by omega)
    next =>
      split
      next hnone =>
        refine ⟨⟨rfl, rfl, rfl⟩, .skips (fun task htask => ?_) rfl⟩
        rw [hnone] at htask
        cases htask
      next task htask =>
        split
        next hdisabled =>
          refine ⟨⟨rfl, rfl, rfl⟩, .skips (fun other hother => ?_) rfl⟩
          rw [htask] at hother
          cases hother
          simpa using hdisabled
        next =>
          simp only
          split <;> exact ⟨⟨rfl, rfl, rfl⟩, .fires fireAt hfire rfl⟩

/-- Entries of the table in use: the memory has the task whenever one of them is its own. -/
def Plans (S : Schedule) (id : String) (s : SchedulerService) (entries : List TaskSchedule) : Prop :=
  ∀ entry ∈ entries, entry.taskId = id → s.Planned S entry ∧ (s.getTask id).isSome = true

theorem Plans.same {entries : List TaskSchedule} (h : Plans S id s entries) (hsame : SameMemory s t) :
    Plans S id t entries := by
  intro entry hmem hid
  obtain ⟨hplanned, hknown⟩ := h entry hmem hid
  refine ⟨planned_later hplanned (Nat.le_of_eq hsame.now.symm), ?_⟩
  rw [hsame.getTask]
  exact hknown

theorem Plans.subset {entries fewer : List TaskSchedule} (h : Plans S id s entries)
    (hsub : ∀ entry ∈ fewer, entry ∈ entries) : Plans S id s fewer :=
  fun entry hmem hid => h entry (hsub entry hmem) hid

/-- Outside of a load the planned entries are the ones at hand. -/
theorem taken_of_plans (hfile : FileHolds env S id t) (hmemory : MemoryHolds env S id t)
    (hnot : ∀ first todo loaded schedules invalid,
      t.loop ≠ .loading first todo loaded schedules invalid)
    (hplans : Plans S id t (t.loop.entries t.taskSchedules)) : TakenUp env S id t where
  toFileHolds := hfile
  toMemoryHolds := hmemory
  planned entry hmem hid := by
    obtain ⟨hplanned, hknown⟩ := hplans entry hmem hid
    refine ⟨hplanned, ?_⟩
    unfold knows
    split
    next hloop => exact (hnot _ _ _ _ _ hloop).elim
    next => exact hknown

theorem TakenUp.plans (h : TakenUp env S id s)
    (hnot : ∀ first todo loaded schedules invalid,
      s.loop ≠ .loading first todo loaded schedules invalid) :
    Plans S id s (s.loop.entries s.taskSchedules) := by
  intro entry hmem hid
  obtain ⟨hplanned, hknown⟩ := h.planned entry hmem hid
  refine ⟨hplanned, ?_⟩
  unfold knows at hknown
  split at hknown
  next hloop => exact (hnot _ _ _ _ _ hloop).elim
  next => exact hknown

theorem pending_of_mem {d fireAt : Nat} {entry : TaskSchedule}
    (hmem : entry ∈ s.loop.keeps s.taskSchedules) (hid : entry.taskId = id)
    (hfire : entry.nextFireAt = some fireAt) (hle : fireAt ≤ d) : s.Pending id d :=
  ⟨entry, hmem, hid, fireAt, hfire, hle⟩

/-- The loop comes to an entry: what is due of the task is fired. -/
theorem GapInv.fire {now : Nat} {done todo : List TaskSchedule} {entry : TaskSchedule}
    {next : AfterFiring} (h : GapInv env S id s start os) (hfile : FileHolds env S id t)
    (hmemory : MemoryHolds env S id t) (hloop : s.loop = .firing now done (entry :: todo) next)
    (hsame : SameMemory s t) (hfires : Fires s t now done entry todo next os') :
    GapInv env S id t start (os ++ os') := by
  have hplans := h.toTakenUp.plans (by rw [hloop]; simp)
  rw [hloop] at hplans
  have hplans : Plans S id t (done ++ entry :: todo) := hplans.same hsame
  cases hfires with
  | passes hdue hto =>
    refine h.keep (taken_of_plans hfile hmemory (by rw [hto]; simp) ?_) hsame.now fun d _ hwaits => ?_
    · rw [hto]
      exact hplans.subset fun e he => by simpa [LoopStage.entries] using he
    · obtain ⟨e, hmem, hid, fireAt, hfire, hle⟩ := hwaits
      refine .inr (pending_of_mem ?_ hid hfire hle)
      rw [hloop] at hmem
      rw [hto]
      cases next with
      | sleep => simpa [LoopStage.keeps] using hmem
      | reload =>
        -- The entry is not due, so a reload has not kept it before either.
        simpa [LoopStage.keeps, hdue] using hmem
  | skips htask hto =>
    refine h.keep (taken_of_plans hfile hmemory (by rw [hto]; simp) ?_) hsame.now fun d _ hwaits => ?_
    · rw [hto]; exact hplans
    · obtain ⟨e, hmem, hid, fireAt, hfire, hle⟩ := hwaits
      have hne : e ≠ entry := by
        rintro rfl
        -- The memory has the task, and has it enabled.
        have hknown := (hplans e (by simp) hid).2
        rw [hsame.getTask] at hknown
        obtain ⟨task, hget⟩ := Option.isSome_iff_exists.mp hknown
        have henabled := (h.cached task hget).enabled
        rw [htask task (hid ▸ hget)] at henabled
        cases henabled
      refine .inr (pending_of_mem ?_ hid hfire hle)
      rw [hloop] at hmem
      rw [hto]
      cases next <;> simpa [LoopStage.keeps, hne] using hmem
  | fires fireAt hfire hto =>
    refine h.keep (taken_of_plans hfile hmemory (by rw [hto]; simp) ?_) hsame.now
      fun d hd hwaits => ?_
    · rw [hto]; exact hplans
    · obtain ⟨e, hmem, hid, other, hother, hle⟩ := hwaits
      by_cases heq : e = entry
      · subst heq
        obtain rfl : other = fireAt := Option.some.inj (hother.symm.trans hfire)
        exact .inl (.inl ⟨other, s.now, by rw [hid]; exact List.mem_singleton_self _, hle, hd⟩)
      · refine .inr (pending_of_mem ?_ hid hother hle)
        rw [hloop] at hmem
        rw [hto]
        cases next <;> simpa [LoopStage.keeps, heq] using hmem

/-- A step that keeps the entries at hand and what the loop looks at again. -/
theorem GapInv.stay (h : GapInv env S id s start os) (hfile : FileHolds env S id t)
    (hmemory : MemoryHolds env S id t) (hnow : t.now = s.now)
    (hloading : ∀ first todo loaded schedules invalid,
      t.loop ≠ .loading first todo loaded schedules invalid)
    (hplans : Plans S id t (t.loop.entries t.taskSchedules))
    (hkeeps : ∀ entry ∈ s.loop.keeps s.taskSchedules, entry.taskId = id →
      ∀ fireAt, entry.nextFireAt = some fireAt → fireAt ≤ s.now →
        entry ∈ t.loop.keeps t.taskSchedules) :
    GapInv env S id t start (os ++ os') := by
  refine h.keep (taken_of_plans hfile hmemory hloading hplans) hnow fun d hd hwaits => ?_
  obtain ⟨entry, hmem, hid, fireAt, hfire, hle⟩ := hwaits
  exact .inr (pending_of_mem (hkeeps entry hmem hid fireAt hfire (Nat.le_trans hle hd)) hid hfire hle)

/-- A load comes to a file. -/
theorem GapInv.load {first : Bool} {other : String} {todo : List String}
    {loaded : List ScheduledTask} {schedules : List TaskSchedule} {invalid : List String}
    (h : GapInv env S id s start os)
    (hloop : s.loop = .loading first (other :: todo) loaded schedules invalid)
    (hfile : FileHolds env S id t) (hmemory : MemoryHolds env S id t)
    (ht : t = s.loadTurn env fault first other todo loaded schedules invalid) :
    GapInv env S id t start (os ++ os') := by
  have hplanned := h.planned
  rw [hloop] at hplanned
  have hknows : s.knows id = loaded.any (·.id = id) := by rw [knows, hloop]
  have hwaits : ∀ {d}, s.Pending id d → ∃ entry ∈ schedules, entry.taskId = id ∧
      ∃ fireAt, entry.nextFireAt = some fireAt ∧ fireAt ≤ d := by
    intro d hwaits
    unfold Pending at hwaits
    rw [hloop] at hwaits
    exact hwaits
  unfold loadTurn at ht
  split at ht <;> subst ht
  · refine h.keep ⟨hfile, hmemory, fun entry hmem hid => ?_⟩ rfl fun d _ hd => .inr (hwaits hd)
    obtain ⟨hp, hk⟩ := hplanned entry hmem hid
    rw [hknows] at hk
    exact ⟨hp, hk⟩
  next task hread =>
    have hread : s.loadFrom other = some task := by
      split at hread
      · cases hread
      · exact hread
    have hname : task.id = other := by
      obtain ⟨file, -, rfl⟩ := Option.map_eq_some_iff.mp hread
      rfl
    refine h.keep ⟨hfile, hmemory, fun entry hmem hid => ?_⟩ rfl fun d _ hd => ?_
    · rcases List.mem_append.mp hmem with hmem | hmem
      · obtain ⟨hp, hk⟩ := hplanned entry hmem hid
        refine ⟨hp, ?_⟩
        rw [hknows] at hk
        show (loaded ++ [task]).any _ = true
        rw [List.any_append, hk, Bool.true_or]
      · -- The entry of the file that has just been read.
        have hentry : s.scheduleOf env other task = some entry := Option.mem_toList.mp hmem
        have hother : other = id := by
          unfold scheduleOf at hentry
          split at hentry <;> cases hentry
          exact hid
        subst hother
        have hfollows := h.toFileHolds.loadFrom hread
        unfold scheduleOf at hentry
        rw [hfollows.enabled, hfollows.trigger, hfollows.schedule] at hentry
        cases hentry
        refine ⟨⟨rfl, s.now, Nat.le_refl _, rfl⟩, ?_⟩
        show (loaded ++ [task]).any _ = true
        simp [hname]
    · obtain ⟨entry, hmem, hfire⟩ := hwaits hd
      exact .inr ⟨entry, List.mem_append_left _ hmem, hfire⟩

theorem GapInv.loopTurn (h : GapInv env S id s start os) (hfile : FileHolds env S id t)
    (hmemory : MemoryHolds env S id t) (hstep : s.loopTurn env fault s.loop = some (t, os')) :
    GapInv env S id t start (os ++ os') := by
  cases hloop : s.loop with
  | ready | stopped => rw [hloop] at hstep; cases hstep
  | firing now done todo next =>
    have hplans := h.toTakenUp.plans (by rw [hloop]; simp)
    rw [hloop] at hplans
    cases todo with
    | cons entry todo =>
      rw [hloop] at hstep
      obtain ⟨hsame, hfires⟩ := fireTurn_fires s now done entry todo next
      simp only [SchedulerService.loopTurn, Option.some.injEq] at hstep
      rw [hstep] at hsame hfires
      exact h.fire hfile hmemory hloop hsame hfires
    | nil =>
      rw [hloop] at hstep
      cases next with
      | sleep =>
        cases hstep
        refine h.stay hfile hmemory rfl (by simp) ?_ fun entry hmem _ _ _ _ => ?_
        · exact hplans.subset fun entry hmem => by simpa [LoopStage.entries] using hmem
        · rw [hloop] at hmem
          simpa [LoopStage.keeps] using hmem
      | reload =>
        cases hstep
        refine h.stay hfile hmemory rfl (by simp) (by intro entry hmem; cases hmem)
          fun entry hmem _ _ _ _ => ?_
        rw [hloop] at hmem
        cases hmem
  | advancing now done entry todo next =>
    have hplans := h.toTakenUp.plans (by rw [hloop]; simp)
    rw [hloop] at hplans hstep
    cases hstep
    refine h.stay hfile hmemory rfl (by simp [loopTo]) ?_ fun e hmem _ _ _ _ => ?_
    · intro e hmem hid
      have hmem : e ∈ done ∨ e = { entry with nextFireAt := entry.schedule.bind (·.after s.now) } ∨
          e ∈ todo := by simpa [LoopStage.entries, loopTo, or_assoc] using hmem
      rcases hmem with hmem | rfl | hmem
      · exact hplans e (by simp [LoopStage.entries, hmem]) hid
      · -- The entry has the schedule of the task, and waits for the upcoming instant now.
        obtain ⟨hplanned, hknown⟩ := hplans entry (by simp [LoopStage.entries]) hid
        exact ⟨planned_now hplanned.1, hknown⟩
      · exact hplans e (by simp [LoopStage.entries, hmem]) hid
    · rw [hloop] at hmem
      cases next with
      | sleep =>
        have hmem : e ∈ done ∨ e ∈ todo := by simpa [LoopStage.keeps] using hmem
        rcases hmem with hmem | hmem <;> simp [LoopStage.keeps, loopTo, hmem]
      | reload => exact hmem
  | listing first =>
    rw [hloop] at hstep
    cases hstep
    refine h.keep ⟨hfile, hmemory, by intro entry hmem; cases hmem⟩ rfl fun d _ hwaits => ?_
    obtain ⟨entry, hmem, -⟩ := hwaits
    rw [hloop] at hmem
    cases hmem
  | loading first todo loaded schedules invalid =>
    cases todo with
    | cons other todo =>
      rw [hloop] at hstep
      simp only [SchedulerService.loopTurn, Option.some.injEq, Prod.mk.injEq] at hstep
      exact h.load hloop hfile hmemory hstep.1.symm
    | nil =>
      have hplanned := h.planned
      have hknows : s.knows id = loaded.any (·.id = id) := by rw [knows, hloop]
      rw [hloop] at hstep hplanned
      cases hstep
      refine h.stay hfile hmemory rfl (by cases first <;> simp) ?_ fun entry hmem _ _ _ _ => ?_
      · intro entry hmem hid
        have hmem : entry ∈ schedules := by cases first <;> exact hmem
        obtain ⟨hp, hk⟩ := hplanned entry hmem hid
        refine ⟨hp, ?_⟩
        rw [hknows] at hk
        obtain ⟨task, htask, hname⟩ := List.any_eq_true.mp hk
        exact List.find?_isSome.mpr ⟨task, htask, hname⟩
      · rw [hloop] at hmem
        cases first <;> exact hmem
  | greeting =>
    have hplans := h.toTakenUp.plans (by rw [hloop]; simp)
    rw [hloop] at hplans hstep
    cases hstep
    refine h.stay hfile hmemory rfl ?_ ?_ fun entry hmem _ _ _ _ => ?_
    · simp only [loopTo]
      split <;> simp
    · simp only [loopTo]
      split <;> exact hplans
    · rw [hloop] at hmem
      simp only [loopTo]
      split <;> exact hmem
  | dispatching today todo =>
    have hplans := h.toTakenUp.plans (by rw [hloop]; simp)
    rw [hloop] at hplans hstep
    cases todo with
    | nil =>
      cases hstep
      refine h.stay hfile hmemory rfl (by simp [loopTo]) hplans fun entry hmem _ _ _ _ => ?_
      rw [hloop] at hmem
      exact hmem
    | cons task todo =>
      simp only [SchedulerService.loopTurn, Option.some.injEq, Prod.mk.injEq] at hstep
      obtain ⟨hsame, hto⟩ : SameMemory s (s.greetTurn today task todo) ∧
          (s.greetTurn today task todo).loop = .dispatching today todo := by
        unfold greetTurn
        split <;> exact ⟨⟨rfl, rfl, rfl⟩, rfl⟩
      rw [hstep.1] at hsame hto
      refine h.stay hfile hmemory hsame.now (by rw [hto]; simp) ?_ fun entry hmem _ _ _ _ => ?_
      · rw [hto, hsame.table]
        exact hplans.same hsame
      · rw [hloop] at hmem
        rw [hto, hsame.table]
        exact hmem
  | scanning ids =>
    have hplans := h.toTakenUp.plans (by rw [hloop]; simp)
    rw [hloop] at hplans hstep
    cases hstep
    refine h.stay hfile hmemory rfl (by simp [loopTo]) ?_ fun entry hmem _ _ _ _ => ?_
    · intro entry hmem hid
      have hmem : entry ∈ s.taskSchedules.filter (·.taskId ∈ ids) := hmem
      obtain ⟨hmem, hkept⟩ := List.mem_filter.mp hmem
      have hkept : id ∈ ids := by simpa [hid] using hkept
      obtain ⟨hplanned, hknown⟩ := hplans entry hmem hid
      refine ⟨hplanned, ?_⟩
      rcases getTask_forgetMissing s id ids with hsame | ⟨hnot, -⟩
      · exact (congrArg Option.isSome hsame).trans hknown
      · exact (hnot hkept).elim
    · rw [hloop] at hmem
      exact hmem

/-! ## Runs -/

theorem loop_of_ready (h : s.isReady = true) : s.loop = .ready := by
  unfold isReady at h
  split at h
  next hloop => exact hloop
  next => cases h

theorem mem_ids_of_lookup {task : ScheduledTask} (h : s.files.lookup id = some task) :
    id ∈ s.files.map (·.1) := by
  by_contra hnot
  have hnone : s.files.lookup id = none := by
    refine lookup_eq_none_of_not_any (Bool.eq_false_iff.mpr fun hany => hnot ?_)
    obtain ⟨entry, hmem, heq⟩ := List.any_eq_true.mp hany
    exact List.mem_map.mpr ⟨entry, hmem, eq_of_beq heq⟩
  rw [hnone] at h
  cases h

/-- Time passes: an instant that is newly due is waited for, or passes while a run is marked. -/
theorem GapInv.tick {elapsed : Nat} (h : GapInv env S id s start os)
    (hcond : s.NoGap S id (.tick elapsed)) (hfile : FileHolds env S id t)
    (hmemory : MemoryHolds env S id t) (ht : t = { s with now := s.now + elapsed }) :
    GapInv env S id t start (os ++ [.passed s.now (s.now + elapsed) s.runningIds]) := by
  subst ht
  refine ⟨⟨hfile, hmemory, fun entry hmem hid => ?_⟩, fun d hd hstart hle => ?_⟩
  · obtain ⟨hplanned, hknown⟩ := h.planned entry hmem hid
    exact ⟨planned_later hplanned (Nat.le_add_right ..), hknown⟩
  · by_cases hold : d ≤ s.now
    · rcases h.accounted d hd hstart hold with hdone | hwaits
      · exact .inl hdone.append
      · exact .inr hwaits
    · have hnew : s.now < d := by omega
      by_cases hrunning : id ∈ s.runningIds
      · exact .inl (.inr ⟨s.now, s.now + elapsed, s.runningIds,
          List.mem_append_right _ (List.mem_singleton_self _), hnew, hle, hrunning⟩)
      · cases hcovered : s.covered id with
        | false =>
          have hbefore := hcond hcovered hrunning d hd hnew
          exact absurd hle (by show ¬ d ≤ s.now + elapsed; omega)
        | true =>
          -- The entry waits for the first instant after a time that has been.
          obtain ⟨entry, hmem, hid⟩ := List.any_eq_true.mp hcovered
          have hid : entry.taskId = id := by simpa using hid
          obtain ⟨⟨-, τ, hτ, hnext⟩, -⟩ := h.planned entry (mem_entries_of_keeps hmem) hid
          obtain ⟨first, hfirst, hle⟩ := S.after_first τ d hd (Nat.lt_of_le_of_lt hτ hnew)
          exact .inr ⟨entry, hmem, hid, first, hnext.trans hfirst, hle⟩

theorem GapInv.step (h : GapInv env S id s start os)
    (hnamed : Pool.All (fun _ op => op.Named) s.ops) (hunchanged : Unchanged env S id s e)
    (hcond : s.NoGap S id e) (hstep : s.step env e = some (t, os')) :
    GapInv env S id t start (os ++ os') := by
  have hfile := h.toFileHolds.step hunchanged hstep
  have hmemory := h.toMemoryHolds.step h.toFileHolds hnamed hunchanged hstep
  cases hoff : e.offLoop with
  | true =>
    have hacts := offLoop hoff hstep
    refine h.keep ⟨hfile, hmemory, fun entry hmem hid => ?_⟩ hacts.now fun d _ hwaits => .inr ?_
    · rw [hacts.loop, hacts.table] at hmem
      obtain ⟨hplanned, hknown⟩ := h.planned entry hmem hid
      refine ⟨planned_later hplanned (Nat.le_of_eq hacts.now.symm), ?_⟩
      unfold knows at hknown ⊢
      rw [hacts.loop]
      split at hknown
      · exact hknown
      · exact (hacts.cached hunchanged hnamed h.cached).2 hknown
    · unfold Pending
      rw [hacts.loop, hacts.table]
      exact hwaits
  | false =>
    cases e
    case tick elapsed =>
      cases hstep
      exact h.tick hcond hfile hmemory rfl
    case wake =>
      simp only [SchedulerService.step] at hstep
      split at hstep <;> cases hstep
      next hready =>
        have hloop := loop_of_ready hready
        have hplans := h.toTakenUp.plans (by rw [hloop]; simp)
        rw [hloop] at hplans
        refine h.stay hfile hmemory rfl (by simp [loopTo]) hplans fun entry hmem _ _ _ _ => ?_
        rw [hloop] at hmem
        exact hmem
    case reload =>
      simp only [SchedulerService.step] at hstep
      split at hstep <;> cases hstep
      next hready =>
        have hloop := loop_of_ready hready
        have hplans := h.toTakenUp.plans (by rw [hloop]; simp)
        rw [hloop] at hplans
        refine h.stay hfile hmemory rfl (by simp [loopTo]) hplans
          fun entry hmem _ fireAt hfire hle => ?_
        -- What is due is fired before the table is dropped.
        rw [hloop] at hmem
        exact List.mem_filter.mpr ⟨hmem, due_iff.mpr ⟨fireAt, hfire, hle⟩⟩
    case scan fault =>
      simp only [SchedulerService.step] at hstep
      split at hstep <;> cases hstep
      next hready =>
        have hloop := loop_of_ready hready
        have hplans := h.toTakenUp.plans (by rw [hloop]; simp)
        rw [hloop] at hplans
        refine h.stay hfile hmemory rfl (by simp [loopTo]) hplans
          fun entry hmem hid fireAt hfire hle => ?_
        rw [hloop] at hmem
        cases fault with
        | true =>
          have hdue := hcond rfl entry hmem hid
          rw [due_iff.mpr ⟨fireAt, hfire, hle⟩] at hdue
          cases hdue
        | false =>
          -- The file of the task is there, so the scan finds it.
          obtain ⟨task, hlookup, -⟩ := h.file
          refine List.mem_filter.mpr ⟨hmem, decide_eq_true ?_⟩
          rw [hid]
          exact mem_ids_of_lookup hlookup
    case stop =>
      simp only [SchedulerService.step] at hstep
      split at hstep <;> cases hstep
      next hready =>
        have hloop := loop_of_ready hready
        refine h.stay hfile hmemory rfl (by simp) (by intro entry hmem; cases hmem)
          fun entry hmem hid fireAt hfire hle => ?_
        rw [hloop] at hmem
        have hdue := hcond entry hmem hid
        rw [due_iff.mpr ⟨fireAt, hfire, hle⟩] at hdue
        cases hdue
    case loopTurn fault => exact h.loopTurn hfile hmemory hstep
    all_goals cases hoff

/-! ## The result -/

/-- From a state in which the scheduler has taken up the task on: as long as the task is enabled,
    keeps its schedule, and the condition holds of every step, every due instant has been fired, or
    has passed while a run was marked, or an entry of the task waits for it. -/
theorem no_instant_lost (env : Env) (S : Schedule) (id : String) (now : Nat)
    (files : List (String × ScheduledTask)) (histories : List (String × List HistoryRecord))
    (loginOnce : Bool) {es₁ es₂ : List Event} {os₁ os₂ : List Effect} {s t : SchedulerService}
    (hbefore : (schedulerMachine env).Steps (new now files histories loginOnce) es₁ os₁ s)
    (htaken : TakenUp env S id s) (h : (schedulerMachine env).Steps s es₂ os₂ t)
    (hunchanged : (schedulerMachine env).Along (Unchanged env S id) s es₂)
    (hcond : (schedulerMachine env).Along (fun s e => s.NoGap S id e) s es₂) {d : Nat}
    (hd : S.instant d) (hafter : s.now < d) (hdue : d ≤ t.now) :
    Accounted id d os₂ ∨ t.Pending id d := by
  have hnamed : Pool.All (fun _ op => op.Named) s.ops :=
    hbefore.invariant (I := fun s => Pool.All (fun _ op => op.Named) s.ops)
      (C := fun _ _ => True) (fun hI _ hs => named_step hI hs)
      (Machine.along_of_forall fun _ _ => trivial) .nil
  have hinv := h.tracing
    (I := fun t os => Pool.All (fun _ op => op.Named) t.ops ∧ GapInv env S id t s.now os)
    (fun hI hC hs => ⟨named_step hI.1 hs, hI.2.step hI.1 hC.1 hC.2 hs⟩)
    (hunchanged.and hcond)
    ⟨hnamed, htaken, fun d _ hstart hle => absurd hle (Nat.not_le.mpr hstart)⟩
  exact hinv.2.accounted d hd hafter hdue

/-- The schedule that any expression has in the small environment. -/
def eachTen : Schedule := .every 10 ten_pos

def tenTask : ScheduledTask := { id := "a", targetId := "t" }

/-- The scheduler after its start, with a cron task. -/
def started : SchedulerService :=
  { files := [("a", tenTask)], tasks := [tenTask], loop := .ready
    taskSchedules := [⟨"a", some eachTen, some 10⟩] }

def starting : List Event := List.replicate 6 .loopTurn

theorem started_steps : (schedulerMachine .small).Steps (new 0 [("a", tenTask)] [] false) starting
    [] started :=
  Machine.steps_of_exec rfl

theorem started_taken : TakenUp .small eachTen "a" started := by
  have hfollows : Follows .small eachTen tenTask := ⟨rfl, rfl, rfl⟩
  refine ⟨⟨⟨tenTask, rfl, hfollows⟩, .nil, .nil⟩, ⟨fun task htask => ?_, trivial⟩,
    fun entry hmem _ => ?_⟩
  · cases htask
    exact hfollows
  · obtain rfl := List.mem_singleton.mp hmem
    exact ⟨⟨rfl, 0, Nat.le_refl _, rfl⟩, rfl⟩

/-- No event of the run is the turn of a request. -/
theorem unchanged_of_no_request {es : List Event}
    (h : ∀ e ∈ es, (match e with | .opTurn .. => false | _ => true) = true) :
    (schedulerMachine env).Along (Unchanged env S id) s es := by
  refine (Machine.along_of_forall (M := schedulerMachine env) h).mono fun s e he => ?_
  cases e <;> trivial

/-- Time passes only while the loop has an entry of the task, and the table is not dropped. -/
def entryStays (id : String) (s : SchedulerService) : Event → Bool
  | .tick _ => s.covered id
  | .scan _ | .stop => false
  | _ => true

theorem noGap_of_entryStays (h : entryStays id s e = true) : s.NoGap S id e := by
  cases e with
  | tick elapsed =>
    intro hcovered
    rw [show s.covered id = true from h] at hcovered
    cases hcovered
  | scan | stop => cases h
  | _ => trivial

/-- The instant passes, the loop wakes up and fires it. -/
theorem no_instant_lost_sample : ∃ os t, (schedulerMachine .small).Steps started
    [.tick 12, .wake, .loopTurn, .loopTurn, .loopTurn] os t ∧ .fired "a" 10 12 ∈ os ∧
      (Accounted "a" 10 os ∨ t.Pending "a" 10) := by
  have hrun : ((schedulerMachine .small).exec started
      [.tick 12, .wake, .loopTurn, .loopTurn, .loopTurn]).any
      (fun r => decide (.fired "a" 10 12 ∈ r.2 ∧ r.1.now = 12)) = true := by decide
  obtain ⟨t, os, hs, hend⟩ := Machine.steps_of_any hrun
  obtain ⟨hfired, hnow⟩ := of_decide_eq_true hend
  have hstays : (schedulerMachine .small).Along (fun s e => entryStays "a" s e = true) started
      [.tick 12, .wake, .loopTurn, .loopTurn, .loopTurn] := by decide
  refine ⟨os, t, hs, hfired, no_instant_lost .small eachTen "a" 0 _ [] false started_steps
    started_taken hs (unchanged_of_no_request (by decide))
    (hstays.mono fun _ _ => noGap_of_entryStays) (Nat.dvd_refl 10) (by decide) ?_⟩
  rw [hnow]
  decide

/-- A reload looks what is due at 5 and finds nothing; the table is built anew at 15. -/
def reloadAcross : List Event :=
  [.tick 5, .reload, .loopTurn, .loopTurn, .tick 10, .loopTurn, .loopTurn, .loopTurn]

/-- The instant in between is neither fired nor waited for, and no run is marked. -/
theorem reload_loses :
    ¬∀ (env : Env) (S : Schedule) (id : String) (now : Nat) (files : List (String × ScheduledTask))
      (histories : List (String × List HistoryRecord)) (loginOnce : Bool) (es₁ es₂ : List Event)
      (os₁ os₂ : List Effect) (s t : SchedulerService),
      (schedulerMachine env).Steps (new now files histories loginOnce) es₁ os₁ s →
        TakenUp env S id s → (schedulerMachine env).Steps s es₂ os₂ t →
        (schedulerMachine env).Along (Unchanged env S id) s es₂ →
        ∀ d, S.instant d → s.now < d → d ≤ t.now → Accounted id d os₂ ∨ t.Pending id d := by
  intro hall
  have hrun : ((schedulerMachine .small).exec started reloadAcross).any (fun r =>
      decide (r.2 = [.passed 0 5 [], .passed 5 15 []] ∧ r.1.now = 15) &&
        (r.1.loop.keeps r.1.taskSchedules).all (·.nextFireAt = some 20)) = true := by decide
  obtain ⟨t, os, hs, hend⟩ := Machine.steps_of_any hrun
  obtain ⟨hend, hnext⟩ := Bool.and_eq_true .. |>.mp hend
  obtain ⟨rfl, hnow⟩ := of_decide_eq_true hend
  rcases hall .small eachTen "a" 0 _ [] false _ _ _ _ _ t started_steps started_taken hs
    (unchanged_of_no_request (by decide)) 10 (Nat.dvd_refl 10) (by decide) (by rw [hnow]; decide)
    with hdone | ⟨entry, hmem, -, fireAt, hfire, hle⟩
  · rcases hdone with ⟨fireAt, time, hmem, -⟩ | ⟨before, after, running, hmem, -, -, hrunning⟩
    · simp at hmem
    · have hnone : running = [] := by
        simp only [List.mem_cons, Effect.passed.injEq, List.not_mem_nil, or_false] at hmem
        rcases hmem with ⟨-, -, hnone⟩ | ⟨-, -, hnone⟩ <;> exact hnone
      rw [hnone] at hrunning
      cases hrunning
  · have hlater : entry.nextFireAt = some 20 := by
      simpa using List.all_eq_true.mp hnext entry hmem
    rw [hfire] at hlater
    cases hlater
    exact absurd hle (by decide)

end CampusAuth.Scheduler
