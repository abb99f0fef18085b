import CampusAuth.Lib.SortedTail
import CampusAuth.Lib.Text

/- The login history by days, and its last entries (`login/history.rs`, `query`, `query_latest`,
   `read_all_entries`, `date_range`).

   `query` reads every day of a range and sorts what it read. `query_latest` reads the days from
   the newest, sorts each for itself and stops once it holds enough. The second takes the days
   for an order of the entries: it gives the end of what the first gives just when no file fails
   while it is read and no entry of a day is later than one of the last entries of the days
   after it (`queryLatest_eq_iff`). -/
namespace CampusAuth.Login.History
open Lib

/-- `io::ErrorKind`: a missing file, and every other failure. -/
inductive ErrorKind where
  | notFound | other
  deriving DecidableEq, Repr

/-- What `next_line` gives, call after call, up to the end of the file. -/
abbrev DayFile := List (Except ErrorKind Text)

/-- `logs/login_history`: whether it is there, and what opening the file of a day gives. -/
structure HistoryDir where
  tryExists : Bool
  openFile : Int → Except ErrorKind DayFile

/-- `NaiveDate::MAX`, as all days here by its number. -/
def naiveDateMax : Int := 95745399

/-- Every day from `cur` to `stop`. -/
def dateRange (cur stop : Int) : List Int :=
  if cur ≤ stop then
    -- `succ_opt`
    if cur < naiveDateMax then cur :: dateRange (cur + 1) stop else [cur]
  else []
termination_by (stop + 1 - cur).toNat

section Queries
variable {E κ : Type*} [LinearOrder κ] (fromStr : Text → Option E) (timestamp : E → κ)

/-! ## The loops -/

/-- The `next_line` loop of `query` and of `read_all_entries`. -/
def pushEntries : List E → DayFile → Except ErrorKind (List E)
  | results, [] => .ok results
  | _, .error e :: _ => .error e
  | results, .ok line :: lines =>
    let line := strip line
    if line = [] then pushEntries results lines
    else match fromStr line with
      | some entry => pushEntries (results ++ [entry]) lines
      | none => pushEntries results lines

def readAllEntries (file : Except ErrorKind DayFile) : Except ErrorKind (List E) :=
  match file with
  | .error e => .error e
  | .ok lines => pushEntries fromStr [] lines

/-- The loop of `query` over the days. -/
def queryDays (dir : HistoryDir) : List E → List Int → Except ErrorKind (List E)
  | results, [] => .ok results
  | results, day :: days =>
    match dir.openFile day with
    | .error .notFound => queryDays dir results days
    | .error .other => queryDays dir results days
    | .ok lines =>
      match pushEntries fromStr results lines with
      | .error e => .error e
      | .ok results => queryDays dir results days

def query (dir : HistoryDir) (first last : Int) : Except ErrorKind (List E) :=
  if !dir.tryExists then .ok []
  else (queryDays fromStr dir [] (dateRange first last)).map (sortByKey timestamp)

/-- The loop of `query_latest` over the days, the newest first. -/
def latestGroups (dir : HistoryDir) (limit : Nat) : List Int → List (List E) → Nat → List (List E)
  | [], groups, _ => groups
  | day :: days, groups, total =>
    match readAllEntries fromStr (dir.openFile day) with
    | .error .notFound => latestGroups dir limit days groups total
    | .error .other => latestGroups dir limit days groups total
    | .ok entries =>
      if entries = [] then latestGroups dir limit days groups total
      else
        let entries := sortByKey timestamp entries
        let total := total + entries.length
        let groups := groups ++ [entries]
        if total ≥ limit then groups else latestGroups dir limit days groups total

def queryLatest (dir : HistoryDir) (first last : Int) (limit : Nat) : Except ErrorKind (List E) :=
  if limit = 0 then .ok []
  else if !dir.tryExists then .ok []
  else
    let groups := latestGroups fromStr timestamp dir limit (dateRange first last).reverse [] 0
    let result := groups.reverse.flatten
    .ok (if result.length > limit then result.drop (result.length - limit) else result)

end Queries

/-! ## What a file holds -/

/-- The file of the day is there, and reading it fails. -/
def Broken (dir : HistoryDir) (day : Int) : Prop :=
  ∃ lines e, dir.openFile day = .ok lines ∧ Except.error e ∈ lines

section Entries
variable {E κ : Type*} [LinearOrder κ] {fromStr : Text → Option E} {timestamp : E → κ}
  {dir : HistoryDir} {days : List Int} {limit : Nat}

/-- The entry of a line, when it has one. -/
def entryOf (fromStr : Text → Option E) : Except ErrorKind Text → Option E
  | .error _ => none
  | .ok line => if strip line = [] then none else fromStr (strip line)

/-- The entries in the file of a day, as they stand there. -/
def dayEntries (fromStr : Text → Option E) (dir : HistoryDir) (day : Int) : List E :=
  match dir.openFile day with
  | .error _ => []
  | .ok lines => lines.filterMap (entryOf fromStr)

theorem pushEntries_ok {lines : DayFile} (h : ∀ e, Except.error e ∉ lines) (results : List E) :
    pushEntries fromStr results lines = .ok (results ++ lines.filterMap (entryOf fromStr)) := by
  induction lines generalizing results with
  | nil => simp [pushEntries]
  | cons read lines ih =>
    have htail : ∀ e, Except.error e ∉ lines := fun e he => h e (List.mem_cons_of_mem _ he)
    cases read with
    | error e => exact absurd List.mem_cons_self (h e)
    | ok line =>
      unfold pushEntries
      dsimp only
      split
      next hblank => simp [ih htail, entryOf, hblank]
      next hline =>
        split
        next entry hentry => simp [ih htail, entryOf, hline, hentry]
        next hentry => simp [ih htail, entryOf, hline, hentry]

theorem pushEntries_error (fromStr : Text → Option E) {lines : DayFile} {e : ErrorKind}
    (h : Except.error e ∈ lines) (results : List E) :
    ∃ e, pushEntries fromStr results lines = .error e := by
  induction lines generalizing results with
  | nil => cases h
  | cons read lines ih =>
    cases read with
    | error e => exact ⟨e, rfl⟩
    | ok line =>
      have htail : Except.error e ∈ lines := by simpa using h
      unfold pushEntries
      dsimp only
      split
      · exact ih htail results
      · split
        · exact ih htail _
        · exact ih htail results

/-! ## The full query -/

theorem queryDays_ok (h : ∀ day ∈ days, ¬ Broken dir day) (results : List E) :
    queryDays fromStr dir results days =
      .ok (results ++ (days.map (dayEntries fromStr dir)).flatten) := by
  induction days generalizing results with
  | nil => simp [queryDays]
  | cons day days ih =>
    obtain ⟨hday, hdays⟩ := List.forall_mem_cons.mp h
    have hrest := ih hdays
    unfold queryDays
    cases hopen : dir.openFile day with
    | error e => cases e <;> simp [hrest, dayEntries, hopen]
    | ok lines =>
      have hread : ∀ e, Except.error e ∉ lines := fun e he => hday ⟨lines, e, hopen, he⟩
      simp [pushEntries_ok hread, hrest, dayEntries, hopen]

theorem queryDays_error (fromStr : Text → Option E) (h : ∃ day ∈ days, Broken dir day) (results : List E) :
    ∃ e, queryDays fromStr dir results days = .error e := by
  induction days generalizing results with
  | nil => simp at h
  | cons day days ih =>
    unfold queryDays
    split
    next hopen =>
      refine ih ?_ results
      simpa [Broken, hopen] using h
    next hopen =>
      refine ih ?_ results
      simpa [Broken, hopen] using h
    next lines hopen =>
      by_cases hread : ∃ e, Except.error e ∈ lines
      · obtain ⟨e, he⟩ := hread
        obtain ⟨e', hpush⟩ := pushEntries_error fromStr he results
        rw [hpush]
        exact ⟨e', rfl⟩
      · rw [pushEntries_ok (by simpa using hread)]
        refine ih ?_ _
        obtain ⟨bad, hbad, hbroken⟩ := h
        rcases List.mem_cons.mp hbad with rfl | hbad
        · obtain ⟨lines', e, hopen', he⟩ := hbroken
          cases hopen.symm.trans hopen'
          exact absurd ⟨e, he⟩ hread
        · exact ⟨bad, hbad, hbroken⟩

/-! ## The last entries -/

/-- The entries of a day in the order of their timestamps. -/
def sortedDay (fromStr : Text → Option E) (timestamp : E → κ) (dir : HistoryDir) (day : Int) :
    List E := sortByKey timestamp (dayEntries fromStr dir day)

theorem readAllEntries_ok (fromStr : Text → Option E) {day : Int} (h : ¬ Broken dir day) :
    (∃ e, readAllEntries fromStr (dir.openFile day) = .error e ∧ dayEntries fromStr dir day = []) ∨
      readAllEntries fromStr (dir.openFile day) = .ok (dayEntries fromStr dir day) := by
  unfold readAllEntries dayEntries
  cases hopen : dir.openFile day with
  | error e => exact .inl ⟨e, rfl, rfl⟩
  | ok lines =>
    have hread : ∀ e, Except.error e ∉ lines := fun e he => h ⟨lines, e, hopen, he⟩
    exact .inr (by simp [pushEntries_ok hread])

theorem length_flatten_reverse (groups : List (List E)) :
    groups.reverse.flatten.length = groups.flatten.length := by
  rw [List.length_flatten, List.length_flatten, List.map_reverse, List.sum_reverse]

/-- The groups end as all days would, one behind the other. -/
theorem latestGroups_rtake (fromStr : Text → Option E) (timestamp : E → κ) (limit : Nat)
    (h : ∀ day ∈ days, ¬ Broken dir day) (groups : List (List E)) {total : Nat}
    (htotal : total = groups.flatten.length) :
    (latestGroups fromStr timestamp dir limit days groups total).reverse.flatten.rtake limit =
      ((days.map (sortedDay fromStr timestamp dir)).reverse.flatten ++
        groups.reverse.flatten).rtake limit := by
  induction days generalizing groups total with
  | nil => simp [latestGroups]
  | cons day days ih =>
    obtain ⟨hday, hdays⟩ := List.forall_mem_cons.mp h
    have hsplit : ((day :: days).map (sortedDay fromStr timestamp dir)).reverse.flatten ++
        groups.reverse.flatten = (days.map (sortedDay fromStr timestamp dir)).reverse.flatten ++
          (groups ++ [sortedDay fromStr timestamp dir day]).reverse.flatten := by simp
    have hempty (hnone : dayEntries fromStr dir day = []) :
        (groups ++ [sortedDay fromStr timestamp dir day]).reverse.flatten =
          groups.reverse.flatten := by
      simp [sortedDay, hnone, sortByKey]
    rw [hsplit]
    unfold latestGroups
    rcases readAllEntries_ok fromStr hday with ⟨e, hread, hnone⟩ | hread
    · rw [hread, hempty hnone]
      cases e with
      | notFound => exact ih hdays _ htotal
      | other => exact ih hdays _ htotal
    rw [hread]
    dsimp only
    split
    next hnone =>
      rw [hempty hnone]
      exact ih hdays _ htotal
    next hsome =>
      have htotal' : total + (sortedDay fromStr timestamp dir day).length =
          (groups ++ [sortedDay fromStr timestamp dir day]).flatten.length := by
        simp [htotal]
      split
      next hfull =>
        -- Enough is held: what the older days hold is not among the last.
        refine (rtake_append_of_le ?_).symm
        rw [length_flatten_reverse]
        exact hfull.trans_eq htotal'
      next hfew => exact ih hdays _ htotal'

theorem drain_eq_rtake (result : List E) :
    (if result.length > limit then result.drop (result.length - limit) else result) =
      result.rtake limit := by
  split
  next => rfl
  next hfew => exact (rtake_of_length_le (by omega)).symm

theorem queryLatest_ok (hdir : dir.tryExists = true) {first last : Int}
    (h : ∀ day ∈ dateRange first last, ¬ Broken dir day) :
    queryLatest fromStr timestamp dir first last limit =
      .ok (((dateRange first last).map (sortedDay fromStr timestamp dir)).flatten.rtake limit) := by
  unfold queryLatest
  split
  next hzero => rw [hzero, List.rtake_zero]
  next =>
    have hdays : ∀ day ∈ (dateRange first last).reverse, ¬ Broken dir day := by simpa using h
    have hstart : 0 = ([] : List (List E)).flatten.length := rfl
    have hgroups := latestGroups_rtake fromStr timestamp limit hdays [] hstart
    rw [List.map_reverse, List.reverse_reverse, List.reverse_nil, List.flatten_nil,
      List.append_nil] at hgroups
    simp only [hdir, Bool.not_true, Bool.false_eq_true, if_false, drain_eq_rtake, hgroups]

theorem queryLatest_isOk (fromStr : Text → Option E) (timestamp : E → κ) (dir : HistoryDir)
    (first last : Int) (limit : Nat) :
    ∃ entries, queryLatest fromStr timestamp dir first last limit = .ok entries := by
  unfold queryLatest
  split
  · exact ⟨_, rfl⟩
  · split <;> exact ⟨_, rfl⟩

/-! ## The two against each other -/

/-- No entry of a day is later than one of the last `limit` entries of the days after it. -/
def DaysInOrder (fromStr : Text → Option E) (timestamp : E → κ) (dir : HistoryDir) (limit : Nat)
    (days : List Int) : Prop :=
  InOrder timestamp limit (days.map (sortedDay fromStr timestamp dir))

theorem query_ok (hdir : dir.tryExists = true) {first last : Int}
    (h : ∀ day ∈ dateRange first last, ¬ Broken dir day) :
    query fromStr timestamp dir first last = .ok (sortByKey timestamp
      ((dateRange first last).map (sortedDay fromStr timestamp dir)).flatten) := by
  have hpieces := sortByKey_flatten timestamp
    ((dateRange first last).map (dayEntries fromStr dir))
  rw [List.map_map] at hpieces
  unfold query
  simp only [hdir, Bool.not_true, Bool.false_eq_true, if_false, queryDays_ok h, List.nil_append]
  exact congrArg Except.ok hpieces.symm

/-- `query_latest` is the end of `query`. -/
theorem queryLatest_eq_iff (fromStr : Text → Option E) (timestamp : E → κ) (dir : HistoryDir)
    (first last : Int) (limit : Nat) :
    queryLatest fromStr timestamp dir first last limit =
        (query fromStr timestamp dir first last).map (fun entries => entries.rtake limit) ↔
      dir.tryExists = false ∨ (∀ day ∈ dateRange first last, ¬ Broken dir day) ∧
        DaysInOrder fromStr timestamp dir limit (dateRange first last) := by
  cases hdir : dir.tryExists with
  | false =>
    have hnone : query fromStr timestamp dir first last = .ok [] := by simp [query, hdir]
    have hlatest : queryLatest fromStr timestamp dir first last limit = .ok [] := by
      unfold queryLatest
      simp [hdir]
    simp [hnone, hlatest, Except.map, List.rtake]
  | true =>
    by_cases hbroken : ∃ day ∈ dateRange first last, Broken dir day
    · -- The full query fails, and `query_latest` never does.
      obtain ⟨e, hdays⟩ := queryDays_error fromStr hbroken []
      obtain ⟨entries, hlatest⟩ := queryLatest_isOk fromStr timestamp dir first last limit
      have hquery : query fromStr timestamp dir first last = .error e := by
        simp [query, hdir, hdays, Except.map]
      rw [hlatest, hquery]
      refine iff_of_false (by simp [Except.map]) ?_
      rintro (hmissing | ⟨hnone, -⟩)
      · cases hmissing
      · obtain ⟨day, hday, hbad⟩ := hbroken
        exact hnone day hday hbad
    · have hnone : ∀ day ∈ dateRange first last, ¬ Broken dir day := by simpa using hbroken
      rw [queryLatest_ok hdir hnone, query_ok hdir hnone]
      have hpieces : ∀ entries ∈ (dateRange first last).map (sortedDay fromStr timestamp dir),
          entries.Pairwise fun a b => timestamp a ≤ timestamp b := by
        simp [sortedDay, sortByKey_pairwise]
      have hlast := rtake_eq_rtake_sortByKey timestamp limit
        ((dateRange first last).map (sortedDay fromStr timestamp dir)).flatten
      rw [settled_flatten hpieces] at hlast
      simp only [Except.map, Except.ok.injEq, hlast, DaysInOrder]
      constructor
      · intro horder
        exact .inr ⟨hnone, horder⟩
      · rintro (hmissing | ⟨-, horder⟩)
        · cases hmissing
        · exact horder

end Entries

/-! ## A clock that was moved

   The machine stood eight hours east of Greenwich when the entry of the tenth was written, half
   an hour past midnight. It was set to Greenwich then, and the entry after that, half an hour
   later, went to the file of the ninth. -/

/-- The timestamps, in seconds since the epoch. -/
def movedFrom : Int := 1752078600

def movedTo : Int := 1752080400

/-- A line of the log, as `record` writes it. -/
def lineAt (timestamp : String) : Text :=
  "\x7b\"timestamp\":\"".toList ++ timestamp.toList ++
    ("\",\"source\":\"auto\",\"profile_id\":\"dorm\",\"result\":\"success\"," ++
      "\"message\":\"ok\",\"duration_secs\":1.5\x7d").toList

def movedFromLine : Text := lineAt "2025-07-10T00:30:00+08:00"

def movedToLine : Text := lineAt "2025-07-09T17:00:00+00:00"

/-- The two lines as entries, by their timestamps. -/
def movedFromStr (line : Text) : Option Int :=
  [(movedFromLine, movedFrom), (movedToLine, movedTo)].lookup line

def movedDir : HistoryDir where
  tryExists := true
  openFile day :=
    if day = 739441 then .ok [.ok movedToLine]
    else if day = 739442 then .ok [.ok movedFromLine]
    else .error .notFound

theorem moved_lt : movedFrom < movedTo := by decide

theorem dateRange_moved : dateRange 739441 739442 = [739441, 739442] := by
  simp [dateRange, naiveDateMax]

theorem moved_latest : queryLatest movedFromStr id movedDir 739441 739442 1 =
    .ok [movedFrom] := by
  have hread : readAllEntries movedFromStr (movedDir.openFile 739442) = .ok [movedFrom] := by
    decide +kernel
  have hsort : sortByKey id [movedFrom] = [movedFrom] := sortByKey_of_pairwise (by simp)
  have hdir : movedDir.tryExists = true := rfl
  simp [queryLatest, dateRange_moved, latestGroups, hread, hsort, hdir]

theorem moved_query : query movedFromStr id movedDir 739441 739442 =
    .ok [movedFrom, movedTo] := by
  have hread : queryDays movedFromStr movedDir [] [739441, 739442] =
      .ok [movedTo, movedFrom] := by
    decide +kernel
  have hsort : sortByKey id [movedTo, movedFrom] = [movedFrom, movedTo] := by
    refine eq_of_sorted (sortByKey_pairwise id _) (by simp [moved_lt.le]) fun k => ?_
    have hne := moved_lt.ne
    rw [sameByKey_sortByKey id _ k]
    by_cases hfrom : movedFrom = k
    · simp [← hfrom, hne.symm]
    · simp [hfrom, List.filter_cons]
  have hdir : movedDir.tryExists = true := rfl
  simp [query, dateRange_moved, hread, hsort, hdir, Except.map]

/-- The entry before the last one is given. -/
theorem moved_clock_earlier_entry : queryLatest movedFromStr id movedDir 739441 739442 1 ≠
    (query movedFromStr id movedDir 739441 739442).map (fun entries => entries.rtake 1) := by
  rw [moved_latest, moved_query]
  simp [Except.map, List.rtake, moved_lt.ne]

end CampusAuth.Login.History
