import Mathlib.Data.List.Induction

/- What has held of a run of events since one of them started it, as long as none has ended it.
   A property of runs that begins and goes on only so is one that holds since its start
   (`since_of_property`). -/
namespace CampusAuth.Lib

variable {ε : Type*} {starts ends : ε → Prop} {run front back : List ε} {e : ε}

/-- An event has started it, and no later one has ended it. -/
def Since (starts ends : ε → Prop) (run : List ε) : Prop :=
  ∃ front e back, run = front ++ e :: back ∧ starts e ∧ ∀ d ∈ back, ¬ends d

theorem not_since_nil : ¬Since starts ends [] := by
  rintro ⟨front, e, back, hrun, -⟩
  simp at hrun

theorem since_concat :
    Since starts ends (run ++ [e]) ↔ starts e ∨ Since starts ends run ∧ ¬ends e := by
  constructor
  · rintro ⟨front, d, back, hrun, hstart, hback⟩
    cases back using List.reverseRecOn with
    | nil =>
      obtain ⟨-, heq⟩ := List.append_inj' hrun rfl
      obtain rfl := (List.cons.inj heq).1
      exact .inl hstart
    | append_singleton back last =>
      rw [← List.cons_append, ← List.append_assoc] at hrun
      obtain ⟨hfront, heq⟩ := List.append_inj' hrun rfl
      obtain rfl := (List.cons.inj heq).1
      exact .inr ⟨⟨front, d, back, hfront, hstart, fun c hc => hback c (by simp [hc])⟩,
        hback e (by simp)⟩
  · rintro (hstart | ⟨⟨front, d, back, rfl, hstart, hback⟩, hend⟩)
    · exact ⟨run, e, [], rfl, hstart, by simp⟩
    · refine ⟨front, d, back ++ [e], by simp, hstart, fun c hc => ?_⟩
      rcases List.mem_append.mp hc with hc | hc
      · exact hback c hc
      · rw [List.mem_singleton.mp hc]
        exact hend

theorem since_iff_of_property {P : List ε → Prop} (hnil : ¬P [])
    (hstep : ∀ run e, P (run ++ [e]) ↔ starts e ∨ P run ∧ ¬ends e) (run : List ε) :
    P run ↔ Since starts ends run := by
  induction run using List.reverseRecOn with
  | nil => exact ⟨fun h => (hnil h).elim, fun h => (not_since_nil h).elim⟩
  | append_singleton run e ih => rw [hstep, since_concat, ih]

theorem since_of_property {P : List ε → Prop} (hnil : ¬P [])
    (hstep : ∀ run e, P (run ++ [e]) → starts e ∨ P run ∧ ¬ends e) {run : List ε} (h : P run) :
    Since starts ends run := by
  induction run using List.reverseRecOn with
  | nil => exact (hnil h).elim
  | append_singleton run e ih =>
    rw [since_concat]
    exact (hstep run e h).imp_right fun hrun => ⟨ih hrun.1, hrun.2⟩

/-- What holds behind an event that ends it was started behind it. -/
theorem Since.started_after (h : Since starts ends (front ++ e :: back)) (hend : ends e)
    (hstart : ¬starts e) : ∃ d ∈ back, starts d := by
  induction back using List.reverseRecOn with
  | nil => exact ((since_concat.mp h).elim hstart fun hrun => hrun.2 hend).elim
  | append_singleton back last ih =>
    rw [← List.cons_append, ← List.append_assoc, since_concat] at h
    rcases h with hlast | ⟨hrun, -⟩
    · exact ⟨last, by simp, hlast⟩
    · obtain ⟨d, hd, hdstart⟩ := ih hrun
      exact ⟨d, List.mem_append_left _ hd, hdstart⟩

end CampusAuth.Lib
