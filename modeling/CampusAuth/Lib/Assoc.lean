import Mathlib.Data.List.Basic

/- Association lists: what a lookup finds behind an entry and behind a removal. -/
namespace CampusAuth.Lib

variable {α κ : Type*} [BEq κ] [LawfulBEq κ] [DecidableEq κ]

theorem lookup_cons_ite (entries : List (κ × α)) (key name : κ) (a : α) :
    ((name, a) :: entries).lookup key = if key = name then some a else entries.lookup key := by
  rw [List.lookup_cons]
  by_cases hkey : key = name
  · simp [hkey]
  · have hne : (key == name) = false := by simpa using hkey
    rw [hne, if_neg hkey]

theorem lookup_filter_ne (entries : List (String × α)) (key name : String) :
    (entries.filter (·.1 ≠ name)).lookup key = if key = name then none else entries.lookup key := by
  induction entries with
  | nil => simp
  | cons entry entries ih =>
    obtain ⟨first, a⟩ := entry
    rw [lookup_cons_ite]
    by_cases hfirst : first = name
    · rw [List.filter_cons_of_neg (by simpa using hfirst), ih, hfirst]
      split <;> rfl
    · rw [List.filter_cons_of_pos (by simpa using hfirst), lookup_cons_ite, ih]
      by_cases hkey : key = first
      · subst hkey
        simp [hfirst]
      · rw [if_neg hkey, if_neg hkey]

theorem lookup_append_ite (entries : List (String × α)) (key name : String) (a : α) :
    (entries ++ [(name, a)]).lookup key =
      (entries.lookup key).or (if key = name then some a else none) := by
  induction entries with
  | nil => rw [List.nil_append, lookup_cons_ite, List.lookup_nil, Option.none_or]
  | cons entry entries ih =>
    obtain ⟨first, b⟩ := entry
    rw [List.cons_append, lookup_cons_ite, lookup_cons_ite, ih]
    split <;> rfl

/-- A map over the entries that keeps the keys. -/
theorem lookup_map_key (entries : List (String × α)) (f : String → α → α) (key : String) :
    (entries.map fun e => (e.1, f e.1 e.2)).lookup key = (entries.lookup key).map (f key) := by
  induction entries with
  | nil => rfl
  | cons entry entries ih =>
    obtain ⟨first, b⟩ := entry
    rw [List.map_cons, lookup_cons_ite, lookup_cons_ite, ih]
    split
    next heq => rw [heq]; rfl
    next => rfl

theorem lookup_eq_none_of_not_any {entries : List (String × α)} {key : String}
    (h : entries.any (·.1 == key) = false) : entries.lookup key = none := by
  induction entries with
  | nil => rfl
  | cons entry entries ih =>
    obtain ⟨first, b⟩ := entry
    rw [List.any_cons, Bool.or_eq_false_iff] at h
    have hne : key ≠ first := fun heq => by simp [heq] at h
    rw [lookup_cons_ite, if_neg hne, ih h.2]

theorem lookup_eq_none_of_not_mem {entries : List (String × α)} {key : String}
    (h : key ∉ entries.map Prod.fst) : entries.lookup key = none := by
  rw [List.lookup_eq_none_iff]
  intro entry hentry
  exact bne_iff_ne.mpr fun heq => h (List.mem_map.mpr ⟨entry, hentry, heq.symm⟩)

theorem lookup_isSome_of_any {entries : List (String × α)} {key : String}
    (h : entries.any (·.1 == key) = true) : (entries.lookup key).isSome := by
  induction entries with
  | nil => cases h
  | cons entry entries ih =>
    obtain ⟨first, b⟩ := entry
    rw [lookup_cons_ite]
    split
    · rfl
    next hne =>
      rw [List.any_cons, Bool.or_eq_true] at h
      rcases h with hfirst | hrest
      · exact absurd (eq_of_beq hfirst).symm hne
      · exact ih hrest

/-- With distinct keys an entry is what the lookup finds. -/
theorem lookup_of_mem {entries : List (κ × α)} (hkeys : (entries.map (·.1)).Nodup)
    {key : κ} {a : α} (h : (key, a) ∈ entries) : entries.lookup key = some a := by
  induction entries with
  | nil => cases h
  | cons entry entries ih =>
    obtain ⟨first, b⟩ := entry
    rw [List.map_cons, List.nodup_cons] at hkeys
    rw [lookup_cons_ite]
    rcases List.mem_cons.mp h with heq | hmem
    · cases heq
      exact if_pos rfl
    · have hne : key ≠ first := fun heq => hkeys.1 (List.mem_map.mpr ⟨_, hmem, heq⟩)
      rw [if_neg hne]
      exact ih hkeys.2 hmem

theorem mem_of_lookup {entries : List (κ × α)} {key : κ} {a : α}
    (h : entries.lookup key = some a) : (key, a) ∈ entries := by
  induction entries with
  | nil => cases h
  | cons entry entries ih =>
    obtain ⟨first, b⟩ := entry
    rw [lookup_cons_ite] at h
    split at h
    next heq =>
      cases h
      rw [heq]
      exact List.mem_cons_self
    next => exact List.mem_cons_of_mem _ (ih h)

end CampusAuth.Lib
