import Mathlib.Data.List.Infix

/- Replacing the occurrences of a pattern in a text.

   `replaceAll pat mask text` finds the occurrences from the left, without overlaps, and
   puts `mask` in their place. When a text is the image of another one under `f` and the
   pattern matches only where it matches already before `f` (`Reflects`), replacing
   commutes with `f` (`replaceAll_map`). A pattern that shares no symbol with the mask
   finds no match that was not there before (`take_replaceAll`), so two replacements of
   disjoint patterns commute (`replaceAll_comm`). -/
namespace CampusAuth.Lib
variable {α β : Type*} [DecidableEq α]

/-- The first number of symbols belongs to a match already replaced. -/
def replaceFrom (pat mask : List α) : Nat → List α → List α
  | _, [] => []
  | skip + 1, _ :: cs => replaceFrom pat mask skip cs
  | 0, c :: cs =>
    if pat <+: c :: cs then mask ++ replaceFrom pat mask (pat.length - 1) cs
    else c :: replaceFrom pat mask 0 cs

/-- Meant for a pattern that is not empty. -/
def replaceAll (pat mask text : List α) : List α := replaceFrom pat mask 0 text

variable {pat mask : List α}

theorem replaceFrom_eq (k : Nat) (l : List α) :
    replaceFrom pat mask k l = replaceAll pat mask (l.drop k) := by
  induction l generalizing k with
  | nil => rw [List.drop_nil]; rfl
  | cons c cs ih =>
    cases k with
    | zero => rfl
    | succ k => exact ih k

@[simp] theorem replaceAll_nil : replaceAll pat mask [] = [] := rfl

theorem replaceAll_hit (hpat : pat ≠ []) (rest : List α) :
    replaceAll pat mask (pat ++ rest) = mask ++ replaceAll pat mask rest := by
  cases pat with
  | nil => exact absurd rfl hpat
  | cons c cs =>
    show replaceFrom (c :: cs) mask 0 (c :: (cs ++ rest)) = _
    rw [replaceFrom, if_pos ⟨rest, rfl⟩, replaceFrom_eq]
    simp

theorem replaceAll_miss {c : α} {cs : List α} (h : ¬pat <+: c :: cs) :
    replaceAll pat mask (c :: cs) = c :: replaceAll pat mask cs := by
  rw [replaceAll, replaceFrom, if_neg h]
  rfl

theorem replaceAll_singleton (a : α) (text : List α) :
    replaceAll [a] mask text = text.flatMap fun c => if c = a then mask else [c] := by
  induction text with
  | nil => rfl
  | cons c cs ih =>
    rw [List.flatMap_cons, ← ih]
    by_cases h : c = a
    · subst h
      rw [if_pos rfl]
      exact replaceAll_hit (List.cons_ne_nil c []) cs
    · rw [if_neg h]
      refine replaceAll_miss fun hp => h ?_
      exact (List.cons_prefix_cons.mp hp).1.symm

/-- The induction of `replaceAll`: a match is passed over as a whole. -/
theorem replaceAll_induction {motive : List α → Prop} (hpat : pat ≠ []) (nil : motive [])
    (hit : ∀ rest, motive rest → motive (pat ++ rest))
    (miss : ∀ c cs, ¬pat <+: c :: cs → motive cs → motive (c :: cs)) (text : List α) :
    motive text := by
  induction hn : text.length using Nat.strong_induction_on generalizing text with
  | _ n ih =>
    subst hn
    by_cases h : pat <+: text
    · obtain ⟨rest, rfl⟩ := h
      have hpos : 0 < pat.length := List.length_pos_of_ne_nil hpat
      exact hit rest (ih rest.length (by rw [List.length_append]; omega) rest rfl)
    · cases text with
      | nil => exact nil
      | cons c cs => exact miss c cs h (ih cs.length (Nat.lt_succ_self _) cs rfl)

theorem replaceAll_eq_self {text : List α} (h : ¬pat <:+: text) :
    replaceAll pat mask text = text := by
  induction text with
  | nil => rfl
  | cons c cs ih =>
    rw [replaceAll_miss fun hp => h hp.isInfix,
      ih fun hi => h (hi.trans (List.suffix_cons c cs).isInfix)]

/-- Text that the pattern cannot touch is kept, and what follows is treated as before. -/
theorem replaceAll_append_of_disjoint (hpat : pat ≠ []) {a : List α} (ha : a.Disjoint pat)
    (rest : List α) : replaceAll pat mask (a ++ rest) = a ++ replaceAll pat mask rest := by
  induction a with
  | nil => rfl
  | cons c cs ih =>
    rw [List.disjoint_cons_left] at ha
    have hmiss : ¬pat <+: c :: (cs ++ rest) := by
      obtain ⟨d, ds, rfl⟩ := List.exists_cons_of_ne_nil hpat
      rw [List.cons_prefix_cons]
      exact fun h => ha.1 (h.1 ▸ List.mem_cons_self)
    rw [List.cons_append, replaceAll_miss hmiss, ih ha.2, List.cons_append]

/-- A symbol of neither the pattern nor the mask stays where it is. -/
theorem mem_replaceAll_iff (hpat : pat ≠ []) {a : α} (ha : a ∉ pat) (hm : a ∉ mask)
    (text : List α) : a ∈ replaceAll pat mask text ↔ a ∈ text := by
  induction text using replaceAll_induction hpat with
  | nil => rw [replaceAll_nil]
  | hit rest ih => simp [replaceAll_hit hpat, ha, hm, ih]
  | miss c cs h ih => rw [replaceAll_miss h, List.mem_cons, List.mem_cons, ih]

/-! ## Matches that were there before -/

/-- A suffix of the new text begins inside a mask or goes back to a suffix of the old one. -/
theorem suffix_replaceAll (hpat : pat ≠ []) {s text : List α}
    (h : s <:+ replaceAll pat mask text) :
    (∃ x s', s = x :: s' ∧ x ∈ mask) ∨ ∃ s', s' <:+ text ∧ s = replaceAll pat mask s' := by
  induction text using replaceAll_induction hpat with
  | nil => exact .inr ⟨[], List.suffix_refl _, List.suffix_nil.mp h⟩
  | hit rest ih =>
    rw [replaceAll_hit hpat] at h
    obtain ⟨pre, hpre⟩ := h
    rcases List.append_eq_append_iff.mp hpre with ⟨m, hm, rfl⟩ | ⟨m, -, hrest⟩
    · cases m with
      | nil => exact .inr ⟨rest, List.suffix_append .., rfl⟩
      | cons x m => exact .inl ⟨x, _, rfl, hm ▸ List.mem_append_right pre List.mem_cons_self⟩
    · exact (ih ⟨m, hrest.symm⟩).imp_right fun ⟨s', hs', heq⟩ =>
        ⟨s', hs'.trans (List.suffix_append ..), heq⟩
  | miss c cs hmiss ih =>
    rw [replaceAll_miss hmiss, List.suffix_cons_iff] at h
    rcases h with rfl | h
    · exact .inr ⟨c :: cs, List.suffix_refl _, (replaceAll_miss hmiss).symm⟩
    · exact (ih h).imp_right fun ⟨s', hs', heq⟩ => ⟨s', hs'.trans (List.suffix_cons ..), heq⟩

variable [DecidableEq β] {f : β → α} {pat' mask' : List β}

omit [DecidableEq α] in
/-- A match without a symbol of the mask lies in text that was not replaced. -/
theorem take_replaceAll (hpat : pat' ≠ []) {q : List α} {text : List β}
    (hq : ∀ x ∈ mask', f x ∉ q) (hmask : mask' ≠ [])
    (h : q <+: (replaceAll pat' mask' text).map f) :
    (replaceAll pat' mask' text).take q.length = text.take q.length := by
  induction text using replaceAll_induction hpat generalizing q with
  | nil => rfl
  | hit rest ih =>
    cases q with
    | nil => simp
    | cons x q =>
      obtain ⟨m, ms, rfl⟩ := List.exists_cons_of_ne_nil hmask
      rw [replaceAll_hit hpat, List.cons_append, List.map_cons, List.cons_prefix_cons] at h
      exact absurd (h.1 ▸ List.mem_cons_self) (hq m List.mem_cons_self)
  | miss c cs hmiss ih =>
    cases q with
    | nil => simp
    | cons x q =>
      rw [replaceAll_miss hmiss, List.map_cons, List.cons_prefix_cons] at h
      rw [replaceAll_miss hmiss, List.length_cons, List.take_succ_cons, List.take_succ_cons,
        ih (fun y hy hmem => hq y hy (List.mem_cons_of_mem _ hmem)) h.2]

/-- Under `f` the pattern matches a suffix of the text only where it matched before. -/
def Reflects (f : β → α) (pat text : List β) : Prop :=
  ∀ s, s <:+ text → pat.map f <+: s.map f → pat <+: s

omit [DecidableEq α] [DecidableEq β] in
theorem Reflects.suffix {s text : List β} (h : Reflects f pat' text) (hs : s <:+ text) :
    Reflects f pat' s :=
  fun s' hs' => h s' (hs'.trans hs)

instance Reflects.instDecidable (pat text : List β) : Decidable (Reflects f pat text) :=
  decidable_of_iff (∀ s ∈ text.tails, pat.map f <+: s.map f → pat <+: s)
    (by simp only [Reflects, List.mem_tails])

theorem replaceAll_map (hpat : pat' ≠ []) {text : List β} (h : Reflects f pat' text) :
    replaceAll (pat'.map f) (mask'.map f) (text.map f) = (replaceAll pat' mask' text).map f := by
  have hpat' : pat'.map f ≠ [] := by simpa using hpat
  induction text using replaceAll_induction hpat with
  | nil => rfl
  | hit rest ih =>
    rw [List.map_append, replaceAll_hit hpat', replaceAll_hit hpat, List.map_append,
      ih (h.suffix (List.suffix_append ..))]
  | miss c cs hmiss ih =>
    have hmiss' : ¬pat'.map f <+: f c :: cs.map f := fun hp => hmiss (h _ (List.suffix_refl _) hp)
    rw [List.map_cons, replaceAll_miss hmiss', replaceAll_miss hmiss, List.map_cons,
      ih (h.suffix (List.suffix_cons ..))]

omit [DecidableEq α] in
/-- Replacing another pattern makes no new match. -/
theorem Reflects.replaceAll {other text : List β} (h : Reflects f other text) (hpat : pat' ≠ [])
    (hmask : mask' ≠ []) (hother : ∀ x ∈ mask', f x ∉ other.map f) :
    Reflects f other (replaceAll pat' mask' text) := by
  intro s hs hp
  rcases suffix_replaceAll hpat hs with ⟨x, s', rfl, hx⟩ | ⟨s', hs', rfl⟩
  · -- the match would begin with the mask
    cases other with
    | nil => exact List.nil_prefix
    | cons y ys =>
      rw [List.map_cons, List.map_cons, List.cons_prefix_cons] at hp
      exact absurd (hp.1 ▸ List.mem_cons_self) (hother x hx)
  · have htake := take_replaceAll hpat hother hmask hp
    rw [List.length_map] at htake
    have hold : other.map f <+: s'.map f := by
      rw [List.prefix_iff_eq_take, List.length_map, ← List.map_take] at hp ⊢
      rw [hp, htake]
    have hmatch := h s' hs' hold
    rw [List.prefix_iff_eq_take] at hmatch ⊢
    rw [htake]
    exact hmatch

/-! ## Several patterns -/

theorem prefix_of_replaceAll {other text : List α} (hpat : pat ≠ []) (hmask : mask ≠ [])
    (hother : mask.Disjoint other) (h : other <+: replaceAll pat mask text) : other <+: text := by
  have htake := take_replaceAll (f := id) hpat (q := other)
    (fun x hx hmem => hother hx hmem) hmask (by simpa using h)
  rw [List.prefix_iff_eq_take] at h ⊢
  rw [← htake]
  exact h

theorem infix_of_replaceAll {other text : List α} (hpat : pat ≠ []) (hmask : mask ≠ [])
    (hother : mask.Disjoint other) (hne : other ≠ []) (h : other <:+: replaceAll pat mask text) :
    other <:+: text := by
  obtain ⟨s, hpre, hsuf⟩ := List.infix_iff_prefix_suffix.mp h
  rcases suffix_replaceAll hpat hsuf with ⟨x, s', rfl, hx⟩ | ⟨s', hs', rfl⟩
  · obtain ⟨y, ys, rfl⟩ := List.exists_cons_of_ne_nil hne
    rw [List.cons_prefix_cons] at hpre
    exact absurd (hpre.1 ▸ List.mem_cons_self) (hother hx)
  · exact List.infix_iff_prefix_suffix.mpr ⟨s', prefix_of_replaceAll hpat hmask hother hpre, hs'⟩

/-- Patterns without a symbol in common are replaced in any order. -/
theorem replaceAll_comm {a b : List α} (ha : a ≠ []) (hb : b ≠ []) (hmask : mask ≠ [])
    (hab : a.Disjoint b) (hma : mask.Disjoint a) (hmb : mask.Disjoint b) (text : List α) :
    replaceAll a mask (replaceAll b mask text) = replaceAll b mask (replaceAll a mask text) := by
  induction hn : text.length using Nat.strong_induction_on generalizing text with
  | _ n ih =>
    subst hn
    have hlen : ∀ {x rest : List α}, x ≠ [] → text = x ++ rest → rest.length < text.length := by
      rintro x rest hx rfl
      have := List.length_pos_of_ne_nil hx
      rw [List.length_append]
      omega
    by_cases hpa : a <+: text
    · obtain ⟨rest, hrest⟩ := hpa
      have hrec := ih _ (hlen ha hrest.symm) rest rfl
      rw [← hrest, replaceAll_append_of_disjoint hb hab, replaceAll_hit ha, replaceAll_hit ha,
        replaceAll_append_of_disjoint hb hmb, hrec]
    by_cases hpb : b <+: text
    · obtain ⟨rest, hrest⟩ := hpb
      have hrec := ih _ (hlen hb hrest.symm) rest rfl
      rw [← hrest, replaceAll_append_of_disjoint ha (fun _ hy hx => hab hx hy),
        replaceAll_hit hb, replaceAll_hit hb,
        replaceAll_append_of_disjoint ha hma, hrec]
    cases text with
    | nil => rfl
    | cons c cs =>
      have hrec := ih _ (Nat.lt_succ_self _) cs rfl
      have hpa' : ¬a <+: c :: replaceAll b mask cs := fun h =>
        hpa (prefix_of_replaceAll hb hmask hma (replaceAll_miss hpb ▸ h))
      have hpb' : ¬b <+: c :: replaceAll a mask cs := fun h =>
        hpb (prefix_of_replaceAll ha hmask hmb (replaceAll_miss hpa ▸ h))
      rw [replaceAll_miss hpb, replaceAll_miss hpa', replaceAll_miss hpa, replaceAll_miss hpb', hrec]

/-- Replaces the patterns one after the other. -/
def replaceEach (mask : List α) (pats : List (List α)) (text : List α) : List α :=
  pats.foldl (fun out pat => replaceAll pat mask out) text

/-- The pattern is not empty and the mask has none of its symbols. -/
def Maskable (mask pat : List α) : Prop := pat ≠ [] ∧ mask.Disjoint pat

theorem replaceEach_cons (mask pat : List α) (pats : List (List α)) (text : List α) :
    replaceEach mask (pat :: pats) text = replaceEach mask pats (replaceAll pat mask text) := rfl

theorem mem_replaceEach_iff {pats : List (List α)} {a : α} (hm : a ∉ mask)
    (hpats : ∀ pat ∈ pats, pat ≠ [] ∧ a ∉ pat) (text : List α) :
    a ∈ replaceEach mask pats text ↔ a ∈ text := by
  induction pats generalizing text with
  | nil => exact Iff.rfl
  | cons pat pats ih =>
    obtain ⟨hne, hpat⟩ := hpats pat List.mem_cons_self
    rw [replaceEach_cons, ih (fun p hp => hpats p (List.mem_cons_of_mem _ hp)),
      mem_replaceAll_iff hne hpat hm]

/-- A pattern that shares no symbol with those before it may be replaced first. -/
theorem replaceEach_middle {a : List α} {before after : List (List α)} (hmask : mask ≠ [])
    (ha : Maskable mask a) (hpats : ∀ pat ∈ before, Maskable mask pat ∧ a.Disjoint pat)
    (text : List α) : replaceEach mask (before ++ a :: after) text =
      replaceEach mask (before ++ after) (replaceAll a mask text) := by
  induction before generalizing text with
  | nil => rfl
  | cons pat before ih =>
    obtain ⟨⟨hne, hdis⟩, hab⟩ := hpats pat List.mem_cons_self
    rw [List.cons_append, List.cons_append, replaceEach_cons, replaceEach_cons,
      ih fun p hp => hpats p (List.mem_cons_of_mem _ hp), replaceAll_comm ha.1 hne hmask hab ha.2 hdis]

/-- Patterns that do not occur in the text do nothing. -/
theorem replaceEach_filter {pats : List (List α)} (hmask : mask ≠ [])
    (hpats : ∀ pat ∈ pats, Maskable mask pat) {keep : List α → Bool} {text : List α}
    (hkeep : ∀ pat ∈ pats, keep pat = false → ¬pat <:+: text) :
    replaceEach mask (pats.filter keep) text = replaceEach mask pats text := by
  induction pats generalizing text with
  | nil => rfl
  | cons pat pats ih =>
    have hrest := fun p hp => hpats p (List.mem_cons_of_mem _ hp)
    have hnext : ∀ p ∈ pats, keep p = false → ¬p <:+: replaceAll pat mask text :=
      fun p hp hdrop hinfix => hkeep p (List.mem_cons_of_mem _ hp) hdrop
        (infix_of_replaceAll (hpats pat List.mem_cons_self).1 hmask (hrest p hp).2 (hrest p hp).1
          hinfix)
    rw [replaceEach_cons, ← ih hrest hnext]
    cases hk : keep pat with
    | true => rw [List.filter_cons_of_pos hk, replaceEach_cons]
    | false =>
      rw [List.filter_cons_of_neg (by simp [hk]),
        replaceAll_eq_self (hkeep pat List.mem_cons_self hk)]

/-- Replacing commutes with `f` when every pattern matches only where it did before. -/
theorem replaceEach_map {pats : List (List β)} (hmask : mask' ≠ [])
    (hpats : ∀ pat ∈ pats, pat ≠ [] ∧ ∀ x ∈ mask', f x ∉ pat.map f) {text : List β}
    (h : ∀ pat ∈ pats, Reflects f pat text) :
    replaceEach (mask'.map f) (pats.map (List.map f)) (text.map f) =
      (replaceEach mask' pats text).map f := by
  induction pats generalizing text with
  | nil => rfl
  | cons pat pats ih =>
    have hne := (hpats pat List.mem_cons_self).1
    have hrest := fun p hp => hpats p (List.mem_cons_of_mem _ hp)
    rw [List.map_cons, replaceEach_cons, replaceEach_cons,
      replaceAll_map hne (h pat List.mem_cons_self), ih hrest]
    intro p hp
    exact (h p (List.mem_cons_of_mem _ hp)).replaceAll hne hmask (hrest p hp).2

end CampusAuth.Lib
