import CampusAuth.Lib.Replace

/- Patterns that keep off the masks.

   A pattern whose matches can neither begin nor end inside a mask, nor have one inside, is gone
   for good once it is replaced (`KeepsOff.not_infix_replaceEach`): replacing others does not bring
   it back. And text that no match meets stays as it is, with both sides of it treated on their
   own (`replaceEach_of_not_meets`). -/
namespace CampusAuth.Lib
variable {α : Type*}

/-! ## Matches that keep off the masks -/

/-- A match of `pat` can neither begin nor end inside a mask, nor have one inside. -/
structure KeepsOff (mask pat : List α) : Prop where
  head : ∀ x ∈ pat.head?, x ∉ mask
  last : ∀ x ∈ pat.getLast?, x ∉ mask
  inside : ¬mask <:+: pat
  nonempty : pat ≠ []

variable [DecidableEq α] {pat mask text other : List α}

/-- What begins the new text, does not end in a mask and has none inside, began the old one. -/
theorem prefix_of_replaceAll_of_last (hpat : pat ≠ []) (hlast : ∀ x ∈ other.getLast?, x ∉ mask)
    (hinside : ¬mask <:+: other) (h : other <+: replaceAll pat mask text) : other <+: text := by
  induction text using replaceAll_induction hpat generalizing other with
  | nil => exact h
  | hit rest ih =>
    rw [replaceAll_hit hpat] at h
    cases hother : other.getLast? with
    | none =>
      rw [List.getLast?_eq_none_iff.mp hother]
      exact List.nil_prefix
    | some x =>
      -- a match of the mask's own text would end in it
      rcases List.prefix_or_prefix_of_prefix h (List.prefix_append mask _) with hpre | hpre
      · exact absurd (hpre.subset (List.mem_of_getLast? hother)) (hlast x hother)
      · exact absurd hpre.isInfix hinside
  | miss c cs hmiss ih =>
    rw [replaceAll_miss hmiss] at h
    cases other with
    | nil => exact List.nil_prefix
    | cons d ds =>
      obtain ⟨rfl, hds⟩ := List.cons_prefix_cons.mp h
      refine List.cons_prefix_cons.mpr ⟨rfl, ih ?_ ?_ hds⟩
      · intro x hx
        refine hlast x ?_
        cases ds with
        | nil => cases hx
        | cons => rwa [List.getLast?_cons_cons]
      · exact fun hinf => hinside (hinf.trans (List.suffix_cons d ds).isInfix)

theorem mask_infix_replaceAll (hpat : pat ≠ []) (h : pat <:+: text) :
    mask <:+: replaceAll pat mask text := by
  induction text using replaceAll_induction hpat with
  | nil => exact absurd (List.infix_nil.mp h) hpat
  | hit rest ih =>
    rw [replaceAll_hit hpat]
    exact (List.prefix_append mask _).isInfix
  | miss c cs hmiss ih =>
    rw [replaceAll_miss hmiss]
    exact (ih ((List.infix_cons_iff.mp h).resolve_left hmiss)).trans (List.suffix_cons c _).isInfix

/-- What ends the new text, does not begin in a mask and has none inside, ended the old one. -/
theorem suffix_of_replaceAll_of_head (hpat : pat ≠ []) (hhead : ∀ x ∈ other.head?, x ∉ mask)
    (hinside : ¬mask <:+: other) (h : other <:+ replaceAll pat mask text) : other <:+ text := by
  rcases suffix_replaceAll hpat h with ⟨x, s', rfl, hx⟩ | ⟨s', hs', rfl⟩
  · exact absurd hx (hhead x rfl)
  · have hnone : ¬pat <:+: s' := fun hinf => hinside (mask_infix_replaceAll hpat hinf)
    rwa [replaceAll_eq_self hnone]

/-- A match off the masks lies in text that was not replaced. -/
theorem KeepsOff.infix_of_replaceAll (ho : KeepsOff mask other) (hpat : pat ≠ [])
    (h : other <:+: replaceAll pat mask text) : ∃ s, s <:+ text ∧ other <+: s ∧
      other <+: replaceAll pat mask s := by
  obtain ⟨s, hpre, hsuf⟩ := List.infix_iff_prefix_suffix.mp h
  rcases suffix_replaceAll hpat hsuf with ⟨x, s', rfl, hx⟩ | ⟨s', hs', rfl⟩
  · obtain ⟨y, ys, rfl⟩ := List.exists_cons_of_ne_nil ho.nonempty
    rw [List.cons_prefix_cons] at hpre
    exact absurd (hpre.1 ▸ hx) (ho.head y rfl)
  · exact ⟨s', hs', prefix_of_replaceAll_of_last hpat ho.last ho.inside hpre, hpre⟩

/-- A pattern that keeps off the masks is gone once it is replaced, -/
theorem KeepsOff.not_infix_replaceAll (hp : KeepsOff mask pat) (text : List α) :
    ¬pat <:+: replaceAll pat mask text := by
  intro h
  obtain ⟨s, -, ⟨rest, rfl⟩, hpre⟩ := hp.infix_of_replaceAll hp.nonempty h
  rw [replaceAll_hit hp.nonempty] at hpre
  rcases List.prefix_or_prefix_of_prefix hpre (List.prefix_append mask _) with hpre | hpre
  · obtain ⟨x, xs, rfl⟩ := List.exists_cons_of_ne_nil hp.nonempty
    exact hp.head x rfl (hpre.subset List.mem_cons_self)
  · exact hp.inside hpre.isInfix

/-- and replacing others does not bring it back. -/
theorem KeepsOff.not_infix_of_replaceAll (ho : KeepsOff mask other) (hpat : pat ≠ [])
    (h : ¬other <:+: text) : ¬other <:+: replaceAll pat mask text := by
  intro hinf
  obtain ⟨s, hs, hpre, -⟩ := ho.infix_of_replaceAll hpat hinf
  exact h (hpre.isInfix.trans hs.isInfix)

/-! ## Matches apart from a place -/

omit [DecidableEq α] in
/-- A match of `pat` shares a symbol with `m` between `a` and `b`, or crosses it. -/
def Meets (pat a m b : List α) : Prop :=
  ∃ u v, a ++ m ++ b = u ++ pat ++ v ∧ u.length < a.length + m.length ∧
    a.length < u.length + pat.length

/-- Text that no match meets is kept, and both sides are treated on their own. -/
theorem replaceAll_of_not_meets (hpat : pat ≠ []) {a m b : List α} (h : ¬Meets pat a m b) :
    replaceAll pat mask (a ++ m ++ b) = replaceAll pat mask a ++ m ++ replaceAll pat mask b := by
  have hlen := List.length_pos_of_ne_nil hpat
  induction a using replaceAll_induction hpat with
  | nil =>
    rw [replaceAll_nil, List.nil_append]
    induction m with
    | nil => rfl
    | cons c m ih =>
      have hmiss : ¬pat <+: c :: (m ++ b) := by
        rintro ⟨v, hv⟩
        exact h ⟨[], v, hv.symm, by simp, by simpa using hlen⟩
      rw [List.cons_append, replaceAll_miss hmiss, ih, List.cons_append]
      rintro ⟨u, v, heq, hu, hv⟩
      refine h ⟨c :: u, v, by simpa using heq, ?_, ?_⟩
      · simpa using hu
      · simp only [List.length_nil, List.length_cons]
        omega
  | hit rest ih =>
    rw [List.append_assoc, List.append_assoc, replaceAll_hit hpat, ← List.append_assoc rest, ih,
      replaceAll_hit hpat]
    · simp
    · rintro ⟨u, v, heq, hu, hv⟩
      refine h ⟨pat ++ u, v, ?_, ?_, ?_⟩
      · rw [List.append_assoc, List.append_assoc, ← List.append_assoc rest, heq]
        simp
      · rw [List.length_append, List.length_append]
        omega
      · rw [List.length_append, List.length_append]
        omega
  | miss c cs hmiss ih =>
    have hmiss' : ¬pat <+: c :: (cs ++ m ++ b) := by
      rintro ⟨v, hv⟩
      by_cases hfits : pat.length ≤ (c :: cs).length
      · -- the match would lie before `m`
        have hpre : pat <+: (c :: cs) ++ (m ++ b) := ⟨v, by rw [hv]; simp⟩
        exact hmiss (List.prefix_of_prefix_length_le hpre (List.prefix_append ..) hfits)
      · refine h ⟨[], v, ?_, ?_, ?_⟩
        · rw [List.nil_append, hv]; rfl
        · rw [List.length_nil, List.length_cons]
          omega
        · rw [List.length_nil, Nat.zero_add]
          omega
    rw [List.cons_append, List.cons_append, replaceAll_miss hmiss', replaceAll_miss hmiss, ih]
    · rfl
    · rintro ⟨u, v, heq, hu, hv⟩
      refine h ⟨c :: u, v, by simpa using heq, ?_, ?_⟩
      · rw [List.length_cons, List.length_cons]
        omega
      · rw [List.length_cons, List.length_cons]
        omega

/-- Replacing on both sides of `m` makes no match that meets it. -/
theorem KeepsOff.not_meets_replaceAll (ho : KeepsOff mask other) (hpat : pat ≠ [])
    {a m b : List α} (h : ¬Meets other a m b) :
    ¬Meets other (replaceAll pat mask a) m (replaceAll pat mask b) := by
  rintro ⟨u, v, heq, hu, hv⟩
  -- a part of the match that ends the left side, or begins the right one, was there before
  have hleft : ∀ l r, other = l ++ r → l <:+ replaceAll pat mask a → l <:+ a := by
    rintro l r rfl hl
    refine suffix_of_replaceAll_of_head hpat (fun x hx => ho.head x ?_)
      (fun hinf => ho.inside (hinf.trans (List.prefix_append l r).isInfix)) hl
    cases l with
    | nil => cases hx
    | cons => exact hx
  have hright : ∀ l r, other = l ++ r → r <+: replaceAll pat mask b → r <+: b := by
    rintro l r rfl hr
    refine prefix_of_replaceAll_of_last hpat (fun x hx => ho.last x ?_)
      (fun hinf => ho.inside (hinf.trans (List.suffix_append l r).isInfix)) hr
    rw [List.getLast?_append, hx]
    rfl
  -- the match is `l ++ r`, with `l` at the end of the left side or `x` before it in `m`
  have hmeets : ∀ {a₀ l x m' r}, a = a₀ ++ l → m = x ++ m' → l = [] ∨ x = [] → other = l ++ r →
      0 < r.length → 0 < l.length + m'.length → m' ++ replaceAll pat mask b = r ++ v →
      Meets other a m b := by
    rintro a₀ l x m' r rfl rfl hor hother hr hpos hrest
    have hswap : l ++ x = x ++ l := by
      rcases hor with rfl | rfl <;> simp
    have hbounds : ∀ v', (a₀ ++ l) ++ (x ++ m') ++ b = (a₀ ++ x) ++ other ++ v' →
        Meets other (a₀ ++ l) (x ++ m') b := by
      refine fun v' heq => ⟨a₀ ++ x, v', heq, ?_, ?_⟩
      · simp only [List.length_append]
        omega
      · rw [hother]
        simp only [List.length_append]
        omega
    rcases List.append_eq_append_iff.mp hrest with ⟨r', rfl, hb⟩ | ⟨w, rfl, -⟩
    · obtain ⟨b₁, rfl⟩ := hright (l ++ m') r' (by rw [hother, List.append_assoc]) ⟨v, hb.symm⟩
      refine hbounds b₁ ?_
      rw [hother, List.append_assoc a₀, ← List.append_assoc l, hswap]
      simp
    · refine hbounds (w ++ b) ?_
      rw [hother, List.append_assoc a₀, ← List.append_assoc l, hswap]
      simp
  have hlen := congrArg List.length heq
  simp only [List.length_append] at hlen
  rw [List.append_assoc, List.append_assoc] at heq
  rcases List.append_eq_append_iff.mp heq with ⟨x, rfl, hrest⟩ | ⟨l, ha, hrest⟩
  · -- it begins inside `m`
    rw [List.length_append] at hu
    rcases List.append_eq_append_iff.mp hrest with ⟨m', rfl, -⟩ | ⟨m', rfl, hm⟩
    · rw [List.length_append] at hu
      omega
    · refine h (@hmeets a [] _ m' _ (List.append_nil a).symm rfl (.inl rfl) rfl ?_ ?_ hm.symm)
      · exact List.length_pos_of_ne_nil ho.nonempty
      · rw [List.length_append] at hu
        simp only [List.length_nil]
        omega
  · -- it begins on the left
    rw [ha, List.length_append] at hu hv
    rcases List.append_eq_append_iff.mp hrest with ⟨r, rfl, hm⟩ | ⟨r, rfl, hm⟩
    · rw [List.length_append] at hv
      omega
    · obtain ⟨a₀, rfl⟩ := hleft l r rfl ⟨u, ha.symm⟩
      refine h (hmeets (x := []) rfl rfl (.inr rfl) rfl ?_ ?_ hm)
      · rw [List.length_append] at hv
        omega
      · omega

/-! ## Several patterns -/

theorem replaceEach_append (p q : List (List α)) (text : List α) :
    replaceEach mask (p ++ q) text = replaceEach mask q (replaceEach mask p text) :=
  List.foldl_append

theorem KeepsOff.not_infix_of_replaceEach (ho : KeepsOff mask other) {pats : List (List α)}
    (hpats : ∀ p ∈ pats, p ≠ []) (h : ¬other <:+: text) :
    ¬other <:+: replaceEach mask pats text := by
  induction pats generalizing text with
  | nil => exact h
  | cons p pats ih =>
    rw [replaceEach_cons]
    exact ih (fun q hq => hpats q (List.mem_cons_of_mem _ hq))
      (ho.not_infix_of_replaceAll (hpats p List.mem_cons_self) h)

/-- A pattern that keeps off the masks is gone at the end. -/
theorem KeepsOff.not_infix_replaceEach (ho : KeepsOff mask other) {pats : List (List α)}
    (hpats : ∀ p ∈ pats, p ≠ []) (hmem : other ∈ pats) (text : List α) :
    ¬other <:+: replaceEach mask pats text := by
  induction pats generalizing text with
  | nil => cases hmem
  | cons p pats ih =>
    have hrest : ∀ q ∈ pats, q ≠ [] := fun q hq => hpats q (List.mem_cons_of_mem _ hq)
    rw [replaceEach_cons]
    rcases List.mem_cons.mp hmem with rfl | hmem
    · exact ho.not_infix_of_replaceEach hrest (ho.not_infix_replaceAll text)
    · exact ih hrest hmem _

theorem replaceEach_of_not_meets {pats : List (List α)} (hpats : ∀ p ∈ pats, KeepsOff mask p)
    {a m b : List α} (h : ∀ p ∈ pats, ¬Meets p a m b) :
    replaceEach mask pats (a ++ m ++ b) =
      replaceEach mask pats a ++ m ++ replaceEach mask pats b := by
  induction pats generalizing a b with
  | nil => rfl
  | cons p pats ih =>
    have hp := hpats p List.mem_cons_self
    rw [replaceEach_cons, replaceAll_of_not_meets hp.nonempty (h p List.mem_cons_self),
      ih (fun q hq => hpats q (List.mem_cons_of_mem _ hq)) fun q hq =>
        (hpats q (List.mem_cons_of_mem _ hq)).not_meets_replaceAll hp.nonempty
          (h q (List.mem_cons_of_mem _ hq))]
    rfl

/-- A match of `m` itself, which no earlier pattern meets and no other match of it runs into,
    becomes one mask. -/
theorem replaceEach_match {pats : List (List α)} {a m b : List α}
    (hpats : ∀ p ∈ pats, KeepsOff mask p) (hm : KeepsOff mask m) (h : ∀ p ∈ pats, ¬Meets p a m b)
    (hself : ¬Meets m a [] (m ++ b)) :
    replaceEach mask (pats ++ [m]) (a ++ m ++ b) =
      replaceEach mask (pats ++ [m]) a ++ mask ++ replaceEach mask (pats ++ [m]) b := by
  have hlast : ∀ text, replaceEach mask (pats ++ [m]) text =
      replaceAll m mask (replaceEach mask pats text) := replaceEach_append pats [m]
  have hkept : ¬Meets m (replaceEach mask pats a) [] (m ++ replaceEach mask pats b) := by
    clear hlast
    induction pats generalizing a b with
    | nil => exact hself
    | cons p pats ih =>
      have hp := hpats p List.mem_cons_self
      have hmeets := h p List.mem_cons_self
      have hright : replaceAll p mask (m ++ b) = m ++ replaceAll p mask b := by
        refine replaceAll_of_not_meets (a := []) hp.nonempty ?_
        rintro ⟨u, v, heq, hu, hv⟩
        refine hmeets ⟨a ++ u, v, ?_, ?_, ?_⟩
        · rw [List.append_assoc, ← List.nil_append m, List.append_assoc [], ← List.append_assoc [] m,
            heq]
          simp
        · rw [List.length_append]
          simp only [List.length_nil] at hu
          omega
        · rw [List.length_append]
          simp only [List.length_nil] at hv
          omega
      refine ih (fun q hq => hpats q (List.mem_cons_of_mem _ hq)) (fun q hq =>
        (hpats q (List.mem_cons_of_mem _ hq)).not_meets_replaceAll hp.nonempty
          (h q (List.mem_cons_of_mem _ hq))) ?_
      rw [← hright]
      exact hm.not_meets_replaceAll hp.nonempty hself
  rw [hlast, hlast, hlast, replaceEach_of_not_meets hpats h, List.append_assoc,
    ← List.append_nil (replaceEach mask pats a), replaceAll_of_not_meets hm.nonempty hkept,
    replaceAll_hit hm.nonempty]
  simp

end CampusAuth.Lib
