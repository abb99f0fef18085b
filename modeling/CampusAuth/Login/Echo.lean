import CampusAuth.Login.Redaction

/- Texts in which a server echoes a secret.

   A body is a `Template` filled with the secret. Marking the echoed characters (`Sym`)
   turns the texts of two runs into one, which `read` maps to either. When the entries of
   the dictionary match only where they match in the marked text (`Separate`), masking
   commutes with `read`, and the two reported texts are the same exactly when the two
   secrets agree on the marked characters that are left (`redact_eq_iff`). In a snippet
   these are the ones of an echo that lies across the cut (`snippets_eq_iff`). -/
namespace CampusAuth.Login
open Lib

/-- A text with holes: `none` is an echo of the secret. -/
abbrev Template := List (Option Char)

def fillHole (secret : Text) : Option Char → Text
  | some c => [c]
  | none => secret

def fill (secret : Text) (t : Template) : Text := t.flatMap (fillHole secret)

/-- A character of the text itself, or the one of the echoed secret at an index. -/
abbrev Sym := Char ⊕ Nat

def echo (n : Nat) : List Sym := (List.range n).map .inr

def expand (n : Nat) (t : Template) : List Sym :=
  t.flatMap fun
    | some c => [.inl c]
    | none => echo n

def plain (s : Text) : List Sym := s.map .inl

def read (secret : Text) : Sym → Char
  | .inl c => c
  | .inr i => secret.getD i ' '

@[simp] theorem map_read_plain (secret s : Text) : (plain s).map (read secret) = s := by
  rw [plain, List.map_map]
  exact List.map_id s

@[simp] theorem map_read_echo (secret : Text) : (echo secret.length).map (read secret) = secret := by
  rw [echo, List.map_map]
  refine List.ext_getElem (by simp) fun i h _ => ?_
  simp only [List.length_map, List.length_range] at h
  simp [read, List.getD_eq_getElem?_getD, h]

theorem map_read_expand (secret : Text) (t : Template) :
    (expand secret.length t).map (read secret) = fill secret t := by
  rw [expand, fill, List.map_flatMap]
  congr 1
  funext c
  cases c with
  | none => exact map_read_echo secret
  | some c => rfl

theorem inr_mem_echo {n i : Nat} : .inr i ∈ echo n ↔ i < n := by simp [echo]

theorem inr_not_mem_plain (s : Text) (i : Nat) : .inr i ∉ plain s := by simp [plain]

/-! ## Masking a marked text -/

/-- The entries of the dictionary touch no echo in the text: the secret itself matches just
    the echoes, and every other entry only characters of the text. -/
structure Separate (secret : Text) (secrets : List Text) (w : List Sym) : Prop where
  unmasked : ∀ s ∈ secrets, mask.Disjoint s
  echoes : Reflects (read secret) (echo secret.length) w
  others : ∀ s ∈ secrets, s ≠ secret → Reflects (read secret) (plain s) w

instance (secret : Text) (secrets : List Text) (w : List Sym) :
    Decidable (Separate secret secrets w) :=
  -- `all` looks at the characters of the mask, not at every character there is
  decidable_of_iff ((∀ s ∈ secrets, (mask.all fun c => !s.contains c) = true) ∧
      Reflects (read secret) (echo secret.length) w ∧
      ∀ s ∈ secrets, s ≠ secret → Reflects (read secret) (plain s) w) <| by
    have hmask : ∀ s : Text, (mask.all fun c => !s.contains c) = true ↔ mask.Disjoint s := by
      intro s
      simp only [List.all_eq_true, Bool.not_eq_true', List.contains_eq_mem, decide_eq_false_iff_not]
      exact Iff.rfl
    simp only [hmask]
    exact ⟨fun h => ⟨h.1, h.2.1, h.2.2⟩, fun h => ⟨h.unmasked, h.echoes, h.others⟩⟩

/-- What the entry `s` looks for in a marked text. -/
def symbolic (secret s : Text) : List Sym := if s = secret then echo secret.length else plain s

theorem map_read_symbolic (secret s : Text) : (symbolic secret s).map (read secret) = s := by
  unfold symbolic
  split
  next h => rw [map_read_echo, h]
  next => exact map_read_plain secret s

theorem echo_ne_nil {n : Nat} (h : 0 < n) : echo n ≠ [] := by
  rw [echo, ne_eq, List.map_eq_nil_iff, List.range_eq_nil]
  omega

theorem plain_ne_nil {s : Text} (h : s ≠ []) : plain s ≠ [] := by
  rw [plain, ne_eq, List.map_eq_nil_iff]
  exact h

theorem plain_mask_ne_nil : plain mask ≠ [] := plain_ne_nil mask_ne_nil

/-- The marked text with the echoes masked. -/
def hideEchoes (n : Nat) (w : List Sym) : List Sym := replaceAll (echo n) (plain mask) w

section
variable {secret : Text} {secrets : List Text} {w : List Sym}

/-- Masking a text is masking the marked text. -/
theorem redactText_read (hne : ∀ s ∈ secrets, s ≠ []) (h : Separate secret secrets w) :
    redactText (w.map (read secret)) secrets =
      (replaceEach (plain mask) (secrets.map (symbolic secret)) w).map (read secret) := by
  have hsecrets : (secrets.map (symbolic secret)).map (List.map (read secret)) = secrets := by
    rw [List.map_map]
    exact (List.map_congr_left fun s _ => map_read_symbolic secret s).trans (List.map_id secrets)
  rw [← replaceEach_map plain_mask_ne_nil, map_read_plain, hsecrets]
  · rfl
  · intro pat hpat
    obtain ⟨s, hs, rfl⟩ := List.mem_map.mp hpat
    refine ⟨fun hnil => hne s hs ?_, fun x hx => ?_⟩
    · rw [← map_read_symbolic secret s, hnil]; rfl
    · obtain ⟨c, hc, rfl⟩ := List.mem_map.mp hx
      rw [map_read_symbolic]
      exact h.unmasked s hs hc
  · intro pat hpat
    obtain ⟨s, hs, rfl⟩ := List.mem_map.mp hpat
    unfold symbolic
    split
    · exact h.echoes
    next hother => exact h.others s hs hother

theorem maskable_plain {s : Text} (hne : s ≠ []) (hs : mask.Disjoint s) :
    Maskable (plain mask) (plain s) := by
  refine ⟨plain_ne_nil hne, fun x hx hx' => ?_⟩
  obtain ⟨c, hc, rfl⟩ := List.mem_map.mp hx
  obtain ⟨c', hc', heq⟩ := List.mem_map.mp hx'
  cases heq
  exact hs hc hc'

theorem maskable_echo {n : Nat} (hn : 0 < n) : Maskable (plain mask) (echo n) := by
  refine ⟨echo_ne_nil hn, fun x hx hx' => ?_⟩
  obtain ⟨c, -, rfl⟩ := List.mem_map.mp hx
  obtain ⟨i, -, heq⟩ := List.mem_map.mp hx'
  cases heq

theorem echo_disjoint_plain (n : Nat) (s : Text) : (echo n).Disjoint (plain s) := by
  intro x hx hx'
  obtain ⟨i, -, rfl⟩ := List.mem_map.mp hx
  exact inr_not_mem_plain s i hx'

/-- A dictionary holds each entry once. -/
theorem split_of_mem (hmem : secret ∈ secrets) (hsorted : secrets.Pairwise Before) :
    ∃ before after, secrets = before ++ secret :: after ∧ secret ∉ before ∧ secret ∉ after := by
  obtain ⟨before, after, hsplit⟩ := List.append_of_mem hmem
  have hnodup : (before ++ secret :: after).Nodup := hsplit ▸ hsorted.imp And.right
  rw [List.nodup_append, List.nodup_cons] at hnodup
  exact ⟨before, after, hsplit, fun h => hnodup.2.2 secret h secret List.mem_cons_self rfl,
    hnodup.2.1.1⟩

/-- The echoes may be masked first. -/
theorem replaceEach_symbolic (hsecret : secret ≠ []) (hmem : secret ∈ secrets)
    (hsorted : secrets.Pairwise Before) (hne : ∀ s ∈ secrets, s ≠ [])
    (hmask : ∀ s ∈ secrets, mask.Disjoint s) :
    replaceEach (plain mask) (secrets.map (symbolic secret)) w =
      replaceEach (plain mask) ((secrets.filter (· ≠ secret)).map plain)
        (hideEchoes secret.length w) := by
  have hn : 0 < secret.length := List.length_pos_of_ne_nil hsecret
  obtain ⟨before, after, rfl, hbefore, hafter⟩ := split_of_mem hmem hsorted
  have hplain : ∀ {l : List Text}, secret ∉ l → l.map (symbolic secret) = l.map plain :=
    fun {l} hl => List.map_congr_left fun s hs => if_neg fun (h : s = secret) => hl (h ▸ hs)
  have hkeep : ∀ {l : List Text}, secret ∉ l → l.filter (· ≠ secret) = l :=
    fun {l} hl => List.filter_eq_self.mpr fun s hs => by
      simpa using fun (h : s = secret) => hl (h ▸ hs)
  rw [List.map_append, List.map_cons, hplain hbefore, hplain hafter, symbolic, if_pos rfl,
    replaceEach_middle plain_mask_ne_nil (maskable_echo hn), ← List.map_append, List.filter_append,
    List.filter_cons_of_neg (by simp), hkeep hbefore, hkeep hafter]
  · rfl
  · intro pat hpat
    obtain ⟨s, hs, rfl⟩ := List.mem_map.mp hpat
    have hs' := List.mem_append_left (secret :: after) hs
    exact ⟨maskable_plain (hne s hs') (hmask s hs'), echo_disjoint_plain _ s⟩

/-- Entries that do not occur may be left out. -/
theorem replaceEach_occurring (hne : ∀ s ∈ secrets, s ≠ [])
    (hmask : ∀ s ∈ secrets, mask.Disjoint s) :
    replaceEach (plain mask) ((secrets.filter fun s => plain s <:+: w).map plain) w =
      replaceEach (plain mask) (secrets.map plain) w := by
  have hmap : (secrets.filter fun s => plain s <:+: w).map plain =
      (secrets.map plain).filter fun pat => pat <:+: w := by
    rw [List.filter_map]
    rfl
  rw [hmap]
  refine replaceEach_filter plain_mask_ne_nil ?_ ?_
  · intro pat hpat
    obtain ⟨s, hs, rfl⟩ := List.mem_map.mp hpat
    exact maskable_plain (hne s hs) (hmask s hs)
  · intro pat _ hdrop
    exact of_decide_eq_false hdrop

end

/-! ## Two runs -/

/-- The dictionary of an attempt with the secret. -/
structure Dictionary (secret : Text) (secrets : List Text) : Prop where
  declared : secret ∈ secrets
  sorted : secrets.Pairwise Before
  nonempty : ∀ s ∈ secrets, s ≠ []

/-- The entries besides the secret that occur in the marked text are the same in both. -/
def Agree (secret secret' : Text) (secrets secrets' : List Text) (w : List Sym) : Prop :=
  ∀ s, plain s <:+: w → ((s ∈ secrets ∧ s ≠ secret) ↔ (s ∈ secrets' ∧ s ≠ secret'))

section
variable {p q : Text} {ps qs : List Text} {w : List Sym}

theorem agree_of_filter_eq (h : ps.filter (· ≠ p) = qs.filter (· ≠ q)) : Agree p q ps qs w := by
  intro s _
  have hmem : s ∈ ps.filter (· ≠ p) ↔ s ∈ qs.filter (· ≠ q) := by rw [h]
  simpa using hmem

/-- What both runs replace besides the echoes. -/
def others (p : Text) (ps : List Text) (w : List Sym) : List Text :=
  (ps.filter (· ≠ p)).filter fun s => plain s <:+: hideEchoes p.length w

theorem redact_read (hp : p ≠ []) (hd : Dictionary p ps) (hs : Separate p ps w) :
    redactText (w.map (read p)) ps =
      (replaceEach (plain mask) ((others p ps w).map plain)
        (hideEchoes p.length w)).map (read p) := by
  have hfilter : ∀ s ∈ ps.filter (· ≠ p), s ∈ ps := fun s h => (List.mem_filter.mp h).1
  rw [redactText_read hd.nonempty hs,
    replaceEach_symbolic hp hd.declared hd.sorted hd.nonempty hs.unmasked, others,
    replaceEach_occurring (fun s h => hd.nonempty s (hfilter s h)) fun s h =>
      hs.unmasked s (hfilter s h)]

theorem others_eq (hp : p ≠ []) (hlen : p.length = q.length) (hdp : Dictionary p ps)
    (hdq : Dictionary q qs) (hsp : Separate p ps w) (hsq : Separate q qs w)
    (hagree : Agree p q ps qs w) : others p ps w = others q qs w := by
  have hn : 0 < p.length := List.length_pos_of_ne_nil hp
  -- an entry found behind the masking of the echoes was in the text before
  have hthere : ∀ {s : Text}, s ≠ [] → mask.Disjoint s →
      plain s <:+: hideEchoes p.length w → plain s <:+: w := fun hne hdis h =>
    infix_of_replaceAll (echo_ne_nil hn) plain_mask_ne_nil (maskable_plain hne hdis).2
      (plain_ne_nil hne) h
  refine eq_of_sorted ((hdp.sorted.filter _).filter _) ((hdq.sorted.filter _).filter _) fun s => ?_
  simp only [others, List.mem_filter, ne_eq, decide_eq_true_eq, ← hlen]
  constructor
  · rintro ⟨⟨hs, hsp'⟩, hocc⟩
    have hw := hthere (hdp.nonempty s hs) (hsp.unmasked s hs) hocc
    exact ⟨by simpa using (hagree s hw).mp ⟨hs, by simpa using hsp'⟩, hocc⟩
  · rintro ⟨⟨hs, hsq'⟩, hocc⟩
    have hw := hthere (hdq.nonempty s hs) (hsq.unmasked s hs) hocc
    exact ⟨by simpa using (hagree s hw).mpr ⟨hs, by simpa using hsq'⟩, hocc⟩

/-- The two texts are the same when the secrets agree on the echoed characters that the
    masking of the echoes left. -/
theorem redact_eq_iff (hp : p ≠ []) (hlen : p.length = q.length) (hdp : Dictionary p ps)
    (hdq : Dictionary q qs) (hsp : Separate p ps w) (hsq : Separate q qs w)
    (hagree : Agree p q ps qs w) :
    redactText (w.map (read p)) ps = redactText (w.map (read q)) qs ↔
      ∀ i, .inr i ∈ hideEchoes p.length w → p.getD i ' ' = q.getD i ' ' := by
  have hq : q ≠ [] := by
    rw [← List.length_pos_iff] at hp ⊢
    omega
  rw [redact_read hp hdp hsp, redact_read hq hdq hsq,
    ← others_eq hp hlen hdp hdq hsp hsq hagree, ← hlen, List.map_inj_left]
  have hmem : ∀ i, Sum.inr i ∈ replaceEach (plain mask) ((others p ps w).map plain)
      (hideEchoes p.length w) ↔ .inr i ∈ hideEchoes p.length w := by
    intro i
    refine mem_replaceEach_iff (inr_not_mem_plain mask i) ?_ _
    intro pat hpat
    obtain ⟨s, hs, rfl⟩ := List.mem_map.mp hpat
    have hs' : s ∈ ps := (List.mem_filter.mp (List.mem_filter.mp hs).1).1
    exact ⟨plain_ne_nil (hdp.nonempty s hs'), inr_not_mem_plain s i⟩
  constructor
  · intro h i hi
    exact h (.inr i) ((hmem i).mpr hi)
  · intro h a ha
    cases a with
    | inl c => rfl
    | inr i => exact h i ((hmem i).mp ha)

end

/-! ## Snippets -/

/-- The template with its white space normalised. -/
def compactTemplate (t : Template) : Template :=
  compactBy (fun c => c.any isWhitespace) (some ' ') t

/-- The marked snippet of a filled template. -/
def snippet (n : Nat) (t : Template) : List Sym :=
  let text := expand n (compactTemplate t)
  if snippetLen < text.length then text.take snippetLen ++ [.inl '…'] else text.take snippetLen

/-- The normalisation of white space leaves every echo as it is. -/
def Kept (secret : Text) (t : Template) : Prop :=
  compact (fill secret t) = fill secret (compactTemplate t)

/-- A secret without white space is kept in every body. -/
theorem kept_of_solid {secret : Text} (hne : secret ≠ [])
    (hsolid : ∀ c ∈ secret, isWhitespace c = false) (t : Template) : Kept secret t := by
  refine compactBy_flatMap (g := fillHole secret) rfl ?_ ?_ ?_ t
  · intro a ha
    cases a with
    | none => cases ha
    | some c => exact ⟨c, rfl, ha⟩
  · intro a ha
    cases a with
    | none => exact hsolid
    | some c =>
      intro b hb
      rw [List.mem_singleton.mp hb]
      exact ha
  · intro a
    cases a with
    | none => exact hne
    | some c => nofun

theorem truncateSnippet_fill {secret : Text} {t : Template} (hkept : Kept secret t) :
    truncateSnippet (fill secret t) = (snippet secret.length t).map (read secret) := by
  have h : compact (fill secret t) = fill secret (compactTemplate t) := hkept
  have hlen : (fill secret (compactTemplate t)).length =
      (expand secret.length (compactTemplate t)).length := by
    rw [← map_read_expand, List.length_map]
  unfold truncateSnippet snippet
  simp only [h, hlen]
  split
  · rw [List.map_append, List.map_take, map_read_expand]; rfl
  · rw [List.map_take, map_read_expand]

/-- The two secrets agree on the part of an echo that lies before the cut. -/
def CutAgrees (p q : Text) (t : Template) : Prop :=
  ∀ before after, compactTemplate t = before ++ none :: after →
    (expand p.length before).length < snippetLen →
    snippetLen < (expand p.length before).length + p.length →
    p.take (snippetLen - (expand p.length before).length) =
      q.take (snippetLen - (expand p.length before).length)

/-- A prefix of a marked text: whole echoes, then a part of the one across the cut. -/
theorem take_expand {n : Nat} (hn : 0 < n) (t : Template) (m : Nat) :
    ∃ before k, k < n ∧ (expand n t).take m = expand n before ++ (echo n).take k ∧
      (k = 0 ∨ ∃ after, t = before ++ none :: after ∧ (expand n before).length + k = m) := by
  induction t generalizing m with
  | nil => exact ⟨[], 0, hn, by simp [expand], .inl rfl⟩
  | cons c t ih =>
    cases c with
    | some c =>
      cases m with
      | zero => exact ⟨[], 0, hn, by simp [expand], .inl rfl⟩
      | succ m =>
        obtain ⟨before, k, hk, htake, hcut⟩ := ih m
        refine ⟨some c :: before, k, hk, congrArg (Sum.inl c :: ·) htake, hcut.imp_right ?_⟩
        rintro ⟨after, rfl, hm⟩
        refine ⟨after, rfl, ?_⟩
        simp only [expand, List.flatMap_cons, List.singleton_append, List.length_cons] at hm ⊢
        omega
    | none =>
      have hexpand : expand n (none :: t) = echo n ++ expand n t := rfl
      have hecho : (echo n).length = n := by simp [echo]
      by_cases hm : m < n
      · refine ⟨[], m, hm, ?_, ?_⟩
        · rw [hexpand, List.take_append_of_le_length (by omega)]; rfl
        · exact .inr ⟨t, rfl, by simp [expand]⟩
      · obtain ⟨before, k, hk, htake, hcut⟩ := ih (m - n)
        refine ⟨none :: before, k, hk, ?_, hcut.imp_right ?_⟩
        · rw [hexpand, List.take_append, List.take_of_length_le (by omega), hecho, htake,
            ← List.append_assoc]
          rfl
        · rintro ⟨after, rfl, hm'⟩
          refine ⟨after, rfl, ?_⟩
          have hcons : expand n (none :: before) = echo n ++ expand n before := rfl
          rw [hcons, List.length_append, hecho]
          omega

/-- Masking the echoes leaves no character of a whole one. -/
theorem hideEchoes_expand {n i : Nat} (hn : 0 < n) (t : Template) (tail : List Sym) :
    .inr i ∈ hideEchoes n (expand n t ++ tail) ↔ .inr i ∈ hideEchoes n tail := by
  induction t with
  | nil => exact Iff.rfl
  | cons c t ih =>
    cases c with
    | some c =>
      have hmiss : ¬echo n <+: .inl c :: (expand n t ++ tail) := by
        obtain ⟨m, rfl⟩ := Nat.exists_eq_succ_of_ne_zero (Nat.ne_of_gt hn)
        rw [echo, List.range_succ_eq_map, List.map_cons, List.cons_prefix_cons]
        exact fun h => nomatch h.1
      show .inr i ∈ replaceAll (echo n) (plain mask) (.inl c :: (expand n t ++ tail)) ↔ _
      rw [replaceAll_miss hmiss, List.mem_cons]
      exact (or_iff_right nofun).trans ih
    | none =>
      have hcons : expand n (none :: t) ++ tail = echo n ++ (expand n t ++ tail) :=
        List.append_assoc ..
      rw [hcons, hideEchoes, replaceAll_hit (echo_ne_nil hn), List.mem_append]
      exact (or_iff_right (inr_not_mem_plain mask i)).trans ih

/-- The part of an echo before the cut is no echo. -/
theorem hideEchoes_cut {n k : Nat} (hk : k < n) (dots : Text) (i : Nat) :
    .inr i ∈ hideEchoes n ((echo n).take k ++ plain dots) ↔ i < k := by
  have htake : (echo n).take k = echo k := by
    rw [echo, ← List.map_take, List.take_range, Nat.min_eq_left (Nat.le_of_lt hk)]
    rfl
  have hno : ¬echo n <:+: (echo n).take k ++ plain dots := by
    intro h
    have hlast : .inr (n - 1) ∈ (echo n).take k ++ plain dots :=
      h.subset (inr_mem_echo.mpr (by omega))
    rw [htake, List.mem_append, inr_mem_echo] at hlast
    rcases hlast with hlast | hlast
    · omega
    · exact inr_not_mem_plain dots _ hlast
  rw [hideEchoes, replaceAll_eq_self hno, htake, List.mem_append, inr_mem_echo]
  exact or_iff_left (inr_not_mem_plain dots i)

/-- What an echo across the cut leaves in the masked snippet. -/
theorem hideEchoes_snippet {n k i : Nat} {t before : Template} (hn : 0 < n) (hk : k < n)
    (h : (expand n (compactTemplate t)).take snippetLen = expand n before ++ (echo n).take k) :
    .inr i ∈ hideEchoes n (snippet n t) ↔ i < k := by
  unfold snippet
  dsimp only
  rw [h]
  split
  · rw [List.append_assoc, hideEchoes_expand hn]
    exact hideEchoes_cut hk ['…'] i
  · rw [hideEchoes_expand hn]
    have := hideEchoes_cut hk [] i
    rwa [plain, List.map_nil, List.append_nil] at this

theorem take_eq_take_iff {p q : Text} {k : Nat} (hlen : p.length = q.length) (hk : k < p.length) :
    p.take k = q.take k ↔ ∀ i, i < k → p.getD i ' ' = q.getD i ' ' := by
  constructor
  · intro h i hi
    have hget := congrArg (·[i]?) h
    simp only [List.getElem?_take, hi, if_true] at hget
    rw [List.getD_eq_getElem?_getD, List.getD_eq_getElem?_getD, hget]
  · intro h
    refine List.ext_getElem (by simp [hlen]) fun i hi hi' => ?_
    rw [List.length_take] at hi hi'
    have hget := h i (by omega)
    rw [List.getElem_take, List.getElem_take]
    simpa [List.getD_eq_getElem?_getD, show i < p.length by omega, show i < q.length by omega]
      using hget

/-- **The snippets of two runs.** They are the same exactly when no echo is cut, or the two
    secrets agree on what is left of it. -/
theorem snippets_eq_iff {p q : Text} {ps qs : List Text} {t : Template} (hp : p ≠ [])
    (hlen : p.length = q.length) (hdp : Dictionary p ps) (hdq : Dictionary q qs)
    (hkp : Kept p t) (hkq : Kept q t) (hsp : Separate p ps (snippet p.length t))
    (hsq : Separate q qs (snippet p.length t)) (hagree : Agree p q ps qs (snippet p.length t)) :
    redactText (truncateSnippet (fill p t)) ps = redactText (truncateSnippet (fill q t)) qs ↔
      CutAgrees p q t := by
  have hn : 0 < p.length := List.length_pos_of_ne_nil hp
  rw [truncateSnippet_fill hkp, truncateSnippet_fill hkq, ← hlen,
    redact_eq_iff hp hlen hdp hdq hsp hsq hagree]
  constructor
  · intro h before after ht hlt hcut
    have htake : (expand p.length (compactTemplate t)).take snippetLen =
        expand p.length before ++
          (echo p.length).take (snippetLen - (expand p.length before).length) := by
      have hexpand : expand p.length (before ++ none :: after) =
          expand p.length before ++ (echo p.length ++ expand p.length after) :=
        List.flatMap_append
      have hecho : (echo p.length).length = p.length := by simp [echo]
      rw [ht, hexpand, List.take_append, List.take_of_length_le (Nat.le_of_lt hlt),
        List.take_append_of_le_length (by omega)]
    rw [take_eq_take_iff hlen (by omega)]
    intro i hi
    exact h i ((hideEchoes_snippet hn (by omega) htake).mpr hi)
  · intro h i hi
    obtain ⟨before, k, hk, htake, hcut⟩ := take_expand hn (compactTemplate t) snippetLen
    rw [hideEchoes_snippet hn hk htake] at hi
    rcases hcut with rfl | ⟨after, ht, hm⟩
    · exact absurd hi (Nat.not_lt_zero i)
    · have heq := h before after ht (by omega) (by omega)
      rw [← hm, Nat.add_sub_cancel_left] at heq
      exact (take_eq_take_iff hlen hk).mp heq i hi

/-- A text without an echo reads the same in both runs. -/
theorem redact_plain_eq {p q : Text} {ps qs : List Text} {s : Text} (hp : p ≠ [])
    (hlen : p.length = q.length) (hdp : Dictionary p ps) (hdq : Dictionary q qs)
    (hsp : Separate p ps (plain s)) (hsq : Separate q qs (plain s))
    (hagree : Agree p q ps qs (plain s)) : redactText s ps = redactText s qs := by
  have h := (redact_eq_iff hp hlen hdp hdq hsp hsq hagree).mpr
  rw [map_read_plain, map_read_plain] at h
  have hn : 0 < p.length := List.length_pos_of_ne_nil hp
  exact h fun i hi => absurd ((hideEchoes_cut hn s i).mp hi) (Nat.not_lt_zero i)

end CampusAuth.Login
