import CampusAuth.Network.Egress

/- Copying the body of a message (`copy_chunked`, `copy_fixed`, `copy_message_body`,
   `network/egress.rs`).

   What is copied to its end is a body of the extent that the fields give, and what is broken off is
   not yet one (`copyMessageBody_spec`). The source looks fields up by the first match, trims more
   than optional white space and lets a number begin with a `+`, so this needs fields and lines of
   chunks that say what it reads in them (`plainFields`, `plainChunks`). -/
namespace CampusAuth.Network
open Lib Lib.Http

/-! ## Reading -/

theorem readUntil_spec {limit : Nat} {stop : Bytes → Bool} {input taken a rest : Bytes}
    (h : readUntil limit stop taken input = some (a, rest)) :
    ∃ got, a = taken ++ got ∧ input = got ++ rest ∧ stop a = true ∧
      ∀ p, p <+: got → p ≠ [] → p ≠ got → stop (taken ++ p) = false := by
  induction input generalizing taken with
  | nil => cases h
  | cons b input ih =>
    unfold readUntil at h
    split at h
    · cases h
    · split at h
      next hstop =>
        cases h
        refine ⟨[b], rfl, rfl, hstop, fun p hp hne hne' => ?_⟩
        obtain ⟨c, p, rfl⟩ := List.exists_cons_of_ne_nil hne
        obtain ⟨rfl, hp'⟩ := List.cons_prefix_cons.mp hp
        obtain rfl := List.prefix_nil.mp hp'
        exact absurd rfl hne'
      next hgo =>
        obtain ⟨got, rfl, rfl, hstop, hfirst⟩ := ih h
        refine ⟨b :: got, by simp, rfl, hstop, fun p hp hne hne' => ?_⟩
        obtain ⟨c, p, rfl⟩ := List.exists_cons_of_ne_nil hne
        obtain ⟨rfl, hp'⟩ := List.cons_prefix_cons.mp hp
        by_cases hp0 : p = []
        · rw [hp0]
          exact Bool.eq_false_iff.mpr hgo
        · have hrest := hfirst p hp' hp0 fun heq => hne' (heq ▸ rfl)
          rwa [List.append_assoc] at hrest

theorem readUntil_ends {limit : Nat} {pat input a rest : Bytes} (hpat : pat ≠ [])
    (h : readUntil limit (pat.isSuffixOf ·) [] input = some (a, rest)) :
    input = a ++ rest ∧ EndsFirst pat a := by
  obtain ⟨got, hgot, hinput, hstop, hfirst⟩ := readUntil_spec h
  obtain rfl : a = got := hgot
  refine ⟨hinput, List.isSuffixOf_iff_suffix.mp hstop, fun p hp hne hends => ?_⟩
  have hp0 : p ≠ [] := fun hnil => hpat (List.suffix_nil.mp (hnil ▸ hends))
  exact absurd (List.isSuffixOf_iff_suffix.mpr hends) (Bool.eq_false_iff.mp (hfirst p hp hp0 hne))

theorem readUntil_shorter {limit : Nat} {pat input a rest : Bytes} (hpat : pat ≠ [])
    (h : readUntil limit (pat.isSuffixOf ·) [] input = some (a, rest)) :
    rest.length < input.length := by
  obtain ⟨rfl, hends⟩ := readUntil_ends hpat h
  have hlen := hends.length_le
  have hpos := List.length_pos_iff.mpr hpat
  rw [List.length_append]
  omega

theorem readTrailer_spec {limit : Nat} {input t rest : Bytes}
    (h : readUntil limit (fun t => t == crlf || blank.isSuffixOf t) [] input = some (t, rest)) :
    input = t ++ rest ∧ IsTrailer t := by
  obtain ⟨got, hgot, hinput, hstop, hfirst⟩ := readUntil_spec h
  obtain rfl : t = got := hgot
  refine ⟨hinput, ?_⟩
  by_cases ht : t = crlf
  · exact .inl ht
  · have hends : blank.isSuffixOf t = true := by simpa [ht] using hstop
    refine .inr ⟨fun hcrlf => ?_, List.isSuffixOf_iff_suffix.mp hends, fun p hp hne hp' => ?_⟩
    · have hgo := hfirst crlf hcrlf (List.cons_ne_nil _ _) fun heq => ht heq.symm
      simp at hgo
    · have hp0 : p ≠ [] := by
        rintro rfl
        exact absurd (List.suffix_nil.mp hp') (by decide)
      have hgo := hfirst p hp hp0 hne
      rw [List.nil_append, Bool.or_eq_false_iff] at hgo
      exact absurd (List.isSuffixOf_iff_suffix.mpr hp') (Bool.eq_false_iff.mp hgo.2)

theorem readHttpHead_spec {input head rest : Bytes} (h : readHttpHead input = some (head, rest)) :
    input = head ++ rest ∧ EndsFirst blank head :=
  readUntil_ends (by decide) h

/-! ## Trimming -/

def graphic (b : UInt8) : Bool := 33 ≤ b && b ≤ 126

theorem graphic_of_isHex {b : UInt8} (h : isHex b = true) : graphic b = true := by
  have hcases : 48 ≤ b ∧ b ≤ 57 ∨ 97 ≤ b ∧ b ≤ 102 ∨ 65 ≤ b ∧ b ≤ 70 := by
    unfold isHex hexValue at h
    grind
  simp only [graphic, Bool.and_eq_true, decide_eq_true_eq, UInt8.le_iff_toNat_le,
    UInt8.reduceToNat] at hcases ⊢
  omega

theorem spaceAt_spec {spaces : List Bytes} {s space : Bytes} (h : spaceAt spaces s = some space) :
    space ∈ spaces ∧ space <+: s := by
  have hpre := List.find?_some (p := fun space => List.isPrefixOf space s) h
  exact ⟨List.mem_of_find?_eq_some h, List.isPrefixOf_iff_prefix.mp hpre⟩

/-- Lists of white space whose parts hold no graphic character and are not empty. -/
def spacing (spaces : List Bytes) : Prop :=
  ∀ space ∈ spaces, space ≠ [] ∧ ∀ b ∈ space, graphic b = false

theorem spacing_whiteSpace : spacing whiteSpace := by
  unfold spacing
  decide +kernel

theorem spacing_reverse : spacing (whiteSpace.map List.reverse) := by
  unfold spacing
  decide +kernel

theorem spaceAt_graphic {spaces : List Bytes} (hs : spacing spaces) {b : UInt8}
    (hb : graphic b = true) (s : Bytes) : spaceAt spaces (b :: s) = none := by
  cases h : spaceAt spaces (b :: s) with
  | none => rfl
  | some space =>
    obtain ⟨hmem, hpre⟩ := spaceAt_spec h
    obtain ⟨hne, hall⟩ := hs space hmem
    obtain ⟨c, space, rfl⟩ := List.exists_cons_of_ne_nil hne
    obtain ⟨rfl, -⟩ := List.cons_prefix_cons.mp hpre
    exact absurd (hall c List.mem_cons_self) (by rw [hb]; exact Bool.noConfusion)

theorem trimFrom_graphic {spaces : List Bytes} (hs : spacing spaces) {b : UInt8}
    (hb : graphic b = true) (s : Bytes) : trimFrom spaces 0 (b :: s) = b :: s := by
  rw [trimFrom, spaceAt_graphic hs hb]

theorem trimFrom_head {spaces : List Bytes} (hs : spacing spaces) {s : Bytes}
    (h : s.head?.all graphic = true) : trimFrom spaces 0 s = s := by
  cases s with
  | nil => rfl
  | cons b s => exact trimFrom_graphic hs (by simpa using h) s

/-- No white space goes past a graphic character. -/
theorem trimFrom_barrier {spaces : List Bytes} (hs : spacing spaces) {c : UInt8}
    (hc : graphic c = true) (a b : Bytes) {skip : Nat} (hskip : skip ≤ a.length) :
    ∃ a', trimFrom spaces skip (a ++ c :: b) = a' ++ c :: b := by
  induction a generalizing skip with
  | nil =>
    obtain rfl : skip = 0 := Nat.le_zero.mp hskip
    exact ⟨[], trimFrom_graphic hs hc b⟩
  | cons d a ih =>
    cases skip with
    | succ skip => exact ih (Nat.le_of_succ_le_succ hskip)
    | zero =>
      rw [List.cons_append, trimFrom]
      cases hspace : spaceAt spaces (d :: (a ++ c :: b)) with
      | none => exact ⟨d :: a, rfl⟩
      | some space =>
        obtain ⟨hmem, hpre⟩ := spaceAt_spec hspace
        refine ih ?_
        -- longer than `d :: a` it would hold `c`
        by_contra hlong
        have hlt : (d :: a).length < space.length := by simp only [List.length_cons]; omega
        have hmem' : c ∈ space := by
          obtain ⟨t, ht⟩ := hpre
          have hget : space[(d :: a).length]? = some c := by
            rw [← List.getElem?_append_left hlt, ht]
            simp
          exact List.mem_of_getElem? hget
        exact absurd ((hs space hmem).2 c hmem') (by rw [hc]; exact Bool.noConfusion)

/-- Optional white space that the patterns have. -/
theorem trimFrom_ows {spaces : List Bytes}
    (hows : ∀ b s, isOws b = true → spaceAt spaces (b :: s) = some [b]) (s : Bytes) :
    trimFrom spaces 0 s = trimFrom spaces 0 (s.dropWhile isOws) := by
  induction s with
  | nil => rfl
  | cons b s ih =>
    by_cases hb : isOws b = true
    · rw [List.dropWhile_cons_of_pos hb, trimFrom, hows b s hb]
      exact ih
    · rw [List.dropWhile_cons_of_neg hb]

theorem spaceAt_ows (b : UInt8) (s : Bytes) (h : isOws b = true) :
    spaceAt whiteSpace (b :: s) = some [b] ∧
      spaceAt (whiteSpace.map List.reverse) (b :: s) = some [b] := by
  rcases isOws_cases h with rfl | rfl <;> exact ⟨rfl, rfl⟩

/-- Behind optional white space, up to more of it, where graphic characters stand at both ends. -/
theorem trim_eq_trimOws {s : Bytes} (hne : trimOws s ≠ []) (h : (trimOws s).all graphic = true) :
    trim s = trimOws s := by
  have hall : ∀ b ∈ trimOws s, graphic b = true := List.all_eq_true.mp h
  have hend : ((s.dropWhile isOws).reverse.dropWhile isOws).head?.all graphic = true := by
    have hlast : (trimOws s).reverse = (s.dropWhile isOws).reverse.dropWhile isOws :=
      List.reverse_reverse _
    rw [← hlast]
    cases hrev : (trimOws s).reverse with
    | nil => rfl
    | cons b t =>
      have hb : b ∈ trimOws s := List.mem_reverse.mp (hrev ▸ List.mem_cons_self)
      simpa using hall b hb
  have hstart : (s.dropWhile isOws).head?.all graphic = true := by
    -- what `trimOws` leaves is a start of this
    obtain ⟨t, ht⟩ : trimOws s <+: s.dropWhile isOws := List.rdropWhile_prefix isOws _
    obtain ⟨b, v, hv⟩ := List.exists_cons_of_ne_nil hne
    have hb : graphic b = true := hall b (hv ▸ List.mem_cons_self)
    rw [← ht, hv]
    simpa using hb
  have hfront : trimFrom whiteSpace 0 s = s.dropWhile isOws := by
    rw [trimFrom_ows fun b s h => (spaceAt_ows b s h).1, trimFrom_head spacing_whiteSpace hstart]
  rw [trim, hfront, trimFrom_ows fun b s h => (spaceAt_ows b s h).2,
    trimFrom_head spacing_reverse hend, trimOws, List.rdropWhile]

/-! ## Numbers -/

theorem foldl_pushDigit {radix : Nat} {value : UInt8 → Nat} {s : Bytes}
    (h : ∀ d ∈ s, (hexValue d).filter (· < radix) = some (value d)) (n : Nat) :
    s.foldl (pushDigit radix) (some n) = some (s.foldl (fun n d => radix * n + value d) n) := by
  induction s generalizing n with
  | nil => rfl
  | cons d s ih =>
    have hd : pushDigit radix (some n) d = some (radix * n + value d) := by
      rw [pushDigit, Option.bind_some, h d List.mem_cons_self]
      rfl
    rw [List.foldl_cons, hd, ih fun d hd => h d (List.mem_cons_of_mem _ hd)]
    rfl

theorem foldl_pushDigit_none {radix : Nat} {s : Bytes} {d : UInt8} (hd : d ∈ s)
    (hnone : hexValue d = none) (n : Option Nat) : s.foldl (pushDigit radix) n = none := by
  have hstay : ∀ s : Bytes, s.foldl (pushDigit radix) none = none := by
    intro s
    induction s with
    | nil => rfl
    | cons e s ih => exact ih
  obtain ⟨a, b, rfl⟩ := List.append_of_mem hd
  have hstep : pushDigit radix (a.foldl (pushDigit radix) n) d = none := by
    rw [pushDigit, hnone]
    cases a.foldl (pushDigit radix) n <;> rfl
  rw [List.foldl_append, List.foldl_cons, hstep, hstay]

/-- A row of digits is read as it is meant. -/
theorem fromStrRadix_digits {bound radix : Nat} {value : UInt8 → Nat} {s : Bytes} (hne : s ≠ [])
    (h : ∀ d ∈ s, (hexValue d).filter (· < radix) = some (value d)) :
    fromStrRadix bound radix s =
      (some (s.foldl (fun n d => radix * n + value d) 0)).filter (· < bound) := by
  have hplus : (s.head? == some 43) = false := by
    obtain ⟨d, t, rfl⟩ := List.exists_cons_of_ne_nil hne
    have hd := h d List.mem_cons_self
    by_contra hplus
    obtain rfl : d = 43 := by simpa using hplus
    cases hd
  rw [fromStrRadix, hplus]
  simp only [Bool.false_eq_true, if_false, if_neg hne]
  rw [foldl_pushDigit h]

theorem isHex_of_fromStrRadix {bound radix n : Nat} {d : UInt8} {s : Bytes}
    (h : fromStrRadix bound radix (d :: s) = some n) : ∀ c ∈ s, isHex c = true := by
  intro c hc
  by_contra hhex
  have hnone : hexValue c = none := by simpa [isHex] using hhex
  have hmem : c ∈ if (d :: s).head? == some 43 then (d :: s).tail else d :: s := by
    split
    · exact hc
    · exact List.mem_cons_of_mem d hc
  rw [fromStrRadix] at h
  simp only [foldl_pushDigit_none hmem hnone, Option.filter_none, ite_self] at h
  cases h

/-! ## Chunks -/

theorem hexValue_lt {d : UInt8} {v : Nat} (h : hexValue d = some v) : v < 16 := by
  unfold hexValue at h
  simp only [UInt8.le_iff_toNat_le, UInt8.reduceToNat] at h
  split at h
  · cases h
    omega
  · split at h
    · cases h
      omega
    · split at h
      · cases h
        omega
      · cases h

theorem hexadecimal_of_fromStrRadix {digits : Bytes} {n : Nat} (hne : digits ≠ [])
    (hhex : ∀ d ∈ digits, isHex d = true) (h : fromStrRadix (2 ^ 64) 16 digits = some n) :
    n = hexadecimal digits := by
  have hvalue : ∀ d ∈ digits, (hexValue d).filter (· < 16) = some ((hexValue d).getD 0) := by
    intro d hd
    obtain ⟨v, hv⟩ := Option.isSome_iff_exists.mp (hhex d hd)
    rw [hv, Option.getD_some, Option.filter_some, if_pos (by simpa using hexValue_lt hv)]
  rw [fromStrRadix_digits hne hvalue] at h
  exact (Option.some.inj (Option.filter_eq_some_iff.mp h).1).symm

/-- The text before the extensions is a row of digits, and nothing stands behind it. -/
theorem chunkLength_row {digits ows ext line : Bytes} {n : Nat} (hne : digits ≠ [])
    (hhex : ∀ d ∈ digits, isHex d = true) (hows : ∀ b ∈ ows, isOws b = true)
    (hext : ext.head?.all (· == 59) = true) (htrim : trim line = digits ++ (ows ++ ext))
    (h : chunkLength line = some n) : n = hexadecimal digits := by
  have hbefore : ∀ b ∈ digits ++ ows, (b != 59) = true := by
    intro b hb
    by_contra heq
    obtain rfl : b = 59 := by simpa using heq
    rcases List.mem_append.mp hb with hb | hb
    · exact absurd (hhex 59 hb) (by decide)
    · exact absurd (hows 59 hb) (by decide)
  have hstop : ext.takeWhile (· != 59) = [] := by
    cases ext with
    | nil => rfl
    | cons c ext =>
      obtain rfl : c = 59 := by simpa using hext
      rfl
  rw [chunkLength, htrim, ← List.append_assoc, List.takeWhile_append_of_pos hbefore, hstop,
    List.append_nil] at h
  obtain ⟨d, digits, rfl⟩ := List.exists_cons_of_ne_nil hne
  -- white space behind the digits is an error
  have hnil : ows = [] := by
    by_contra hows'
    obtain ⟨o, ows, rfl⟩ := List.exists_cons_of_ne_nil hows'
    have ho := hows o List.mem_cons_self
    have hhex' := isHex_of_fromStrRadix h o (List.mem_append_right _ List.mem_cons_self)
    rcases isOws_cases ho with rfl | rfl <;> exact absurd hhex' (by decide)
  rw [hnil, List.append_nil] at h
  exact hexadecimal_of_fromStrRadix hne hhex h

theorem trim_front {digits : Bytes} (hne : digits ≠ []) (hhex : ∀ d ∈ digits, isHex d = true)
    (rest : Bytes) :
    trim (digits ++ rest) =
      (trimFrom (whiteSpace.map List.reverse) 0 (rest.reverse ++ digits.reverse)).reverse := by
  obtain ⟨d, digits, rfl⟩ := List.exists_cons_of_ne_nil hne
  have hd := graphic_of_isHex (hhex d List.mem_cons_self)
  rw [trim, List.cons_append, trimFrom_graphic spacing_whiteSpace hd, ← List.cons_append,
    List.reverse_append]

theorem trim_crlf {digits : Bytes} (hne : digits ≠ []) (hhex : ∀ d ∈ digits, isHex d = true) :
    trim (digits ++ crlf) = digits := by
  have hhead : digits.reverse.head?.all graphic = true := by
    cases hrev : digits.reverse with
    | nil => rfl
    | cons d t =>
      have hd : d ∈ digits := List.mem_reverse.mp (hrev ▸ List.mem_cons_self)
      exact graphic_of_isHex (hhex d hd)
  have hends : trimFrom (whiteSpace.map List.reverse) 0 (10 :: 13 :: digits.reverse) =
      trimFrom (whiteSpace.map List.reverse) 0 digits.reverse := rfl
  have hrest : crlf.reverse ++ digits.reverse = 10 :: 13 :: digits.reverse := rfl
  rw [trim_front hne hhex, hrest, hends, trimFrom_head spacing_reverse hhead,
    List.reverse_reverse]

/-- A semicolon ends the trimming. -/
theorem trim_extension {digits : Bytes} (hne : digits ≠ []) (hhex : ∀ d ∈ digits, isHex d = true)
    (ows ext : Bytes) :
    ∃ ext', trim (digits ++ (ows ++ 59 :: ext)) = digits ++ (ows ++ 59 :: ext') := by
  obtain ⟨a, ha⟩ := trimFrom_barrier spacing_reverse (c := 59) (by decide) ext.reverse
    (ows.reverse ++ digits.reverse) (Nat.zero_le _)
  have hrest : (ows ++ 59 :: ext).reverse ++ digits.reverse =
      ext.reverse ++ 59 :: (ows.reverse ++ digits.reverse) := by simp
  refine ⟨a.reverse, ?_⟩
  rw [trim_front hne hhex, hrest, ha]
  simp

/-- The source reads the size that the line has. -/
theorem chunkLength_of_chunkSize {line : Bytes} {m n : Nat} (hm : chunkSize line = some m)
    (hn : chunkLength line = some n) : n = m := by
  have hline : line.takeWhile isHex ++ line.dropWhile isHex = line :=
    List.takeWhile_append_dropWhile
  have hhex : ∀ d ∈ line.takeWhile isHex, isHex d = true :=
    List.all_eq_true.mp List.all_takeWhile
  unfold chunkSize at hm
  dsimp only at hm
  generalize line.takeWhile isHex = digits at hline hhex hm
  generalize line.dropWhile isHex = rest at hline hm
  split at hm
  · cases hm
  next hne =>
    split at hm
    next hrest =>
      cases hm
      rw [Bool.or_eq_true] at hrest
      rcases hrest with hrest | hrest
      · obtain rfl : rest = crlf := by simpa using hrest
        have htrim : trim line = digits ++ ([] ++ []) := by rw [← hline, trim_crlf hne hhex]; simp
        exact chunkLength_row hne hhex (fun b hb => by cases hb) rfl htrim hn
      · have hows : ∀ b ∈ rest.takeWhile isOws, isOws b = true :=
          List.all_eq_true.mp List.all_takeWhile
        obtain ⟨ext, hext⟩ : ∃ ext, rest.dropWhile isOws = 59 :: ext :=
          List.head?_eq_some_iff.mp (by simpa using hrest)
        have hsplit : rest = rest.takeWhile isOws ++ 59 :: ext := by
          rw [← hext, List.takeWhile_append_dropWhile]
        obtain ⟨ext', htrim⟩ := trim_extension hne hhex (rest.takeWhile isOws) ext
        rw [← hsplit, hline] at htrim
        exact chunkLength_row hne hhex hows rfl htrim hn
    · cases hm

/-- More fuel than bytes changes nothing. -/
theorem copyChunkedFrom_enough {n m : Nat} {input : Bytes} (hn : input.length < n)
    (hm : input.length < m) : copyChunkedFrom n input = copyChunkedFrom m input := by
  induction n generalizing m input with
  | zero => omega
  | succ n ih =>
    obtain ⟨m, rfl⟩ := Nat.exists_eq_succ_of_ne_zero (Nat.ne_of_gt (Nat.zero_lt_of_lt hm))
    rw [copyChunkedFrom, copyChunkedFrom]
    cases hread : readUntil 8192 (crlf.isSuffixOf ·) [] input with
    | none => rfl
    | some lr =>
      obtain ⟨line, rest⟩ := lr
      have hshort := readUntil_shorter (List.cons_ne_nil _ _) hread
      have hmore : ∀ size, copyChunkedFrom n (((copyFixed rest size).rest).drop 2) =
          copyChunkedFrom m (((copyFixed rest size).rest).drop 2) := by
        intro size
        have hdrop : (((copyFixed rest size).rest).drop 2).length ≤ rest.length := by
          simp only [copyFixed, List.length_drop]
          omega
        exact ih (by omega) (by omega)
      simp only [hmore]

/-- The lines of chunks that the copy goes by have a size in them. -/
def plainChunks : Nat → Bytes → Bool
  | 0, _ => true
  | fuel + 1, input =>
    match readUntil 8192 (crlf.isSuffixOf ·) [] input with
    | none => true
    | some (line, input) =>
      match if isUtf8 line then chunkLength line else none with
      | none => true
      | some size =>
        (chunkSize line).isSome &&
          (size == 0 || !crlf.isPrefixOf (input.drop size) ||
            plainChunks fuel ((input.drop size).drop 2))

/-- What was copied is a start of the input, a whole body exactly when the function returned. -/
structure Copied.Delimits (body : Bool → Bytes → Prop) (input : Bytes) (c : Copied) : Prop where
  split : ∃ rest, input = c.written ++ rest ∧ (c.returned = true → c.rest = rest)
  whole : c.returned = true → body (!c.framed) c.written
  part : c.returned = false → ∀ p, p <+: c.written → ¬body true p

theorem copyFixed_delimits (input : Bytes) (n : Nat) :
    (copyFixed input n).Delimits (fun closed p => (Extent.length n).Fits closed p) input where
  split := ⟨input.drop n, (List.take_append_drop n input).symm, fun _ => rfl⟩
  whole h := by
    have hlen : n ≤ input.length := of_decide_eq_true h
    exact List.length_take_of_le hlen
  part h p hp hfits := by
    have hlen : ¬n ≤ input.length := of_decide_eq_false h
    have hlong : p.length ≤ (input.take n).length := hp.length_le
    have hn : p.length = n := hfits
    rw [List.length_take] at hlong
    omega

theorem chunk_next {line rest : Bytes} {n : Nat} (hline : EndsFirst crlf line)
    (hsize : chunkSize line = some n) (hn : n ≠ 0) (hfit : n ≤ rest.length)
    (hcrlf : crlf <+: rest.drop n) {more : Copied}
    (h : more.Delimits (fun _ => Chunked) ((rest.drop n).drop 2)) :
    Copied.Delimits (fun _ => Chunked) (line ++ rest)
      { more with written := line ++ (rest.take n ++ (crlf ++ more.written)) } := by
  have hdata : (rest.take n).length = n := List.length_take_of_le hfit
  have hne : rest.take n ≠ [] := fun hnil => hn (by rw [← hdata, hnil]; rfl)
  obtain ⟨left, hleft, hleft'⟩ := h.split
  have hrest : rest = rest.take n ++ (crlf ++ (more.written ++ left)) := by
    obtain ⟨t, ht⟩ := hcrlf
    have hdrop : (rest.drop n).drop 2 = t := by rw [← ht]; rfl
    rw [← hleft, hdrop, ht, List.take_append_drop]
  refine ⟨⟨left, ?_, hleft'⟩, fun hret => ?_, fun hret p hp hchunked => ?_⟩
  · show line ++ rest = line ++ (rest.take n ++ (crlf ++ more.written)) ++ left
    conv_lhs => rw [hrest]
    simp only [List.append_assoc]
  · exact .chunk hline (hsize.trans (by rw [hdata])) hne (h.whole hret)
  · obtain ⟨q, -, hq, -, hchunk⟩ := hchunked.after_line hline hsize hp
    obtain ⟨data, row, rfl, hlen, hrow⟩ := hchunk hn
    -- the same data, and then a row that is a start of what was copied behind it
    obtain ⟨t, ht⟩ := hq
    rw [List.append_assoc] at ht
    obtain ⟨-, htail⟩ := List.append_inj ht (hlen.trans hdata.symm)
    rw [List.append_assoc] at htail
    exact h.part hret row ⟨t, List.append_cancel_left htail⟩ hrow

theorem chunk_broken {line rest : Bytes} {n : Nat} (hline : EndsFirst crlf line)
    (hsize : chunkSize line = some n) (hn : n ≠ 0) :
    Copied.Delimits (fun _ => Chunked) (line ++ rest)
      { written := line ++ rest.take n, rest := rest.drop n, returned := false } := by
  refine ⟨⟨rest.drop n, ?_, fun _ => rfl⟩, fun hret => Bool.noConfusion hret,
    fun _ p hp hchunked => ?_⟩
  · rw [List.append_assoc, List.take_append_drop]
  · obtain ⟨q, -, hq, -, hchunk⟩ := hchunked.after_line hline hsize hp
    obtain ⟨data, row, rfl, hlen, -⟩ := hchunk hn
    have hlong := hq.length_le
    have hcrlf : crlf.length = 2 := rfl
    simp only [List.length_append, List.length_take] at hlong
    omega

theorem no_chunks (input rest : Bytes) :
    Copied.Delimits (fun _ => Chunked) input { written := [], rest, returned := false } where
  split := ⟨input, rfl, fun hret => Bool.noConfusion hret⟩
  whole hret := Bool.noConfusion hret
  part _ _ hp hchunked := not_chunked_nil (List.prefix_nil.mp hp ▸ hchunked)

theorem copyChunkedFrom_delimits {fuel : Nat} {input : Bytes}
    (h : plainChunks fuel input = true) :
    (copyChunkedFrom fuel input).Delimits (fun _ => Chunked) input := by
  induction fuel generalizing input with
  | zero => exact no_chunks input input
  | succ fuel ih =>
    rw [copyChunkedFrom]
    rw [plainChunks] at h
    cases hread : readUntil 8192 (crlf.isSuffixOf ·) [] input with
    | none => exact no_chunks input []
    | some lr =>
      obtain ⟨line, rest⟩ := lr
      obtain ⟨rfl, hline⟩ := readUntil_ends (List.cons_ne_nil _ _) hread
      rw [hread] at h
      dsimp only at h ⊢
      cases hlength : (if isUtf8 line then chunkLength line else none) with
      | none => exact no_chunks (line ++ rest) rest
      | some size =>
        rw [hlength] at h
        dsimp only at h
        obtain ⟨hsome, hnext⟩ := Bool.and_eq_true_iff.mp h
        obtain ⟨m, hm⟩ := Option.isSome_iff_exists.mp hsome
        have hlen : chunkLength line = some size := by
          split at hlength
          · exact hlength
          · cases hlength
        obtain rfl := chunkLength_of_chunkSize hm hlen
        cases size with
        | zero =>
          cases htrailer : readUntil (32 * 1024) (fun t => t == crlf || blank.isSuffixOf t) []
              rest with
          | none =>
            refine ⟨⟨rest, rfl, fun hret => Bool.noConfusion hret⟩,
              fun hret => Bool.noConfusion hret, fun _ p hp hchunked => ?_⟩
            rw [← List.append_nil line] at hp
            obtain ⟨q, -, hq, hlast, -⟩ := hchunked.after_line hline hm hp
            exact not_isTrailer_nil (List.prefix_nil.mp hq ▸ hlast rfl)
          | some tr =>
            obtain ⟨trailer, rest⟩ := tr
            obtain ⟨rfl, ht⟩ := readTrailer_spec htrailer
            exact ⟨⟨rest, (List.append_assoc _ _ _).symm, fun _ => rfl⟩,
              fun _ => .last hline hm ht, fun hret => Bool.noConfusion hret⟩
        | succ n =>
          show Copied.Delimits _ _
            (if (copyFixed rest (n + 1)).returned && crlf.isPrefixOf (copyFixed rest (n + 1)).rest
              then _ else _)
          split
          next hchunk =>
            obtain ⟨hret, hcrlf⟩ := Bool.and_eq_true_iff.mp hchunk
            have hcrlf' : crlf.isPrefixOf (rest.drop (n + 1)) = true := hcrlf
            have hplain : plainChunks fuel ((rest.drop (n + 1)).drop 2) = true := by
              simpa [hcrlf'] using hnext
            exact chunk_next hline hm (Nat.succ_ne_zero n) (of_decide_eq_true hret)
              (List.isPrefixOf_iff_prefix.mp hcrlf') (ih hplain)
          next => exact chunk_broken hline hm (Nat.succ_ne_zero n)

/-! ## Fields -/

def stripped (headers : Fields) : Fields := headers.map fun h => (h.1, trimOws h.2)

/-- What the source takes for a length is a row of digits, and what it takes for chunks is the only
    transfer coding. -/
def plainFields (headers : Fields) : Bool :=
  ((bodyLength headers).join.isNone ||
    ((stripped headers).values "content-length").all fun v => !v.isEmpty && v.all isDigit) &&
  (headerValue headers "transfer-encoding").all fun e =>
    !sameName e (ascii "chunked") || (stripped headers).values "transfer-encoding" == [e]

/-- A transfer coding of a response, when there is one, ends in chunks. -/
def finalCoding (headers : Fields) : Bool :=
  match (stripped headers).values "transfer-encoding" with
  | [v] => finalChunked v
  | _ => true

theorem values_stripped (headers : Fields) (name : String) :
    (stripped headers).values name =
      (headers.filter fun h => sameName h.1 (ascii name)).map fun h => trimOws h.2 := by
  simp [Fields.values, stripped, List.filter_map, Function.comp_def]

theorem headerValue_none {headers : Fields} {name : String}
    (h : headerValue headers name = none) : (stripped headers).values name = [] := by
  rw [headerValue, Option.map_eq_none_iff, ← List.head?_filter, List.head?_eq_none_iff] at h
  rw [values_stripped, h]
  rfl

/-- The only length that the source lets through. -/
theorem bodyLength_some {headers : Fields} {n : Nat} (h : bodyLength headers = some (some n)) :
    headerValue headers "transfer-encoding" = none ∧
      ∃ f : Bytes × Bytes, (stripped headers).values "content-length" = [trimOws f.2] ∧
        fromStrRadix (2 ^ 64) 10 (trim f.2) = some n := by
  unfold bodyLength at h
  dsimp only at h
  rw [values_stripped]
  generalize (headers.filter fun h => sameName h.1 (ascii "content-length")) = lengths at h ⊢
  split at h
  · cases h
  next hone =>
    match lengths with
    | [] => cases h
    | [f] =>
      obtain ⟨m, hm, hmn⟩ := Option.map_eq_some_iff.mp h
      cases hmn
      exact ⟨by simpa using hone, f, rfl, hm⟩
    | f :: g :: lengths => simp at hone

theorem bodyLength_none {headers : Fields} (h : bodyLength headers = some none) :
    (stripped headers).values "content-length" = [] := by
  unfold bodyLength at h
  dsimp only at h
  rw [values_stripped]
  generalize (headers.filter fun h => sameName h.1 (ascii "content-length")) = lengths at h ⊢
  split at h
  · cases h
  · cases lengths with
    | nil => rfl
    | cons f lengths =>
      obtain ⟨m, -, hm⟩ := Option.map_eq_some_iff.mp h
      cases hm

theorem isDigit_value {d : UInt8} (h : isDigit d = true) :
    (hexValue d).filter (· < 10) = some (d.toNat - 48) := by
  have hd : 48 ≤ d ∧ d ≤ 57 := by simpa [isDigit] using h
  have hlt : d.toNat - 48 < 10 := by
    have hd' : d.toNat ≤ 57 := UInt8.le_iff_toNat_le.mp hd.2
    omega
  rw [hexValue, if_pos hd, Option.filter_some, if_pos (decide_eq_true hlt)]

theorem fromStrRadix_decimal {bound : Nat} {v : Bytes} (hne : v ≠ [])
    (h : v.all isDigit = true) :
    fromStrRadix bound 10 v = (some (decimal v)).filter (· < bound) :=
  fromStrRadix_digits hne fun d hd => isDigit_value (List.all_eq_true.mp h d hd)

theorem graphic_of_isDigit {d : UInt8} (h : isDigit d = true) : graphic d = true := by
  have hd : 48 ≤ d ∧ d ≤ 57 := by simpa [isDigit] using h
  exact graphic_of_isHex (by rw [isHex, hexValue, if_pos hd]; rfl)

/-- Plain fields without a transfer coding give the length that the source reads. -/
theorem contentLength_plain {headers : Fields} {len : Option Nat}
    (hplain : plainFields headers = true) (h : bodyLength headers = some len) :
    contentLength (stripped headers) = some len := by
  cases len with
  | none =>
    rw [contentLength, bodyLength_none h]
    rfl
  | some n =>
    obtain ⟨-, f, hvalues, hn⟩ := bodyLength_some h
    have hdigits : trimOws f.2 ≠ [] ∧ (trimOws f.2).all isDigit = true := by
      have hall := (Bool.and_eq_true_iff.mp hplain).1
      simpa [h, hvalues] using hall
    have hgraphic : (trimOws f.2).all graphic = true :=
      List.all_eq_true.mpr fun b hb => graphic_of_isDigit (List.all_eq_true.mp hdigits.2 b hb)
    rw [trim_eq_trimOws hdigits.1 hgraphic, fromStrRadix_decimal hdigits.1 hdigits.2] at hn
    rw [contentLength_digits hvalues hdigits.1 hdigits.2,
      (Option.filter_eq_some_iff.mp hn).1]

/-! ## Bodies -/

/-- Fields, and chunks if these say so, that the source reads as they are meant. -/
def plainBody (headers : Fields) (input : Bytes) : Bool :=
  plainFields headers &&
    (headerValue headers "transfer-encoding").all fun e =>
      !sameName e (ascii "chunked") || plainChunks (input.length + 1) input

def bodyExtent (response : Bool) : Fields → Option Extent :=
  if response then extentOf .untilClose (some .untilClose) else extentOf .empty none

theorem Copied.Delimits.fits {input : Bytes} {c : Copied} {extent : Option Extent} {e : Extent}
    (he : extent = some e) (h : c.Delimits (fun closed p => e.Fits closed p) input) :
    c.Delimits (fun closed p => ∃ e, extent = some e ∧ e.Fits closed p) input where
  split := h.split
  whole hret := ⟨e, he, h.whole hret⟩
  part hret p hp hfits := by
    obtain ⟨e', he', hfits⟩ := hfits
    cases he.symm.trans he'
    exact h.part hret p hp hfits

theorem extentOf_uncoded {otherwise : Extent} {coded : Option Extent} {fields : Fields}
    {len : Option Nat} (hcoding : fields.values "transfer-encoding" = [])
    (hlen : contentLength fields = some len) :
    extentOf otherwise coded fields = some (len.elim otherwise .length) := by
  rw [extentOf, hcoding, hlen]
  cases len <;> rfl

theorem extentOf_chunked {otherwise : Extent} {coded : Option Extent} {fields : Fields} {v : Bytes}
    (hcoding : fields.values "transfer-encoding" = [v]) (hv : finalChunked v = true)
    (hlen : contentLength fields = some none) :
    extentOf otherwise coded fields = some .chunked := by
  rw [extentOf, hcoding, hlen]
  simp only [hv, if_true]

/-- A coding the source does not know is chunks in the end, or gives no extent. -/
theorem bodyExtent_coded {headers : Fields} {response : Bool} {e : Extent}
    (hcoding : (headerValue headers "transfer-encoding").isSome = true)
    (hfinal : response = true → finalCoding headers = true)
    (h : bodyExtent response (stripped headers) = some e) : e = .chunked := by
  have hne : (stripped headers).values "transfer-encoding" ≠ [] := by
    intro hnil
    rw [values_stripped, List.map_eq_nil_iff] at hnil
    rw [headerValue, Option.isSome_map, ← List.head?_filter, hnil] at hcoding
    cases hcoding
  have hsingle : ∀ v, (stripped headers).values "transfer-encoding" = [v] → response = true →
      finalChunked v = true := by
    intro v hv hresponse
    have hfinal' := hfinal hresponse
    rwa [finalCoding, hv] at hfinal'
  have hcases : ∀ otherwise coded, (response = false → coded = none) →
      extentOf otherwise coded (stripped headers) = some e → e = .chunked := by
    intro otherwise coded hnone hext
    unfold extentOf at hext
    split at hext
    next hnil _ => exact absurd hnil hne
    next hnil _ => exact absurd hnil hne
    next v hv _ =>
      split at hext
      · exact (Option.some.inj hext).symm
      next hnot =>
        cases response with
        | false =>
          rw [hnone rfl] at hext
          cases hext
        | true => exact absurd (hsingle v hv rfl) hnot
    · cases hext
  unfold bodyExtent at h
  split at h
  next hresponse => exact hcases _ _ (fun hreq => by rw [hresponse] at hreq; cases hreq) h
  · exact hcases _ _ (fun _ => rfl) h

theorem copyMessageBody_delimits {headers : Fields} {input : Bytes} (response : Bool)
    (hplain : plainBody headers input = true)
    (hfinal : response = true → finalCoding headers = true)
    (hlen : (bodyLength headers).isSome = true) :
    (copyMessageBody input headers response).Delimits
      (fun closed p => ∃ e, bodyExtent response (stripped headers) = some e ∧ e.Fits closed p)
      input := by
  obtain ⟨len, hlen⟩ := Option.isSome_iff_exists.mp hlen
  obtain ⟨hfields, hchunks⟩ := Bool.and_eq_true_iff.mp hplain
  have hcontent := contentLength_plain hfields hlen
  rw [copyMessageBody, hlen]
  cases hcoding : headerValue headers "transfer-encoding" with
  | some e =>
    obtain rfl : len = none := by
      cases len with
      | none => rfl
      | some n =>
        rw [(bodyLength_some hlen).1] at hcoding
        cases hcoding
    dsimp only
    split
    next hname =>
      have hvalues : (stripped headers).values "transfer-encoding" = [e] := by
        have hall := (Bool.and_eq_true_iff.mp hfields).2
        simpa [hcoding, hname] using hall
      have hplain' : plainChunks (input.length + 1) input = true := by
        simpa [hcoding, hname] using hchunks
      have hextent : bodyExtent response (stripped headers) = some .chunked := by
        unfold bodyExtent
        split <;> exact extentOf_chunked hvalues (finalChunked_of_sameName hname) hcontent
      exact .fits hextent (copyChunkedFrom_delimits hplain')
    next hname =>
      refine ⟨⟨input, rfl, fun hret => Bool.noConfusion hret⟩, fun hret => Bool.noConfusion hret,
        fun _ p hp hfits => ?_⟩
      obtain ⟨e', he', hfits⟩ := hfits
      obtain rfl := bodyExtent_coded (by rw [hcoding]; rfl) hfinal he'
      exact not_chunked_nil (List.prefix_nil.mp hp ▸ hfits)
  | none =>
    have hvalues := headerValue_none hcoding
    have hextent : ∀ otherwise coded, extentOf otherwise coded (stripped headers) =
        some (len.elim otherwise .length) := fun _ _ => extentOf_uncoded hvalues hcontent
    cases len with
    | some n =>
      have hextent' : bodyExtent response (stripped headers) = some (.length n) := by
        unfold bodyExtent
        split <;> exact hextent _ _
      exact .fits hextent' (copyFixed_delimits input n)
    | none =>
      cases response with
      | true =>
        exact ⟨⟨[], (List.append_nil input).symm, fun _ => rfl⟩,
          fun _ => ⟨.untilClose, hextent _ _, rfl⟩, fun hret => Bool.noConfusion hret⟩
      | false =>
        exact ⟨⟨input, rfl, fun _ => rfl⟩, fun _ => ⟨.empty, hextent _ _, rfl⟩,
          fun hret => Bool.noConfusion hret⟩

end CampusAuth.Network
