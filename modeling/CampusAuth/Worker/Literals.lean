import CampusAuth.Worker.Variables

/- The values of variables as contents of a literal.

   An escaped value holds neither the quote of its literal nor, in a template literal, the start
   of an expression (`Literal`). -/
namespace CampusAuth.Worker
open Lib

section

/-! ## The contents of a literal -/

/-- Neither the quote itself nor a lone backslash. -/
inductive Quoted (quote : Char) : Text → Prop where
  | nil : Quoted quote []
  | pair {d : Char} {t : Text} : d ≠ '$' → Quoted quote t → Quoted quote ('\\' :: d :: t)
  | plain {c : Char} {t : Text} : c ≠ '\\' → c ≠ quote → Quoted quote t → Quoted quote (c :: t)

/-- What may stand between the quotes: in a template literal not the start of an expression. -/
inductive Literal (quote : Char) : Text → Prop where
  | nil : Literal quote []
  | pair (d : Char) {t : Text} : Literal quote t → Literal quote ('\\' :: d :: t)
  | plain {c : Char} {t : Text} : c ≠ '\\' → c ≠ quote →
      (c = '$' → quote = backquote → t.head? ≠ some '{') → Literal quote t → Literal quote (c :: t)

variable {quote : Char} {t : Text}

theorem Quoted.literal (h : Quoted quote t) (hquote : quote ≠ backquote) : Literal quote t := by
  induction h with
  | nil => exact .nil
  | pair _ _ ih => exact .pair _ ih
  | plain hc hq _ ih => exact .plain hc hq (fun _ hb => absurd hb hquote) ih

theorem head?_masked (h : t.head? ≠ some '{') :
    (replaceAll ['$', '{'] ['\\', '$', '{'] t).head? ≠ some '{' := by
  by_cases hp : ['$', '{'] <+: t
  · obtain ⟨rest, rfl⟩ := hp
    rw [replaceAll_hit (by simp)]
    simp
  · cases t with
    | nil => exact h
    | cons c t =>
      rw [replaceAll_miss hp]
      exact h

theorem prefix_of_head? (h : t.head? = some '{') : ['$', '{'] <+: '$' :: t := by
  cases t with
  | nil => cases h
  | cons c t =>
    rw [Option.some.inj h]
    exact ⟨t, rfl⟩

/-- The starts of expressions are masked. -/
theorem Quoted.masked (h : Quoted quote t) :
    Literal quote (replaceAll ['$', '{'] ['\\', '$', '{'] t) := by
  have hmiss : ∀ {c : Char} {t : Text}, c ≠ '$' → replaceAll ['$', '{'] ['\\', '$', '{'] (c :: t) =
      c :: replaceAll ['$', '{'] ['\\', '$', '{'] t :=
    fun hc => replaceAll_miss fun hp => hc (List.cons_prefix_cons.mp hp).1.symm
  induction h with
  | nil => exact .nil
  | pair hd _ ih =>
    rw [hmiss (by decide), hmiss hd]
    exact .pair _ ih
  | @plain c t hc hq _ ih =>
    by_cases hp : ['$', '{'] <+: c :: t
    · obtain ⟨hdollar, rest, hrest⟩ := List.cons_prefix_cons.mp hp
      subst hdollar hrest
      have hhit : replaceAll ['$', '{'] ['\\', '$', '{'] ('$' :: '{' :: rest) =
          ['\\', '$', '{'] ++ replaceAll ['$', '{'] ['\\', '$', '{'] rest :=
        replaceAll_hit (by simp) rest
      have ih : Literal quote (replaceAll ['$', '{'] ['\\', '$', '{'] ('{' :: rest)) := ih
      rw [hmiss (by decide)] at ih
      exact hhit ▸ .pair _ ih
    · rw [replaceAll_miss hp]
      refine .plain hc hq (fun hdollar _ => head?_masked fun hhead => hp ?_) ih
      exact hdollar ▸ prefix_of_head? hhead

/-- How a character stands in a literal, expressions apart. -/
def escapeChar (quote c : Char) : Text :=
  if c = '\\' then ['\\', '\\']
  else if c = '\r' then ['\\', 'r']
  else if c = '\n' then ['\\', 'n']
  else if c = Char.ofNat 0x2028 then "\\u2028".toList
  else if c = Char.ofNat 0x2029 then "\\u2029".toList
  else if c = quote then ['\\', quote]
  else [c]

/-- The text without the masking of expressions. -/
theorem replace_escapes (value : Text) (hquote : quote = '\'' ∨ quote = '"' ∨ quote = backquote) :
    replaceAll [quote] ['\\', quote] (replaceAll [Char.ofNat 0x2029] "\\u2029".toList
      (replaceAll [Char.ofNat 0x2028] "\\u2028".toList (replaceAll ['\n'] "\\n".toList
        (replaceAll ['\r'] "\\r".toList (replaceAll ['\\'] ['\\', '\\'] value))))) =
      value.flatMap (escapeChar quote) := by
  simp only [replaceAll_singleton, List.flatMap_assoc]
  congr 1
  funext c
  by_cases h1 : c = '\\'
  · subst h1
    rcases hquote with rfl | rfl | rfl <;> rfl
  by_cases h2 : c = '\r'
  · subst h2
    rcases hquote with rfl | rfl | rfl <;> rfl
  by_cases h3 : c = '\n'
  · subst h3
    rcases hquote with rfl | rfl | rfl <;> rfl
  by_cases h4 : c = Char.ofNat 0x2028
  · subst h4
    rcases hquote with rfl | rfl | rfl <;> rfl
  by_cases h5 : c = Char.ofNat 0x2029
  · subst h5
    rcases hquote with rfl | rfl | rfl <;> rfl
  simp [escapeChar, h1, h2, h3, h4, h5]

theorem Quoted.escapeChar (hquote : quote = '\'' ∨ quote = '"' ∨ quote = backquote) (c : Char)
    (h : Quoted quote t) : Quoted quote (escapeChar quote c ++ t) := by
  have hdigit : ∀ d ∈ "02u89".toList, d ≠ '\\' ∧ d ≠ quote := by
    rcases hquote with rfl | rfl | rfl <;> exact @of_decide_eq_true _ (List.decidableBAll _ _) rfl
  have hplain : ∀ {d : Char} {t : Text}, d ∈ "02u89".toList → Quoted quote t →
      Quoted quote (d :: t) := fun hd => .plain (hdigit _ hd).1 (hdigit _ hd).2
  have hdollar : quote ≠ '$' := by rcases hquote with rfl | rfl | rfl <;> decide
  unfold Worker.escapeChar
  split
  · exact .pair (by decide) h
  split
  · exact .pair (by decide) h
  split
  · exact .pair (by decide) h
  split
  · exact .pair (by decide) (hplain (by decide) (hplain (by decide) (hplain (by decide)
      (hplain (by decide) h))))
  split
  · exact .pair (by decide) (hplain (by decide) (hplain (by decide) (hplain (by decide)
      (hplain (by decide) h))))
  split
  · exact .pair hdollar h
  · exact .plain ‹_› ‹_› h

theorem quoted_escapes (hquote : quote = '\'' ∨ quote = '"' ∨ quote = backquote) (value : Text) :
    Quoted quote (value.flatMap (escapeChar quote)) := by
  induction value with
  | nil => exact .nil
  | cons c value ih => exact .escapeChar hquote c ih

theorem escape_eq (value : Text) (hquote : quote = '\'' ∨ quote = '"' ∨ quote = backquote) :
    escapeJavascriptString value quote =
      if quote = backquote then
        replaceAll ['$', '{'] ['\\', '$', '{'] (value.flatMap (escapeChar quote))
      else value.flatMap (escapeChar quote) := by
  rw [← replace_escapes value hquote]
  rcases hquote with rfl | rfl | rfl <;> rfl

theorem literal_escape (value : Text)
    (hquote : quote = '\'' ∨ quote = '"' ∨ quote = backquote) :
    Literal quote (escapeJavascriptString value quote) := by
  rw [escape_eq value hquote]
  split
  · exact (quoted_escapes hquote value).masked
  · exact (quoted_escapes hquote value).literal ‹_›

theorem quoted_dump (value : Text) : Quoted '"' (value.flatMap dumpChar) := by
  have hhex : ∀ n < 16, hexDigit n ≠ '\\' ∧ hexDigit n ≠ '"' := by decide
  induction value with
  | nil => exact .nil
  | cons c value ih =>
    rw [List.flatMap_cons]
    unfold dumpChar
    repeat' split
    all_goals try exact .pair (by decide) ih
    · rename_i hlow
      obtain ⟨h1, h1'⟩ := hhex (c.toNat / 16) (by omega)
      obtain ⟨h2, h2'⟩ := hhex (c.toNat % 16) (by omega)
      exact .pair (by decide) (.plain (by decide) (by decide) (.plain (by decide) (by decide)
        (.plain h1 h1' (.plain h2 h2' ih))))
    · exact .plain ‹_› ‹_› ih

/-! ## What a literal denotes -/

def hexValue (c : Char) : Option Nat :=
  if '0' ≤ c ∧ c ≤ '9' then some (c.toNat - 48)
  else if 'a' ≤ c ∧ c ≤ 'f' then some (c.toNat - 87)
  else if 'A' ≤ c ∧ c ≤ 'F' then some (c.toNat - 55)
  else none

/-- The character behind a backslash; escapes by code and continued lines are none. -/
def simpleEscape (c : Char) : Option Char :=
  if c = 'n' then some '\n'
  else if c = 'r' then some '\r'
  else if c = 't' then some '\t'
  else if c = 'b' then some (Char.ofNat 8)
  else if c = 'f' then some (Char.ofNat 12)
  else if c = 'v' then some (Char.ofNat 11)
  else if c ∈ "ux0123456789\r\n".toList then none
  else some c

/-- A character of a script's literal, and the characters it takes behind its first. In a template
    literal a dollar sign and a brace begin an expression. -/
def charAt (quote : Char) (expressions : Bool) (c : Char) (rest : Text) : Option (Char × Nat) :=
  if c = '\\' then
    match rest with
    | [] => none
    | 'u' :: d1 :: d2 :: d3 :: d4 :: _ => do
      let code := (← hexValue d1) * 4096 + (← hexValue d2) * 256 + (← hexValue d3) * 16 +
        (← hexValue d4)
      some (Char.ofNat code, 5)
    | d :: _ => (simpleEscape d).map fun c => (c, 1)
  else if c = quote ∨ c = '\n' ∨ c = '\r' then none
  else if expressions = true ∧ c = '$' ∧ rest.head? = some '{' then none
  else some (c, 0)

/-- The first number of characters belongs to an escape already read. -/
def stringValueFrom (quote : Char) (expressions : Bool) : Nat → Text → Option Text
  | _, [] => some []
  | skip + 1, _ :: cs => stringValueFrom quote expressions skip cs
  | 0, c :: cs =>
    match charAt quote expressions c cs with
    | none => none
    | some (value, skip) => (stringValueFrom quote expressions skip cs).map (value :: ·)

/-- The text that the contents of a literal denote. -/
def stringValue (quote : Char) (t : Text) : Option Text :=
  stringValueFrom quote (quote = backquote) 0 t

/-- What a text denotes that is written in a place for values. -/
def denoted (place : Mode) (written : Text) : Option Text :=
  match quoteOf place, written with
  | some quote, written => stringValue quote written
  | none, '"' :: t => if t.getLast? = some '"' then stringValue '"' t.dropLast else none
  | none, _ => none

variable {expressions : Bool}

theorem stringValueFrom_eq (k : Nat) (t : Text) :
    stringValueFrom quote expressions k t = stringValueFrom quote expressions 0 (t.drop k) := by
  induction t generalizing k with
  | nil => cases k <;> rfl
  | cons c t ih =>
    cases k with
    | zero => rfl
    | succ k => exact ih k

theorem stringValueFrom_cons {c value : Char} {k : Nat} {t : Text}
    (h : charAt quote expressions c t = some (value, k)) :
    stringValueFrom quote expressions 0 (c :: t) =
      (stringValueFrom quote expressions 0 (t.drop k)).map (value :: ·) := by
  rw [← stringValueFrom_eq k t, stringValueFrom, h]

theorem stringValueFrom_pair {d value : Char} {t : Text}
    (h : charAt quote expressions '\\' (d :: t) = some (value, 1)) :
    stringValueFrom quote expressions 0 (['\\', d] ++ t) =
      (stringValueFrom quote expressions 0 t).map (value :: ·) :=
  stringValueFrom_cons h

theorem stringValueFrom_code {d1 d2 d3 d4 value : Char} {t : Text}
    (h : charAt quote expressions '\\' ('u' :: d1 :: d2 :: d3 :: d4 :: t) = some (value, 5)) :
    stringValueFrom quote expressions 0 (['\\', 'u', d1, d2, d3, d4] ++ t) =
      (stringValueFrom quote expressions 0 t).map (value :: ·) :=
  stringValueFrom_cons h

theorem stringValueFrom_plain {c : Char} {t : Text}
    (h : charAt quote expressions c t = some (c, 0)) :
    stringValueFrom quote expressions 0 ([c] ++ t) =
      (stringValueFrom quote expressions 0 t).map (c :: ·) :=
  stringValueFrom_cons h

theorem stringValueFrom_escapeChar (hquote : quote = '\'' ∨ quote = '"' ∨ quote = backquote)
    {c : Char} (hc : expressions = true → c ≠ '$') (t : Text) :
    stringValueFrom quote expressions 0 (escapeChar quote c ++ t) =
      (stringValueFrom quote expressions 0 t).map (c :: ·) := by
  unfold escapeChar
  split_ifs with hslash hr hn hls hps hq
  · rw [hslash]
    exact stringValueFrom_pair rfl
  · rw [hr]
    exact stringValueFrom_pair rfl
  · rw [hn]
    exact stringValueFrom_pair rfl
  · rw [hls]
    exact stringValueFrom_code rfl
  · rw [hps]
    exact stringValueFrom_code rfl
  · subst hq
    refine stringValueFrom_pair ?_
    rcases hquote with rfl | rfl | rfl <;> rfl
  · refine stringValueFrom_plain ?_
    have hexpr : ¬(expressions = true ∧ c = '$' ∧ t.head? = some '{') := fun h => hc h.1 h.2.1
    simp only [charAt, if_neg hslash, hq, hr, hn, or_self, if_false, if_neg hexpr]

theorem stringValueFrom_dumpChar (c : Char) (t : Text) :
    stringValueFrom '"' false 0 (dumpChar c ++ t) =
      (stringValueFrom '"' false 0 t).map (c :: ·) := by
  have hhex : ∀ n < 16, hexValue (hexDigit n) = some n := by decide
  unfold dumpChar
  split_ifs with hq hslash hn hr ht hf hb hlow
  · rw [hq]
    exact stringValueFrom_pair rfl
  · rw [hslash]
    exact stringValueFrom_pair rfl
  · rw [hn]
    exact stringValueFrom_pair rfl
  · rw [hr]
    exact stringValueFrom_pair rfl
  · rw [ht]
    exact stringValueFrom_pair rfl
  · rw [hf]
    exact stringValueFrom_pair rfl
  · rw [hb]
    exact stringValueFrom_pair rfl
  · show stringValueFrom '"' false 0 (['\\', 'u', '0', '0', _, _] ++ t) = _
    refine stringValueFrom_code ?_
    have hzero : hexValue '0' = some 0 := by decide
    have hcode : c.toNat / 16 * 16 + c.toNat % 16 = c.toNat := Nat.div_add_mod' ..
    simp [charAt, hzero, hhex _ (show c.toNat / 16 < 16 by omega),
      hhex _ (show c.toNat % 16 < 16 by omega), hcode, Char.ofNat_toNat]
  · exact stringValueFrom_plain (by simp [charAt, hslash, hq, hr, hn])

theorem stringValueFrom_flatMap {write : Char → Text}
    (hwrite : ∀ c t, stringValueFrom quote expressions 0 (write c ++ t) =
      (stringValueFrom quote expressions 0 t).map (c :: ·)) (value : Text) :
    stringValueFrom quote expressions 0 (value.flatMap write) = some value := by
  induction value with
  | nil => rfl
  | cons c value ih => rw [List.flatMap_cons, hwrite, ih]; rfl

theorem masked_miss {c : Char} (hc : c ≠ '$') (t : Text) :
    replaceAll ['$', '{'] ['\\', '$', '{'] (c :: t) =
      c :: replaceAll ['$', '{'] ['\\', '$', '{'] t :=
  replaceAll_miss fun hp => hc (List.cons_prefix_cons.mp hp).1.symm

theorem masked_append {a : Text} (ha : '$' ∉ a) (t : Text) :
    replaceAll ['$', '{'] ['\\', '$', '{'] (a ++ t) =
      a ++ replaceAll ['$', '{'] ['\\', '$', '{'] t := by
  induction a with
  | nil => rfl
  | cons c a ih =>
    rw [List.mem_cons, not_or] at ha
    rw [List.cons_append, masked_miss (Ne.symm ha.1), ih ha.2, List.cons_append]

theorem dollar_not_mem {c : Char} (hc : c ≠ '$') : '$' ∉ escapeChar backquote c := by
  unfold escapeChar
  split_ifs
  all_goals first | decide | simpa using hc.symm

/-- Masking the starts of expressions keeps what the text denotes. -/
theorem masked_value (value : Text) :
    stringValueFrom backquote true 0 (replaceAll ['$', '{'] ['\\', '$', '{']
      (value.flatMap (escapeChar backquote))) = some value := by
  induction value with
  | nil => rfl
  | cons c value ih =>
    rw [List.flatMap_cons]
    by_cases hc : c = '$'
    · subst hc
      have hdollar : escapeChar backquote '$' = ['$'] := by decide
      rw [hdollar]
      by_cases hp : ['$', '{'] <+: ['$'] ++ value.flatMap (escapeChar backquote)
      · -- the masked brace is that of the rest
        obtain ⟨rest, hrest⟩ := (List.cons_prefix_cons.mp hp).2
        have hbrace : value.flatMap (escapeChar backquote) = '{' :: rest := hrest.symm
        have hhit : replaceAll ['$', '{'] ['\\', '$', '{'] (['$', '{'] ++ rest) =
            ['\\', '$', '{'] ++ replaceAll ['$', '{'] ['\\', '$', '{'] rest :=
          replaceAll_hit (by simp) rest
        rw [hbrace] at ih ⊢
        rw [masked_miss (by decide)] at ih
        show stringValueFrom backquote true 0 (replaceAll _ _ (['$', '{'] ++ rest)) = _
        rw [hhit]
        show stringValueFrom backquote true 0 (['\\', '$'] ++ ('{' :: replaceAll _ _ rest)) = _
        rw [stringValueFrom_pair rfl, ih]
        rfl
      · have hhead : (value.flatMap (escapeChar backquote)).head? ≠ some '{' := fun h =>
          hp (prefix_of_head? h)
        have hplain := head?_masked hhead
        have hne : '$' ≠ backquote := by decide
        rw [List.singleton_append] at hp ⊢
        rw [replaceAll_miss hp, ← List.singleton_append,
          stringValueFrom_plain (by simp [charAt, hne, hplain]), ih]
        rfl
    · rw [masked_append (dollar_not_mem hc),
        stringValueFrom_escapeChar (.inr (.inr rfl)) fun _ => hc, ih]
      rfl

/-- Encoding a value for the place it stands in keeps it. -/
theorem denoted_encode {place : Mode} (hplace : place ∈ [.code, .single, .double, .template])
    (text value : Text) : denoted place (encode text value place) = some value := by
  have hquoted : ∀ quote, quote = '\'' ∨ quote = '"' ∨ quote = backquote →
      stringValue quote (escapeJavascriptString value quote) = some value := by
    intro quote hquote
    rw [escape_eq value hquote, stringValue]
    split_ifs with hb
    · subst hb
      exact masked_value value
    · exact stringValueFrom_flatMap (fun c t => stringValueFrom_escapeChar hquote (by simp [hb]) t)
        value
  have hdump : stringValue '"' (value.flatMap dumpChar) = some value :=
    stringValueFrom_flatMap stringValueFrom_dumpChar value
  simp only [List.mem_cons, List.not_mem_nil, or_false] at hplace
  rcases hplace with rfl | rfl | rfl | rfl
  · show (if (value.flatMap dumpChar ++ ['"']).getLast? = some '"' then
      stringValue '"' (value.flatMap dumpChar ++ ['"']).dropLast else none) = some value
    rw [if_pos (by simp), List.dropLast_concat, hdump]
  · exact hquoted '\'' (by simp)
  · exact hquoted '"' (by simp)
  · exact hquoted backquote (by simp)

end
end CampusAuth.Worker
