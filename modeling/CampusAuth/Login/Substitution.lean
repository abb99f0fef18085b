import CampusAuth.Lib.Slices
import CampusAuth.Login.HttpTask

/- The placeholders of a template (`login/http_login.rs`, `substitute`).

   The scanner goes over the bytes of the template and takes slices of it, each of which must
   fall between two characters. It does what one pass over the characters does (`Pass`): the
   placeholders with a value are replaced from the left, everything else is copied
   (`substitute_single_pass`). -/
namespace CampusAuth.Login
open Lib

/-- The value of the placeholder whose brace is the byte `i`, and how many bytes it takes;
    the outer `none` is a slice that is not there. -/
def placeholderAtByte (template : Text) (vars : Vars) (i : Nat) : Option (Option (Text × Nat)) :=
  match dropBytes (i + 1) template with
  | none => none
  | some rest =>
    match findChar '}' rest with
    | none => some none
    | some stop =>
      match slice template (i + 1) (i + 1 + stop) with
      | none => none
      | some name =>
        if isPlaceholderName name then
          some ((Vars.get vars name).map fun value => (value, stop + 2))
        else some none

/-- The loop of `substitute` from the byte `i` on, with what is written so far. -/
def substituteLoop (template : Text) (vars : Vars) : Nat → Nat → Text → Option Text
  | 0, _, _ => none
  | fuel + 1, i, out =>
    match (bytes template)[i]? with
    | none => some out
    | some b =>
      match (if b.toNat = '{'.toNat then placeholderAtByte template vars i else some none) with
      | none => none
      | some (some (value, taken)) => substituteLoop template vars fuel (i + taken) (out ++ value)
      | some none =>
        match slice template i (i + utf8CharLen b) with
        | none => none
        | some ch => substituteLoop template vars fuel (i + utf8CharLen b) (out ++ ch)

/-- The template with its placeholders replaced, as the loop over its bytes does it. -/
def substituteBytes (template : Text) (vars : Vars) : Option Text :=
  substituteLoop template vars ((bytes template).length + 1) 0 []

/-! ## One pass over the characters -/

/-- The text begins with a placeholder that has a value. -/
def Defined (vars : Vars) (name value rest text : Text) : Prop :=
  text = '{' :: (name ++ '}' :: rest) ∧ isPlaceholderName name = true ∧
    Vars.get vars name = some value

/-- `out` is the text with every placeholder that has a value replaced, from the left, and
    everything else copied. -/
inductive Pass (vars : Vars) : Text → Text → Prop
  | nil : Pass vars [] []
  | replaces {name value rest text out : Text} : Defined vars name value rest text →
      Pass vars rest out → Pass vars text (value ++ out)
  | copies {c : Char} {cs out : Text} : (∀ name value rest, ¬Defined vars name value rest (c :: cs)) →
      Pass vars cs out → Pass vars (c :: cs) (c :: out)

theorem brace_not_in_name {name : Text} (h : isPlaceholderName name = true) : '}' ∉ name := by
  intro hmem
  unfold isPlaceholderName at h
  rw [Bool.and_eq_true] at h
  exact absurd (List.all_eq_true.mp h.2 '}' hmem) (by decide)

theorem findIdx?_brace {name rest : Text} (h : '}' ∉ name) :
    (name ++ '}' :: rest).findIdx? (· == '}') = some name.length := by
  induction name with
  | nil => rfl
  | cons c name ih =>
    have hc : c ≠ '}' := fun heq => h (heq ▸ List.mem_cons_self)
    rw [List.cons_append, List.findIdx?_cons, if_neg (by simpa using hc),
      ih fun hmem => h (List.mem_cons_of_mem c hmem)]
    rfl

theorem split_at_brace {cs : Text} {stop : Nat} (h : cs.findIdx? (· == '}') = some stop) :
    cs = cs.take stop ++ '}' :: cs.drop (stop + 1) := by
  obtain ⟨hlt, hbrace, -⟩ := List.findIdx?_eq_some_iff_getElem.mp h
  rw [beq_iff_eq] at hbrace
  rw [← hbrace, List.cons_getElem_drop_succ, List.take_append_drop]

/-- What `placeholderAt` finds is a placeholder with a value. -/
theorem placeholderAt_iff {vars : Vars} {c : Char} {cs value : Text} {taken : Nat} :
    placeholderAt vars c cs = some (value, taken) ↔
      ∃ name rest, Defined vars name value rest (c :: cs) ∧ taken = name.length + 1 := by
  unfold placeholderAt
  constructor
  · intro h
    split at h
    next hc =>
      split at h
      next stop hstop =>
        split at h
        next hname =>
          obtain ⟨v, hv, heq⟩ := Option.map_eq_some_iff.mp h
          cases heq
          have hlen : (cs.take stop).length = stop := by
            obtain ⟨hlt, -⟩ := List.findIdx?_eq_some_iff_getElem.mp hstop
            rw [List.length_take]
            omega
          refine ⟨cs.take stop, cs.drop (stop + 1), ⟨?_, hname, hv⟩, by rw [hlen]⟩
          rw [hc, ← split_at_brace hstop]
        next => cases h
      next => cases h
    next => cases h
  · rintro ⟨name, rest, ⟨htext, hname, hv⟩, rfl⟩
    cases htext
    rw [if_pos rfl, findIdx?_brace (brace_not_in_name hname)]
    dsimp only
    rw [List.take_left, if_pos hname, hv]
    rfl

theorem defined_of_placeholderAt_none {vars : Vars} {c : Char} {cs : Text}
    (h : placeholderAt vars c cs = none) (name value rest : Text) :
    ¬Defined vars name value rest (c :: cs) := by
  intro hdef
  rw [placeholderAt_iff.mpr ⟨name, rest, hdef, rfl⟩] at h
  cases h

theorem substituteFrom_eq (vars : Vars) (n : Nat) (s : Text) :
    substituteFrom vars n s = substitute (s.drop n) vars := by
  induction s generalizing n with
  | nil => rw [List.drop_nil]; rfl
  | cons c s ih =>
    cases n with
    | zero => rfl
    | succ n => exact ih n

/-- A placeholder with a value is replaced, -/
theorem substitute_replaces {vars : Vars} {name value rest text : Text}
    (h : Defined vars name value rest text) : substitute text vars = value ++ substitute rest vars := by
  obtain ⟨rfl, -⟩ := id h
  have hat := placeholderAt_iff.mpr ⟨name, rest, h, rfl⟩
  rw [substitute, substituteFrom, hat]
  dsimp only
  rw [substituteFrom_eq, List.drop_append, List.drop_eq_nil_of_le (Nat.le_succ _),
    Nat.add_sub_cancel_left]
  rfl

/-- and anything else is copied. -/
theorem substitute_copies {vars : Vars} {c : Char} {cs : Text} (h : placeholderAt vars c cs = none) :
    substitute (c :: cs) vars = c :: substitute cs vars := by
  rw [substitute, substituteFrom, h]
  rfl

theorem pass_substitute (vars : Vars) (text : Text) : Pass vars text (substitute text vars) := by
  induction hn : text.length using Nat.strong_induction_on generalizing text with
  | _ n ih =>
    subst hn
    cases text with
    | nil => exact .nil
    | cons c cs =>
      cases hat : placeholderAt vars c cs with
      | none =>
        rw [substitute_copies hat]
        exact .copies (defined_of_placeholderAt_none hat) (ih _ (Nat.lt_succ_self _) cs rfl)
      | some r =>
        obtain ⟨name, rest, hdef, -⟩ := placeholderAt_iff.mp hat
        have hlen : rest.length < (c :: cs).length := by
          rw [hdef.1]
          simp only [List.length_cons, List.length_append]
          omega
        rw [substitute_replaces hdef]
        exact .replaces hdef (ih _ hlen rest rfl)

theorem Pass.unique {vars : Vars} {text out : Text} (h : Pass vars text out) :
    out = substitute text vars := by
  induction h with
  | nil => rfl
  | replaces hdef _ ih => rw [substitute_replaces hdef, ih]
  | @copies c cs _ hnot _ ih =>
    cases hat : placeholderAt vars c cs with
    | none => rw [substitute_copies hat, ih]
    | some r =>
      obtain ⟨name, rest, hdef, -⟩ := placeholderAt_iff.mp hat
      exact absurd hdef (hnot name r.1 rest)

/-! ## The loop over the bytes -/

/-- At a character the loop looks for the placeholder the characters show there. -/
theorem placeholderAtByte_eq (vars : Vars) (before cs : Text) :
    placeholderAtByte (before ++ '{' :: cs) vars (bytes before).length =
      some ((placeholderAt vars '{' cs).map fun r =>
        (r.1, (bytes ('{' :: cs.take r.2)).length)) := by
  have hbrace : (bytes ['{']).length = 1 := rfl
  have hstart : (bytes before).length + 1 = (bytes (before ++ ['{'])).length := by
    rw [bytes_append, List.length_append, hbrace]
  have hsplit : before ++ '{' :: cs = (before ++ ['{']) ++ cs := by simp
  unfold placeholderAtByte placeholderAt
  rw [hstart, hsplit, dropBytes_append, if_pos rfl]
  dsimp only
  rw [findChar_eq]
  cases hstop : cs.findIdx? (· == '}') with
  | none => rfl
  | some stop =>
    have hcs := split_at_brace hstop
    have hmiddle : slice ((before ++ ['{']) ++ cs) (bytes (before ++ ['{'])).length
        ((bytes (before ++ ['{'])).length + (bytes (cs.take stop)).length) = some (cs.take stop) := by
      have := slice_middle (before ++ ['{']) (cs.take stop) ('}' :: cs.drop (stop + 1))
      rwa [List.append_assoc (before ++ ['{']), ← hcs] at this
    simp only [Option.map_some, hmiddle]
    split
    · rw [Option.map_map]
      congr 2
      funext value
      have htake : cs.take (stop + 1) = cs.take stop ++ ['}'] := by
        conv_lhs => rw [hcs]
        have hlen : (cs.take stop).length = stop := by
          obtain ⟨hlt, -⟩ := List.findIdx?_eq_some_iff_getElem.mp hstop
          rw [List.length_take]
          omega
        rw [List.take_append, hlen, Nat.add_sub_cancel_left, List.take_take,
          Nat.min_eq_right (Nat.le_succ _)]
        rfl
      have hend : (bytes ['}']).length = 1 := rfl
      rw [Function.comp, htake, length_bytes_cons, bytes_append, List.length_append, hend]
      congr 1
      show _ = 1 + _
      omega
    · rfl

theorem substituteLoop_eq (vars : Vars) (fuel : Nat) (before rest out : Text)
    (hfuel : (bytes rest).length < fuel) :
    substituteLoop (before ++ rest) vars fuel (bytes before).length out =
      some (out ++ substitute rest vars) := by
  induction fuel generalizing before rest out with
  | zero => exact absurd hfuel (Nat.not_lt_zero _)
  | succ fuel ih =>
    cases rest with
    | nil =>
      rw [substituteLoop, List.append_nil, List.getElem?_eq_none (Nat.le_refl _)]
      exact congrArg some (List.append_nil out).symm
    | cons c cs =>
      obtain ⟨b, hhead, hlen, hascii⟩ := firstByte c
      have hsize := c.utf8Size_pos
      have hrest := length_bytes_cons c cs
      have hbyte : (bytes (before ++ c :: cs))[(bytes before).length]? = some b := by
        rw [getElem?_bytes, hhead]
      have hone : (bytes before).length + utf8CharLen b = (bytes (before ++ [c])).length := by
        rw [bytes_append, List.length_append, length_bytes_cons, hlen]
        rfl
      have hch : slice (before ++ c :: cs) (bytes before).length
          ((bytes before).length + utf8CharLen b) = some [c] := by
        have hmid := slice_middle before [c] cs
        rwa [List.append_assoc, ← List.length_append, ← bytes_append, ← hone] at hmid
      rw [substituteLoop, hbyte]
      dsimp only
      rw [hch, hone]
      have hcopied : substituteLoop (before ++ c :: cs) vars fuel (bytes (before ++ [c])).length
          (out ++ [c]) = some (out ++ [c] ++ substitute cs vars) := by
        have hnext := ih (before ++ [c]) cs (out ++ [c]) (by omega)
        rwa [List.append_assoc before] at hnext
      by_cases hc : c = '{'
      · subst hc
        rw [if_pos ((hascii '{' (by decide)).mpr rfl), placeholderAtByte_eq]
        cases hat : placeholderAt vars '{' cs with
        | none =>
          rw [substitute_copies hat]
          exact hcopied.trans (by rw [List.append_assoc]; rfl)
        | some r =>
          -- the placeholder ends between two characters, and the loop goes on behind it
          obtain ⟨name, tail, hdef, htaken⟩ := placeholderAt_iff.mp (show _ = some (r.1, r.2) from hat)
          obtain ⟨htext, -⟩ := id hdef
          have hcs : cs = (name ++ ['}']) ++ tail := by simpa using htext
          have htake : cs.take r.2 = name ++ ['}'] := by
            rw [hcs, htaken]
            exact List.take_left' (by simp)
          have hbehind := ih (before ++ '{' :: (name ++ ['}'])) tail (out ++ r.1) (by
            have hsum : (bytes cs).length = (bytes (name ++ ['}'])).length + (bytes tail).length := by
              rw [hcs, bytes_append, List.length_append]
            omega)
          rw [substitute_replaces hdef, Option.map_some, htake]
          dsimp only
          rw [← List.length_append, ← bytes_append, ← List.append_assoc]
          rwa [List.append_assoc before, List.cons_append, ← hcs] at hbehind
      · rw [if_neg fun heq => hc ((hascii '{' (by decide)).mp heq)]
        have hat : placeholderAt vars c cs = none := by rw [placeholderAt, if_neg hc]
        rw [substitute_copies hat]
        exact hcopied.trans (by rw [List.append_assoc]; rfl)

theorem substituteBytes_eq (template : Text) (vars : Vars) :
    substituteBytes template vars = some (substitute template vars) :=
  substituteLoop_eq vars _ [] template [] (Nat.lt_succ_self _)

/-- No slice of the loop falls inside a character, and what it writes is the one result of
    one pass from the left: a value is placed as it is and never scanned again, and what is
    no placeholder with a value is copied. -/
theorem substitute_single_pass (template : Text) (vars : Vars) :
    ∃ out, substituteBytes template vars = some out ∧ Pass vars template out ∧
      ∀ out', Pass vars template out' → out' = out :=
  ⟨substitute template vars, substituteBytes_eq template vars, pass_substitute vars template,
    fun _ h => h.unique⟩

end CampusAuth.Login
