import Mathlib.Data.Char
import Mathlib.Data.List.Sort
import Mathlib.Data.List.Destutter
import CampusAuth.Lib.Replace
import CampusAuth.Lib.Text

/- What an HTTP login shows of a response and how it hides the secrets
   (`login/http_login.rs`): the snippet of a body, the dictionary of secrets of an attempt
   and the masking of its entries. -/
namespace CampusAuth.Login
open Lib

/-! ## Snippets -/

/-- The most characters of a body that a message shows. -/
def snippetLen : Nat := 240

/-- `split_whitespace` and `join`. -/
def compact (body : Text) : Text := compactBy isWhitespace ' ' body

def truncateSnippet (body : Text) : Text :=
  let compact := compact body
  let s := compact.take snippetLen
  if snippetLen < compact.length then s ++ ['…'] else s

/-! ## The dictionary of secrets -/

/-- The length in bytes. -/
def byteLen (s : Text) : Nat := (s.map Char.utf8Size).sum

def hexDigit (n : Nat) : Char := (Nat.digitChar n).toUpper

/-- One byte in `application/x-www-form-urlencoded`. -/
def serializeByte (b : UInt8) : Text :=
  let c := Char.ofNat b.toNat
  if c.isAlphanum || c == '*' || c == '-' || c == '.' || c == '_' then [c]
  else if c == ' ' then ['+']
  else ['%', hexDigit (b.toNat / 16), hexDigit (b.toNat % 16)]

/-- `form_urlencoded::byte_serialize`. -/
def byteSerialize (value : Text) : Text :=
  (value.flatMap String.utf8EncodeChar).flatMap serializeByte

/-- The value and its encoding go into the dictionary. -/
def addSecret (secrets : List Text) (value : Text) : List Text :=
  if value.isEmpty then secrets
  else if byteSerialize value ≠ value then secrets ++ [value, byteSerialize value]
  else secrets ++ [value]

/-- The order of the dictionary: longer entries first, then by the characters. -/
def Precedes (left right : Text) : Prop :=
  byteLen right < byteLen left ∨ (byteLen left = byteLen right ∧ left ≤ right)

instance (left right : Text) : Decidable (Precedes left right) :=
  inferInstanceAs (Decidable (_ ∨ _))

/-- Sorts and drops repeated neighbours. -/
def normalizeSecrets (secrets : List Text) : List Text :=
  (secrets.insertionSort Precedes).destutter (· ≠ ·)

/-- A `BTreeMap`: its entries in the order of their keys. -/
abbrev Vars := List (Text × Text)

/-- The variables that are no secrets. -/
def publicVars : List Text := ["auth_url".toList, "local_ip".toList, "local_mac".toList]

def collectSecrets (vars : Vars) : List Text :=
  normalizeSecrets (vars.foldl (fun secrets v =>
    if v.1 ∈ publicVars then secrets else addSecret secrets v.2) [])

/-! ## Masking -/

/-- What is put in the place of a secret. -/
def mask : Text := ['*', '*', '*']

def redactText (text : Text) (secrets : List Text) : Text := replaceEach mask secrets text

def redactUrl (url : Text) (secrets : List Text) : Text := redactText url secrets

/-! ## Facts about the dictionary -/

theorem mask_ne_nil : mask ≠ [] := nofun

theorem mem_addSecret {secrets : List Text} {value s : Text} :
    s ∈ addSecret secrets value ↔
      s ∈ secrets ∨ (value ≠ [] ∧ (s = value ∨ s = byteSerialize value)) := by
  unfold addSecret
  split
  next h => simp [List.isEmpty_iff.mp h]
  next h =>
    have hne : value ≠ [] := by simpa using h
    split
    · simp [hne]
    next heq =>
      rw [ne_eq, not_not] at heq
      simp [hne, heq]

theorem serializeByte_ne_nil (b : UInt8) : serializeByte b ≠ [] := by
  unfold serializeByte
  dsimp only
  split
  · nofun
  · split <;> nofun

theorem byteSerialize_ne_nil {value : Text} (h : value ≠ []) : byteSerialize value ≠ [] := by
  obtain ⟨c, cs, rfl⟩ := List.exists_cons_of_ne_nil h
  have hc : String.utf8EncodeChar c ≠ [] := by
    rw [← List.length_pos_iff, String.length_utf8EncodeChar]
    exact Char.utf8Size_pos c
  obtain ⟨b, bs, hb⟩ := List.exists_cons_of_ne_nil hc
  rw [byteSerialize, List.flatMap_cons, hb, List.cons_append, List.flatMap_cons]
  exact List.append_ne_nil_of_left_ne_nil (serializeByte_ne_nil b) _

/-- No entry of the dictionary is empty. -/
theorem addSecret_ne_nil {secrets : List Text} (h : ∀ s ∈ secrets, s ≠ []) (value : Text) :
    ∀ s ∈ addSecret secrets value, s ≠ [] := by
  intro s hs
  rcases mem_addSecret.mp hs with hs | ⟨hne, rfl | rfl⟩
  · exact h s hs
  · exact hne
  · exact byteSerialize_ne_nil hne

theorem mem_destutter'_ne {a x : Text} (l : List Text) :
    x ∈ l.destutter' (· ≠ ·) a ↔ x = a ∨ x ∈ l := by
  induction l generalizing a with
  | nil => simp
  | cons b l ih =>
    by_cases hb : a ≠ b
    · rw [List.destutter'_cons_pos _ hb, List.mem_cons, ih, List.mem_cons]
    · rw [List.destutter'_cons_neg _ hb, ih, List.mem_cons]
      rw [ne_eq, not_not] at hb
      subst hb
      tauto

@[simp] theorem mem_normalizeSecrets {secrets : List Text} {s : Text} :
    s ∈ normalizeSecrets secrets ↔ s ∈ secrets := by
  rw [normalizeSecrets, ← List.mem_insertionSort Precedes (l := secrets)]
  cases secrets.insertionSort Precedes with
  | nil => rfl
  | cons a l => rw [List.destutter_cons', mem_destutter'_ne, List.mem_cons]

theorem precedes_total (a b : Text) : Precedes a b ∨ Precedes b a := by
  rcases Nat.lt_trichotomy (byteLen a) (byteLen b) with h | h | h
  · exact .inr (.inl h)
  · exact (le_total a b).imp (fun hle => .inr ⟨h, hle⟩) fun hle => .inr ⟨h.symm, hle⟩
  · exact .inl (.inl h)

theorem precedes_trans {a b c : Text} (hab : Precedes a b) (hbc : Precedes b c) :
    Precedes a c := by
  rcases hab with hab | ⟨hab, hle⟩ <;> rcases hbc with hbc | ⟨hbc, hle'⟩
  · exact .inl (hbc.trans hab)
  · exact .inl (hbc ▸ hab)
  · exact .inl (hab ▸ hbc)
  · exact .inr ⟨hab.trans hbc, hle.trans hle'⟩

theorem precedes_antisymm {a b : Text} (hab : Precedes a b) (hba : Precedes b a) : a = b := by
  rcases hab with hab | ⟨heq, hle⟩
  · rcases hba with hba | ⟨heq, -⟩ <;> omega
  · rcases hba with hba | ⟨-, hle'⟩
    · omega
    · exact le_antisymm hle hle'

instance : Std.Total Precedes := ⟨precedes_total⟩

instance : IsTrans Text Precedes := ⟨fun _ _ _ => precedes_trans⟩

/-- Strictly before in the dictionary. -/
def Before (left right : Text) : Prop := Precedes left right ∧ left ≠ right

instance : Trans Before Before Before where
  trans := fun ⟨hab, hne⟩ ⟨hbc, _⟩ =>
    ⟨precedes_trans hab hbc, fun heq => hne (precedes_antisymm hab (heq ▸ hbc))⟩

/-- The dictionary is in order and has no entry twice. -/
theorem normalizeSecrets_sorted (secrets : List Text) :
    (normalizeSecrets secrets).Pairwise Before := by
  have hsorted : (secrets.insertionSort Precedes).Pairwise Precedes :=
    List.pairwise_insertionSort Precedes secrets
  have hpre : (normalizeSecrets secrets).Pairwise Precedes :=
    hsorted.sublist (List.destutter_sublist _ _)
  have hchain : (normalizeSecrets secrets).IsChain (· ≠ ·) := List.isChain_destutter _ _
  have hle := List.isChain_iff_forall_rel_of_append_cons_cons.mp hpre.isChain
  have hne := List.isChain_iff_forall_rel_of_append_cons_cons.mp hchain
  have hbefore : (normalizeSecrets secrets).IsChain Before :=
    List.isChain_iff_forall_rel_of_append_cons_cons.mpr fun _ _ _ _ h => ⟨hle h, hne h⟩
  exact hbefore.pairwise

/-- Two ordered lists with the same entries are the same. -/
theorem eq_of_sorted {a b : List Text} (ha : a.Pairwise Before) (hb : b.Pairwise Before)
    (h : ∀ s, s ∈ a ↔ s ∈ b) : a = b := by
  have hperm : a.Perm b := by
    refine (List.perm_ext_iff_of_nodup ?_ ?_).mpr h
    · exact ha.imp And.right
    · exact hb.imp And.right
  exact hperm.eq_of_pairwise (fun x y _ _ hxy hyx => precedes_antisymm hxy.1 hyx.1) ha hb

end CampusAuth.Login
