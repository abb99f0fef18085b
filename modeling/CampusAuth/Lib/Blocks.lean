import CampusAuth.Lib.Slices
import Mathlib.Data.Nat.Digits.Lemmas

/- Numbers encrypted block by block.

   A list of bytes is a number, the first byte the lowest (`fromBytesLE`). Raising to a power
   modulo `n` can be undone only below `n` (`recovered_iff`); what is written in base sixteen,
   one number after the other, can be read back (`hex_injective`, `joined_injective`). Steps that
   can be undone one by one are undone from the last to the first (`undo_range`). -/
namespace CampusAuth.Lib

def fromBytesLE (bs : List UInt8) : Nat := Nat.ofDigits 256 (bs.map UInt8.toNat)

/-- The list in pieces of `n`, the last one of what is left. -/
def chunks {α : Type} (n : Nat) (bs : List α) : List (List α) :=
  (List.range ((bs.length + n - 1) / n)).map fun k => (bs.drop (k * n)).take n

def modpow (m e n : Nat) : Nat := m ^ e % n

/-- `d` undoes `e` on what is left by a division by `n`. -/
def Inverts (n e d : Nat) : Prop := ∀ m < n, modpow (modpow m e n) d n = m

def hex (n : Nat) : Text := if n = 0 then ['0'] else (Nat.digits 16 n).reverse.map Nat.digitChar

def joined (ls : List Text) : Text := [' '].intercalate ls

/-! ## Bytes as a number -/

theorem fromBytesLE_append (a b : List UInt8) :
    fromBytesLE (a ++ b) = fromBytesLE a + 256 ^ a.length * fromBytesLE b := by
  rw [fromBytesLE, List.map_append, Nat.ofDigits_append, List.length_map]
  rfl

theorem fromBytesLE_zeros (k : Nat) : fromBytesLE (List.replicate k 0) = 0 := by
  rw [fromBytesLE, List.map_replicate]
  exact Nat.ofDigits_replicate_zero

theorem byte_digits (bs : List UInt8) : ∀ d ∈ bs.map UInt8.toNat, d < 256 := by
  intro d hd
  obtain ⟨b, -, rfl⟩ := List.mem_map.mp hd
  exact b.toNat_lt

theorem fromBytesLE_lt (bs : List UInt8) : fromBytesLE bs < 256 ^ bs.length := by
  have h := Nat.ofDigits_lt_base_pow_length (by decide : 1 < 256) (byte_digits bs)
  rwa [List.length_map] at h

theorem fromBytesLE_inj {a b : List UInt8} (hlen : a.length = b.length)
    (h : fromBytesLE a = fromBytesLE b) : a = b := by
  have hmap := Nat.ofDigits_inj_of_len_eq (by decide : 1 < 256)
    (by rw [List.length_map, List.length_map, hlen]) (byte_digits a) (byte_digits b) h
  exact List.map_injective_iff.mpr (fun x y => UInt8.toNat.inj) hmap

theorem fromBytesLE_eq_zero {bs : List UInt8} : fromBytesLE bs = 0 ↔ ∀ b ∈ bs, b = 0 := by
  constructor
  · intro h
    have hzero : bs = List.replicate bs.length 0 :=
      fromBytesLE_inj (List.length_replicate ..).symm (by rw [h, fromBytesLE_zeros])
    rw [hzero]
    exact fun b hb => (List.mem_replicate.mp hb).2
  · intro h
    rw [List.eq_replicate_of_mem h, fromBytesLE_zeros]

/-- Below a number of `k` bytes: nothing but zeros from byte `k` on. -/
theorem fromBytesLE_lt_iff {n k : Nat} (hn : n ≤ 256 ^ k) (bs : List UInt8) :
    fromBytesLE bs < n ↔ (∀ b ∈ bs.drop k, b = 0) ∧ fromBytesLE (bs.take k) < n := by
  have hsplit := fromBytesLE_append (bs.take k) (bs.drop k)
  rw [List.take_append_drop] at hsplit
  rw [← fromBytesLE_eq_zero]
  rcases Nat.lt_or_ge k bs.length with hk | hk
  · rw [List.length_take, Nat.min_eq_left (Nat.le_of_lt hk)] at hsplit
    constructor
    · intro h
      have hzero : fromBytesLE (bs.drop k) = 0 := by
        by_contra hne
        have : 256 ^ k * 1 ≤ 256 ^ k * fromBytesLE (bs.drop k) :=
          Nat.mul_le_mul_left _ (Nat.pos_of_ne_zero hne)
        omega
      exact ⟨hzero, by omega⟩
    · rintro ⟨hzero, h⟩
      rw [hsplit, hzero]
      omega
  · rw [List.take_of_length_le hk, List.drop_eq_nil_of_le hk]
    exact (and_iff_right rfl).symm

/-! ## Pieces -/

theorem mem_chunks {α : Type} {n : Nat} {bs c : List α} :
    c ∈ chunks n bs ↔ ∃ k < (bs.length + n - 1) / n, c = (bs.drop (k * n)).take n := by
  unfold chunks
  rw [List.mem_map]
  exact ⟨fun ⟨k, hk, heq⟩ => ⟨k, List.mem_range.mp hk, heq.symm⟩,
    fun ⟨k, hk, heq⟩ => ⟨k, List.mem_range.mpr hk, heq.symm⟩⟩

/-- The pieces of a list of whole pieces. -/
theorem mem_chunks_whole {α : Type} {n count : Nat} (hn : 0 < n) {bs c : List α}
    (hlen : bs.length = count * n) :
    c ∈ chunks n bs ↔ ∃ k < count, c = (bs.drop (k * n)).take n := by
  have hcount : (bs.length + n - 1) / n = count := by
    rw [hlen, Nat.add_sub_assoc hn, Nat.mul_comm, Nat.mul_add_div hn, Nat.div_eq_of_lt (by omega),
      Nat.add_zero]
  rw [mem_chunks, hcount]

theorem length_of_mem_chunks {α : Type} {n count : Nat} (hn : 0 < n) {bs c : List α}
    (hlen : bs.length = count * n) (h : c ∈ chunks n bs) : c.length = n := by
  obtain ⟨k, hk, rfl⟩ := (mem_chunks_whole hn hlen).mp h
  have hroom : (k + 1) * n ≤ count * n := Nat.mul_le_mul_right n hk
  rw [Nat.succ_mul] at hroom
  rw [List.length_take, List.length_drop, hlen]
  omega

/-! ## Powers -/

/-- What is decrypted is what was encrypted exactly below the modulus. -/
theorem recovered_iff {n e d : Nat} (hn : 0 < n) (hinv : Inverts n e d) (m : Nat) :
    modpow (modpow m e n) d n = m ↔ m < n :=
  ⟨fun h => h ▸ Nat.mod_lt _ hn, hinv m⟩

/-! ## What is written -/

theorem digitChar_injOn : ∀ a < 16, ∀ b < 16, Nat.digitChar a = Nat.digitChar b → a = b := by
  decide

theorem map_injOn {α β : Type} {f : α → β} : ∀ {l l' : List α},
    (∀ a ∈ l, ∀ b ∈ l', f a = f b → a = b) → l.map f = l'.map f → l = l'
  | [], [], _, _ => rfl
  | [], _ :: _, _, h => by cases h
  | _ :: _, [], _, h => by cases h
  | a :: l, b :: l', hinj, h => by
    rw [List.map_cons, List.map_cons, List.cons.injEq] at h
    rw [hinj a List.mem_cons_self b List.mem_cons_self h.1,
      map_injOn (fun x hx y hy => hinj x (List.mem_cons_of_mem a hx) y (List.mem_cons_of_mem b hy))
        h.2]

theorem hex_ne_zero_of_pos {n : Nat} (hn : n ≠ 0) :
    (Nat.digits 16 n).reverse.map Nat.digitChar ≠ ['0'] := by
  intro h
  have hlast := Nat.getLast_digit_ne_zero 16 hn
  have hdigits : (Nat.digits 16 n).reverse = [0] := by
    refine map_injOn ?_ (h.trans (rfl : ['0'] = [0].map Nat.digitChar))
    intro a ha b hb
    rw [List.mem_singleton] at hb
    subst hb
    exact digitChar_injOn a (Nat.digits_lt_base (by decide) (List.mem_reverse.mp ha)) 0 (by decide)
  rw [List.reverse_eq_iff] at hdigits
  rw [← Nat.ofDigits_digits 16 n, hdigits] at hn
  exact hn rfl

theorem hex_injective {a b : Nat} (h : hex a = hex b) : a = b := by
  unfold hex at h
  split at h <;> split at h
  next ha hb => rw [ha, hb]
  next ha hb => exact absurd h.symm (hex_ne_zero_of_pos hb)
  next ha hb => exact absurd h (hex_ne_zero_of_pos ha)
  next ha hb =>
    have hdigit : ∀ n, ∀ x ∈ (Nat.digits 16 n).reverse, x < 16 := fun n x hx =>
      Nat.digits_lt_base (by decide) (List.mem_reverse.mp hx)
    have hrev := map_injOn (fun x hx y hy => digitChar_injOn x (hdigit a x hx) y (hdigit b y hy)) h
    exact Nat.digits.injective 16 (List.reverse_injective hrev)

theorem space_not_in_hex (n : Nat) : ' ' ∉ hex n := by
  unfold hex
  split
  · decide
  · intro hmem
    obtain ⟨d, hd, heq⟩ := List.mem_map.mp hmem
    have hlt : d < 16 := Nat.digits_lt_base (by decide) (List.mem_reverse.mp hd)
    exact absurd heq ((by decide : ∀ d < 16, Nat.digitChar d ≠ ' ') d hlt)

theorem joined_injective {ls ls' : List Text} (hne : ls ≠ []) (hne' : ls' ≠ [])
    (hplain : ∀ l ∈ ls, ' ' ∉ l) (hplain' : ∀ l ∈ ls', ' ' ∉ l) (h : joined ls = joined ls') :
    ls = ls' := by
  have hback := List.splitOn_intercalate ' ' hplain hne
  have hback' := List.splitOn_intercalate ' ' hplain' hne'
  unfold joined at h
  rw [← hback, h, hback']

/-! ## Steps undone -/

/-- `I i` holds before step `i`, which cannot fail then and can be undone. -/
theorem undo_range {σ : Type*} (step : Nat → σ → Option σ) (undo : Nat → σ → σ)
    (I : Nat → σ → Prop) (n : Nat) {s : σ}
    (hstep : ∀ i s, i < n → I i s → ∃ t, step i s = some t ∧ I (i + 1) t ∧ undo i t = s)
    (h : I 0 s) :
    ∃ t, (List.range n).foldlM (fun s i => step i s) s = some t ∧ I n t ∧
      (List.range n).foldr undo t = s := by
  have hupto : ∀ k ≤ n, ∃ t, (List.range k).foldlM (fun s i => step i s) s = some t ∧ I k t ∧
      (List.range k).foldr undo t = s := by
    intro k hk
    induction k with
    | zero => exact ⟨s, rfl, h, rfl⟩
    | succ k ih =>
      obtain ⟨t, hrun, hI, hback⟩ := ih (Nat.le_of_succ_le hk)
      obtain ⟨u, hu, hI', hundo⟩ := hstep k t hk hI
      refine ⟨u, ?_, hI', ?_⟩
      · rw [List.range_succ, List.foldlM_append, hrun]
        simpa using hu
      · rw [List.range_succ, List.foldr_append]
        show (List.range k).foldr undo (undo k u) = s
        rw [hundo, hback]
  exact hupto n (Nat.le_refl n)

end CampusAuth.Lib
