import CampusAuth.Lib.Base64
import CampusAuth.Lib.Blocks

/- The login data of the SRUN portal (`login/srun.rs`).

   The bytes are cut into words of 32 bits, with their number behind them, mixed in place, word after
   word and round after round, and written in base64 with an alphabet of the portal's. A word is
   changed by what its neighbours and the key make of it, so a round can be undone from its last
   word back to its first (`unxencode_xencode`). The source indexes lists; an index out of range is
   `none` here. -/
namespace CampusAuth.Login.Srun
open Lib

def srunAlphabet : Text := "LVoJPiCN2R8G90yg+hmFHuacZ1OWMnrsSTXkYpUq/3dlbfKwv6xztjI7DeBE45QA".toList

def fromLeBytes (chunk : List UInt8) : UInt32 := UInt32.ofNat (fromBytesLE chunk)

def toLeBytes (word : UInt32) : List UInt8 :=
  [word.toNat, word.toNat / 256, word.toNat / 65536, word.toNat / 16777216].map UInt8.ofNat

/-- Four bytes a word, the last one filled up with zeros. -/
def chunkWords : List UInt8 → List UInt32
  | [] => []
  | [a] => [fromLeBytes [a]]
  | [a, b] => [fromLeBytes [a, b]]
  | [a, b, c] => [fromLeBytes [a, b, c]]
  | a :: b :: c :: d :: input => fromLeBytes [a, b, c, d] :: chunkWords input

def words (input : List UInt8) (appendLen : Bool) : List UInt32 :=
  if appendLen then chunkWords input ++ [UInt32.ofNat input.length] else chunkWords input

/-- The variables of the loop. -/
structure Mixing where
  data : List UInt32
  previous : UInt32
  sum : UInt32

def selector (sum : UInt32) : Nat := (sum >>> 2 &&& 3).toNat

def mixed (sum k previous next : UInt32) : UInt32 :=
  ((previous >>> 5) ^^^ (next <<< 2)) + ((next >>> 3) ^^^ (previous <<< 4) ^^^ (sum ^^^ next)) +
    (k ^^^ previous)

def mixWord (key : List UInt32) (index : Nat) (s : Mixing) : Option Mixing := do
  let next ← s.data[(index + 1) % s.data.length]?
  let k ← key[(index &&& 3) ^^^ selector s.sum]?
  let word := (← s.data[index]?) + mixed s.sum k s.previous next
  return { s with data := s.data.set index word, previous := word }

def delta : UInt32 := 0x9e3779b9

def mixRound (key : List UInt32) (s : Mixing) : Option Mixing :=
  let s := { s with sum := s.sum + delta }
  (List.range s.data.length).foldlM (fun s index => mixWord key index s) s

def roundCount (n : Nat) : Nat := 6 + 52 / n

/-- `resize` to at least four words. -/
def keyOf (challenge : List UInt8) : List UInt32 :=
  words challenge false ++ List.replicate (4 - (words challenge false).length) 0

def xencode (info challenge : List UInt8) : Option (List UInt8) :=
  if info = [] then some []
  else do
    let data := words info true
    let previous ← data[data.length - 1]?
    let s ← (List.range (roundCount data.length)).foldlM
      (fun s _ => mixRound (keyOf challenge) s) { data, previous, sum := 0 }
    return s.data.flatMap toLeBytes

def encodeInfo (infoJson challenge : List UInt8) : Option (Except String Text) :=
  if infoJson.length > 64 * 1024 || challenge.length > 8 * 1024 then
    some (.error "深澜计算输入过大")
  else if challenge = [] then some (.error "深澜 challenge 不能为空")
  else
    match Base64.Alphabet.new srunAlphabet with
    | none => some (.error "深澜 Base64 字母表无效")
    | some alphabet =>
      (xencode infoJson challenge).map fun data =>
        .ok ("\x7bSRBX1\x7d".toList ++ Base64.encode alphabet data)

example : encodeInfo
    (bytes ("\x7b\"username\":\"u\",\"password\":\"p\",\"ip\":\"1.2.3.4\"," ++
      "\"acid\":1,\"enc_ver\":\"srun_bx1\"\x7d").toList) (bytes "abc".toList) =
    some (.ok ("\x7bSRBX1\x7dRszD8J8tEj+rl30RUjO0eE4LKu+T5BnmQhiPndo5wofC0U/EGeOyVeofh6PYn0dH" ++
      "pXPVmdVb1iUdjlHJYKfXg6dQzFC3zYYVrB4LpqDZ6HZ=").toList) := by
  decide +kernel

/-! ## Undoing the mixing -/

def unmixWord (key : List UInt32) (index : Nat) (s : Mixing) : Mixing :=
  let n := s.data.length
  let previous := s.data.getD ((index + n - 1) % n) 0
  let next := s.data.getD ((index + 1) % n) 0
  let k := key.getD ((index &&& 3) ^^^ selector s.sum) 0
  { s with
    data := s.data.set index (s.data.getD index 0 - mixed s.sum k previous next), previous }

def unmixRound (key : List UInt32) (s : Mixing) : Mixing :=
  let s := (List.range s.data.length).foldr (unmixWord key) s
  { s with sum := s.sum - delta }

/-- Before the word at `index`: the word behind it in the ring was the last one mixed. -/
structure Mixing.Before (n index : Nat) (s : Mixing) : Prop where
  length : s.data.length = n
  previous : s.data[(index + n - 1) % n]? = some s.previous

theorem key_index {index : Nat} {sum : UInt32} : (index &&& 3) ^^^ selector sum < 4 := by
  have hindex : index &&& 3 < 2 ^ 2 := Nat.and_lt_two_pow index (by decide)
  have hsum : selector sum < 2 ^ 2 := by
    rw [selector, UInt32.toNat_and]
    exact Nat.and_lt_two_pow _ (by decide)
  exact Nat.xor_lt_two_pow hindex hsum

theorem keyOf_length (challenge : List UInt8) : 4 ≤ (keyOf challenge).length := by
  rw [keyOf, List.length_append, List.length_replicate]
  omega

theorem ring_next {n index : Nat} (hn : 2 ≤ n) (h : index < n) :
    (index + 1) % n < n ∧ (index + 1) % n ≠ index := by
  refine ⟨Nat.mod_lt _ (by omega), ?_⟩
  rcases Nat.lt_or_ge (index + 1) n with hlt | hge
  · rw [Nat.mod_eq_of_lt hlt]
    omega
  · have heq : index + 1 = n := by omega
    rw [heq, Nat.mod_self]
    omega

theorem ring_previous {n index : Nat} (hn : 2 ≤ n) (h : index < n) :
    (index + n - 1) % n < n ∧ (index + n - 1) % n ≠ index := by
  refine ⟨Nat.mod_lt _ (by omega), ?_⟩
  cases index with
  | zero =>
    rw [Nat.mod_eq_of_lt (by omega)]
    omega
  | succ i =>
    have heq : i + 1 + n - 1 = i + n := by omega
    rw [heq, Nat.add_mod_right, Nat.mod_eq_of_lt (by omega)]
    omega

theorem mixWord_undo {key : List UInt32} (hkey : 4 ≤ key.length) {n index : Nat} (hn : 2 ≤ n)
    (hindex : index < n) {s : Mixing} (h : s.Before n index) :
    ∃ t, mixWord key index s = some t ∧ t.Before n (index + 1) ∧ unmixWord key index t = s := by
  obtain ⟨hnext, hnext'⟩ := ring_next hn hindex
  obtain ⟨-, hprev'⟩ := ring_previous hn hindex
  obtain ⟨data, previous, sum⟩ := s
  obtain ⟨rfl, hprev⟩ := h
  dsimp only at hn hindex hnext hnext' hprev hprev'
  obtain ⟨next, hget⟩ : ∃ next, data[(index + 1) % data.length]? = some next :=
    ⟨_, List.getElem?_eq_getElem hnext⟩
  obtain ⟨k, hk⟩ : ∃ k, key[(index &&& 3) ^^^ selector sum]? = some k :=
    ⟨_, List.getElem?_eq_getElem (Nat.lt_of_lt_of_le key_index hkey)⟩
  obtain ⟨word, hword⟩ : ∃ word, data[index]? = some word := ⟨_, List.getElem?_eq_getElem hindex⟩
  refine ⟨⟨data.set index (word + mixed sum k previous next), word + mixed sum k previous next, sum⟩,
    ?_, ⟨List.length_set, ?_⟩, ?_⟩
  · simp only [mixWord, hget, hk, hword]
    rfl
  · have hlast : (index + 1 + data.length - 1) % data.length = index := by
      have heq : index + 1 + data.length - 1 = index + data.length := by omega
      rw [heq, Nat.add_mod_right, Nat.mod_eq_of_lt hindex]
    rw [hlast, List.getElem?_set_self hindex]
  · have hsame : ∀ j, j ≠ index →
        (data.set index (word + mixed sum k previous next)).getD j 0 = data.getD j 0 := by
      intro j hj
      rw [List.getD_eq_getElem?_getD, List.getElem?_set_ne hj.symm, ← List.getD_eq_getElem?_getD]
    have hself : (data.set index (word + mixed sum k previous next)).getD index 0 =
        word + mixed sum k previous next := by
      rw [List.getD_eq_getElem?_getD, List.getElem?_set_self hindex, Option.getD_some]
    have hprevious : data.getD ((index + data.length - 1) % data.length) 0 = previous := by
      rw [List.getD_eq_getElem?_getD, hprev, Option.getD_some]
    have hnextD : data.getD ((index + 1) % data.length) 0 = next := by
      rw [List.getD_eq_getElem?_getD, hget, Option.getD_some]
    have hkD : key.getD ((index &&& 3) ^^^ selector sum) 0 = k := by
      rw [List.getD_eq_getElem?_getD, hk, Option.getD_some]
    have hback : data.set index word = data := by
      obtain ⟨hlt, hw⟩ := List.getElem?_eq_some_iff.mp hword
      rw [← hw, List.set_getElem_self]
    simp only [unmixWord, List.length_set, hsame _ hprev', hsame _ hnext', hself, hprevious,
      hnextD, hkD, List.set_set, UInt32.add_sub_cancel, hback]

/-- The variables between two rounds over `n` words. -/
def Mixing.Between (n : Nat) (s : Mixing) : Prop := s.Before n 0

theorem mixRound_undo {key : List UInt32} (hkey : 4 ≤ key.length) {n : Nat} (hn : 2 ≤ n)
    {s : Mixing} (h : s.Between n) :
    ∃ t, mixRound key s = some t ∧ t.Between n ∧ unmixRound key t = s := by
  have hstart : Mixing.Before n 0 { s with sum := s.sum + delta } := ⟨h.length, h.previous⟩
  obtain ⟨t, hrun, hend, hback⟩ := undo_range (mixWord key) (unmixWord key)
    (Mixing.Before n) n (fun i s hi hI => mixWord_undo hkey hn hi hI) hstart
  have hwrap : (n + n - 1) % n = (0 + n - 1) % n := by
    have heq : n + n - 1 = 0 + n - 1 + n := by omega
    rw [heq, Nat.add_mod_right]
  refine ⟨t, ?_, ⟨hend.length, hwrap ▸ hend.previous⟩, ?_⟩
  · rw [mixRound]
    dsimp only
    rw [h.length]
    exact hrun
  · rw [unmixRound, hend.length, hback]
    dsimp only
    rw [UInt32.add_sub_cancel]

/-! ## Words and bytes -/

theorem length_chunkWords (input : List UInt8) :
    (chunkWords input).length = (input.length + 3) / 4 := by
  induction input using chunkWords.induct with
  | case1 => rfl
  | case5 a b c d input ih =>
    rw [chunkWords, List.length_cons, ih]
    simp only [List.length_cons]
    omega
  | _ => simp [chunkWords]

theorem fromBytesLE_four (a b c d : UInt8) : fromBytesLE [a, b, c, d] =
    a.toNat + 256 * (b.toNat + 256 * (c.toNat + 256 * d.toNat)) := by
  simp [fromBytesLE, Nat.ofDigits]

theorem toLeBytes_fromLeBytes (a b c d : UInt8) :
    toLeBytes (fromLeBytes [a, b, c, d]) = [a, b, c, d] := by
  have ha := a.toNat_lt
  have hb := b.toNat_lt
  have hc := c.toNat_lt
  have hd := d.toNat_lt
  have hword : (fromLeBytes [a, b, c, d]).toNat =
      a.toNat + 256 * (b.toNat + 256 * (c.toNat + 256 * d.toNat)) := by
    rw [fromLeBytes, fromBytesLE_four, UInt32.toNat_ofNat']
    exact Nat.mod_eq_of_lt (by omega)
  rw [toLeBytes, hword]
  simp only [List.map_cons, List.map_nil]
  rw [Base64.byte_eq (a := a) (by omega), Base64.byte_eq (a := b) (by omega),
    Base64.byte_eq (a := c) (by omega), Base64.byte_eq (a := d) (by omega)]

theorem fromLeBytes_toLeBytes (w : UInt32) : fromLeBytes (toLeBytes w) = w := by
  have hw := w.toNat_lt
  refine UInt32.toNat_inj.mp ?_
  rw [fromLeBytes, toLeBytes]
  simp only [List.map_cons, List.map_nil]
  rw [fromBytesLE_four, UInt32.toNat_ofNat']
  simp only [UInt8.toNat_ofNat']
  omega

/-- Zeros fill a chunk up. -/
theorem fromLeBytes_short (chunk : List UInt8) (k : Nat) :
    fromLeBytes (chunk ++ List.replicate k 0) = fromLeBytes chunk := by
  rw [fromLeBytes, fromBytesLE_append, fromBytesLE_zeros]
  rfl

/-- The words hold the bytes, and zeros behind. -/
theorem prefix_chunkWords (input : List UInt8) :
    input <+: (chunkWords input).flatMap toLeBytes := by
  induction input using chunkWords.induct with
  | case1 => exact List.prefix_rfl
  | case2 a =>
    rw [chunkWords, List.flatMap_singleton, ← fromLeBytes_short [a] 3]
    exact ⟨[0, 0, 0], (toLeBytes_fromLeBytes a 0 0 0).symm⟩
  | case3 a b =>
    rw [chunkWords, List.flatMap_singleton, ← fromLeBytes_short [a, b] 2]
    exact ⟨[0, 0], (toLeBytes_fromLeBytes a b 0 0).symm⟩
  | case4 a b c =>
    rw [chunkWords, List.flatMap_singleton, ← fromLeBytes_short [a, b, c] 1]
    exact ⟨[0], (toLeBytes_fromLeBytes a b c 0).symm⟩
  | case5 a b c d input ih =>
    obtain ⟨zeros, hzeros⟩ := ih
    rw [chunkWords, List.flatMap_cons, toLeBytes_fromLeBytes]
    exact ⟨zeros, by rw [← hzeros]; rfl⟩

theorem chunkWords_flatMap (data : List UInt32) :
    chunkWords (data.flatMap toLeBytes) = data := by
  induction data with
  | nil => rfl
  | cons w data ih =>
    rw [List.flatMap_cons]
    show fromLeBytes (toLeBytes w) :: chunkWords (data.flatMap toLeBytes) = w :: data
    rw [ih, fromLeBytes_toLeBytes]

theorem length_flatMap_toLeBytes (data : List UInt32) :
    (data.flatMap toLeBytes).length = 4 * data.length := by
  induction data with
  | nil => rfl
  | cons w data ih =>
    rw [List.flatMap_cons, List.length_append, ih, List.length_cons]
    show 4 + 4 * data.length = 4 * (data.length + 1)
    omega

/-! ## Decoding -/

/-- The number of bytes, which the last word has up to 2^32 and the number of words up to four. -/
def byteCount (count : Nat) (length : UInt32) : Nat := 4 * count - (4 - length.toNat % 4) % 4

/-- The bytes before the word with their number. -/
def unwords (data : List UInt32) : List UInt8 :=
  (data.dropLast.flatMap toLeBytes).take (byteCount (data.length - 1) (data.getLastD 0))

theorem unwords_words (info : List UInt8) : unwords (words info true) = info := by
  have hlen := length_chunkWords info
  have hcount : byteCount ((words info true).length - 1) ((words info true).getLastD 0) =
      info.length := by
    rw [words, if_pos rfl, List.length_append, List.length_singleton, Nat.add_sub_cancel, hlen,
      List.getLastD_concat, byteCount, UInt32.toNat_ofNat']
    omega
  obtain ⟨zeros, hzeros⟩ := prefix_chunkWords info
  rw [unwords, hcount, words, if_pos rfl, List.dropLast_concat, ← hzeros, List.take_left]

def unxencode (data challenge : List UInt8) : List UInt8 :=
  if data = [] then []
  else
    let data := chunkWords data
    let rounds := roundCount data.length
    let s : Mixing :=
      { data, previous := data.getLastD 0, sum := UInt32.ofNat rounds * delta }
    unwords ((List.range rounds).foldr (fun _ => unmixRound (keyOf challenge)) s).data

/-- The alphabet of the portal is one. -/
def portalAlphabet : Base64.Alphabet := ⟨srunAlphabet, by decide, by decide, by decide⟩

theorem new_srunAlphabet : Base64.Alphabet.new srunAlphabet = some portalAlphabet := by
  unfold Base64.Alphabet.new
  rw [dif_pos ⟨portalAlphabet.length, portalAlphabet.nodup, portalAlphabet.unpadded⟩,
    if_pos (by decide)]
  rfl

def decodeInfo (out : Text) (challenge : List UInt8) : List UInt8 :=
  unxencode (Base64.decode portalAlphabet (out.drop 7)) challenge

theorem foldr_unmixWord_sum (key : List UInt32) (is : List Nat) (s : Mixing) :
    (is.foldr (unmixWord key) s).sum = s.sum := by
  induction is with
  | nil => rfl
  | cons i is ih => exact ih

theorem sum_of_unmixRound {key : List UInt32} {s t : Mixing} (h : unmixRound key t = s) :
    t.sum = s.sum + delta := by
  have hsum : (unmixRound key t).sum = t.sum - delta := by
    rw [unmixRound]
    dsimp only
    rw [foldr_unmixWord_sum]
  rw [← h, hsum, UInt32.sub_add_cancel]

/-- All rounds run, and are undone in the opposite order. -/
theorem rounds_undo {key : List UInt32} (hkey : 4 ≤ key.length) {n : Nat} (hn : 2 ≤ n)
    {s : Mixing} (h : s.Between n) (hsum : s.sum = 0) (rounds : Nat) :
    ∃ t, (List.range rounds).foldlM (fun s _ => mixRound key s) s = some t ∧ t.Between n ∧
      t.sum = UInt32.ofNat rounds * delta ∧
      (List.range rounds).foldr (fun _ => unmixRound key) t = s := by
  obtain ⟨t, hrun, ⟨hbetween, hend⟩, hback⟩ := undo_range
    (fun _ s => mixRound key s) (fun _ => unmixRound key)
    (fun i s => s.Between n ∧ s.sum = UInt32.ofNat i * delta) rounds
    (fun i s _ hI => by
      obtain ⟨t, hrun, hbetween, hback⟩ := mixRound_undo hkey hn hI.1
      refine ⟨t, hrun, ⟨hbetween, ?_⟩, hback⟩
      rw [sum_of_unmixRound hback, hI.2, UInt32.ofNat_add, UInt32.add_mul]
      exact congrArg (_ + ·) (UInt32.one_mul delta).symm)
    ⟨h, by rw [hsum]; exact (UInt32.zero_mul).symm⟩
  exact ⟨t, hrun, hbetween, hend, hback⟩

theorem words_length_two {info : List UInt8} (h : info ≠ []) : 2 ≤ (words info true).length := by
  have hpos := List.length_pos_iff.mpr h
  rw [words, if_pos rfl, List.length_append, length_chunkWords, List.length_singleton]
  omega

/-- No index is out of range, and the bytes come back. -/
theorem unxencode_xencode (info challenge : List UInt8) :
    ∃ data, xencode info challenge = some data ∧ unxencode data challenge = info := by
  by_cases hinfo : info = []
  · rw [hinfo]
    exact ⟨[], rfl, rfl⟩
  · have htwo := words_length_two hinfo
    have hlast : (words info true).length - 1 < (words info true).length := by omega
    have hprevious := List.getElem?_eq_getElem hlast
    have hstart : Mixing.Between (words info true).length
        { data := words info true, previous := (words info true)[(words info true).length - 1],
          sum := 0 } := by
      refine ⟨rfl, ?_⟩
      dsimp only
      rw [Nat.zero_add, Nat.mod_eq_of_lt hlast]
      exact hprevious
    obtain ⟨t, hrun, hend, hsum, hback⟩ := rounds_undo (keyOf_length challenge) htwo hstart rfl
      (roundCount (words info true).length)
    refine ⟨t.data.flatMap toLeBytes, ?_, ?_⟩
    · simp only [xencode, if_neg hinfo, hprevious, Option.bind_eq_bind, Option.bind_some, hrun]
      rfl
    · have hne : t.data.flatMap toLeBytes ≠ [] := by
        intro hnil
        have hlen := congrArg List.length hnil
        rw [length_flatMap_toLeBytes, hend.length, List.length_nil] at hlen
        omega
      have hlastD : t.data.getLastD 0 = t.previous := by
        have hget := hend.previous
        rw [Nat.zero_add, Nat.mod_eq_of_lt hlast, ← hend.length, ← List.getLast?_eq_getElem?] at hget
        rw [List.getLastD_eq_getLast?, hget, Option.getD_some]
      have hmix : (⟨t.data, t.previous, t.sum⟩ : Mixing) = t := rfl
      rw [unxencode, if_neg hne]
      dsimp only
      rw [chunkWords_flatMap, hend.length, hlastD, ← hsum, hmix, hback, unwords_words]

/-- The mixed bytes as they are written. -/
def written (data : List UInt8) : Text :=
  "\x7bSRBX1\x7d".toList ++ Base64.encode portalAlphabet data

theorem decodeInfo_written {data info challenge : List UInt8}
    (h : unxencode data challenge = info) : decodeInfo (written data) challenge = info := by
  have hdrop : (written data).drop 7 = Base64.encode portalAlphabet data := rfl
  rw [decodeInfo, hdrop, Base64.decode_encode, h]

theorem encodeInfo_cases (info challenge : List UInt8) :
    (∃ e, encodeInfo info challenge = some (.error e)) ∨
      ∃ data, xencode info challenge = some data ∧
        encodeInfo info challenge = some (.ok (written data)) := by
  obtain ⟨data, hdata, -⟩ := unxencode_xencode info challenge
  unfold encodeInfo
  split
  · exact .inl ⟨_, rfl⟩
  · split
    · exact .inl ⟨_, rfl⟩
    · rw [new_srunAlphabet]
      exact .inr ⟨data, hdata, by rw [hdata]; rfl⟩

/-- No index is out of range, and the bytes can be read back from what is written. -/
theorem encode_info_lossless (challenge : List UInt8) :
    (∀ info, ∃ data, xencode info challenge = some data ∧
      decodeInfo (written data) challenge = info) ∧
    (∀ info, encodeInfo info challenge ≠ none) ∧
    (∀ info out, encodeInfo info challenge = some (.ok out) → decodeInfo out challenge = info) ∧
    ∀ info info' out, encodeInfo info challenge = some (.ok out) →
      encodeInfo info' challenge = some (.ok out) → info = info' := by
  have hback : ∀ info out, encodeInfo info challenge = some (.ok out) →
      decodeInfo out challenge = info := by
    intro info out hout
    obtain ⟨data, hdata, hundo⟩ := unxencode_xencode info challenge
    rcases encodeInfo_cases info challenge with ⟨e, he⟩ | ⟨data', hdata', hok⟩
    · rw [he] at hout
      cases hout
    · cases hdata.symm.trans hdata'
      rw [hok] at hout
      cases hout
      exact decodeInfo_written hundo
  refine ⟨fun info => ?_, fun info hnone => ?_, hback, fun info info' out h h' => ?_⟩
  · obtain ⟨data, hdata, hundo⟩ := unxencode_xencode info challenge
    exact ⟨data, hdata, decodeInfo_written hundo⟩
  · rcases encodeInfo_cases info challenge with ⟨e, he⟩ | ⟨data, -, hok⟩
    · rw [he] at hnone
      cases hnone
    · rw [hok] at hnone
      cases hnone
  · rw [← hback info out h, ← hback info' out h']

end CampusAuth.Login.Srun
