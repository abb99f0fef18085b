import Mathlib.Data.List.SplitOn
import CampusAuth.Lib.Dns
import CampusAuth.Lib.Ip
import CampusAuth.Lib.Slices

/- The client of the school's DNS (`network/egress.rs`).

   The bytes of an answer come from the network: every access that could leave them is an
   access of `Lib.Wire`, with a fault of its own. `url::Host::parse` is a parameter. -/
namespace CampusAuth.Network
open Lib Lib.Wire Lib.Dns

/-! ## Queries -/

/-- `url::Host` -/
inductive Host
  | domain (value : Text)
  | address (ip : IpAddr)

def trimEndDots (s : Text) : Text := (s.reverse.dropWhile (· == '.')).reverse

/-- The labels, each behind its length. -/
def pushLabels : List UInt8 → List Text → Except String (List UInt8)
  | query, [] => .ok query
  | query, label :: labels =>
    if label.isEmpty || 63 < (bytes label).length then .error "DNS 标签无效"
    else pushLabels (query ++ UInt8.ofNat (bytes label).length :: bytes label) labels

/-- The number of the query, recursion desired, one question. -/
def queryHeader (number : UInt16) : List UInt8 := be16 number.toNat ++ [1, 0, 0, 1, 0, 0, 0, 0, 0, 0]

/-- `dns_query`, `number` being the random one. -/
def dnsQuery (parseHost : Text → Except String Host) (number : UInt16) (host : Text) :
    Except String (List UInt8) := do
  match ← parseHost host with
  | .address _ => .error "DNS 域名无效"
  | .domain host =>
    if 253 < (bytes host).length then .error "DNS 域名过长"
    else do
      let query ← pushLabels (queryHeader number) ((trimEndDots host).splitOn '.')
      pure (query ++ [0, 0, 1, 0, 1])

/-! ## Answers -/

/-- The labels that are left of 128. -/
def skipLabels (data : List UInt8) : Nat → Nat → Read Nat
  | 0, _ => fail "DNS 名称过长"
  | left + 1, offset =>
    match data[offset]? with
    | none => fail "DNS 名称截断"
    | some length =>
      let offset := offset + 1
      if length = 0 then .ok offset
      else if length &&& 0xc0 = 0xc0 then
        match data[offset]? with
        | none => fail "DNS 指针截断"
        | some _ => .ok (offset + 1)
      else if 63 < length then fail "DNS 名称无效"
      else
        let offset := offset + length.toNat
        if data.length < offset then fail "DNS 标签截断" else skipLabels data left offset

/-- The offset behind the name. -/
def skipDnsName (data : List UInt8) (offset : Nat) : Read Nat := skipLabels data 128 offset

/-- Does the answer not belong to the query, or report an error? -/
def mismatched (query data : List UInt8) : Read Bool :=
  firstTrue [
    .ok (data.length < query.length),
    do return (← range data 0 2) != (← range query 0 2),
    do return (← index data 2) &&& 0x80 == 0,
    do return (← index data 3) &&& 15 != 0,
    do return (← range data 4 6) != [0, 1],
    do return (← range data 12 query.length) != (← range query 12 query.length)]

/-- The address in the data of a record. -/
def recordAddress (header value : List UInt8) (length port : Nat) : Read (List SocketAddr) :=
  if header.take 4 = [0, 1, 0, 1] ∧ length = 4 then do
    let a ← index value 0
    let b ← index value 1
    let c ← index value 2
    let d ← index value 3
    pure [⟨.v4 ⟨a, b, c, d⟩, port⟩]
  else .ok []

def parseRecords (data : List UInt8) (port : Nat) :
    Nat → Nat → List SocketAddr → Read (List SocketAddr)
  | 0, _, addrs => .ok addrs
  | left + 1, offset, addrs => do
    let offset ← skipDnsName data offset
    let header ← orElse "DNS 记录截断" (getRange data offset (offset + 10))
    let high ← index header 8
    let low ← index header 9
    let length := fromBe16 high low
    let value ← orElse "DNS 地址截断" (getRange data (offset + 10) (offset + 10 + length))
    let addr ← recordAddress header value length port
    parseRecords data port left (offset + (10 + length)) (addrs ++ addr)

/-- `parse_dns_answer` behind the test. -/
def parseMatching (query data : List UInt8) (port : Nat) : Read (List SocketAddr) := do
  let high ← index data 6
  let low ← index data 7
  let addrs ← parseRecords data port (fromBe16 high low) query.length []
  if addrs.isEmpty then fail "学校 DNS 未返回 IPv4 地址" else pure addrs

def parseDnsAnswer (query data : List UInt8) (port : Nat) : Read (List SocketAddr) := do
  let wrong ← mismatched query data
  if wrong then fail "学校 DNS 响应不匹配或解析失败" else parseMatching query data port

/-! ## Names -/

/-- The length of a label has none of the bits of a pointer. -/
theorem not_pointer : ∀ n < 64, UInt8.ofNat n &&& 0xc0 ≠ 0xc0 := by decide

theorem pointer_ne_zero {high : UInt8} (mark : high &&& 0xc0 = 0xc0) : high ≠ 0 := by
  rintro rfl
  exact absurd mark (by decide)

section
variable {data : List UInt8}

/-- One label is skipped, or the data ends within it. -/
theorem skipLabels_label (label : Label) (left offset : Nat)
    (hget : data[offset]? = some (UInt8.ofNat label.bytes.length)) :
    skipLabels data (left + 1) offset =
      if data.length < offset + 1 + label.bytes.length then fail "DNS 标签截断"
      else skipLabels data left (offset + 1 + label.bytes.length) := by
  have hlength := label.toNat_length
  have hzero : UInt8.ofNat label.bytes.length ≠ 0 := by
    intro h
    rw [h] at hlength
    exact absurd hlength.symm (Nat.pos_iff_ne_zero.mp label.pos)
  have hshort : ¬63 < UInt8.ofNat label.bytes.length := by
    rw [UInt8.lt_iff_toNat_lt, hlength]
    exact Nat.not_lt.mpr label.short
  rw [skipLabels, hget]
  dsimp only
  rw [if_neg hzero, if_neg (not_pointer _ (Nat.lt_succ_of_le label.short)), if_neg hshort, hlength]

theorem skipLabels_holds (ending : Ending) : ∀ (labels : List Label) (left offset : Nat),
    labels.length < left → Holds data offset (labelsWire labels ++ ending.wire) →
    skipLabels data left offset = .ok (offset + (labelsWire labels ++ ending.wire).length)
  | [], left + 1, offset, _, h => by
    rw [skipLabels]
    cases ending with
    | root =>
      have hget : data[offset]? = some 0 := h.get
      rw [hget]
      rfl
    | pointer high low mark =>
      have hget : data[offset]? = some high := h.get
      have hlow : data[offset + 1]? = some low := (Holds.append (a := [high]) h).2.get
      rw [hget]
      dsimp only
      rw [if_neg (pointer_ne_zero mark), if_pos mark, hlow]
      rfl
  | label :: labels, left + 1, offset, hleft, h => by
    have hwire : labelsWire (label :: labels) ++ ending.wire =
        label.wire ++ (labelsWire labels ++ ending.wire) := List.append_assoc _ _ _
    rw [hwire] at h ⊢
    obtain ⟨hlabel, hrest⟩ := h.append
    have hoffset : offset + label.wire.length = offset + 1 + label.bytes.length := by
      rw [Label.wire, List.length_cons]
      omega
    have hroom : ¬data.length < offset + 1 + label.bytes.length := by
      have hlength := hlabel.length
      omega
    have hsum : offset + label.wire.length + (labelsWire labels ++ ending.wire).length =
        offset + (label.wire ++ (labelsWire labels ++ ending.wire)).length := by
      simp only [List.length_append]
      omega
    rw [skipLabels_label label left offset hlabel.get, if_neg hroom, ← hoffset,
      skipLabels_holds ending labels left _ (Nat.lt_of_succ_lt_succ hleft) hrest, hsum]

theorem skipDnsName_holds (name : Name) {offset : Nat} (h : Holds data offset name.wire) :
    skipDnsName data offset = .ok (offset + name.wire.length) :=
  skipLabels_holds name.ending name.labels 128 offset (Nat.lt_succ_of_le name.few) h

/-- A name that is cut is no name. -/
theorem skipLabels_cut (ending : Ending) : ∀ (labels : List Label) (left offset : Nat),
    labels.length < left → Cut data offset (labelsWire labels ++ ending.wire) →
    ∃ message, skipLabels data left offset = fail message
  | [], left + 1, offset, _, h => by
    rw [skipLabels]
    cases ending with
    | root =>
      have hget : data[offset]? = none := h.get
      rw [hget]
      exact ⟨_, rfl⟩
    | pointer high low mark =>
      cases Cut.append (a := [high]) (b := [low]) h with
      | inl hhigh =>
        rw [hhigh.get]
        exact ⟨_, rfl⟩
      | inr hlow =>
        have hget : data[offset]? = some high := hlow.1.get
        have hnone : data[offset + 1]? = none := hlow.2.get
        rw [hget]
        dsimp only
        rw [if_neg (pointer_ne_zero mark), if_pos mark, hnone]
        exact ⟨_, rfl⟩
  | label :: labels, left + 1, offset, hleft, h => by
    have hwire : labelsWire (label :: labels) ++ ending.wire =
        label.wire ++ (labelsWire labels ++ ending.wire) := List.append_assoc _ _ _
    rw [hwire] at h
    have hoffset : offset + label.wire.length = offset + 1 + label.bytes.length := by
      rw [Label.wire, List.length_cons]
      omega
    cases h.append with
    | inl hcut =>
      cases Cut.append (a := [UInt8.ofNat label.bytes.length]) (b := label.bytes) hcut with
      | inl hlength =>
        rw [skipLabels, hlength.get]
        exact ⟨_, rfl⟩
      | inr hbytes =>
        have hend : data.length < offset + 1 + label.bytes.length := hbytes.2.length.2
        rw [skipLabels_label label left offset hbytes.1.get, if_pos hend]
        exact ⟨_, rfl⟩
    | inr hrest =>
      have hroom : ¬data.length < offset + 1 + label.bytes.length := by
        have hlength := hrest.1.length
        omega
      rw [skipLabels_label label left offset hrest.1.get, if_neg hroom, ← hoffset]
      exact skipLabels_cut ending labels left _ (Nat.lt_of_succ_lt_succ hleft) hrest.2

theorem skipDnsName_cut (name : Name) {offset : Nat} (h : Cut data offset name.wire) :
    ∃ message, skipDnsName data offset = fail message :=
  skipLabels_cut name.ending name.labels 128 offset (Nat.lt_succ_of_le name.few) h

/-! ## Records -/

/-- The addresses that a record stands for. -/
def recordAddrs (port : Nat) (record : Record) : List SocketAddr :=
  match record.internet with
  | some [a, b, c, d] => [⟨.v4 ⟨a, b, c, d⟩, port⟩]
  | _ => []

theorem header_take (record : Record) :
    record.header.take 4 = be16 record.rtype.toNat ++ be16 record.rclass.toNat := by
  rw [Record.header, List.append_assoc (be16 _ ++ be16 _)]
  rfl

theorem header_eq_internet (record : Record) :
    record.header.take 4 = [0, 1, 0, 1] ↔ record.rtype = typeA ∧ record.rclass = classIn := by
  rw [header_take]
  constructor
  · intro h
    have hone : ∀ n : UInt16, be16 n.toNat = [0, 1] → n = 1 := fun n hn =>
      UInt16.toNat_inj.mp (be16_injective n.toNat_lt (by decide) hn)
    have happend : be16 record.rtype.toNat ++ be16 record.rclass.toNat = [0, 1] ++ [0, 1] := h
    obtain ⟨htype, hclass⟩ := List.append_inj happend rfl
    exact ⟨hone _ htype, hone _ hclass⟩
  · rintro ⟨htype, hclass⟩
    rw [htype, hclass]
    rfl

theorem recordAddress_record (record : Record) (port : Nat) :
    recordAddress record.header record.data record.data.length port = .ok (recordAddrs port record) := by
  unfold recordAddress recordAddrs Record.internet
  by_cases h : record.rtype = typeA ∧ record.rclass = classIn
  · have hlength : record.data.length = 4 := record.address h.1 h.2
    rw [if_pos ⟨(header_eq_internet record).mpr h, hlength⟩, if_pos h]
    match hdata : record.data with
    | [a, b, c, d] => rfl
    | [] | [_] | [_, _] | [_, _, _] | _ :: _ :: _ :: _ :: _ :: _ =>
      rw [hdata] at hlength
      simp at hlength
  · rw [if_neg fun hboth => h ((header_eq_internet record).mp hboth.1), if_neg h]

/-- The two bytes of the length. -/
theorem header_length (record : Record) :
    ∃ high low, index record.header 8 = .ok high ∧ index record.header 9 = .ok low ∧
      fromBe16 high low = record.data.length := by
  have hlast : Holds record.header 8 (be16 record.data.length) :=
    ⟨be16 record.rtype.toNat ++ be16 record.rclass.toNat ++ record.ttl, [], by
      rw [Record.header, List.append_nil], by simp [record.fourBytes]⟩
  exact ⟨_, _, hlast.index, (Holds.append (a := [_]) hlast).2.index,
    fromBe16_be16 record.short⟩

theorem parseRecords_step (record : Record) {offset : Nat} (h : Holds data offset record.wire)
    (port left : Nat) (addrs : List SocketAddr) :
    parseRecords data port (left + 1) offset addrs =
      parseRecords data port left (offset + record.wire.length) (addrs ++ recordAddrs port record) := by
  obtain ⟨howner, hrest⟩ := h.append
  obtain ⟨hheader, hdata⟩ := hrest.append
  obtain ⟨high, low, hhigh, hlow, hlength⟩ := header_length record
  have hheader' : getRange data (offset + record.owner.wire.length)
      (offset + record.owner.wire.length + 10) = some record.header :=
    hheader.getRange (by rw [record.length_header])
  rw [record.length_header] at hdata
  have hdata' := hdata.getRange rfl
  have hoffset : offset + record.owner.wire.length + (10 + record.data.length) =
      offset + record.wire.length := by
    rw [Record.wire, List.length_append, List.length_append, record.length_header]
    omega
  rw [parseRecords, skipDnsName_holds record.owner howner]
  simp only [ok_bind, hheader', orElse_some, hhigh, hlow, hlength, hdata', recordAddress_record,
    hoffset]

theorem recordsWire_cons (record : Record) (records : List Record) :
    recordsWire (record :: records) = record.wire ++ recordsWire records := rfl

theorem parseRecords_holds (port : Nat) : ∀ (records : List Record) (offset : Nat)
    (addrs : List SocketAddr), Holds data offset (recordsWire records) →
    parseRecords data port records.length offset addrs =
      .ok (addrs ++ records.flatMap (recordAddrs port))
  | [], _, addrs, _ => by
    rw [List.flatMap_nil, List.append_nil]
    rfl
  | record :: records, offset, addrs, h => by
    rw [recordsWire_cons] at h
    obtain ⟨hrecord, hrest⟩ := h.append
    rw [List.length_cons, parseRecords_step record hrecord,
      parseRecords_holds port records _ _ hrest, List.flatMap_cons, List.append_assoc]

/-- A record that is cut ends the reading. -/
theorem parseRecords_cut_step (record : Record) {offset : Nat} (h : Cut data offset record.wire)
    (port left : Nat) (addrs : List SocketAddr) :
    ∃ message, parseRecords data port (left + 1) offset addrs = fail message := by
  obtain ⟨high, low, hhigh, hlow, hlength⟩ := header_length record
  rw [parseRecords]
  cases h.append with
  | inl howner =>
    obtain ⟨message, hmessage⟩ := skipDnsName_cut record.owner howner
    rw [hmessage]
    exact ⟨message, rfl⟩
  | inr hrest =>
    obtain ⟨howner, hrest⟩ := hrest
    rw [skipDnsName_holds record.owner howner, ok_bind]
    have hten : offset + record.owner.wire.length + 10 =
        offset + record.owner.wire.length + record.header.length := by rw [record.length_header]
    cases hrest.append with
    | inl hheader =>
      rw [hheader.getRange hten]
      exact ⟨_, rfl⟩
    | inr hdata =>
      obtain ⟨hheader, hdata⟩ := hdata
      rw [record.length_header] at hdata
      simp only [hheader.getRange hten, orElse_some, ok_bind, hhigh, hlow, hlength,
        hdata.getRange rfl, orElse_none, fail_bind]
      exact ⟨_, rfl⟩

theorem parseRecords_cut (port : Nat) : ∀ (records : List Record) (offset : Nat)
    (addrs : List SocketAddr), Cut data offset (recordsWire records) →
    ∃ message, parseRecords data port records.length offset addrs = fail message
  | [], _, _, h => by
    have hlength := h.length
    simp only [recordsWire, List.flatMap_nil, List.length_nil] at hlength
    omega
  | record :: records, offset, addrs, h => by
    rw [recordsWire_cons] at h
    rw [List.length_cons]
    cases h.append with
    | inl hrecord => exact parseRecords_cut_step record hrecord port _ addrs
    | inr hrest =>
      rw [parseRecords_step record hrest.1]
      exact parseRecords_cut port records _ _ hrest.2

/-! ## No access out of range -/

theorem skipLabels_safe (data : List UInt8) : ∀ (left offset : Nat),
    skipLabels data left offset ≠ .error .panic
  | 0, _ => by simp [skipLabels, fail]
  | left + 1, offset => by
    rw [skipLabels]
    cases data[offset]? with
    | none => simp [fail]
    | some length =>
      dsimp only
      split
      · simp
      split
      · cases data[offset + 1]? <;> simp [fail]
      split
      · simp [fail]
      split
      · simp [fail]
      · exact skipLabels_safe data left _

/-- A step that does not panic, and then one that does not. -/
theorem bind_safe {R R' : Type} {x : Read R} {f : R → Read R'} (hx : x ≠ .error .panic)
    (hf : ∀ r, x = .ok r → f r ≠ .error .panic) : (x >>= f) ≠ .error .panic := by
  cases x with
  | ok r => exact hf r rfl
  | error e => exact fun h => hx (congrArg Except.error (Except.error.inj h))

theorem orElse_safe {R : Type} (message : String) (r : Option R) :
    orElse message r ≠ .error .panic := by
  cases r <;> simp [fail]

theorem index_safe {α : Type} {l : List α} {i : Nat} (h : i < l.length) :
    index l i ≠ .error .panic := by
  rw [index_lt h]
  simp

theorem recordAddress_safe (header value : List UInt8) (port : Nat) :
    recordAddress header value value.length port ≠ .error .panic := by
  unfold recordAddress
  split
  next h =>
    exact bind_safe (index_safe (by omega)) fun _ _ => bind_safe (index_safe (by omega)) fun _ _ =>
      bind_safe (index_safe (by omega)) fun _ _ => bind_safe (index_safe (by omega)) fun _ _ =>
        fun hpanic => by cases hpanic
  next => simp

theorem length_of_orElse {α : Type} {l part : List α} {start stop : Nat} {message : String}
    (h : orElse message (getRange l start stop) = .ok part) : part.length = stop - start := by
  cases hrange : getRange l start stop with
  | none =>
    rw [hrange] at h
    cases h
  | some part' =>
    rw [hrange] at h
    cases h
    exact length_of_getRange hrange

theorem parseRecords_safe (data : List UInt8) (port : Nat) : ∀ (left offset : Nat)
    (addrs : List SocketAddr), parseRecords data port left offset addrs ≠ .error .panic
  | 0, _, _ => by simp [parseRecords]
  | left + 1, offset, addrs => by
    rw [parseRecords]
    refine bind_safe (skipLabels_safe data 128 offset) fun o _ => ?_
    refine bind_safe (orElse_safe _ _) fun header hheader => ?_
    have hten : header.length = 10 := by
      rw [length_of_orElse hheader]
      omega
    refine bind_safe (index_safe (by omega)) fun high _ => ?_
    refine bind_safe (index_safe (by omega)) fun low _ => ?_
    refine bind_safe (orElse_safe _ _) fun value hvalue => ?_
    have hlength : value.length = fromBe16 high low := by
      rw [length_of_orElse hvalue]
      omega
    rw [← hlength]
    exact bind_safe (recordAddress_safe header value port) fun addr _ =>
      parseRecords_safe data port left _ _

/-! ## The test -/

variable {query : List UInt8}

/-- Where all six tests can be made. -/
theorem mismatched_eq {number number' one question question' : List UInt8} {kind code : UInt8}
    (hlength : query.length ≤ data.length) (hnumber : range data 0 2 = .ok number)
    (hnumber' : range query 0 2 = .ok number') (hkind : index data 2 = .ok kind)
    (hcode : index data 3 = .ok code) (hone : range data 4 6 = .ok one)
    (hquestion : range data 12 query.length = .ok question)
    (hquestion' : range query 12 query.length = .ok question') :
    mismatched query data = .ok ([false, number != number', kind &&& 0x80 == 0, code &&& 15 != 0,
      one != [0, 1], question != question'].any (·)) := by
  have hshort : decide (data.length < query.length) = false :=
    decide_eq_false (Nat.not_lt.mpr hlength)
  rw [mismatched, hnumber, hnumber', hkind, hcode, hone, hquestion, hquestion', hshort,
    ← firstTrue_ok]
  rfl

theorem mismatched_long (hquery : 12 ≤ query.length) (hdata : query.length ≤ data.length) :
    ∃ wrong, mismatched query data = .ok wrong :=
  ⟨_, mismatched_eq hdata (range_ok (by omega) (by omega)) (range_ok (by omega) (by omega))
    (index_lt (by omega)) (index_lt (by omega)) (range_ok (by omega) (by omega))
    (range_ok hquery hdata) (range_ok hquery (Nat.le_refl _))⟩

theorem mismatched_short (h : data.length < query.length) : mismatched query data = .ok true := by
  rw [mismatched, decide_eq_true h]
  rfl

theorem parseDnsAnswer_safe (hquery : 12 ≤ query.length) (data : List UInt8) (port : Nat) :
    parseDnsAnswer query data port ≠ .error .panic := by
  unfold parseDnsAnswer
  by_cases hdata : data.length < query.length
  · rw [mismatched_short hdata]
    simp [fail]
  · obtain ⟨wrong, htest⟩ := mismatched_long hquery (Nat.not_lt.mp hdata)
    rw [htest, ok_bind]
    split
    · simp [fail]
    · refine bind_safe (index_safe (by omega)) fun high _ => ?_
      refine bind_safe (index_safe (by omega)) fun low _ => ?_
      refine bind_safe (parseRecords_safe data port _ _ _) fun addrs _ => ?_
      split
      · simp [fail]
      · exact fun hpanic => by cases hpanic

/-! ## Answers -/

/-- The header and the question of an answer pass the test, and its records are counted. -/
theorem parseDnsAnswer_matching (hquery : 12 ≤ query.length) (answer : Answer) {rest : List UInt8}
    (hdata : data = answer.header query ++ query.drop 12 ++ rest) (port : Nat) :
    parseDnsAnswer query data port = (do
      let addrs ← parseRecords data port answer.records.length query.length []
      if addrs.isEmpty then fail "学校 DNS 未返回 IPv4 地址" else pure addrs) := by
  have hheader := @Answer.length_header answer query (by omega)
  have hlength : query.length ≤ data.length := by
    rw [hdata, List.length_append, List.length_append, hheader, List.length_drop]
    omega
  have hwhole : Holds data 0 (query.take 2 ++ ([answer.kind, answer.code, 0, 1] ++
      (be16 answer.records.length ++ (answer.counts ++ query.drop 12)))) :=
    ⟨[], rest, by rw [hdata, Answer.header]; simp only [List.append_assoc, List.nil_append], rfl⟩
  have htwo : (query.take 2).length = 2 := by rw [List.length_take]; omega
  obtain ⟨hid, hwhole⟩ := hwhole.append
  rw [htwo, Nat.zero_add] at hwhole
  obtain ⟨hflags, hwhole⟩ := hwhole.append
  obtain ⟨hcount, hwhole⟩ := hwhole.append
  obtain ⟨-, hquestion⟩ := hwhole.append
  have hcode := (Holds.append (a := [_]) hflags).2.index
  have hone : range data 4 6 = .ok [0, 1] :=
    (Holds.append (a := [_, _]) (b := [0, 1]) hflags).2.range rfl
  have hstop : query.length = 0 + (2 + 4) + 2 + 4 + (query.drop 12).length := by
    rw [List.length_drop]
    omega
  rw [answer.twoCounts] at hquestion
  have htest := mismatched_eq hlength (hid.range (by rw [htwo]))
    (range_ok (by omega) (by omega)) hflags.index hcode hone (hquestion.range hstop)
    (range_ok hquery (Nat.le_refl _))
  have hresponse : (answer.kind &&& 0x80 == 0) = false := by
    rw [beq_eq_false_iff_ne]
    exact answer.response
  have hpass : mismatched query data = .ok false := by
    rw [htest, hresponse, answer.noError]
    simp
  have hhigh : index data 6 = .ok (UInt8.ofNat (answer.records.length / 256)) := hcount.index
  have hlow : index data 7 = .ok (UInt8.ofNat answer.records.length) :=
    (Holds.append (a := [_]) hcount).2.index
  rw [parseDnsAnswer, hpass, ok_bind, if_neg Bool.false_ne_true, parseMatching, hhigh, hlow]
  simp only [ok_bind, fromBe16_be16 answer.few]

/-- The addresses of an answer, in order. -/
def answerAddrs (port : Nat) (answer : Answer) : List SocketAddr :=
  answer.records.flatMap (recordAddrs port)

theorem length_question (hquery : 12 ≤ query.length) (answer : Answer) :
    (answer.header query ++ query.drop 12).length = query.length := by
  rw [List.length_append, answer.length_header (by omega), List.length_drop]
  omega

theorem parseDnsAnswer_wire (hquery : 12 ≤ query.length) (answer : Answer) (port : Nat) :
    parseDnsAnswer query (answer.wire query) port =
      if answerAddrs port answer = [] then fail "学校 DNS 未返回 IPv4 地址"
      else .ok (answerAddrs port answer) := by
  have hrecords : Holds (answer.wire query) query.length (recordsWire answer.records) :=
    ⟨_, answer.rest, rfl, length_question hquery answer⟩
  have hwire : answer.wire query =
      answer.header query ++ query.drop 12 ++ (recordsWire answer.records ++ answer.rest) :=
    List.append_assoc _ _ _
  rw [parseDnsAnswer_matching hquery answer hwire port,
    parseRecords_holds port answer.records _ [] hrecords, ok_bind, List.nil_append]
  show (if (answerAddrs port answer).isEmpty then fail "学校 DNS 未返回 IPv4 地址"
    else pure (answerAddrs port answer)) = _
  cases answerAddrs port answer with
  | nil => rfl
  | cons addr addrs => rfl

/-- An answer that is cut off is refused. -/
theorem parseDnsAnswer_cut (hquery : 12 ≤ query.length) (answer : Answer) (port : Nat) {n : Nat}
    (hrest : answer.rest = []) (hn : n < (answer.wire query).length) :
    ∃ message, parseDnsAnswer query ((answer.wire query).take n) port = fail message := by
  by_cases hshort : n < query.length
  · have htake : ((answer.wire query).take n).length < query.length :=
      Nat.lt_of_le_of_lt (List.length_take_le n _) hshort
    rw [parseDnsAnswer, mismatched_short htake]
    exact ⟨_, rfl⟩
  · -- header and question are whole, and a record is cut
    obtain ⟨m, rfl⟩ := Nat.exists_eq_add_of_le (Nat.not_lt.mp hshort)
    have hquestion := length_question hquery answer
    rw [Answer.wire, hrest, List.append_nil] at hn ⊢
    rw [List.length_append, hquestion] at hn
    rw [← hquestion, List.take_length_add_append]
    obtain ⟨message, hmessage⟩ := parseRecords_cut port answer.records _ []
      (cut_take (answer.header query ++ query.drop 12) (Nat.lt_of_add_lt_add_left hn))
    rw [parseDnsAnswer_matching hquery answer rfl port, ← hquestion, hmessage]
    exact ⟨message, rfl⟩

end

/-! ## What a query encodes -/

theorem pushLabels_ok : ∀ {labels : List Text} {query query' : List UInt8},
    pushLabels query labels = .ok query' → ∃ ls : List Label, query' = query ++ labelsWire ls ∧
      ls.length = labels.length ∧ ∀ label ∈ labels, label ≠ []
  | [], query, query', h => by
    cases h
    exact ⟨[], (List.append_nil _).symm, rfl, fun _ hl => absurd hl List.not_mem_nil⟩
  | label :: labels, query, query', h => by
    rw [pushLabels] at h
    split at h
    next => cases h
    next hfits =>
      rw [Bool.or_eq_true, not_or, List.isEmpty_iff, decide_eq_true_eq, Nat.not_lt] at hfits
      obtain ⟨ls, rfl, hlength, hlabels⟩ := pushLabels_ok h
      have hpos : 0 < (bytes label).length := by
        cases label with
        | nil => exact absurd rfl hfits.1
        | cons c label =>
          rw [length_bytes_cons]
          have hsize := c.utf8Size_pos
          omega
      refine ⟨⟨bytes label, hpos, hfits.2⟩ :: ls, ?_, by simp [hlength],
        List.forall_mem_cons.mpr ⟨hfits.1, hlabels⟩⟩
      simp [labelsWire, Label.wire]

/-- Labels that are not empty, with dots between them. -/
theorem length_intercalate {labels : List Text} (hlabels : ∀ label ∈ labels, label ≠ []) :
    2 * labels.length ≤ (['.'].intercalate labels).length + 1 := by
  induction labels with
  | nil => simp
  | cons label labels ih =>
    obtain ⟨hlabel, hrest⟩ := List.forall_mem_cons.mp hlabels
    have hpos : 0 < label.length := List.length_pos_iff.mpr hlabel
    cases labels with
    | nil =>
      simp only [List.intercalate, List.length_cons, List.length_nil, List.intersperse_singleton,
        List.flatten_cons, List.flatten_nil, List.append_nil]
      omega
    | cons next rest =>
      have hnext := ih hrest
      simp only [List.intercalate, List.intersperse_cons_cons, List.flatten_cons, List.length_append,
        List.length_cons, List.length_nil] at hnext ⊢
      omega

theorem length_le_bytes : ∀ s : Text, s.length ≤ (bytes s).length
  | [] => Nat.le_refl _
  | c :: s => by
    have hrest := length_le_bytes s
    have hsize := c.utf8Size_pos
    rw [length_bytes_cons, List.length_cons]
    omega

/-- The encoded name stands between the header and the type and class of the question. -/
theorem dnsQuery_ok {parseHost : Text → Except String Host} {number : UInt16} {host : Text}
    {query : List UInt8} (h : dnsQuery parseHost number host = .ok query) :
    ∃ name : Name, name.ending = .root ∧
      query = queryHeader number ++ name.wire ++ [0, 1, 0, 1] := by
  unfold dnsQuery at h
  cases hhost : parseHost host with
  | error e =>
    rw [hhost] at h
    cases h
  | ok parsed =>
    rw [hhost] at h
    cases parsed with
    | address ip => cases h
    | domain value =>
      dsimp only [bind, Except.bind] at h
      split at h
      next => cases h
      next hshort =>
        cases hpush : pushLabels (queryHeader number) ((trimEndDots value).splitOn '.') with
        | error e =>
          rw [hpush] at h
          cases h
        | ok pushed =>
          rw [hpush] at h
          cases h
          obtain ⟨ls, rfl, hlength, hlabels⟩ := pushLabels_ok hpush
          have htrim : (trimEndDots value).length ≤ value.length := by
            rw [trimEndDots, List.length_reverse]
            exact Nat.le_trans (List.dropWhile_sublist _).length_le (Nat.le_of_eq List.length_reverse)
          have hfew : ls.length ≤ 127 := by
            have hdots := length_intercalate hlabels
            rw [List.intercalate_splitOn] at hdots
            have hbytes := length_le_bytes value
            omega
          refine ⟨⟨ls, hfew, .root⟩, rfl, ?_⟩
          simp [Name.wire, Ending.wire]

theorem length_queryHeader (number : UInt16) : (queryHeader number).length = 12 := rfl

/-- The client finds in an answer exactly the addresses it carries, in order. -/
theorem school_dns (parseHost : Text → Except String Host) (number : UInt16) (host : Text)
    (query : List UInt8) (h : dnsQuery parseHost number host = .ok query) :
    (∀ data port, parseDnsAnswer query data port ≠ .error .panic) ∧
    (∃ wire, query = queryHeader number ++ wire ++ [0, 1, 0, 1] ∧ ∀ before behind,
      skipDnsName (before ++ wire ++ behind) before.length = .ok (before ++ wire).length) ∧
    (∀ (answer : Answer) (port : Nat), parseDnsAnswer query (answer.wire query) port =
      if answerAddrs port answer = [] then fail "学校 DNS 未返回 IPv4 地址"
      else .ok (answerAddrs port answer)) ∧
    ∀ (answer : Answer) (port n : Nat), answer.rest = [] → n < (answer.wire query).length →
      ∃ message, parseDnsAnswer query ((answer.wire query).take n) port = fail message := by
  obtain ⟨name, -, hname⟩ := dnsQuery_ok h
  have hquery : 12 ≤ query.length := by
    rw [hname, List.length_append, List.length_append, length_queryHeader]
    omega
  refine ⟨parseDnsAnswer_safe hquery, ⟨name.wire, hname, fun before behind => ?_⟩,
    parseDnsAnswer_wire hquery, fun answer port n => parseDnsAnswer_cut hquery answer port⟩
  rw [List.length_append]
  exact skipDnsName_holds name ⟨before, behind, rfl, rfl⟩

/-- A host that is a name already. -/
def portal : Text := "portal.example.edu".toList

def portalQuery : List UInt8 :=
  queryHeader 7 ++ [6, 112, 111, 114, 116, 97, 108, 7, 101, 120, 97, 109, 112, 108, 101, 3, 101, 100,
    117, 0] ++ [0, 1, 0, 1]

/-- The owner is a pointer to the question. -/
def portalRecord : Record where
  owner := ⟨[], by decide, .pointer 0xc0 12 (by decide)⟩
  rtype := typeA
  rclass := classIn
  ttl := [0, 0, 0, 30]
  data := [10, 2, 3, 4]
  fourBytes := rfl
  short := by decide
  address _ _ := rfl

def portalAnswer : Answer where
  kind := 0x81
  code := 0x80
  records := [portalRecord]
  counts := [0, 0, 0, 0]
  rest := []
  response := by decide
  noError := by decide
  few := by decide
  twoCounts := rfl

theorem school_dns_portal : parseDnsAnswer portalQuery (portalAnswer.wire portalQuery) 8080 =
    .ok [⟨.v4 ⟨10, 2, 3, 4⟩, 8080⟩] :=
  (school_dns (fun host => .ok (.domain host)) 7 portal portalQuery (by decide +kernel)).2.2.1
    portalAnswer 8080

end CampusAuth.Network
