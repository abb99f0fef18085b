import CampusAuth.Lib.Wire

/- The wire format of DNS names, records and answers.

   A name is a sequence of labels that ends with the root or with a pointer to another name; it
   has at most 127 labels. A record has an owner, a type, a class, a time to live and its data; an
   address of the internet has four bytes. An answer to a query of one question repeats its
   number and its question and goes on with its records. -/
namespace CampusAuth.Lib.Dns
open Wire

structure Label where
  bytes : List UInt8
  pos : 0 < bytes.length
  short : bytes.length ≤ 63

def Label.wire (label : Label) : List UInt8 := UInt8.ofNat label.bytes.length :: label.bytes

inductive Ending
  | root
  | pointer (high low : UInt8) (mark : high &&& 0xc0 = 0xc0)

def Ending.wire : Ending → List UInt8
  | .root => [0]
  | .pointer high low _ => [high, low]

def labelsWire (labels : List Label) : List UInt8 := labels.flatMap Label.wire

structure Name where
  labels : List Label
  few : labels.length ≤ 127
  ending : Ending

def Name.wire (name : Name) : List UInt8 := labelsWire name.labels ++ name.ending.wire

/-- Types and classes of records. -/
def typeA : UInt16 := 1

def classIn : UInt16 := 1

structure Record where
  owner : Name
  rtype : UInt16
  rclass : UInt16
  ttl : List UInt8
  data : List UInt8
  fourBytes : ttl.length = 4
  short : data.length < 65536
  address : rtype = typeA → rclass = classIn → data.length = 4

/-- Type, class, time to live and length of the data. -/
def Record.header (record : Record) : List UInt8 :=
  be16 record.rtype.toNat ++ be16 record.rclass.toNat ++ record.ttl ++ be16 record.data.length

def Record.wire (record : Record) : List UInt8 :=
  record.owner.wire ++ (record.header ++ record.data)

/-- The data of an address of the internet. -/
def Record.internet (record : Record) : Option (List UInt8) :=
  if record.rtype = typeA ∧ record.rclass = classIn then some record.data else none

def recordsWire (records : List Record) : List UInt8 := records.flatMap Record.wire

/-- An answer: a response without an error code, to one question. -/
structure Answer where
  /-- The byte with the bit of a response. -/
  kind : UInt8
  /-- The byte with the error code. -/
  code : UInt8
  records : List Record
  /-- How many records stand in the other sections. -/
  counts : List UInt8
  /-- The other sections. -/
  rest : List UInt8
  response : kind &&& 0x80 ≠ 0
  noError : code &&& 15 = 0
  few : records.length < 65536
  twoCounts : counts.length = 4

/-- The first twelve bytes of an answer to a query. -/
def Answer.header (answer : Answer) (query : List UInt8) : List UInt8 :=
  query.take 2 ++ [answer.kind, answer.code, 0, 1] ++ be16 answer.records.length ++ answer.counts

/-- Header, question and records. -/
def Answer.wire (answer : Answer) (query : List UInt8) : List UInt8 :=
  answer.header query ++ query.drop 12 ++ recordsWire answer.records ++ answer.rest

/-! ## Lengths -/

@[simp] theorem length_be16 (n : Nat) : (be16 n).length = 2 := rfl

theorem Record.length_header (record : Record) : record.header.length = 10 := by
  simp [Record.header, record.fourBytes]

theorem Answer.length_header (answer : Answer) {query : List UInt8} (h : 2 ≤ query.length) :
    (answer.header query).length = 12 := by
  simp [Answer.header, answer.twoCounts, List.length_take, Nat.min_eq_left h]

theorem Label.toNat_length (label : Label) :
    (UInt8.ofNat label.bytes.length).toNat = label.bytes.length :=
  UInt8.toNat_ofNat_of_lt' (Nat.lt_of_le_of_lt label.short (by decide))

end CampusAuth.Lib.Dns
