import CampusAuth.Lib.Text

/- IP addresses and the texts that denote them, as the standard library of the modelled
   language has them.

   A reader takes its text from the front and gives back the rest. An address without brackets
   consists of hexadecimal digits, colons and dots (`parseIp_chars`). -/
namespace CampusAuth.Lib

structure Ipv4Addr where
  a : UInt8
  b : UInt8
  c : UInt8
  d : UInt8
  deriving DecidableEq, Repr

/-- Eight groups of 16 bits. -/
structure Ipv6Addr where
  s0 : UInt16
  s1 : UInt16
  s2 : UInt16
  s3 : UInt16
  s4 : UInt16
  s5 : UInt16
  s6 : UInt16
  s7 : UInt16
  deriving DecidableEq, Repr

inductive IpAddr where
  | v4 (addr : Ipv4Addr)
  | v6 (addr : Ipv6Addr)
  deriving DecidableEq, Repr

structure SocketAddr where
  ip : IpAddr
  port : Nat
  deriving DecidableEq, Repr

namespace Ipv4Addr

/-- The address as a number: the order of the addresses. -/
def bits (v4 : Ipv4Addr) : Nat :=
  ((v4.a.toNat * 256 + v4.b.toNat) * 256 + v4.c.toNat) * 256 + v4.d.toNat

/-- In the range from `lo` to `hi`, both included. -/
def within (v4 lo hi : Ipv4Addr) : Bool :=
  decide (lo.bits ≤ v4.bits) && decide (v4.bits ≤ hi.bits)

def isUnspecified (v4 : Ipv4Addr) : Bool := v4 == ⟨0, 0, 0, 0⟩
def isLoopback (v4 : Ipv4Addr) : Bool := v4.a == 127
def isPrivate (v4 : Ipv4Addr) : Bool :=
  v4.a == 10 || (v4.a == 172 && 16 ≤ v4.b && v4.b ≤ 31) || (v4.a == 192 && v4.b == 168)
def isLinkLocal (v4 : Ipv4Addr) : Bool := v4.a == 169 && v4.b == 254
def isMulticast (v4 : Ipv4Addr) : Bool := 224 ≤ v4.a && v4.a ≤ 239
def isBroadcast (v4 : Ipv4Addr) : Bool := v4 == ⟨255, 255, 255, 255⟩

/-- Its two groups of 16 bits. -/
def groups (v4 : Ipv4Addr) : List UInt16 :=
  [v4.a.toUInt16 <<< 8 ||| v4.b.toUInt16, v4.c.toUInt16 <<< 8 ||| v4.d.toUInt16]

end Ipv4Addr

namespace Ipv6Addr

/-- The address with these groups in its last 32 bits. -/
def embedded (high low : UInt16) : Ipv4Addr :=
  ⟨(high >>> 8).toUInt8, high.toUInt8, (low >>> 8).toUInt8, low.toUInt8⟩

/-- The address an IPv4-mapped one stands for. -/
def toIpv4Mapped (v6 : Ipv6Addr) : Option Ipv4Addr :=
  if v6.s0 = 0 ∧ v6.s1 = 0 ∧ v6.s2 = 0 ∧ v6.s3 = 0 ∧ v6.s4 = 0 ∧ v6.s5 = 0xffff then
    some (embedded v6.s6 v6.s7)
  else none

def isUnspecified (v6 : Ipv6Addr) : Bool := v6 == ⟨0, 0, 0, 0, 0, 0, 0, 0⟩
def isLoopback (v6 : Ipv6Addr) : Bool := v6 == ⟨0, 0, 0, 0, 0, 0, 0, 1⟩
def isMulticast (v6 : Ipv6Addr) : Bool := v6.s0 &&& 0xff00 == 0xff00
def isUniqueLocal (v6 : Ipv6Addr) : Bool := v6.s0 &&& 0xfe00 == 0xfc00
def isUnicastLinkLocal (v6 : Ipv6Addr) : Bool := v6.s0 &&& 0xffc0 == 0xfe80

def ofGroups : List UInt16 → Option Ipv6Addr
  | [s0, s1, s2, s3, s4, s5, s6, s7] => some ⟨s0, s1, s2, s3, s4, s5, s6, s7⟩
  | _ => none

end Ipv6Addr

/-! ## The texts of addresses -/

/-- Takes something from the front of a text. -/
abbrev Reader (α : Type) := StateT Text Option α

def hexDigits : Text := "0123456789abcdef".toList

/-- The value of a digit to a base of at most 16. -/
def toDigit (radix : Nat) (c : Char) : Option Nat :=
  match hexDigits.findIdx? (· == c.toLower) with
  | some n => if n < radix then some n else none
  | none => none

def readChar (c : Char) : Reader Unit
  | first :: rest => if first = c then some ((), rest) else none
  | [] => none

/-- A number of at most `maxDigits` digits below `limit`; with `zeros` it may begin with them. -/
def readNumber (radix maxDigits limit : Nat) (zeros : Bool) : Reader Nat := fun text =>
  let digits := text.takeWhile fun c => (toDigit radix c).isSome
  let value := digits.foldl (fun n c => n * radix + (toDigit radix c).getD 0) 0
  if digits = [] ∨ maxDigits < digits.length ∨ limit ≤ value then none
  else if zeros = false ∧ digits.head? = some '0' ∧ 1 < digits.length then none
  else some (value, text.dropWhile fun c => (toDigit radix c).isSome)

def readOctet : Reader UInt8 := do return (← readNumber 10 3 256 false).toUInt8

def readIpv4 : Reader Ipv4Addr := do
  let a ← readOctet
  readChar '.'
  let b ← readOctet
  readChar '.'
  let c ← readOctet
  readChar '.'
  let d ← readOctet
  return ⟨a, b, c, d⟩

/-- A group behind its colon; the first group has none. -/
def readGroup {α : Type} (first : Bool) (read : Reader α) : Reader α := do
  if !first then readChar ':'
  read

/-- At most `room` groups, of which an IPv4 address at the end makes two. Reading stops at what
    is no group, and tells whether an IPv4 address was the last. -/
def readGroups : (room : Nat) → (first : Bool) → Text → List UInt16 × Bool × Text
  | 0, _, text => ([], false, text)
  | room + 1, first, text =>
    match if room = 0 then none else readGroup first readIpv4 text with
    | some (v4, rest) => (v4.groups, true, rest)
    | none =>
      match readGroup first (readNumber 16 4 65536 true) text with
      | some (g, rest) =>
        let r := readGroups room false rest
        (g.toUInt16 :: r.1, r.2)
      | none => ([], false, text)

def readIpv6 : Reader Ipv6Addr := fun text =>
  match readGroups 8 true text with
  | (head, ipv4, text) =>
    if head.length = 8 then (Ipv6Addr.ofGroups head).map (·, text)
    else if ipv4 then none
    else
      match (do readChar ':'; readChar ':' : Reader Unit) text with
      | none => none
      | some (_, text) =>
        match readGroups (7 - head.length) true text with
        | (tail, _, text) =>
          let zeros := List.replicate (8 - head.length - tail.length) 0
          (Ipv6Addr.ofGroups (head ++ zeros ++ tail)).map (·, text)

/-- The address that the whole text denotes. -/
def parseIp (text : Text) : Option IpAddr :=
  match readIpv4 text with
  | some (v4, rest) => if rest = [] then some (.v4 v4) else none
  | none =>
    match readIpv6 text with
    | some (v6, rest) => if rest = [] then some (.v6 v6) else none
    | none => none

example : parseIp "64:ff9b::10.0.0.1".toList = some (.v6 ⟨0x64, 0xff9b, 0, 0, 0, 0, 0xa00, 1⟩) := by
  decide

/-! ## What readers take -/

/-- A character of an address. -/
def IpChar (c : Char) : Prop := (toDigit 16 c).isSome ∨ c = ':' ∨ c = '.'

instance (c : Char) : Decidable (IpChar c) := inferInstanceAs (Decidable (_ ∨ _))

/-- `rest` is `text` without some characters of an address at the front. -/
def Takes (text rest : Text) : Prop := ∃ taken, text = taken ++ rest ∧ ∀ c ∈ taken, IpChar c

theorem Takes.refl (text : Text) : Takes text text := ⟨[], rfl, nofun⟩

theorem Takes.trans {text mid rest : Text} (h : Takes text mid) (h' : Takes mid rest) :
    Takes text rest := by
  obtain ⟨first, rfl, hfirst⟩ := h
  obtain ⟨second, rfl, hsecond⟩ := h'
  refine ⟨first ++ second, (List.append_assoc ..).symm, fun c hc => ?_⟩
  rcases List.mem_append.mp hc with hc | hc
  · exact hfirst c hc
  · exact hsecond c hc

def Reader.Plain {α : Type} (r : Reader α) : Prop :=
  ∀ text a rest, r text = some (a, rest) → Takes text rest

theorem plain_pure {α : Type} (a : α) : Reader.Plain (pure a) := by
  intro text b rest h
  cases h
  exact .refl text

theorem Reader.Plain.bind {α β : Type} {r : Reader α} {f : α → Reader β} (hr : r.Plain)
    (hf : ∀ a, (f a).Plain) : Reader.Plain (r >>= f) := by
  intro text b rest h
  obtain ⟨⟨a, mid⟩, hread, hrest⟩ := Option.bind_eq_some_iff.mp h
  exact (hr text a mid hread).trans (hf a mid b rest hrest)

theorem plain_readChar {c : Char} (hc : IpChar c) : (readChar c).Plain := by
  intro text a rest h
  unfold readChar at h
  split at h
  next first rest' =>
    split at h
    next heq =>
      cases h
      exact ⟨[first], rfl, by simpa [heq] using hc⟩
    · cases h
  · cases h

theorem toDigit_mono {radix : Nat} {c : Char} (h : (toDigit radix c).isSome) (hle : radix ≤ 16) :
    (toDigit 16 c).isSome := by
  unfold toDigit at h ⊢
  split at h
  next n _ =>
    split at h
    next hlt =>
      rw [if_pos (Nat.lt_of_lt_of_le hlt hle)]
      rfl
    · cases h
  · cases h

theorem plain_readNumber {radix maxDigits limit : Nat} {zeros : Bool} (hle : radix ≤ 16) :
    (readNumber radix maxDigits limit zeros).Plain := by
  intro text a rest h
  unfold readNumber at h
  dsimp only at h
  split at h
  · cases h
  split at h
  · cases h
  cases h
  refine ⟨text.takeWhile fun c => (toDigit radix c).isSome, ?_, fun c hc => .inl ?_⟩
  · exact List.takeWhile_append_dropWhile.symm
  · exact toDigit_mono (List.all_eq_true.mp List.all_takeWhile c hc) hle

theorem plain_readOctet : readOctet.Plain :=
  (plain_readNumber (by decide)).bind fun _ => plain_pure _

theorem plain_readIpv4 : readIpv4.Plain := by
  have hdot : (readChar '.').Plain := plain_readChar (by decide)
  refine plain_readOctet.bind fun a => hdot.bind fun _ => plain_readOctet.bind fun b => ?_
  refine hdot.bind fun _ => plain_readOctet.bind fun c => hdot.bind fun _ => ?_
  exact plain_readOctet.bind fun d => plain_pure _

theorem Reader.Plain.group {α : Type} {r : Reader α} (hr : r.Plain) (first : Bool) :
    (readGroup first r).Plain := by
  unfold readGroup
  cases first with
  | false => exact (plain_readChar (by decide)).bind fun _ => hr
  | true => exact (plain_pure ()).bind fun _ => hr

theorem takes_readGroups (room : Nat) (first : Bool) (text : Text) :
    Takes text (readGroups room first text).2.2 := by
  induction room generalizing first text with
  | zero => exact .refl text
  | succ room ih =>
    unfold readGroups
    split
    next v4 rest hread =>
      split at hread
      · cases hread
      · exact plain_readIpv4.group first text v4 rest hread
    next =>
      split
      next g rest hread =>
        exact ((plain_readNumber (by decide)).group first text g rest hread).trans (ih false rest)
      · exact .refl text

theorem plain_readIpv6 : readIpv6.Plain := by
  intro text v6 rest h
  have hhead := takes_readGroups 8 true text
  unfold readIpv6 at h
  dsimp only at h
  split at h
  · obtain ⟨v6', -, heq⟩ := Option.map_eq_some_iff.mp h
    cases heq
    exact hhead
  split at h
  · cases h
  split at h
  · cases h
  next mid hcolons =>
    have hcolon : (readChar ':').Plain := plain_readChar (by decide)
    obtain ⟨v6', -, heq⟩ := Option.map_eq_some_iff.mp h
    cases heq
    exact (hhead.trans ((hcolon.bind fun _ => hcolon) _ _ _ hcolons)).trans
      (takes_readGroups _ true mid)

theorem parseIp_chars {text : Text} {ip : IpAddr} (h : parseIp text = some ip) :
    ∀ c ∈ text, IpChar c := by
  have hwhole : Takes text [] := by
    unfold parseIp at h
    split at h
    next v4 rest hread =>
      split at h
      next hrest => exact hrest ▸ plain_readIpv4 text v4 rest hread
      · cases h
    · split at h
      next v6 rest hread =>
        split at h
        next hrest => exact hrest ▸ plain_readIpv6 text v6 rest hread
        · cases h
      · cases h
  obtain ⟨taken, rfl, htaken⟩ := hwhole
  simpa using htaken

end CampusAuth.Lib
