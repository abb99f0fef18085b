import CampusAuth.Lib.Ip

/- Networks: the addresses that agree with one of theirs in their first bits.

   The tests of the standard library are tests for networks (`isPrivate_iff` and the others). -/
namespace CampusAuth.Lib

/-- The address as a number. -/
def Ipv6Addr.bits (v6 : Ipv6Addr) : Nat :=
  (((((((v6.s0.toNat * 65536 + v6.s1.toNat) * 65536 + v6.s2.toNat) * 65536 + v6.s3.toNat) * 65536 +
    v6.s4.toNat) * 65536 + v6.s5.toNat) * 65536 + v6.s6.toNat) * 65536 + v6.s7.toNat)

/-- Numbers of `width` bits that agree in the first `len`. -/
def SameNet (width len m n : Nat) : Prop := m / 2 ^ (width - len) = n / 2 ^ (width - len)

/-- A network, as `192.168.0.0/16`. -/
structure Net4 where
  base : Ipv4Addr
  len : Nat

structure Net6 where
  base : Ipv6Addr
  len : Nat

/-- By the number of the address. -/
def Net4.Has (net : Net4) (bits : Nat) : Prop := SameNet 32 net.len bits net.base.bits

def Net6.Has (net : Net6) (v6 : Ipv6Addr) : Prop := SameNet 128 net.len v6.bits net.base.bits

/-! ## Bits of groups -/

/-- The bits above the lowest `k`, where there are `k + m`. -/
theorem and_high {x k m : Nat} (h : x < 2 ^ (k + m)) :
    x &&& ((2 ^ m - 1) <<< k) = (x / 2 ^ k) <<< k := by
  refine Nat.eq_of_testBit_eq fun i => ?_
  rw [Nat.testBit_and, Nat.testBit_shiftLeft, Nat.testBit_shiftLeft, Nat.testBit_two_pow_sub_one,
    Nat.testBit_div_two_pow]
  by_cases hk : k ≤ i
  · rw [Nat.sub_add_cancel hk]
    by_cases hm : i - k < m
    · simp [hk, hm]
    · have hbig : x.testBit i = false :=
        Nat.testBit_lt_two_pow (Nat.lt_of_lt_of_le h (Nat.pow_le_pow_right (by decide) (by omega)))
      simp [hbig]
  · simp [hk]

/-- A test of the first `m` bits of a group. -/
theorem mask_iff {s mask value : UInt16} {k m : Nat} (hk : k + m = 16)
    (hmask : mask.toNat = (2 ^ m - 1) <<< k) {v : Nat} (hvalue : value.toNat = v <<< k) :
    (s &&& mask == value) = true ↔ s.toNat / 2 ^ k = v := by
  have hs : s.toNat < 2 ^ (k + m) := by
    rw [hk]
    exact s.toNat_lt
  rw [beq_iff_eq, ← UInt16.toNat_inj, UInt16.toNat_and, hmask, and_high hs, hvalue]
  constructor
  · intro h
    rw [Nat.shiftLeft_eq, Nat.shiftLeft_eq] at h
    exact Nat.eq_of_mul_eq_mul_right (Nat.two_pow_pos k) h
  · rintro rfl
    rfl

theorem bits_embedded (high low : UInt16) :
    (Ipv6Addr.embedded high low).bits = high.toNat * 65536 + low.toNat := by
  have hhigh := high.toNat_lt
  have hlow := low.toNat_lt
  have hfirst : ∀ x : UInt16, (x >>> 8).toUInt8.toNat = x.toNat / 256 := by
    intro x
    have hx := x.toNat_lt
    rw [UInt16.toNat_toUInt8, UInt16.toNat_shiftRight]
    show x.toNat >>> 8 % 256 = _
    rw [Nat.shiftRight_eq_div_pow]
    omega
  have hsecond : ∀ x : UInt16, x.toUInt8.toNat = x.toNat % 256 := fun x => UInt16.toNat_toUInt8 x
  simp only [Ipv6Addr.embedded, Ipv4Addr.bits, hfirst, hsecond]
  omega

/-! ## IPv4 -/

/-- A network is a range. -/
theorem Net4.within_iff (net : Net4) (hi v4 : Ipv4Addr)
    (hbase : net.base.bits % 2 ^ (32 - net.len) = 0)
    (hhi : hi.bits = net.base.bits + (2 ^ (32 - net.len) - 1)) :
    v4.within net.base hi = true ↔ net.Has v4.bits := by
  have hpos : 0 < 2 ^ (32 - net.len) := Nat.two_pow_pos _
  rw [Net4.Has, SameNet, Ipv4Addr.within, Bool.and_eq_true, decide_eq_true_eq, decide_eq_true_eq,
    hhi]
  generalize 2 ^ (32 - net.len) = size at hbase hpos ⊢
  obtain ⟨q, hq⟩ := Nat.dvd_of_mod_eq_zero hbase
  rw [hq, Nat.mul_div_cancel_left q hpos, Nat.div_eq_iff hpos, Nat.mul_comm,
    Nat.add_sub_assoc hpos]

theorem bits_inj {v w : Ipv4Addr} : v = w ↔ v.bits = w.bits := by
  have hbytes : ∀ x : Ipv4Addr, x.a.toNat < 256 ∧ x.b.toNat < 256 ∧ x.c.toNat < 256 ∧
      x.d.toNat < 256 := fun x => ⟨x.a.toNat_lt, x.b.toNat_lt, x.c.toNat_lt, x.d.toNat_lt⟩
  refine ⟨fun h => h ▸ rfl, fun h => ?_⟩
  have hv := hbytes v
  have hw := hbytes w
  obtain ⟨a, b, c, d⟩ := v
  obtain ⟨a', b', c', d'⟩ := w
  simp only [Ipv4Addr.bits] at h hv hw
  simp only [Ipv4Addr.mk.injEq, ← UInt8.toNat_inj]
  omega

theorem isUnspecified_iff (v4 : Ipv4Addr) :
    v4.isUnspecified = true ↔ Net4.Has ⟨⟨0, 0, 0, 0⟩, 32⟩ v4.bits := by
  rw [Ipv4Addr.isUnspecified, beq_iff_eq, bits_inj, Net4.Has, SameNet, Nat.sub_self, Nat.pow_zero,
    Nat.div_one, Nat.div_one]

theorem isBroadcast_iff (v4 : Ipv4Addr) :
    v4.isBroadcast = true ↔ Net4.Has ⟨⟨255, 255, 255, 255⟩, 32⟩ v4.bits := by
  rw [Ipv4Addr.isBroadcast, beq_iff_eq, bits_inj, Net4.Has, SameNet, Nat.sub_self, Nat.pow_zero,
    Nat.div_one, Nat.div_one]

theorem isLoopback_iff (v4 : Ipv4Addr) :
    v4.isLoopback = true ↔ Net4.Has ⟨⟨127, 0, 0, 0⟩, 8⟩ v4.bits := by
  have hb := v4.b.toNat_lt
  have hc := v4.c.toNat_lt
  have hd := v4.d.toNat_lt
  simp only [Ipv4Addr.isLoopback, beq_iff_eq, ← UInt8.toNat_inj, UInt8.reduceToNat, Net4.Has,
    SameNet, Ipv4Addr.bits]
  omega

theorem isMulticast_iff (v4 : Ipv4Addr) :
    v4.isMulticast = true ↔ Net4.Has ⟨⟨224, 0, 0, 0⟩, 4⟩ v4.bits := by
  have hb := v4.b.toNat_lt
  have hc := v4.c.toNat_lt
  have hd := v4.d.toNat_lt
  simp only [Ipv4Addr.isMulticast, Bool.and_eq_true, decide_eq_true_eq, UInt8.le_iff_toNat_le,
    UInt8.reduceToNat, Net4.Has, SameNet, Ipv4Addr.bits]
  omega

theorem isLinkLocal_iff (v4 : Ipv4Addr) :
    v4.isLinkLocal = true ↔ Net4.Has ⟨⟨169, 254, 0, 0⟩, 16⟩ v4.bits := by
  have hb := v4.b.toNat_lt
  have hc := v4.c.toNat_lt
  have hd := v4.d.toNat_lt
  simp only [Ipv4Addr.isLinkLocal, Bool.and_eq_true, beq_iff_eq, ← UInt8.toNat_inj,
    UInt8.reduceToNat, Net4.Has, SameNet, Ipv4Addr.bits]
  omega

theorem isPrivate_iff (v4 : Ipv4Addr) :
    v4.isPrivate = true ↔ Net4.Has ⟨⟨10, 0, 0, 0⟩, 8⟩ v4.bits ∨
      Net4.Has ⟨⟨172, 16, 0, 0⟩, 12⟩ v4.bits ∨ Net4.Has ⟨⟨192, 168, 0, 0⟩, 16⟩ v4.bits := by
  have hb := v4.b.toNat_lt
  have hc := v4.c.toNat_lt
  have hd := v4.d.toNat_lt
  simp only [Ipv4Addr.isPrivate, Bool.or_eq_true, Bool.and_eq_true, decide_eq_true_eq, beq_iff_eq,
    ← UInt8.toNat_inj, UInt8.le_iff_toNat_le, UInt8.reduceToNat, Net4.Has, SameNet, Ipv4Addr.bits]
  omega

/-! ## IPv6 -/

/-- The groups of an address are below 2^16. -/
theorem groups_lt (v6 : Ipv6Addr) : v6.s0.toNat < 65536 ∧ v6.s1.toNat < 65536 ∧
    v6.s2.toNat < 65536 ∧ v6.s3.toNat < 65536 ∧ v6.s4.toNat < 65536 ∧ v6.s5.toNat < 65536 ∧
    v6.s6.toNat < 65536 ∧ v6.s7.toNat < 65536 :=
  ⟨v6.s0.toNat_lt, v6.s1.toNat_lt, v6.s2.toNat_lt, v6.s3.toNat_lt, v6.s4.toNat_lt, v6.s5.toNat_lt,
    v6.s6.toNat_lt, v6.s7.toNat_lt⟩

theorem bits6_inj {v w : Ipv6Addr} : v = w ↔ v.bits = w.bits := by
  refine ⟨fun h => h ▸ rfl, fun h => ?_⟩
  have hv := groups_lt v
  have hw := groups_lt w
  obtain ⟨s0, s1, s2, s3, s4, s5, s6, s7⟩ := v
  obtain ⟨t0, t1, t2, t3, t4, t5, t6, t7⟩ := w
  simp only [Ipv6Addr.bits] at h hv hw
  simp only [Ipv6Addr.mk.injEq, ← UInt16.toNat_inj]
  omega

/-- A network of one address. -/
theorem Net6.has_single {v6 w : Ipv6Addr} : Net6.Has ⟨w, 128⟩ v6 ↔ v6 = w := by
  rw [bits6_inj, Net6.Has, SameNet, Nat.sub_self, Nat.pow_zero, Nat.div_one, Nat.div_one]

theorem isMulticast6_iff (v6 : Ipv6Addr) :
    v6.isMulticast = true ↔ Net6.Has ⟨⟨0xff00, 0, 0, 0, 0, 0, 0, 0⟩, 8⟩ v6 := by
  have hgroups := groups_lt v6
  rw [Ipv6Addr.isMulticast, mask_iff (k := 8) (m := 8) rfl rfl (v := 255) rfl, Net6.Has, SameNet]
  simp only [Ipv6Addr.bits, UInt16.reduceToNat]
  omega

theorem isUniqueLocal_iff (v6 : Ipv6Addr) :
    v6.isUniqueLocal = true ↔ Net6.Has ⟨⟨0xfc00, 0, 0, 0, 0, 0, 0, 0⟩, 7⟩ v6 := by
  have hgroups := groups_lt v6
  rw [Ipv6Addr.isUniqueLocal, mask_iff (k := 9) (m := 7) rfl rfl (v := 126) rfl, Net6.Has, SameNet]
  simp only [Ipv6Addr.bits, UInt16.reduceToNat]
  omega

theorem isUnicastLinkLocal_iff (v6 : Ipv6Addr) :
    v6.isUnicastLinkLocal = true ↔ Net6.Has ⟨⟨0xfe80, 0, 0, 0, 0, 0, 0, 0⟩, 10⟩ v6 := by
  have hgroups := groups_lt v6
  rw [Ipv6Addr.isUnicastLinkLocal, mask_iff (k := 6) (m := 10) rfl rfl (v := 1018) rfl, Net6.Has,
    SameNet]
  simp only [Ipv6Addr.bits, UInt16.reduceToNat]
  omega

end CampusAuth.Lib
