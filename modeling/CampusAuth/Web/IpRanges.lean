import CampusAuth.Lib.Cidr
import CampusAuth.Web.Ssrf

/- Which addresses are restricted (`web/ssrf.rs`, `is_restricted_ip`).

   The documentation names networks; the source compares groups, masks bits and looks into the
   addresses that carry another one. The two agree everywhere (`restricted_iff`) but in the discard
   prefix `100::/64`, of which the source knows its first address only. -/
namespace CampusAuth.Web
open Lib

/-! ## What the documentation names -/

def restrictedNets4 : List Net4 :=
  [⟨⟨10, 0, 0, 0⟩, 8⟩, ⟨⟨172, 16, 0, 0⟩, 12⟩, ⟨⟨192, 168, 0, 0⟩, 16⟩, ⟨⟨127, 0, 0, 0⟩, 8⟩,
    ⟨⟨0, 0, 0, 0⟩, 32⟩, ⟨⟨224, 0, 0, 0⟩, 4⟩, ⟨⟨169, 254, 0, 0⟩, 16⟩, ⟨⟨255, 255, 255, 255⟩, 32⟩,
    ⟨⟨0, 0, 0, 0⟩, 8⟩, ⟨⟨100, 64, 0, 0⟩, 10⟩, ⟨⟨192, 0, 2, 0⟩, 24⟩, ⟨⟨198, 51, 100, 0⟩, 24⟩,
    ⟨⟨203, 0, 113, 0⟩, 24⟩, ⟨⟨198, 18, 0, 0⟩, 15⟩, ⟨⟨240, 0, 0, 0⟩, 4⟩]

/-- By the number of the address. -/
def Restricted4 (bits : Nat) : Prop := ∃ net ∈ restrictedNets4, net.Has bits

def discardOnly : Net6 := ⟨⟨0x100, 0, 0, 0, 0, 0, 0, 0⟩, 64⟩

def restrictedNets6 : List Net6 :=
  [discardOnly, ⟨⟨0, 0, 0, 0, 0, 0, 0, 1⟩, 128⟩, ⟨⟨0, 0, 0, 0, 0, 0, 0, 0⟩, 128⟩,
    ⟨⟨0xff00, 0, 0, 0, 0, 0, 0, 0⟩, 8⟩, ⟨⟨0xfc00, 0, 0, 0, 0, 0, 0, 0⟩, 7⟩,
    ⟨⟨0xfe80, 0, 0, 0, 0, 0, 0, 0⟩, 10⟩, ⟨⟨0x2001, 2, 0, 0, 0, 0, 0, 0⟩, 48⟩,
    ⟨⟨0x2001, 0xdb8, 0, 0, 0, 0, 0, 0⟩, 32⟩]

def mapped : Net6 := ⟨⟨0, 0, 0, 0, 0, 0xffff, 0, 0⟩, 96⟩
def nat64 : Net6 := ⟨⟨0x64, 0xff9b, 0, 0, 0, 0, 0, 0⟩, 96⟩
def sixToFour : Net6 := ⟨⟨0x2002, 0, 0, 0, 0, 0, 0, 0⟩, 16⟩

/-- In a restricted network, or with a restricted IPv4 address in its bits. -/
def Restricted : IpAddr → Prop
  | .v4 v4 => Restricted4 v4.bits
  | .v6 v6 =>
    (∃ net ∈ restrictedNets6, net.Has v6) ∨
      (mapped.Has v6 ∨ nat64.Has v6) ∧ Restricted4 (v6.bits % 2 ^ 32) ∨
      sixToFour.Has v6 ∧ Restricted4 (v6.bits / 2 ^ 80 % 2 ^ 32)

/-! ## IPv4 -/

/-- The tests one after the other, as networks. -/
theorem isRestrictedIpv4_iff (v4 : Ipv4Addr) :
    isRestrictedIpv4 v4 = true ↔ Restricted4 v4.bits := by
  have hthis := Net4.within_iff ⟨⟨0, 0, 0, 0⟩, 8⟩ ⟨0, 255, 255, 255⟩ v4 (by decide) (by decide)
  have hshared := Net4.within_iff ⟨⟨100, 64, 0, 0⟩, 10⟩ ⟨100, 127, 255, 255⟩ v4 (by decide)
    (by decide)
  have htest1 := Net4.within_iff ⟨⟨192, 0, 2, 0⟩, 24⟩ ⟨192, 0, 2, 255⟩ v4 (by decide) (by decide)
  have htest2 := Net4.within_iff ⟨⟨198, 51, 100, 0⟩, 24⟩ ⟨198, 51, 100, 255⟩ v4 (by decide)
    (by decide)
  have htest3 := Net4.within_iff ⟨⟨203, 0, 113, 0⟩, 24⟩ ⟨203, 0, 113, 255⟩ v4 (by decide)
    (by decide)
  have hbench := Net4.within_iff ⟨⟨198, 18, 0, 0⟩, 15⟩ ⟨198, 19, 255, 255⟩ v4 (by decide)
    (by decide)
  have hhigh := Net4.within_iff ⟨⟨240, 0, 0, 0⟩, 4⟩ ⟨255, 255, 255, 255⟩ v4 (by decide) (by decide)
  simp only [Restricted4, restrictedNets4, List.exists_mem_cons_iff, List.not_mem_nil, false_and, exists_false,
    or_false]
  rw [isRestrictedIpv4]
  simp only [Bool.or_eq_true]
  rw [isPrivate_iff, isLoopback_iff, isUnspecified_iff, isMulticast_iff, isLinkLocal_iff,
    isBroadcast_iff, hthis, hshared, htest1, htest2, htest3, hbench, hhigh]
  simp only [or_assoc]

/-! ## IPv6 -/

theorem mapped_iff (v6 : Ipv6Addr) : mapped.Has v6 ↔
    v6.s0 = 0 ∧ v6.s1 = 0 ∧ v6.s2 = 0 ∧ v6.s3 = 0 ∧ v6.s4 = 0 ∧ v6.s5 = 0xffff := by
  have hgroups := groups_lt v6
  simp only [mapped, Net6.Has, SameNet, Ipv6Addr.bits, UInt16.reduceToNat, ← UInt16.toNat_inj]
  omega

theorem nat64_iff (v6 : Ipv6Addr) : nat64.Has v6 ↔
    v6.s0 = 0x0064 ∧ v6.s1 = 0xff9b ∧ v6.s2 = 0 ∧ v6.s3 = 0 ∧ v6.s4 = 0 ∧ v6.s5 = 0 := by
  have hgroups := groups_lt v6
  simp only [nat64, Net6.Has, SameNet, Ipv6Addr.bits, UInt16.reduceToNat, ← UInt16.toNat_inj]
  omega

theorem sixToFour_iff (v6 : Ipv6Addr) : sixToFour.Has v6 ↔ v6.s0 = 0x2002 := by
  have hgroups := groups_lt v6
  simp only [sixToFour, Net6.Has, SameNet, Ipv6Addr.bits, UInt16.reduceToNat, ← UInt16.toNat_inj]
  omega

theorem discardOnly_iff (v6 : Ipv6Addr) : discardOnly.Has v6 ↔
    v6.s0 = 0x100 ∧ v6.s1 = 0 ∧ v6.s2 = 0 ∧ v6.s3 = 0 := by
  have hgroups := groups_lt v6
  simp only [discardOnly, Net6.Has, SameNet, Ipv6Addr.bits, UInt16.reduceToNat, ← UInt16.toNat_inj]
  omega

theorem benchmarking_iff (v6 : Ipv6Addr) :
    (v6.s0 == 0x2001 && v6.s1 == 0x0002 && v6.s2 == 0) = true ↔
      Net6.Has ⟨⟨0x2001, 2, 0, 0, 0, 0, 0, 0⟩, 48⟩ v6 := by
  have hgroups := groups_lt v6
  simp only [Bool.and_eq_true, beq_iff_eq, Net6.Has, SameNet, Ipv6Addr.bits, UInt16.reduceToNat,
    ← UInt16.toNat_inj]
  omega

theorem documentation_iff (v6 : Ipv6Addr) : (v6.s0 == 0x2001 && v6.s1 == 0x0db8) = true ↔
    Net6.Has ⟨⟨0x2001, 0xdb8, 0, 0, 0, 0, 0, 0⟩, 32⟩ v6 := by
  have hgroups := groups_lt v6
  simp only [Bool.and_eq_true, beq_iff_eq, Net6.Has, SameNet, Ipv6Addr.bits, UInt16.reduceToNat,
    ← UInt16.toNat_inj]
  omega

/-- Where the first group of an address in the other networks can be. -/
theorem first_group {v6 : Ipv6Addr} {net : Net6} (hnet : net ∈ restrictedNets6.tail)
    (h : net.Has v6) : v6.s0.toNat = 0 ∧ v6.s5.toNat = 0 ∨ v6.s0.toNat = 0x2001 ∨
      0xfc00 ≤ v6.s0.toNat := by
  have hgroups := groups_lt v6
  simp only [restrictedNets6, List.tail_cons, List.mem_cons, List.not_mem_nil, or_false] at hnet
  rcases hnet with rfl | rfl | rfl | rfl | rfl | rfl | rfl <;>
    · simp only [Net6.Has, SameNet, Ipv6Addr.bits, UInt16.reduceToNat] at h
      omega

/-- What is left of the source's tests for an address that carries no other one. -/
theorem tests6_iff (v6 : Ipv6Addr) :
    (v6.isLoopback || v6.isUnspecified || v6.isMulticast || v6.isUniqueLocal ||
      v6.isUnicastLinkLocal || v6 == discardOnly.base ||
      (v6.s0 == 0x2001 && v6.s1 == 0x0002 && v6.s2 == 0) ||
      (v6.s0 == 0x2001 && v6.s1 == 0x0db8)) = true ↔
    v6 = discardOnly.base ∨ ∃ net ∈ restrictedNets6.tail, net.Has v6 := by
  have hloop : v6.isLoopback = true ↔ Net6.Has ⟨⟨0, 0, 0, 0, 0, 0, 0, 1⟩, 128⟩ v6 := by
    rw [Net6.has_single, Ipv6Addr.isLoopback, beq_iff_eq]
  have hnone : v6.isUnspecified = true ↔ Net6.Has ⟨⟨0, 0, 0, 0, 0, 0, 0, 0⟩, 128⟩ v6 := by
    rw [Net6.has_single, Ipv6Addr.isUnspecified, beq_iff_eq]
  simp only [restrictedNets6, List.tail_cons, List.exists_mem_cons_iff, List.not_mem_nil,
    false_and, exists_false, or_false]
  rw [← hloop, ← hnone, ← isMulticast6_iff, ← isUniqueLocal_iff, ← isUnicastLinkLocal_iff,
    ← benchmarking_iff, ← documentation_iff]
  have hbase : (v6 == discardOnly.base) = true ↔ v6 = discardOnly.base := beq_iff_eq
  rw [← hbase]
  simp only [Bool.or_eq_true, or_assoc, or_left_comm (a := (v6 == discardOnly.base) = true)]

/-- In the discard prefix, and not its first address. -/
def Overlooked : IpAddr → Prop
  | .v4 _ => False
  | .v6 v6 => discardOnly.Has v6 ∧ v6 ≠ discardOnly.base

/-- An address that carries another one is in no network of its own. -/
theorem carrying_apart (v6 : Ipv6Addr)
    (h : v6.s0.toNat = 0 ∧ v6.s5.toNat ≠ 0 ∨ v6.s0.toNat = 0x64 ∨ v6.s0.toNat = 0x2002) :
    ¬∃ net ∈ restrictedNets6, net.Has v6 := by
  rintro ⟨net, hnet, hhas⟩
  rcases List.mem_cons.mp hnet with rfl | hnet
  · have h0 := congrArg UInt16.toNat ((discardOnly_iff v6).mp hhas).1
    have h256 : (0x100 : UInt16).toNat = 256 := rfl
    omega
  · have hfirst := first_group hnet hhas
    omega

theorem last_bits (v6 : Ipv6Addr) :
    v6.bits % 2 ^ 32 = (Ipv6Addr.embedded v6.s6 v6.s7).bits := by
  have hgroups := groups_lt v6
  rw [bits_embedded, Ipv6Addr.bits]
  omega

theorem middle_bits (v6 : Ipv6Addr) :
    v6.bits / 2 ^ 80 % 2 ^ 32 = (Ipv6Addr.embedded v6.s1 v6.s2).bits := by
  have hgroups := groups_lt v6
  rw [bits_embedded, Ipv6Addr.bits]
  omega

theorem restricted_of_last {v6 : Ipv6Addr} (h : mapped.Has v6 ∨ nat64.Has v6)
    (hapart : ¬∃ net ∈ restrictedNets6, net.Has v6) (hsix : ¬sixToFour.Has v6) :
    Restricted (.v6 v6) ↔ isRestrictedIpv4 (Ipv6Addr.embedded v6.s6 v6.s7) = true := by
  rw [isRestrictedIpv4_iff, ← last_bits]
  simp only [Restricted, hapart, hsix, h, true_and, false_and, false_or, or_false]

/-- The first address and the network say the same where they do not differ. -/
theorem overlooked_iff (v6 : Ipv6Addr) :
    ((v6 = discardOnly.base ∨ ∃ net ∈ restrictedNets6.tail, net.Has v6) ↔
      (discardOnly.Has v6 ∨ ∃ net ∈ restrictedNets6.tail, net.Has v6)) ↔ ¬Overlooked (.v6 v6) := by
  have hbase : v6 = discardOnly.base → discardOnly.Has v6 := fun heq => by rw [heq]; rfl
  have hapart : discardOnly.Has v6 → ¬∃ net ∈ restrictedNets6.tail, net.Has v6 := by
    rintro hd ⟨net, hnet, hhas⟩
    have h0 := congrArg UInt16.toNat ((discardOnly_iff v6).mp hd).1
    have h256 : (0x100 : UInt16).toNat = 256 := rfl
    have hfirst := first_group hnet hhas
    omega
  have hover : Overlooked (.v6 v6) ↔ discardOnly.Has v6 ∧ v6 ≠ discardOnly.base := Iff.rfl
  rw [hover]
  by_cases hd : discardOnly.Has v6
  · simp only [hd, hapart hd, or_false, iff_true, true_and, not_not]
  · have hne : v6 ≠ discardOnly.base := fun heq => hd (hbase heq)
    simp only [hd, hne, false_or, false_and, not_false_eq_true]

/-- The documentation and the source agree outside the discard prefix. -/
theorem restricted_iff (ip : IpAddr) :
    (isRestrictedIp ip = true ↔ Restricted ip) ↔ ¬Overlooked ip := by
  cases ip with
  | v4 v4 => exact iff_of_true (isRestrictedIpv4_iff v4) not_false
  | v6 v6 =>
    have hnot : ∀ {n : Nat}, v6.s0.toNat = n → n ≠ 0x100 → ¬Overlooked (.v6 v6) := by
      rintro n hn hne ⟨hhas, -⟩
      have h0 := (discardOnly_iff v6).mp hhas
      rw [h0.1] at hn
      exact hne hn.symm
    by_cases hmapped : mapped.Has v6
    · obtain ⟨h0, h1, h2, h3, h4, h5⟩ := (mapped_iff v6).mp hmapped
      have hsix : ¬sixToFour.Has v6 := by rw [sixToFour_iff, h0]; decide
      have hapart := carrying_apart v6 (.inl (by rw [h0, h5]; decide))
      have hcode : isRestrictedIp (.v6 v6) = isRestrictedIpv4 (Ipv6Addr.embedded v6.s6 v6.s7) := by
        simp only [isRestrictedIp, Ipv6Addr.toIpv4Mapped, h0, h1, h2, h3, h4, h5, and_self, if_true]
      rw [restricted_of_last (.inl hmapped) hapart hsix, hcode]
      exact iff_of_true Iff.rfl (hnot (congrArg UInt16.toNat h0) (by decide))
    · have hnone : v6.toIpv4Mapped = none := by
        rw [Ipv6Addr.toIpv4Mapped, if_neg fun h => hmapped ((mapped_iff v6).mpr h)]
      by_cases hnat : nat64.Has v6
      · have hgroups := (nat64_iff v6).mp hnat
        have hsix : ¬sixToFour.Has v6 := by rw [sixToFour_iff, hgroups.1]; decide
        have hapart := carrying_apart v6 (.inr (.inl (by rw [hgroups.1]; decide)))
        have hcode : isRestrictedIp (.v6 v6) =
            isRestrictedIpv4 (Ipv6Addr.embedded v6.s6 v6.s7) := by
          simp only [isRestrictedIp, hnone, if_pos hgroups]
        rw [restricted_of_last (.inr hnat) hapart hsix, hcode]
        exact iff_of_true Iff.rfl (hnot (congrArg UInt16.toNat hgroups.1) (by decide))
      · have hnat' := fun h => hnat ((nat64_iff v6).mpr h)
        by_cases hsix : sixToFour.Has v6
        · have h0 := (sixToFour_iff v6).mp hsix
          have hapart := carrying_apart v6 (.inr (.inr (by rw [h0]; decide)))
          have hcode : isRestrictedIp (.v6 v6) =
              isRestrictedIpv4 (Ipv6Addr.embedded v6.s1 v6.s2) := by
            simp only [isRestrictedIp, hnone, if_neg hnat', if_pos h0]
          rw [hcode, isRestrictedIpv4_iff, ← middle_bits]
          simp only [Restricted, hapart, hmapped, hnat, hsix, false_or, false_and, true_and]
          exact iff_of_true trivial (hnot (congrArg UInt16.toNat h0) (by decide))
        · have h0 := fun h => hsix ((sixToFour_iff v6).mpr h)
          have hcode : isRestrictedIp (.v6 v6) = true ↔
              v6 = discardOnly.base ∨ ∃ net ∈ restrictedNets6.tail, net.Has v6 := by
            rw [← tests6_iff]
            simp only [isRestrictedIp, hnone, if_neg hnat', if_neg h0]
            rfl
          have hnets : Restricted (.v6 v6) ↔
              discardOnly.Has v6 ∨ ∃ net ∈ restrictedNets6.tail, net.Has v6 := by
            simp only [Restricted, hmapped, hnat, hsix, or_self, false_and, or_false]
            rw [restrictedNets6, List.exists_mem_cons_iff, List.tail_cons]
          rw [hcode, hnets]
          exact overlooked_iff v6

/-- The second address of the discard prefix. -/
def discardOne : IpAddr := .v6 ⟨0x100, 0, 0, 0, 0, 0, 0, 1⟩

theorem discardOne_passes : isRestrictedIp discardOne = false ∧ Restricted discardOne :=
  ⟨by decide, .inl ⟨discardOnly, List.mem_cons_self, rfl⟩⟩

end CampusAuth.Web
