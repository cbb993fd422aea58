import Starla.Impl.Measurements.Dns
import Starla.Impl.Measurements.Tls

/-!
# The refused addresses

What `atlas_check_addr` refuses, as blocks of addresses (`Refused`), and that
each of the three checks in the source is that rule: `refused_iff` for ping
and traceroute, `dns_refused_iff` for evtdig and `tls_addrAllowed_iff` for
sslgetcert, which reads an IPv6 address by its segments.
-/

namespace Starla.Proof.Measurements

open Starla.Framework Starla.Impl.Measurements

/-! ## The rule -/

/-- The network `a.b.c.d/len`. -/
def net4 (a b c d len : Nat) : Block 32 :=
  ⟨BitVec.ofNat 32 (((a * 256 + b) * 256 + c) * 256 + d), len⟩

/-- The network of eight groups and a length. -/
def net6 (groups : List Nat) (len : Nat) : Block 128 := ⟨BitVec.ofNat 128 (ofGroups groups), len⟩

def refusedIpv4 : List (Block 32) :=
  [net4 127 0 0 0 8, net4 10 0 0 0 8, net4 172 16 0 0 12, net4 192 168 0 0 16, net4 169 254 0 0 16,
    net4 224 0 0 0 4]

def refusedIpv6 : List (Block 128) :=
  [net6 [0, 0, 0, 0, 0, 0, 0, 1] 128, net6 [0, 0, 0, 0, 0, 0xFFFF, 0, 0] 96,
    net6 [0xE000, 0, 0, 0, 0, 0, 0, 0] 3]

/-- An address in one of the blocks the probe measures nothing in. -/
def Refused : IpAddr → Prop
  | .v4 a => ∃ b ∈ refusedIpv4, b.Holds a
  | .v6 a => ∃ b ∈ refusedIpv6, b.Holds a

instance : DecidablePred Refused
  | .v4 a => inferInstanceAs (Decidable (∃ b ∈ refusedIpv4, b.Holds a))
  | .v6 a => inferInstanceAs (Decidable (∃ b ∈ refusedIpv6, b.Holds a))

/-! ## By masks -/

theorem hasPrefixOf_iff {w : Nat} {bad : List (Block w)} (hbad : ∀ b ∈ bad, b.Aligned) (a : BitVec w) :
    hasPrefixOf bad a = true ↔ ∃ b ∈ bad, b.Holds a := by
  simp only [hasPrefixOf, List.any_eq_true, beq_iff_eq]
  exact exists_congr fun b => and_congr_right fun hb => masked_eq_iff (hbad b hb) a

theorem aligned_refusedIpv4 : ∀ b ∈ refusedIpv4, b.Aligned := by decide

theorem aligned_refusedIpv6 : ∀ b ∈ refusedIpv6, b.Aligned := by decide

theorem refused_iff (addr : IpAddr) : refused addr = true ↔ Refused addr := by
  cases addr with
  | v4 a => exact hasPrefixOf_iff aligned_refusedIpv4 a
  | v6 a => exact hasPrefixOf_iff aligned_refusedIpv6 a

theorem dns_refused_iff (addr : IpAddr) : Dns.refused addr = true ↔ Refused addr := by
  cases addr with
  | v4 a => exact hasPrefixOf_iff aligned_refusedIpv4 a
  | v6 a => exact hasPrefixOf_iff aligned_refusedIpv6 a

/-! ## By segments -/

theorem toNat_segment (a : BitVec 128) (i : Nat) :
    (a.extractLsb' i 16).toNat = a.toNat / 2 ^ i % 65536 := by
  rw [BitVec.extractLsb'_toNat, Nat.shiftRight_eq_div_pow]

/-- A number whose top segment is zero. -/
theorem lt_of_segment_eq_zero {n i : Nat} (hn : n < 2 ^ (i + 16)) (h : n / 2 ^ i % 65536 = 0) :
    n < 2 ^ i := by
  have hlt : n / 2 ^ i < 65536 := Nat.div_lt_of_lt_mul (by rwa [Nat.pow_add] at hn)
  rw [Nat.mod_eq_of_lt hlt] at h
  exact (Nat.div_eq_zero_iff_lt (Nat.two_pow_pos i)).mp h

theorem segments_eq_one_iff (a : BitVec 128) :
    Tls.segments a = [0, 0, 0, 0, 0, 0, 0, 1] ↔ (net6 [0, 0, 0, 0, 0, 0, 0, 1] 128).Holds a := by
  constructor
  · intro h
    simp only [Tls.segments, List.map_cons, List.map_nil, List.cons.injEq, ← BitVec.toNat_inj,
      toNat_segment, BitVec.ofNat_eq_ofNat, BitVec.toNat_ofNat, and_true] at h
    obtain ⟨h7, h6, h5, h4, h3, h2, h1, h0⟩ := h
    have hlt := lt_of_segment_eq_zero (lt_of_segment_eq_zero (lt_of_segment_eq_zero
      (lt_of_segment_eq_zero (lt_of_segment_eq_zero (lt_of_segment_eq_zero
        (lt_of_segment_eq_zero a.isLt h7) h6) h5) h4) h3) h2) h1
    clear h7 h6 h5 h4 h3 h2 h1
    change a.toNat / 1 = 1
    omega
  · intro h
    have ha : a = 1 := BitVec.eq_of_toNat_eq (by simpa [Block.Holds, net6, ofGroups] using h)
    subst ha
    decide

theorem segments_mapped_iff (a : BitVec 128) :
    (Tls.segments a).take 6 = [0, 0, 0, 0, 0, 0xFFFF] ↔
      (net6 [0, 0, 0, 0, 0, 0xFFFF, 0, 0] 96).Holds a := by
  simp only [Tls.segments, List.map_cons, List.map_nil, List.take_succ_cons, List.take_zero,
    List.cons.injEq, ← BitVec.toNat_inj, toNat_segment, BitVec.ofNat_eq_ofNat, BitVec.toNat_ofNat,
    and_true]
  change _ ↔ a.toNat / 2 ^ 32 = 65535
  constructor
  · rintro ⟨h7, h6, h5, h4, h3, h2⟩
    have hlt := lt_of_segment_eq_zero (lt_of_segment_eq_zero (lt_of_segment_eq_zero
      (lt_of_segment_eq_zero (lt_of_segment_eq_zero a.isLt h7) h6) h5) h4) h3
    clear h7 h6 h5 h4 h3
    omega
  · intro h
    have hlt : a.toNat < 2 ^ 48 := by omega
    have hzero {i : Nat} (hi : 48 ≤ i) : a.toNat / 2 ^ i % 65536 = 0 := by
      rw [Nat.div_eq_of_lt (hlt.trans_le (Nat.pow_le_pow_right Nat.two_pos hi))]
    exact ⟨hzero (by decide), hzero (by decide), hzero (by decide), hzero (by decide),
      hzero (by decide), by omega⟩

theorem first_segment_iff (a : BitVec 128) :
    (Tls.segments a).headD 0 &&& 0xE000 = 0xE000 ↔
      (net6 [0xE000, 0, 0, 0, 0, 0, 0, 0] 3).Holds a := by
  have hb : (⟨0xE000, 3⟩ : Block 16).Aligned := by decide
  have hseg := masked_eq_iff hb (a.extractLsb' 112 16)
  rw [Block.Holds, toNat_segment] at hseg
  have hlt : a.toNat / 2 ^ 112 < 65536 := Nat.div_lt_of_lt_mul a.isLt
  rw [Nat.mod_eq_of_lt hlt, Nat.div_div_eq_div_mul, ← Nat.pow_add] at hseg
  exact hseg

theorem tls_addrAllowed_iff (addr : IpAddr) : Tls.addrAllowed addr = true ↔ ¬ Refused addr := by
  cases addr with
  | v4 a =>
    rw [Tls.addrAllowed, Bool.not_eq_true', ← Bool.not_eq_true]
    exact not_congr (hasPrefixOf_iff aligned_refusedIpv4 a)
  | v6 a =>
    simp only [Tls.addrAllowed, Refused, refusedIpv6, List.exists_mem_cons_iff, List.not_mem_nil,
      Bool.not_eq_true', Bool.or_eq_false_iff, beq_eq_false_iff_ne, ne_eq, segments_eq_one_iff,
      segments_mapped_iff, first_segment_iff]
    simp [not_or, and_assoc]

/-! ## One rule -/

/-- The three checks refuse the same addresses, those in the blocks. -/
theorem checks_agree (addr : IpAddr) :
    (refused addr = true ↔ Refused addr) ∧ Dns.refused addr = refused addr ∧
      Tls.addrAllowed addr = !refused addr := by
  have hrule := refused_iff addr
  have hdns := dns_refused_iff addr
  have htls := tls_addrAllowed_iff addr
  refine ⟨hrule, Bool.eq_iff_iff.mpr (hdns.trans hrule.symm), Bool.eq_iff_iff.mpr ?_⟩
  rw [htls, Bool.not_eq_true', ← Bool.not_eq_true, hrule]

end Starla.Proof.Measurements
