import Starla.Impl.Traceroute.Send
import Starla.Proof.Traceroute.Wire

/-!
# The checksums of probes

What `wire.rs` makes the checksum of a probe come out as: a UDP payload any
value but `0xffff`, an IPv4 echo request its Paris id, an IPv6 one the value
above it, each over the pseudo-header the kernel sums (`checksums_steered`).

The word that steers a checksum stands at an even offset, so it is one summand
of the whole (`sum16_word`), and what it is made from is the sum without it.
-/

namespace Starla.Proof.Traceroute

open Starla.Framework Starla.Impl.Traceroute

/-- Sums go on over whole words. -/
theorem sum16_append : ∀ (a b : List UInt8) (acc : Nat), a.length % 2 = 0 →
    sum16 (a ++ b) acc = sum16 b (sum16 a acc)
  | x :: y :: a, b, acc, h => by
    have ha : a.length % 2 = 0 := by
      rw [List.length_cons, List.length_cons] at h
      omega
    show sum16 (a ++ b) _ = sum16 b (sum16 a _)
    exact sum16_append a b _ ha
  | [x], _, _, h => by
    rw [List.length_singleton] at h
    omega
  | [], _, _, _ => rfl

/-- A word at an even offset is a summand. -/
theorem sum16_word {a : List UInt8} (h : a.length % 2 = 0) (w : UInt16) (b : List UInt8) (acc : Nat) :
    sum16 (a ++ (bytes16 w ++ b)) acc = sum16 (a ++ (bytes16 0 ++ b)) acc + w.toNat := by
  rw [sum16_append a _ acc h, sum16_append a _ acc h, sum16_bytes16, sum16_bytes16, sum16_add b (_ + w.toNat),
    sum16_add b (_ + UInt16.toNat 0)]
  show _ = _ + (_ + 0) + _
  omega

/-! ## IPv4 -/

theorem echo4_split (id seq : UInt16) (m : Nat) (c f : UInt16) :
    echo4 id seq m c f = [8, 0] ++ (bytes16 c ++ (bytes16 id ++ (bytes16 seq ++ (bytes16 f ++ idData m)))) := rfl

/-- The checksum and the Paris bytes of an echo request are summands of it. -/
theorem sum16_echo4 (id seq : UInt16) (m : Nat) (c f : UInt16) :
    sum16 (echo4 id seq m c f) 0 = sum16 (echo4 id seq m 0 0) 0 + f.toNat + c.toNat := by
  have hsplit : [8, 0] ++ (bytes16 0 ++ (bytes16 id ++ (bytes16 seq ++ (bytes16 f ++ idData m)))) =
      ([8, 0] ++ bytes16 0 ++ bytes16 id ++ bytes16 seq) ++ (bytes16 f ++ idData m) := by
    simp only [List.append_assoc]
  have hsplit' : [8, 0] ++ (bytes16 0 ++ (bytes16 id ++ (bytes16 seq ++ (bytes16 0 ++ idData m)))) =
      ([8, 0] ++ bytes16 0 ++ bytes16 id ++ bytes16 seq) ++ (bytes16 0 ++ idData m) := by
    simp only [List.append_assoc]
  rw [echo4_split, echo4_split, sum16_word rfl c, hsplit, sum16_word (by simp) f, hsplit']

/-- Its type alone makes the sum of a request, and its size bounds it. -/
theorem sum16_echo4_bounds (id seq : UInt16) {m : Nat} (hm : m ≤ 65533) :
    0 < sum16 (echo4 id seq m 0 0) 0 ∧ sum16 (echo4 id seq m 0 0) 0 + 2 * 65535 < 2 ^ 32 := by
  have hle := sum16_le (echo4 id seq m 0 0)
  have hlen : (echo4 id seq m 0 0).length = m + 10 := by
    simp [echo4]
    omega
  have hpos : sum16 (echo4 id seq m 0 0) 0 =
      sum16 (bytes16 0 ++ (bytes16 id ++ (bytes16 seq ++ (bytes16 0 ++ idData m)))) 2048 := rfl
  rw [hlen] at hle
  refine ⟨?_, by omega⟩
  rw [hpos, sum16_add]
  omega

/-- With a checksum made from the rest, a sum verifies. -/
theorem foldNot_add_not {n : Nat} (h : n + 65535 < 2 ^ 32) (hn : 0 < n) : foldNot (n + (foldNot n).toNat) = 0 := by
  apply UInt16.toNat_inj.mp
  rw [toNat_foldNot, toNat_foldNot, fold16_add_not h hn]
  rfl

theorem inCksum_icmp4Echo (id seq size : UInt16) (paris : Option UInt16) :
    inCksum (icmp4Echo id seq size paris) = 0 := by
  obtain ⟨f, hf, -⟩ := icmp4Echo_words id seq size paris
  have hm : max size.toNat 2 - 2 ≤ 65533 := by
    have := size.toNat_lt
    omega
  generalize max size.toNat 2 - 2 = m at hf hm
  obtain ⟨hpos, hbound⟩ := sum16_echo4_bounds id seq hm
  have hflt := f.toNat_lt
  have hrest : sum16 (echo4 id seq m 0 f) 0 = sum16 (echo4 id seq m 0 0) 0 + f.toNat := sum16_echo4 id seq m 0 f
  rw [hf, inCksum, sum16_echo4, ← hrest]
  exact foldNot_add_not (by omega) (by omega)

/-- The checksum of an echo request with a Paris id is that id. -/
theorem be16_icmp4Echo (id seq size : UInt16) {p : UInt16} (hp : p ≠ 0xffff) :
    be16 (icmp4Echo id seq size (some p)) 2 = some p := by
  obtain ⟨f, hf, hfudge⟩ := icmp4Echo_words id seq size (some p)
  have hm : max size.toNat 2 - 2 ≤ 65533 := by
    have := size.toNat_lt
    omega
  generalize max size.toNat 2 - 2 = m at hf hfudge hm
  obtain ⟨hpos, hbound⟩ := sum16_echo4_bounds id seq hm
  have hrest : sum16 (echo4 id seq m 0 f) 0 = sum16 (echo4 id seq m 0 0) 0 + f.toNat := sum16_echo4 id seq m 0 f
  have hcksum : inCksum (echo4 id seq m 0 f) = p := by
    rw [inCksum, hrest, hfudge p rfl]
    exact foldNot_add_fudge (by omega) hpos hp
  rw [hf, hcksum]
  exact be16_append (a := [8, 0]) rfl p _

/-! ## IPv6 -/

/-- The fuzz of a request's v6info is a summand of it. -/
theorem sum16_echo6 (pid : UInt32) (index seq : UInt16) (tv : Duration) (m : Nat) (fuzz : UInt16) (acc : Nat) :
    sum16 (echo6 pid index seq tv m fuzz) acc = sum16 (echo6 pid index seq tv m 0) acc + fuzz.toNat := by
  have hsplit (fuzz : UInt16) : echo6 pid index seq tv m fuzz =
      ([128, 0] ++ bytes16 0 ++ bytes16 pid.toUInt16 ++ bytes16 seq) ++ (bytes16 fuzz ++
        ([0, 0] ++ bytes32 pid ++ bytes32 index.toUInt32 ++ bytes32 seq.toUInt32 ++
          (beBytes 8 (tv / 1000000000)).reverse ++ (beBytes 8 (tv % 1000000000)).reverse ++ idData m)) := by
    simp only [echo6, V6Info.bytes, List.append_assoc, List.cons_append, List.nil_append]
  rw [hsplit fuzz, hsplit 0]
  exact sum16_word (by simp) fuzz _ acc

theorem length_echo6 (pid : UInt32) (index seq : UInt16) (tv : Duration) (m : Nat) (fuzz : UInt16) :
    (echo6 pid index seq tv m fuzz).length = m + 40 := by
  simp [echo6, V6INFO_LEN]
  omega

theorem icmp6Cksum_icmp6Echo (src dst : BitVec 128) (pid : UInt32) (index seq : UInt16) (tv : Duration)
    (size : UInt16) {p : UInt16} (hp : p + 1 ≠ 0xffff) :
    icmp6Cksum src dst (icmp6Echo src dst pid index seq tv size (some p)) = p + 1 := by
  obtain ⟨fuzz, hecho, hfudge⟩ := icmp6Echo_words src dst pid index seq tv size (some p)
  obtain ⟨m, hm⟩ : ∃ m, max size.toNat 32 = 32 + m := ⟨max size.toNat 32 - 32, by omega⟩
  have hsize := size.toNat_lt
  have hfuzz := hfudge p rfl
  rw [hm, Nat.add_sub_cancel_left] at hecho hfuzz
  have hlen : (echo6 pid index seq tv m fuzz).length = 8 + (32 + m) := by
    rw [length_echo6]
    omega
  -- the checksum field is zero already
  have hzero : splice (echo6 pid index seq tv m fuzz) 2 [0, 0] = echo6 pid index seq tv m fuzz :=
    @splice_append [128, 0] (bytes16 0) [0, 0] 2 rfl rfl _
  have hpacket := sum16_le (echo6 pid index seq tv m 0)
  have hpseudo := sum16_le (pseudo6 src dst (UInt32.ofNat (8 + (32 + m))) IPPROTO_ICMPV6)
  have hl : (pseudo6 src dst (UInt32.ofNat (8 + (32 + m))) IPPROTO_ICMPV6).length = 40 := by simp [pseudo6]
  rw [length_echo6] at hpacket
  rw [hl] at hpseudo
  rw [hecho, icmp6Cksum, hlen, hzero, cksumWith, sum16_echo6, hfuzz, cksumWith]
  have hsum : sum16 (echo6 pid index seq tv m 0)
      (sum16 (pseudo6 src dst (UInt32.ofNat (8 + (32 + m))) IPPROTO_ICMPV6) 0) + 65535 < 2 ^ 32 := by
    rw [sum16_add]
    omega
  have hpos : 0 < sum16 (echo6 pid index seq tv m 0)
      (sum16 (pseudo6 src dst (UInt32.ofNat (8 + (32 + m))) IPPROTO_ICMPV6) 0) := by
    have htype (acc : Nat) : sum16 (echo6 pid index seq tv m 0) acc = sum16 (bytes16 0 ++
        (bytes16 pid.toUInt16 ++ (bytes16 seq ++ (V6Info.bytes ⟨0, pid, index.toUInt32, seq.toUInt32, tv⟩ ++
          idData m)))) (acc + 32768) := rfl
    rw [htype, sum16_add]
    omega
  exact foldNot_add_fudge hsum hpos hp

/-! ## All three -/

/-- Each probe's checksum is the one asked for, whatever else is in it. -/
theorem checksums_steered (src dst : BitVec 32) (sport dport : UInt16) (src6 dst6 : BitVec 128) (pid : UInt32)
    (id index seq size : UInt16) (tv : Duration) :
    (∀ val, val ≠ 0xffff → udp4Cksum src dst sport dport (udp4Payload src dst sport dport size val) = val) ∧
    (∀ paris, inCksum (icmp4Echo id seq size paris) = 0) ∧
    (∀ p, p ≠ 0xffff → be16 (icmp4Echo id seq size (some p)) 2 = some p) ∧
    ∀ p, p + 1 ≠ 0xffff →
      icmp6Cksum src6 dst6 (icmp6Echo src6 dst6 pid index seq tv size (some p)) = p + 1 :=
  ⟨fun _ hval => udp4Cksum_payload src dst sport dport size hval, inCksum_icmp4Echo id seq size,
    fun _ hp => be16_icmp4Echo id seq size hp,
    fun _ hp => icmp6Cksum_icmp6Echo src6 dst6 pid index seq tv size hp⟩

/-- A checksum of 0, the other way to write the one value that is out of reach. -/
theorem checksums_steered_zero :
    udp4Cksum 0x0a000001 0x0a000002 20480 33434 (udp4Payload 0x0a000001 0x0a000002 20480 33434 40 0) = 0 ∧
      icmp6Cksum 1 2 (icmp6Echo 1 2 7 3 1 0 40 (some 0xffff)) = 0 :=
  have h := checksums_steered 0x0a000001 0x0a000002 20480 33434 1 2 7 0 3 1 40 0
  ⟨h.1 0 (by decide), h.2.2.2 0xffff (by decide)⟩

end Starla.Proof.Traceroute
