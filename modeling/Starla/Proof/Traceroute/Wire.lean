import Mathlib.Data.List.Basic
import Mathlib.Tactic.Common
import Starla.Framework.OnesComplement
import Starla.Impl.Traceroute.Send

/-!
# Probes, byte by byte

What a reply that quotes a probe is told by: the fields of each probe's packet
as `send` leaves them, the rest of the packet after them.

* `carriesIdString_iff` : the id string, and what may follow the data it is in.
* `udp4Cksum_payload` : a Paris UDP probe's checksum.
* `send_icmp4`, `send_udp`, `send_tcp`, `send_icmp6` : the packets.
-/

namespace Starla.Proof.Traceroute

open Starla.Framework Starla.Impl.Controller Starla.Impl.Measurements Starla.Impl.Traceroute

/-! ## Words in packets -/

theorem bytes16_eq (n : UInt16) : bytes16 n = [UInt8.ofNat (n.toNat / 256), UInt8.ofNat n.toNat] := by
  simp [bytes16, beBytes]

@[simp] theorem length_bytes16 (n : UInt16) : (bytes16 n).length = 2 := length_beBytes 2 _

@[simp] theorem length_bytes32 (n : UInt32) : (bytes32 n).length = 4 := length_beBytes 4 _

theorem word16_append {a : List UInt8} {i : Nat} (h : a.length = i) (n : UInt16) (b : List UInt8) :
    UInt16.ofNat (beNat (((a ++ (bytes16 n ++ b)).drop i).take 2)) = n := by
  have hn : n.toNat % 256 ^ 2 = n.toNat := Nat.mod_eq_of_lt n.toNat_lt
  rw [← h, List.drop_left, List.take_left' (length_bytes16 n), bytes16, beNat_beBytes, hn, UInt16.ofNat_toNat]

theorem word32_append {a : List UInt8} {i : Nat} (h : a.length = i) (n : UInt32) (b : List UInt8) :
    UInt32.ofNat (beNat (((a ++ (bytes32 n ++ b)).drop i).take 4)) = n := by
  have hn : n.toNat % 256 ^ 4 = n.toNat := Nat.mod_eq_of_lt n.toNat_lt
  rw [← h, List.drop_left, List.take_left' (length_bytes32 n), bytes32, beNat_beBytes, hn, UInt32.ofNat_toNat]

theorem be16_append {a : List UInt8} {i : Nat} (h : a.length = i) (n : UInt16) (b : List UInt8) :
    be16 (a ++ (bytes16 n ++ b)) i = some n := by
  unfold be16
  rw [if_pos (by simp [h]), word16_append h]

theorem be32_append {a : List UInt8} {i : Nat} (h : a.length = i) (n : UInt32) (b : List UInt8) :
    be32 (a ++ (bytes32 n ++ b)) i = some n := by
  unfold be32
  rw [if_pos (by simp [h]), word32_append h]

theorem be16_zero (n : UInt16) (b : List UInt8) : be16 (bytes16 n ++ b) 0 = some n :=
  be16_append (a := []) rfl n b

theorem byteAt_append_left {a : List UInt8} {i : Nat} (h : i < a.length) (b : List UInt8) :
    byteAt (a ++ b) i = byteAt a i := by
  simp [byteAt, List.getElem?_append_left h]

theorem byteAt_append_right {a : List UInt8} {i : Nat} (h : a.length = i) (b : List UInt8) (j : Nat) :
    byteAt (a ++ b) (i + j) = byteAt b j := by
  subst h
  simp [byteAt, List.getElem?_append_right]

/-! ## The data -/

/-- `n` bytes of data: the id string, then zeros. -/
def idData (n : Nat) : List UInt8 := ID_STRING.take n ++ List.replicate (n - ID_STRING.length) 0

theorem length_ID_STRING : ID_STRING.length = 36 := rfl

@[simp] theorem length_idData (n : Nat) : (idData n).length = n := by
  rw [idData, List.length_append, List.length_take, List.length_replicate, length_ID_STRING]
  omega

theorem fill_eq {data : List UInt8} {i : Nat} (h : i ≤ data.length) :
    fill data i = data.take i ++ idData (data.length - i) := by
  unfold fill
  split
  · rename_i hge
    have hi : i = data.length := Nat.le_antisymm h hge
    rw [hi, List.take_length, Nat.sub_self]
    exact (List.append_nil data).symm
  · rw [idData, List.append_assoc]

theorem idData_of_le {n : Nat} (h : n ≤ 36) : idData n = ID_STRING.take n := by
  rw [idData, length_ID_STRING, Nat.sub_eq_zero_of_le h]
  exact List.append_nil _

theorem idData_of_ge {n : Nat} (h : 36 ≤ n) : ∃ zeros, idData n = ID_STRING ++ zeros :=
  ⟨List.replicate (n - 36) 0, by rw [idData, List.take_of_length_le (by rw [length_ID_STRING]; exact h)]; rfl⟩

/-- The id string is carried as far as the packet has it: what follows data too
short for all of it must go on with it. -/
theorem carriesIdString_iff (a b : UInt8) (n : Nat) (rest : List UInt8) :
    carriesIdString (a :: b :: (idData n ++ rest)) = true ↔ rest.take (36 - n) <+: ID_STRING.drop n := by
  show (List.take (min (idData n ++ rest).length 36) (idData n ++ rest) ==
    ID_STRING.take (min (idData n ++ rest).length 36)) = true ↔ _
  rw [beq_iff_eq, List.length_append, length_idData]
  rcases Nat.lt_or_ge n 36 with h | h
  · have hm : min (n + rest.length) 36 = n + min (36 - n) rest.length := by omega
    have hlen : (ID_STRING.take n).length = n := by rw [List.length_take, length_ID_STRING]; omega
    have hdata : (idData n ++ rest).take (n + min (36 - n) rest.length) =
        ID_STRING.take n ++ rest.take (36 - n) := by
      rw [idData_of_le (Nat.le_of_lt h), List.take_append, hlen, Nat.add_sub_cancel_left,
        List.take_of_length_le (by rw [hlen]; exact Nat.le_add_right ..), ← List.take_take, List.take_length]
    have hid : ID_STRING.take (n + min (36 - n) rest.length) =
        ID_STRING.take n ++ (ID_STRING.drop n).take (min (36 - n) rest.length) := List.take_add
    rw [hm, hdata, hid, List.append_cancel_left_eq, List.prefix_iff_eq_take, List.length_take]
  · obtain ⟨zeros, hz⟩ := idData_of_ge h
    have hm : min (n + rest.length) 36 = ID_STRING.length := by rw [length_ID_STRING]; omega
    rw [hm, hz, List.append_assoc, List.take_left, List.take_length, Nat.sub_eq_zero_of_le h]
    simp

/-! ## Sums -/

theorem sum16_add : ∀ (data : List UInt8) (acc : Nat), sum16 data acc = sum16 data 0 + acc
  | a :: b :: data, acc => by
    rw [sum16, sum16_add data (acc + _), sum16, sum16_add data (0 + _)]
    omega
  | [b], acc => by simp only [sum16]; omega
  | [], acc => by simp only [sum16]; omega

theorem sum16_le : ∀ (data : List UInt8), 2 * sum16 data 0 ≤ 65535 * (data.length + 1)
  | a :: b :: data => by
    have ih := sum16_le data
    have ha := a.toNat_lt
    have hb := b.toNat_lt
    rw [sum16, sum16_add, List.length_cons, List.length_cons]
    omega
  | [b] => by
    have hb := b.toNat_lt
    simp only [sum16, List.length_cons, List.length_nil]
    omega
  | [] => by simp [sum16]

theorem sum16_bytes16 (n : UInt16) (data : List UInt8) (acc : Nat) :
    sum16 (bytes16 n ++ data) acc = sum16 data (acc + n.toNat) := by
  have hn := n.toNat_lt
  have h₁ : (UInt8.ofNat (n.toNat / 256)).toNat = n.toNat / 256 := by
    rw [UInt8.toNat_ofNat']
    omega
  have h₂ : (UInt8.ofNat n.toNat).toNat = n.toNat % 256 := UInt8.toNat_ofNat'
  rw [bytes16_eq]
  show sum16 (_ :: _ :: data) acc = _
  rw [sum16, h₁, h₂]
  congr 1
  omega

theorem toNat_foldNot (acc : Nat) : (foldNot acc).toNat = 65535 - fold16 acc := by
  have h : (UInt16.ofNat (acc / 65536 + acc % 65536 + (acc / 65536 + acc % 65536) / 65536)).toNat =
      fold16 acc := UInt16.toNat_ofNat'
  unfold foldNot
  dsimp only
  rw [UInt16.toNat_not, h]
  rfl

theorem toNat_fudge (sum val : UInt16) :
    (fudge sum val).toNat = carry16 (sum.toNat + (65535 - val.toNat)) := UInt16.toNat_ofNat'

/-- The data of an IPv4 UDP probe: its fudge, then the id string. -/
theorem udp4Payload_eq (src dst : BitVec 32) (sport dport size val : UInt16) :
    udp4Payload src dst sport dport size val =
      bytes16 (fudge (udp4Cksum src dst sport dport ([0, 0] ++ idData (max size.toNat 2 - 2))) val) ++
        idData (max size.toNat 2 - 2) := by
  have hfill : fill (List.replicate (max size.toNat 2) 0) 2 = [0, 0] ++ idData (max size.toNat 2 - 2) := by
    rw [fill_eq (by rw [List.length_replicate]; exact Nat.le_max_right ..), List.length_replicate,
      List.take_replicate, Nat.min_eq_left (Nat.le_max_right ..)]
    rfl
  unfold udp4Payload splice
  rw [hfill]
  rfl

/-- What the header and the pseudo-header sum to, for data of one length. -/
theorem udp4Cksum_eq (src dst : BitVec 32) (sport dport : UInt16) (n : Nat) :
    ∃ base, 0 < base ∧ base ≤ 65535 * 11 ∧ ∀ data : List UInt8, data.length = n →
      udp4Cksum src dst sport dport data = foldNot (sum16 data base) := by
  refine ⟨sum16 (udpHeader sport dport (UInt16.ofNat (8 + n)))
    (sum16 (pseudo4 src dst IPPROTO_UDP (UInt16.ofNat (8 + n))) 0), ?_, ?_, fun data h => ?_⟩
  · have hproto : 17 ≤ sum16 (pseudo4 src dst IPPROTO_UDP (UInt16.ofNat (8 + n))) 0 := by
      simp only [pseudo4, beBytes, List.cons_append, List.nil_append, sum16]
      rw [sum16_add, IPPROTO_UDP]
      show 17 ≤ _ + (_ + (0 * 256 + 17))
      omega
    rw [sum16_add]
    omega
  · have h₁ := sum16_le (udpHeader sport dport (UInt16.ofNat (8 + n)))
    have h₂ := sum16_le (pseudo4 src dst IPPROTO_UDP (UInt16.ofNat (8 + n)))
    have l₁ : (udpHeader sport dport (UInt16.ofNat (8 + n))).length = 8 := by simp [udpHeader]
    have l₂ : (pseudo4 src dst IPPROTO_UDP (UInt16.ofNat (8 + n))).length = 12 := by simp [pseudo4]
    rw [l₁] at h₁
    rw [l₂] at h₂
    rw [sum16_add]
    omega
  · unfold udp4Cksum
    dsimp only
    rw [h]

/-- A fudge is added to the sum it was made for, and brings it to the checksum
asked for. -/
theorem foldNot_add_fudge {n : Nat} {val : UInt16} (h : n + 65535 < 2 ^ 32) (hn : 0 < n) (hval : val ≠ 0xffff) :
    foldNot (n + (fudge (foldNot n) val).toNat) = val := by
  have hlt := val.toNat_lt
  have hv : val.toNat < 65535 := by
    have : val.toNat ≠ 65535 := fun heq => hval (UInt16.toNat_inj.mp heq)
    omega
  rw [toNat_fudge, toNat_foldNot]
  apply UInt16.toNat_inj.mp
  rw [toNat_foldNot, fold16_add_complement h hn hv]
  omega

/-- A UDP probe's data makes its checksum what it is to be. -/
theorem udp4Cksum_payload (src dst : BitVec 32) (sport dport size : UInt16) {val : UInt16} (hval : val ≠ 0xffff) :
    udp4Cksum src dst sport dport (udp4Payload src dst sport dport size val) = val := by
  have hm : max size.toNat 2 - 2 ≤ 65533 := by
    have := size.toNat_lt
    omega
  rw [udp4Payload_eq]
  generalize max size.toNat 2 - 2 = m at hm
  obtain ⟨base, hpos, hbase, hsum⟩ := udp4Cksum_eq src dst sport dport (m + 2)
  have hzero : sum16 ([0, 0] ++ idData m) base = sum16 (idData m) base := sum16_bytes16 0 (idData m) base
  have hdata := sum16_le (idData m)
  rw [length_idData] at hdata
  rw [hsum ([0, 0] ++ idData m) (by simp), hsum _ (by simp; omega), sum16_bytes16, hzero]
  have hadd (w : Nat) : sum16 (idData m) (base + w) = sum16 (idData m) base + w := by
    rw [sum16_add, sum16_add _ base]
    omega
  have hbound : sum16 (idData m) base + 65535 < 2 ^ 32 := by
    rw [sum16_add]
    omega
  have hsumPos : 0 < sum16 (idData m) base := by
    rw [sum16_add]
    omega
  rw [hadd]
  exact foldNot_add_fudge hbound hsumPos hval

/-! ## The packets -/

/-- An IPv4 echo request with `m` bytes of the id string, its checksum and its
two Paris bytes. -/
def echo4 (id seq : UInt16) (m : Nat) (c f : UInt16) : List UInt8 :=
  8 :: 0 :: (bytes16 c ++ (bytes16 id ++ (bytes16 seq ++ (bytes16 f ++ idData m))))

/-- The Paris bytes are made from the packet without them, the checksum from
the packet with them. -/
theorem icmp4Echo_words (id seq size : UInt16) (paris : Option UInt16) :
    ∃ f, icmp4Echo id seq size paris =
        echo4 id seq (max size.toNat 2 - 2) (inCksum (echo4 id seq (max size.toNat 2 - 2) 0 f)) f ∧
      ∀ p, paris = some p → f = fudge (inCksum (echo4 id seq (max size.toNat 2 - 2) 0 0)) p := by
  obtain ⟨m, hm⟩ : ∃ m, max size.toNat 2 = m + 2 := ⟨max size.toNat 2 - 2, by omega⟩
  unfold icmp4Echo
  rw [hm, Nat.add_sub_cancel]
  have hfill : fill ([8, 0, 0, 0] ++ bytes16 id ++ bytes16 seq ++ List.replicate (m + 2) 0) (ICMP_HDR + 2) =
      echo4 id seq m 0 0 := by
    have hlen : ([8, 0, 0, 0] ++ bytes16 id ++ bytes16 seq ++ List.replicate (m + 2) 0).length = m + 10 := by
      simp
      omega
    rw [fill_eq (by rw [hlen]; exact Nat.le_add_left ..), hlen, ICMP_HDR, Nat.add_sub_cancel]
    rfl
  dsimp only
  rw [hfill]
  cases paris with
  | none => exact ⟨0, rfl, fun p hp => nomatch hp⟩
  | some paris => exact ⟨_, rfl, fun p hp => by rw [Option.some.inj hp]⟩

theorem icmp4Echo_eq (id seq size : UInt16) (paris : Option UInt16) :
    ∃ c fudge, icmp4Echo id seq size paris =
      8 :: 0 :: (bytes16 c ++ (bytes16 id ++ (bytes16 seq ++ (bytes16 fudge ++ idData (max size.toNat 2 - 2))))) := by
  obtain ⟨f, hf, -⟩ := icmp4Echo_words id seq size paris
  exact ⟨_, f, hf⟩

@[simp] theorem length_bytes (info : V6Info) : info.bytes.length = V6INFO_LEN := by
  simp [V6Info.bytes, V6INFO_LEN]

/-- A v6info is read back but for its send time, which a clock gave. -/
theorem read_bytes (info : V6Info) (rest : List UInt8) :
    ∃ tv, V6Info.read (info.bytes ++ rest) = some { info with tv } := by
  unfold V6Info.read
  rw [if_neg (by simp)]
  dsimp only
  have hbytes : ∃ time, info.bytes ++ rest =
      bytes16 info.fuzz ++ ([0, 0] ++ (bytes32 info.pid ++ (bytes32 info.id ++ (bytes32 info.seq ++ time)))) :=
    ⟨_, by simp only [V6Info.bytes, List.append_assoc]; rfl⟩
  obtain ⟨time, hbytes⟩ := hbytes
  have hfuzz : UInt16.ofNat (beNat ((info.bytes ++ rest).take 2)) = info.fuzz := by
    rw [hbytes]
    exact word16_append (a := []) rfl _ _
  have hpid : UInt32.ofNat (beNat (((info.bytes ++ rest).drop 4).take 4)) = info.pid := by
    rw [hbytes, ← List.append_assoc]
    exact word32_append (by simp) _ _
  have hid : UInt32.ofNat (beNat (((info.bytes ++ rest).drop 8).take 4)) = info.id := by
    rw [hbytes, ← List.append_assoc, ← List.append_assoc]
    exact word32_append (by simp) _ _
  have hseq : UInt32.ofNat (beNat (((info.bytes ++ rest).drop 12).take 4)) = info.seq := by
    rw [hbytes, ← List.append_assoc, ← List.append_assoc, ← List.append_assoc]
    exact word32_append (by simp) _ _
  rw [hfuzz, hpid, hid, hseq]
  exact ⟨_, rfl⟩

/-- An IPv6 echo request with this fuzz in its v6info. -/
def echo6 (pid : UInt32) (index seq : UInt16) (tv : Duration) (m : Nat) (fuzz : UInt16) : List UInt8 :=
  128 :: 0 :: (bytes16 0 ++ (bytes16 pid.toUInt16 ++ (bytes16 seq ++
    (V6Info.bytes ⟨fuzz, pid, index.toUInt32, seq.toUInt32, tv⟩ ++ idData m))))

theorem icmp6Echo_words (src dst : BitVec 128) (pid : UInt32) (index seq : UInt16) (tv : Duration) (size : UInt16)
    (paris : Option UInt16) :
    ∃ fuzz, icmp6Echo src dst pid index seq tv size paris =
        echo6 pid index seq tv (max size.toNat 32 - 32) fuzz ∧
      ∀ p, paris = some p → fuzz = fudge (cksumWith (pseudo6 src dst
        (UInt32.ofNat (8 + max size.toNat 32)) IPPROTO_ICMPV6) (echo6 pid index seq tv (max size.toNat 32 - 32) 0))
        (p + 1) := by
  obtain ⟨m, hm⟩ : ∃ m, max size.toNat 32 = 32 + m := ⟨max size.toNat 32 - 32, by omega⟩
  have hlen : ICMP_HDR + max size.toNat V6INFO_LEN - ICMP_HDR = 32 + m := by rw [V6INFO_LEN, hm]; omega
  have hall : ICMP_HDR + max size.toNat V6INFO_LEN = 8 + (32 + m) := by rw [V6INFO_LEN, hm, ICMP_HDR]
  unfold icmp6Echo
  dsimp only
  rw [hlen, hm, Nat.add_sub_cancel_left, hall]
  have hfill : ∀ fuzz, fill (splice ([128, 0, 0, 0] ++ bytes16 pid.toUInt16 ++ bytes16 seq ++
      List.replicate (32 + m) 0) ICMP_HDR (V6Info.bytes ⟨fuzz, pid, index.toUInt32, seq.toUInt32, tv⟩))
      (ICMP_HDR + V6INFO_LEN) = echo6 pid index seq tv m fuzz := by
    intro fuzz
    have hhead : [128, 0, 0, 0] ++ bytes16 pid.toUInt16 ++ bytes16 seq =
        128 :: 0 :: (bytes16 0 ++ (bytes16 pid.toUInt16 ++ bytes16 seq)) := rfl
    have hecho : echo6 pid index seq tv m fuzz = (128 :: 0 :: (bytes16 0 ++ (bytes16 pid.toUInt16 ++ bytes16 seq))) ++
        (V6Info.bytes ⟨fuzz, pid, index.toUInt32, seq.toUInt32, tv⟩ ++ idData m) := rfl
    rw [hecho, hhead, List.replicate_add, splice_append (i := ICMP_HDR) (by simp [ICMP_HDR]) (by simp [V6INFO_LEN]),
      ← List.append_assoc, fill_eq (by simp [ICMP_HDR, V6INFO_LEN]; omega),
      List.take_left' (by simp [ICMP_HDR, V6INFO_LEN]), List.append_assoc]
    congr 3
    simp [ICMP_HDR, V6INFO_LEN]
    omega
  rw [hfill]
  cases paris with
  | none => exact ⟨0, rfl, fun p hp => nomatch hp⟩
  | some paris =>
    have hfuzz : ∀ info info' : V6Info, splice ((128 :: 0 :: (bytes16 0 ++ (bytes16 pid.toUInt16 ++ bytes16 seq))) ++
        (info.bytes ++ idData m)) ICMP_HDR info'.bytes =
        (128 :: 0 :: (bytes16 0 ++ (bytes16 pid.toUInt16 ++ bytes16 seq))) ++ (info'.bytes ++ idData m) :=
      fun info info' => splice_append (by simp [ICMP_HDR]) (by simp) _
    exact ⟨_, hfuzz _ _, fun p hp => by rw [Option.some.inj hp]⟩

theorem icmp6Echo_eq (src dst : BitVec 128) (pid : UInt32) (index seq : UInt16) (tv : Duration) (size : UInt16)
    (paris : Option UInt16) :
    ∃ fuzz, icmp6Echo src dst pid index seq tv size paris =
      128 :: 0 :: (bytes16 0 ++ (bytes16 pid.toUInt16 ++ (bytes16 seq ++
        (V6Info.bytes ⟨fuzz, pid, index.toUInt32, seq.toUInt32, tv⟩ ++ idData (max size.toNat 32 - 32))))) := by
  obtain ⟨fuzz, hfuzz, -⟩ := icmp6Echo_words src dst pid index seq tv size paris
  exact ⟨fuzz, hfuzz⟩

theorem udp6Payload_eq (pid : UInt32) (index seq : UInt16) (tv : Duration) (size : UInt16) :
    udp6Payload pid index seq tv size =
      V6Info.bytes ⟨0, pid, index.toUInt32, seq.toUInt32, tv⟩ ++ idData (max size.toNat 32 - 32) := by
  obtain ⟨m, hm⟩ : ∃ m, max size.toNat V6INFO_LEN = 32 + m := ⟨max size.toNat 32 - 32, by
    rw [V6INFO_LEN]; omega⟩
  have hm' : max size.toNat 32 = 32 + m := hm
  unfold udp6Payload
  dsimp only
  have hsplice : ∀ info : V6Info, splice (List.replicate 32 0 ++ List.replicate m 0) 0 info.bytes =
      info.bytes ++ List.replicate m 0 := fun info => by
    have hlen : (List.replicate 32 (0 : UInt8)).length = info.bytes.length := by simp [V6INFO_LEN]
    have h := splice_append (a := []) (i := 0) rfl hlen (List.replicate m 0)
    rwa [List.nil_append, List.nil_append] at h
  rw [hm, hm', Nat.add_sub_cancel_left, List.replicate_add, hsplice, fill_eq (by simp),
    List.take_left' (by simp)]
  congr 2
  simp [V6INFO_LEN]

theorem udpDatagram_eq (ph : List UInt8) (sport dport : UInt16) (payload : List UInt8) :
    ∃ len c, udpDatagram ph sport dport payload =
        bytes16 sport ++ (bytes16 dport ++ (bytes16 len ++ (bytes16 c ++ payload))) ∧
      c = if foldNot (sum16 payload (sum16 (udpHeader sport dport (UInt16.ofNat (8 + payload.length)))
        (sum16 ph 0))) = 0 then 0xffff else
        foldNot (sum16 payload (sum16 (udpHeader sport dport (UInt16.ofNat (8 + payload.length))) (sum16 ph 0))) :=
  ⟨_, _, rfl, rfl⟩

theorem tcpSyn_eq (src dst : IpAddr) (sport dport index seq size : UInt16) :
    ∃ tail, tcpSyn src dst sport dport index seq size =
        bytes16 sport ++ (bytes16 dport ++ (bytes32 (index.toUInt32 <<< 16 ||| seq.toUInt32) ++ tail)) ∧
      tail.length = 12 + size.toNat := by
  have hfill : fill (bytes16 sport ++ bytes16 dport ++ bytes32 (index.toUInt32 <<< 16 ||| seq.toUInt32) ++
      [0, 0, 0, 0] ++ [0x50, 0x02] ++ List.replicate (6 + size.toNat) 0) TCP_HDR =
      (bytes16 sport ++ (bytes16 dport ++ (bytes32 (index.toUInt32 <<< 16 ||| seq.toUInt32) ++
        [0, 0, 0, 0, 0x50, 0x02, 0, 0]))) ++ ([0, 0] ++ ([0, 0] ++ idData size.toNat)) := by
    rw [fill_eq (by simp [TCP_HDR]; omega), List.replicate_add]
    have hlen : ∀ n, (bytes16 sport ++ bytes16 dport ++ bytes32 n ++ [0, 0, 0, 0] ++ [0x50, 0x02] ++
        (List.replicate 6 0 ++ List.replicate size.toNat 0)).length - TCP_HDR = size.toNat := by
      intro n
      simp [TCP_HDR]
      omega
    rw [hlen]
    rfl
  obtain ⟨c, hc⟩ : ∃ c, tcpSyn src dst sport dport index seq size = splice (fill (bytes16 sport ++
      bytes16 dport ++ bytes32 (index.toUInt32 <<< 16 ||| seq.toUInt32) ++ [0, 0, 0, 0] ++ [0x50, 0x02] ++
      List.replicate (6 + size.toNat) 0) TCP_HDR) 16 (bytes16 c) := ⟨_, rfl⟩
  rw [hc, hfill, splice_append (i := 16) (by simp) (by simp)]
  refine ⟨[0, 0, 0, 0, 0x50, 0x02, 0, 0] ++ (bytes16 c ++ ([0, 0] ++ idData size.toNat)), ?_, ?_⟩
  · simp only [List.append_assoc]
  · simp
    omega

end Starla.Proof.Traceroute
