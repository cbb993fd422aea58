import Starla.Impl.Traceroute.Engine
import Starla.Proof.Traceroute.Wire

/-!
# Replies to a probe

The packets a probe can cause (`Reply`): the destination's echo reply, an ICMP
error that quotes the whole probe, and the destination's TCP answer. Whatever a
router or the destination may put into them is arbitrary.

* `parseIcmp4_error`, `parseIcmp6_error` : what an error is read by.
* `parseIcmp4_echo`, `parseIcmp6_echo`, `parseTcp_answer` : the destination's own.
-/

namespace Starla.Proof.Traceroute

open Starla.Framework Starla.Impl.Controller Starla.Impl.Measurements Starla.Impl.Traceroute

/-- An IPv4 header with its options. -/
def IsHeader4 (h : List UInt8) : Prop := 20 ≤ h.length ∧ h.length = (byteAt h 0 &&& 0x0f).toNat * 4

instance (h : List UInt8) : Decidable (IsHeader4 h) := inferInstanceAs (Decidable (_ ∧ _))

/-- An IPv6 options header after its first byte. -/
def IsOptions (o : List UInt8) : Prop := o.length = 8 * (byteAt o 0).toNat + 7

instance (o : List UInt8) : Decidable (IsOptions o) := inferInstanceAs (Decidable (_ = _))

/-- A packet behind an options header, if there is one: what names it, and the bytes. -/
def inOptions (kind : UInt8) (options : Option (List UInt8)) (packet : UInt8 × List UInt8) : UInt8 × List UInt8 :=
  match options with
  | some o => (kind, packet.1 :: (o ++ packet.2))
  | none => packet

/-- What follows the IPv6 header. -/
def afterHeader6 (hop dst : Option (List UInt8)) (packet : UInt8 × List UInt8) : UInt8 × List UInt8 :=
  inOptions IPPROTO_HOPOPTS hop (inOptions IPPROTO_DSTOPTS dst packet)

/-- The IP header of a reply comes with it over IPv4 only. -/
inductive Reply
  | echo (header : List UInt8) (cksum : UInt16)
  /-- `rest` : what the router adds to the quoted packet. -/
  | error (header : List UInt8) (kind code : UInt8) (cksum : UInt16) (word : UInt32) (quoted : List UInt8)
      (hop dst : Option (List UInt8)) (rest : List UInt8)
  /-- `acked` : how much of the probe's data is acknowledged with its SYN. -/
  | tcp (header : List UInt8) (seqno : UInt32) (acked : Nat) (offset flags : UInt8) (tail : List UInt8)

/-- The sequence number of a TCP probe's header. -/
def tcpSeq (s : Sender) (seq : UInt16) : UInt32 := s.index.toUInt32 <<< 16 ||| seq.toUInt32

namespace Reply

/-- Whether it comes to the TCP socket. -/
def ofTcp : Reply → Bool
  | .tcp .. => true
  | _ => false

/-- The packet, `sent` being the probe's. -/
def packet (s : Sender) (seq : UInt16) (sent : UInt8 × List UInt8) : Reply → List UInt8
  | .echo header cksum => header ++ ((if s.ends.isV6 then 129 else 0) :: 0 :: (bytes16 cksum ++ sent.2.drop 4))
  | .error header kind code cksum word quoted hop dst rest =>
    header ++ (kind :: code :: (bytes16 cksum ++ (bytes32 word ++ (quoted ++
      ((afterHeader6 hop dst sent).2 ++ rest)))))
  | .tcp header seqno acked offset flags tail =>
    header ++ (bytes16 s.destPort ++ (bytes16 s.local' ++ (bytes32 seqno ++
      (bytes32 (tcpSeq s seq + 1 + UInt32.ofNat acked) ++ (offset :: flags :: tail)))))

end Reply

/-- An answer whose outcome is one that its branch gives. -/
def Fitting (a : Answer) : Prop :=
  match a.branch with
  | .v4ErrL4 | .v4ErrIcmp | .v6Err => a.outcome ≠ .echoReply ∧ a.outcome ≠ .tcp
  | .v4Echo | .v6Echo => a.outcome = .echoReply
  | .v4Tcp | .v6Tcp => a.outcome = .tcp

theorem fitting_error {a : Answer} (hb : a.branch ∈ [Branch.v4ErrL4, .v4ErrIcmp, .v6Err])
    (ho : a.outcome ≠ .echoReply ∧ a.outcome ≠ .tcp) : Fitting a := by
  simp only [List.mem_cons, List.not_mem_nil, or_false] at hb
  unfold Fitting
  rcases hb with hb | hb | hb <;> rw [hb] <;> exact ho

/-! ## IPv4 -/

section
variable {header quoted : List UInt8} (id : TraceId) (sender : BitVec 32) (cur : UInt16)

/-- A header is a first byte that gives its length, and the rest. -/
theorem IsHeader4.drop (h : IsHeader4 header) (b : List UInt8) :
    (header ++ b).drop ((byteAt header 0 &&& 0x0f).toNat * 4) = b := by
  rw [← h.2, List.drop_left]

theorem IsHeader4.head? (h : IsHeader4 header) (b : List UInt8) :
    (header ++ b).head? = some (byteAt header 0) := by
  cases header with
  | nil => exact absurd h.1 (by decide)
  | cons a as => rfl

theorem IsHeader4.five_le (h : IsHeader4 header) : ¬ (byteAt header 0 &&& 0x0f).toNat < 5 := by
  have h₁ := h.1
  have h₂ := h.2
  generalize (byteAt header 0 &&& 0x0f).toNat = ihl at *
  omega

/-- The header comes whole, with what follows it. -/
theorem IsHeader4.whole (h : IsHeader4 header) {b : List UInt8} {n : Nat} (hb : n ≤ b.length) :
    ¬ ((header ++ b).length < (byteAt header 0 &&& 0x0f).toNat * 4 + n ∨ (byteAt header 0 &&& 0x0f).toNat < 5) := by
  rw [← h.2, List.length_append]
  rintro (hlt | hlt)
  · omega
  · exact h.five_le hlt

theorem bind_some_eq_map {α β : Type} (q : Option α) (f : α → β) : (q.bind fun x => some (f x)) = q.map f := by
  cases q <;> rfl

/-- A chain of checks, read as one. -/
theorem ite_none_eq {α : Type} {p q : Prop} [Decidable p] [Decidable q] (h : q ↔ ¬ p) (x : Option α) :
    (if p then none else x) = if q then x else none := by
  by_cases hp : p
  · rw [if_pos hp, if_neg fun hq => h.mp hq hp]
  · rw [if_neg hp, if_pos (h.mpr hp)]

theorem ite_ite_none {α : Type} {p q : Prop} [Decidable p] [Decidable q] (x : Option α) :
    (if p then (if q then x else none) else none) = if p ∧ q then x else none := by
  by_cases hp : p
  · by_cases hq : q
    · rw [if_pos hp, if_pos hq, if_pos (And.intro hp hq)]
    · rw [if_pos hp, if_neg hq, if_neg (not_and_of_not_right p hq)]
  · rw [if_neg hp, if_neg (not_and_of_not_left q hp)]

theorem be16_isSome {b : List UInt8} {i : Nat} (h : i + 2 ≤ b.length) : ∃ n, be16 b i = some n :=
  ⟨_, if_pos h⟩

theorem be32_isSome {b : List UInt8} {i : Nat} (h : i + 4 ≤ b.length) : ∃ n, be32 b i = some n :=
  ⟨_, if_pos h⟩

/-- An error is read by the packet it quotes. -/
theorem parseIcmp4_error (hh : IsHeader4 header) (hq : IsHeader4 quoted) {kind : UInt8}
    (hk : kind = 11 ∨ kind = 3) (code : UInt8) (cksum : UInt16) (word : UInt32) (l4 : List UInt8) :
    ∃ f : Branch × UInt32 × UInt32 → Answer,
      (∀ x, (f x).branch = x.1 ∧ (f x).seq = x.2.1 ∧ (f x).outcome ≠ .echoReply ∧ (f x).outcome ≠ .tcp) ∧
      parseIcmp4 id (header ++ (kind :: code :: (bytes16 cksum ++ (bytes32 word ++ (quoted ++ l4))))) sender cur =
        (quotedIcmp4 id (byteAt quoted 9) l4 cur).map f := by
  have hproto : byteAt (quoted ++ l4) 9 = byteAt quoted 9 := byteAt_append_left (by have := hq.1; omega) l4
  generalize hicmp : kind :: code :: (bytes16 cksum ++ (bytes32 word ++ (quoted ++ l4))) = icmp
  have hkind : byteAt icmp 0 = kind := by rw [← hicmp]; rfl
  have heip : icmp.drop ICMP_HDR = quoted ++ l4 := by rw [← hicmp]; rfl
  have hlen : ICMP_HDR ≤ icmp.length := by rw [← hicmp]; simp [ICMP_HDR]; omega
  obtain ⟨mtu, hmtu⟩ := be16_isSome (i := 6) hlen
  unfold parseIcmp4
  rw [hh.head?]
  simp only [Option.bind_eq_bind, Option.bind_some]
  rw [hh.drop, if_neg (hh.whole hlen), hkind, if_pos hk, heip, hq.head?]
  simp only [Option.bind_some]
  have hqlen : ¬ ((quoted ++ l4).length < (byteAt quoted 0 &&& 0x0f).toNat * 4 ∨
      (byteAt quoted 0 &&& 0x0f).toNat < 5) := hq.whole (n := 0) (Nat.zero_le _)
  rw [if_neg hqlen, hq.drop, hproto, hmtu]
  generalize quotedIcmp4 id (byteAt quoted 9) l4 cur = q
  by_cases hte : kind = 11
  · simp only [hte, if_true]
    exact ⟨_, fun x => ⟨rfl, rfl, by simp, by simp⟩, bind_some_eq_map q _⟩
  · by_cases hcode : byteAt icmp 1 = 4
    · simp only [hte, hcode, if_true, if_false, Option.map_some, Option.bind_some]
      exact ⟨_, fun x => ⟨rfl, rfl, by simp, by simp⟩, bind_some_eq_map q _⟩
    · simp only [hte, hcode, if_false]
      exact ⟨_, fun x => ⟨rfl, rfl, by simp, by simp⟩, bind_some_eq_map q _⟩

/-- An echo reply is read by its id, its sequence number and its data. -/
theorem parseIcmp4_echo (hh : IsHeader4 header) (cksum eid seq : UInt16) (data : List UInt8) :
    ∃ a : Answer, a.branch = .v4Echo ∧ a.outcome = .echoReply ∧ a.seq = seq.toUInt32 ∧
      parseIcmp4 id (header ++ (0 :: 0 :: (bytes16 cksum ++ (bytes16 eid ++ (bytes16 seq ++ data))))) sender cur =
        if id.protocol = .ICMP ∧ eid >>> 12 = 0 ∧ eid &&& 0x0fff = id.index ∧ carriesIdString data = true then some a
        else none := by
  generalize hicmp : (0 : UInt8) :: 0 :: (bytes16 cksum ++ (bytes16 eid ++ (bytes16 seq ++ data))) = icmp
  have hkind : byteAt icmp 0 = 0 := by rw [← hicmp]; rfl
  have hcode : byteAt icmp 1 = 0 := by rw [← hicmp]; rfl
  have hdata : icmp.drop ICMP_HDR = data := by rw [← hicmp]; rfl
  have heid : be16 icmp 4 = some eid := by
    rw [← hicmp]
    exact be16_append (a := 0 :: 0 :: bytes16 cksum) (by simp) eid _
  have hseq : be16 icmp 6 = some seq := by
    rw [← hicmp]
    exact be16_append (a := 0 :: 0 :: (bytes16 cksum ++ bytes16 eid)) (by simp) seq _
  have hlen : ICMP_HDR ≤ icmp.length := by rw [← hicmp]; simp [ICMP_HDR]; omega
  unfold parseIcmp4
  rw [hh.head?]
  simp only [Option.bind_eq_bind, Option.bind_some]
  rw [hh.drop, if_neg (hh.whole hlen), hkind, hcode, heid, hseq, hdata]
  simp only [show ¬ ((0 : UInt8) = 11 ∨ (0 : UInt8) = 3) by decide, if_false, true_and, ne_eq, not_true_eq_false,
    Option.bind_some]
  refine ⟨{
    branch := .v4Echo, outcome := .echoReply, seq := seq.toUInt32, sender := .v4 sender
    ttl := (byteAt (header ++ icmp) 8).toNat, tos := (byteAt (header ++ icmp) 1).toNat
    size := (header ++ icmp).length - IPHDR - ICMP_HDR }, rfl, rfl, rfl, ?_⟩
  rw [Option.bind_none, ite_none_eq (q := eid >>> 12 = 0 ∧ eid &&& 0x0fff = id.index ∧
    carriesIdString data = true) (by simp only [not_or, not_not, Bool.not_eq_true', Bool.not_eq_false]), ite_ite_none]

/-! ### Which probe is quoted -/

theorem quotedIcmp4_tcp (sport dport : UInt16) (tseq : UInt32) (tail : List UInt8) :
    quotedIcmp4 id IPPROTO_TCP (bytes16 sport ++ (bytes16 dport ++ (bytes32 tseq ++ tail))) cur =
      if id.protocol = .TCP ∧ sport = SRC_BASE_PORT + id.index ∧ (tseq >>> 16).toUInt16 = id.index then
        some (.v4ErrL4, tseq &&& 0xffff, UInt32.ofNat TCP_HDR)
      else none := by
  have hlen : ¬ (bytes16 sport ++ (bytes16 dport ++ (bytes32 tseq ++ tail))).length < 8 := by simp; omega
  have hseq : be32 (bytes16 sport ++ (bytes16 dport ++ (bytes32 tseq ++ tail))) 4 = some tseq := by
    rw [← List.append_assoc]
    exact be32_append (by simp) tseq tail
  unfold quotedIcmp4
  rw [be16_zero, hseq, if_neg hlen]
  simp only [show IPPROTO_TCP ≠ IPPROTO_UDP by decide, show IPPROTO_TCP ≠ IPPROTO_ICMP by decide, true_and,
    false_and, if_false, Option.bind_eq_bind, Option.bind_some]
  rw [Option.bind_none, ite_none_eq (q := sport = SRC_BASE_PORT + id.index ∧ (tseq >>> 16).toUInt16 = id.index)
    (by simp only [ne_eq, not_or, not_not]), ite_ite_none]

theorem quotedIcmp4_udp (sport dport len c : UInt16) (payload : List UInt8) :
    quotedIcmp4 id IPPROTO_UDP (bytes16 sport ++ (bytes16 dport ++ (bytes16 len ++ (bytes16 c ++ payload)))) cur =
      if id.protocol = .UDP ∧ sport = SRC_BASE_PORT + id.index then
        some (.v4ErrL4, if id.paris.isSome then (min c cur).toUInt32 else dport.toUInt32 - BASE_PORT.toUInt32, 8)
      else none := by
  generalize hl4 : bytes16 sport ++ (bytes16 dport ++ (bytes16 len ++ (bytes16 c ++ payload))) = l4
  have hlen : ¬ l4.length < 8 := by rw [← hl4]; simp; omega
  have hsport : be16 l4 0 = some sport := by rw [← hl4]; exact be16_zero _ _
  have hdport : be16 l4 2 = some dport := by rw [← hl4]; exact be16_append (by simp) _ _
  have hc : be16 l4 6 = some c := by
    rw [← hl4, ← List.append_assoc, ← List.append_assoc]
    exact be16_append (by simp) _ _
  unfold quotedIcmp4
  rw [hsport, hdport, hc]
  simp only [hlen, show IPPROTO_UDP ≠ IPPROTO_TCP by decide, show IPPROTO_UDP ≠ IPPROTO_ICMP by decide, true_and,
    false_and, if_false, Option.bind_eq_bind, Option.bind_some, Option.bind_none, Option.map_some]
  rw [ite_none_eq (p := sport ≠ SRC_BASE_PORT + id.index) (q := sport = SRC_BASE_PORT + id.index)
    Decidable.not_not.symm, ite_ite_none]
  cases id.paris.isSome <;> rfl

theorem quotedIcmp4_icmp (c eid seq : UInt16) (data : List UInt8) :
    quotedIcmp4 id IPPROTO_ICMP (8 :: 0 :: (bytes16 c ++ (bytes16 eid ++ (bytes16 seq ++ data)))) cur =
      if id.protocol = .ICMP ∧ eid >>> 12 = 0 ∧ eid &&& 0x0fff = id.index ∧ carriesIdString data = true then
        some (.v4ErrIcmp, seq.toUInt32, 8)
      else none := by
  generalize hl4 : (8 : UInt8) :: 0 :: (bytes16 c ++ (bytes16 eid ++ (bytes16 seq ++ data))) = l4
  have hlen : ¬ (l4.length < 8 ∨ byteAt l4 0 ≠ 8 ∨ byteAt l4 1 ≠ 0) := by
    rw [← hl4]
    simp [byteAt]
    omega
  have heid : be16 l4 4 = some eid := by
    rw [← hl4]
    exact be16_append (a := 8 :: 0 :: bytes16 c) (by simp) eid _
  have hseq : be16 l4 6 = some seq := by
    rw [← hl4]
    exact be16_append (a := 8 :: 0 :: (bytes16 c ++ bytes16 eid)) (by simp) seq _
  have hdata : l4.drop 8 = data := by rw [← hl4]; rfl
  unfold quotedIcmp4
  rw [heid, hseq, hdata, if_neg hlen]
  simp only [show IPPROTO_ICMP ≠ IPPROTO_TCP by decide, show IPPROTO_ICMP ≠ IPPROTO_UDP by decide, true_and,
    false_and, if_false, Option.bind_eq_bind, Option.bind_some, Option.bind_none]
  rw [ite_none_eq (q := eid >>> 12 = 0 ∧ eid &&& 0x0fff = id.index ∧ carriesIdString data = true)
    (by simp only [ne_eq, not_or, not_not, Bool.not_eq_true', Bool.not_eq_false]), ite_ite_none]

end

/-! ## IPv6 -/

/-- An options header is passed over. -/
theorem optionsHeader_append {pre o : List UInt8} {ptr : Nat} (hptr : pre.length = ptr) (ho : IsOptions o)
    (nxt : UInt8) (b : List UInt8) :
    ∃ opt, optionsHeader (pre ++ (nxt :: (o ++ b))) ptr = some (nxt, opt, ptr + (1 + o.length)) := by
  subst hptr
  have hne : 0 < o.length := by unfold IsOptions at ho; omega
  have hnxt : byteAt (pre ++ (nxt :: (o ++ b))) pre.length = nxt := by
    exact byteAt_append_right rfl (nxt :: (o ++ b)) 0 (a := pre)
  have hlen : byteAt (pre ++ (nxt :: (o ++ b))) (pre.length + 1) = byteAt o 0 := by
    rw [byteAt_append_right rfl]
    exact byteAt_append_left hne b
  have hopt : (8 * (byteAt o 0).toUInt32).toNat = 8 * (byteAt o 0).toNat := by
    have := (byteAt o 0).toNat_lt
    rw [UInt32.toNat_mul, UInt8.toNat_toUInt32]
    show 8 * (byteAt o 0).toNat % 2 ^ 32 = _
    omega
  unfold IsOptions at ho
  unfold optionsHeader
  rw [hnxt, hlen]
  dsimp only
  have hlength : (pre ++ (nxt :: (o ++ b))).length = pre.length + (1 + o.length + b.length) := by
    rw [List.length_append, List.length_cons, List.length_append]
    omega
  rw [hopt, hlength, if_neg (by omega), if_neg (by omega)]
  have hend : pre.length + (8 * (byteAt o 0).toNat + 8) = pre.length + (1 + o.length) := by omega
  rw [hend]
  exact ⟨_, rfl⟩

/-- What reads an options header that may be there stands at the packet after it. -/
theorem options_append {kind : UInt8} {options : Option (List UInt8)} (ho : ∀ o ∈ options, IsOptions o)
    {packet : UInt8 × List UInt8} (hk : packet.1 ≠ kind) {f : UInt8 × UInt32 × Nat → Headers}
    (hf : ∀ x, (f x).nxt = x.1 ∧ (f x).ptr = x.2.2) {pre : List UInt8} {h : Headers} (hptr : pre.length = h.ptr)
    (hnxt : h.nxt = (inOptions kind options packet).1) (rest : List UInt8) :
    ∃ pre' h', pre ++ ((inOptions kind options packet).2 ++ rest) = pre' ++ (packet.2 ++ rest) ∧
      pre'.length = h'.ptr ∧ h'.nxt = packet.1 ∧
      (if h.nxt = kind then
          (optionsHeader (pre ++ ((inOptions kind options packet).2 ++ rest)) h.ptr).map f
        else some h) = some h' := by
  cases options with
  | none =>
    refine ⟨pre, h, rfl, hptr, hnxt, ?_⟩
    rw [if_neg (by rw [hnxt]; exact hk)]
  | some o =>
    have hb : pre ++ ((inOptions kind (some o) packet).2 ++ rest) = pre ++ (packet.1 :: (o ++ (packet.2 ++ rest))) := by
      rw [← List.append_assoc o]
      rfl
    obtain ⟨opt, hopt⟩ := optionsHeader_append hptr (ho o rfl) packet.1 (packet.2 ++ rest)
    refine ⟨pre ++ (packet.1 :: o), f (packet.1, opt, h.ptr + (1 + o.length)), ?_, ?_, (hf _).1, ?_⟩
    · rw [hb, List.append_assoc, List.cons_append]
    · rw [(hf _).2, List.length_append, List.length_cons, hptr]
      show h.ptr + (o.length + 1) = h.ptr + (1 + o.length)
      omega
    · have hkind : h.nxt = kind := hnxt
      rw [if_pos hkind, hb, hopt]
      rfl

theorem be32_append_right {a : List UInt8} {i : Nat} (h : a.length = i) (b : List UInt8) (j : Nat) :
    be32 (a ++ b) (i + j) = be32 b j := by
  unfold be32
  rw [← h, List.drop_append, List.length_append, List.drop_eq_nil_of_le (Nat.le_add_right _ j),
    Nat.add_sub_cancel_left, List.nil_append]
  by_cases hj : j + 4 ≤ b.length
  · rw [if_pos hj, if_pos (by omega)]
  · rw [if_neg hj, if_neg (by omega)]

/-- The fields of a quoted IPv6 probe that tell whose it is. -/
def quotedIcmp6 (id : TraceId) (nxt : UInt8) (l4 : List UInt8) : Option (UInt32 × Option Duration) :=
  if nxt = IPPROTO_TCP then
    (be32 l4 4).bind fun tseq =>
      if (tseq >>> 16).toUInt16 ≠ id.index then none else some (tseq &&& 0xffff, none)
  else
    (V6Info.read (l4.drop 8)).bind fun info =>
      if info.pid ≠ id.pid ∨ info.id ≠ id.index.toUInt32 then none else some (info.seq, some info.tv)

section
variable (id : TraceId) (sender : BitVec 128) (hoplimit tclass : Int)

theorem inOptions_mem {kind nxt : UInt8} (options : Option (List UInt8)) (packet : UInt8 × List UInt8)
    (hk : kind ∈ quotedNext) (hp : packet.1 ∈ quotedNext) (h : nxt = (inOptions kind options packet).1) :
    nxt ∈ quotedNext := by
  rw [h]
  cases options with
  | none => exact hp
  | some o => exact hk

/-- An error is read by the packet it quotes, behind the options headers. -/
theorem parseIcmp6_error {quoted : List UInt8} (hq : quoted.length = 40) {kind : UInt8} (hk : 1 ≤ kind ∧ kind ≤ 3)
    {hop dst : Option (List UInt8)} (hhop : ∀ o ∈ hop, IsOptions o) (hdst : ∀ o ∈ dst, IsOptions o)
    {sent : UInt8 × List UInt8} (hs : sent.1 ∈ [IPPROTO_TCP, IPPROTO_UDP, IPPROTO_ICMPV6])
    (hnxt : byteAt quoted 6 = (afterHeader6 hop dst sent).1)
    (hlen : (if sent.1 = IPPROTO_TCP then TCP_HDR else 8 + V6INFO_LEN) ≤ sent.2.length)
    (code : UInt8) (cksum : UInt16) (word : UInt32) (rest : List UInt8) :
    ∃ f : UInt32 × Option Duration → Answer,
      (∀ x, (f x).branch = .v6Err ∧ (f x).seq = x.1 ∧ (f x).outcome ≠ .echoReply ∧ (f x).outcome ≠ .tcp) ∧
      parseIcmp6 id (kind :: code :: (bytes16 cksum ++ (bytes32 word ++ (quoted ++ ((afterHeader6 hop dst sent).2 ++
        rest))))) sender hoplimit tclass =
        if quotedProtocol sent.1 = id.protocol then (quotedIcmp6 id sent.1 (sent.2 ++ rest)).map f else none := by
  obtain ⟨pre, hpre, hlpre⟩ : ∃ pre, kind :: code :: (bytes16 cksum ++ (bytes32 word ++ (quoted ++
      ((afterHeader6 hop dst sent).2 ++ rest)))) = pre ++ ((afterHeader6 hop dst sent).2 ++ rest) ∧ pre.length = 48 :=
    ⟨kind :: code :: (bytes16 cksum ++ (bytes32 word ++ quoted)), by simp, by simp [hq]⟩
  have hkind : byteAt (pre ++ ((afterHeader6 hop dst sent).2 ++ rest)) 0 = kind := by rw [← hpre]; rfl
  have heip : (pre ++ ((afterHeader6 hop dst sent).2 ++ rest)).drop ICMP_HDR =
      quoted ++ ((afterHeader6 hop dst sent).2 ++ rest) := by
    rw [← hpre]
    rfl
  have hnxt' : byteAt (quoted ++ ((afterHeader6 hop dst sent).2 ++ rest)) 6 = (afterHeader6 hop dst sent).1 := by
    rw [byteAt_append_left (by omega), hnxt]
  rw [hpre]
  have hs' : sent.1 ≠ IPPROTO_HOPOPTS ∧ sent.1 ≠ IPPROTO_FRAGMENT ∧ sent.1 ≠ IPPROTO_DSTOPTS ∧
      sent.1 ∈ quotedNext := by
    revert hs
    generalize sent.1 = nxt
    intro hs
    simp only [List.mem_cons, List.not_mem_nil, or_false] at hs
    rcases hs with rfl | rfl | rfl <;> decide
  have hhop' : (inOptions IPPROTO_DSTOPTS dst sent).1 ≠ IPPROTO_HOPOPTS := by
    cases dst with
    | none => exact hs'.1
    | some o => exact show IPPROTO_DSTOPTS ≠ IPPROTO_HOPOPTS by decide
  have hfrag : (inOptions IPPROTO_DSTOPTS dst sent).1 ≠ IPPROTO_FRAGMENT := by
    cases dst with
    | none => exact hs'.2.1
    | some o => exact show IPPROTO_DSTOPTS ≠ IPPROTO_FRAGMENT by decide
  have hmem : (afterHeader6 hop dst sent).1 ∈ quotedNext :=
    inOptions_mem hop _ (by decide) (inOptions_mem dst sent (by decide) hs'.2.2.2 rfl) rfl
  -- the walk over the headers
  obtain ⟨pre₁, h₁, hb₁, hp₁, hn₁, hw₁⟩ := options_append hhop hhop'
    (f := fun x => { ({ nxt := (afterHeader6 hop dst sent).1, ptr := 48 } : Headers) with
      nxt := x.1, ptr := x.2.2, hbh := x.2.1 })
    (fun x => ⟨rfl, rfl⟩) (h := { nxt := (afterHeader6 hop dst sent).1, ptr := 48 }) hlpre rfl rest
  obtain ⟨pre₂, h₂, hb₂, hp₂, hn₂, hw₂⟩ := options_append hdst hs'.2.2.1
    (f := fun x => { h₁ with nxt := x.1, ptr := x.2.2, dst := x.2.1 }) (fun x => ⟨rfl, rfl⟩) hp₁ hn₁ rest
  have hl : (pre ++ ((afterHeader6 hop dst sent).2 ++ rest)).length = h₂.ptr + (sent.2 ++ rest).length := by
    rw [afterHeader6, hb₁, hb₂, List.length_append, hp₂]
  have hword : ∃ n, be32 (pre ++ ((afterHeader6 hop dst sent).2 ++ rest)) 4 = some n :=
    be32_isSome (by rw [List.length_append, hlpre]; omega)
  have hword' : ∃ n, be32 (quoted ++ ((afterHeader6 hop dst sent).2 ++ rest)) 0 = some n :=
    be32_isSome (by rw [List.length_append, hq]; omega)
  obtain ⟨mtu, hmtu⟩ := hword
  obtain ⟨flow, hflow⟩ := hword'
  have hseq : be32 (pre ++ ((afterHeader6 hop dst sent).2 ++ rest)) (h₂.ptr + 4) = be32 (sent.2 ++ rest) 4 := by
    rw [afterHeader6, hb₁, hb₂, be32_append_right hp₂]
  have hinfo : (pre ++ ((afterHeader6 hop dst sent).2 ++ rest)).drop (h₂.ptr + 8) = (sent.2 ++ rest).drop 8 := by
    rw [afterHeader6, hb₁, hb₂, ← hp₂, ← List.drop_drop, List.drop_left]
  have hfragment : fragmentHeader (pre ++ ((afterHeader6 hop dst sent).2 ++ rest)) h₁ = some h₁ := by
    unfold fragmentHeader
    rw [if_neg (by rw [hn₁]; exact hfrag)]
  have hhops : hopOptions (pre ++ ((afterHeader6 hop dst sent).2 ++ rest))
      { nxt := (afterHeader6 hop dst sent).1, ptr := 48 } = some h₁ := hw₁
  have hdsts : dstOptions (pre ++ ((afterHeader6 hop dst sent).2 ++ rest)) h₁ = some h₂ := by
    rw [afterHeader6, hb₁]
    exact hw₂
  generalize pre ++ ((afterHeader6 hop dst sent).2 ++ rest) = buf at *
  have h8 : ¬ buf.length < ICMP_HDR := by rw [← hpre]; simp [ICMP_HDR]; omega
  have h48 : ¬ buf.length < ICMP_HDR + 40 := by rw [← hpre]; simp [ICMP_HDR, hq]; omega
  unfold parseIcmp6
  rw [if_neg h8]
  dsimp only
  rw [hkind, if_pos hk, heip, hnxt']
  simp only [h48, hmem, not_true_eq_false, if_false, Option.bind_eq_bind, Option.bind_some, Option.bind_none]
  rw [show ({ nxt := (afterHeader6 hop dst sent).1, ptr := ICMP_HDR + 40 } : Headers) =
    { nxt := (afterHeader6 hop dst sent).1, ptr := 48 } from rfl]
  simp only [hhops, hfragment, hdsts, Option.bind_some, hn₂, hseq, hinfo, hmtu, hflow, Option.map_some]
  have houtcome : ∀ o, o = (if kind = 3 then .timeExceeded else if kind = 2 then Outcome.tooBig mtu
      else .unreach (byteAt buf 1)) → o ≠ .echoReply ∧ o ≠ .tcp := by
    rintro o rfl
    split
    · decide
    · split <;> simp
  refine ⟨fun x => {
    branch := .v6Err
    outcome := if kind = 3 then .timeExceeded else if kind = 2 then .tooBig mtu else .unreach (byteAt buf 1)
    seq := x.1, sender := .v6 sender, ttl := hoplimit, tos := tclass
    size := buf.length - ICMP_HDR
    innerTtl := byteAt (quoted ++ ((afterHeader6 hop dst sent).2 ++ rest)) 7
    innerTos := ((flow >>> 20) &&& 0xff).toUInt8
    hbhOptSize := h₂.hbh, dstOptSize := h₂.dst
    innerL4Len := UInt32.ofNat (if sent.1 = IPPROTO_TCP then TCP_HDR else 8)
    sentTv := x.2
    icmpext := icmpExt (quoted ++ ((afterHeader6 hop dst sent).2 ++ rest)) ((byteAt buf 4).toNat * 8) },
    fun x => ⟨rfl, rfl, houtcome _ rfl⟩, ?_⟩
  rw [List.length_append] at hl
  unfold quotedIcmp6
  by_cases htcp : sent.1 = IPPROTO_TCP
  · have hroom : ¬ h₂.ptr + TCP_HDR + 0 > buf.length := by
      rw [if_pos htcp] at hlen
      omega
    obtain ⟨tseq, ht⟩ := be32_isSome (b := sent.2 ++ rest) (i := 4) (by
      rw [if_pos htcp, TCP_HDR] at hlen
      rw [List.length_append]
      omega)
    simp only [htcp, if_true, hroom, if_false, ht, Option.bind_some]
    by_cases hi : (tseq >>> 16).toUInt16 = id.index <;> by_cases hpr : quotedProtocol IPPROTO_TCP = id.protocol <;>
      by_cases h3 : kind = 3 <;> by_cases h2 : kind = 2 <;> simp [hi, hpr, h3, h2]
  · have hroom : ¬ h₂.ptr + 8 + V6INFO_LEN > buf.length := by
      rw [if_neg htcp] at hlen
      omega
    have hread : ∃ info, V6Info.read ((sent.2 ++ rest).drop 8) = some info := by
      rw [if_neg htcp] at hlen
      refine ⟨_, if_neg ?_⟩
      rw [List.length_drop, List.length_append]
      omega
    obtain ⟨info, hi⟩ := hread
    simp only [htcp, if_false, hroom, hi, Option.bind_some]
    by_cases hi : info.pid ≠ id.pid ∨ info.id ≠ id.index.toUInt32 <;>
      by_cases hpr : quotedProtocol sent.1 = id.protocol <;>
      by_cases h3 : kind = 3 <;> by_cases h2 : kind = 2 <;> simp [hi, hpr, h3, h2]

theorem quotedIcmp6_tcp (sport dport : UInt16) (tseq : UInt32) (tail : List UInt8) :
    quotedIcmp6 id IPPROTO_TCP (bytes16 sport ++ (bytes16 dport ++ (bytes32 tseq ++ tail))) =
      if (tseq >>> 16).toUInt16 = id.index then some (tseq &&& 0xffff, none) else none := by
  have hseq : be32 (bytes16 sport ++ (bytes16 dport ++ (bytes32 tseq ++ tail))) 4 = some tseq := by
    rw [← List.append_assoc]
    exact be32_append (by simp) tseq tail
  unfold quotedIcmp6
  rw [if_pos rfl, hseq, Option.bind_some]
  exact ite_none_eq (by rw [ne_eq, not_not]) _

theorem quotedIcmp6_info {nxt : UInt8} (hn : nxt ≠ IPPROTO_TCP) {head : List UInt8} (hh : head.length = 8)
    (info : V6Info) (tail : List UInt8) :
    ∃ tv, quotedIcmp6 id nxt (head ++ (info.bytes ++ tail)) =
      if info.pid = id.pid ∧ info.id = id.index.toUInt32 then some (info.seq, some tv) else none := by
  obtain ⟨tv, htv⟩ := read_bytes info tail
  unfold quotedIcmp6
  rw [if_neg hn, ← hh, List.drop_left, htv, Option.bind_some]
  exact ⟨tv, ite_none_eq (by simp only [ne_eq, not_or, not_not]) _⟩

/-- An echo reply is read by its v6info. -/
theorem parseIcmp6_echo (cksum : UInt16) {head : List UInt8} (hh : head.length = 4) (info : V6Info)
    (data : List UInt8) :
    ∃ a : Answer, a.branch = .v6Echo ∧ a.outcome = .echoReply ∧ a.seq = info.seq ∧
      parseIcmp6 id (129 :: 0 :: (bytes16 cksum ++ (head ++ (info.bytes ++ data)))) sender hoplimit tclass =
        if id.protocol = .ICMP ∧ info.pid = id.pid ∧ info.id = id.index.toUInt32 then some a else none := by
  obtain ⟨tv, htv⟩ := read_bytes info data
  generalize hbuf : (129 : UInt8) :: 0 :: (bytes16 cksum ++ (head ++ (info.bytes ++ data))) = buf
  have hkind : byteAt buf 0 = 129 := by rw [← hbuf]; rfl
  have hlen : ¬ buf.length < ICMP_HDR := by rw [← hbuf]; simp [ICMP_HDR, hh]; omega
  have hdata : buf.drop ICMP_HDR = info.bytes ++ data := by
    rw [← hbuf]
    show (bytes16 cksum ++ (head ++ (info.bytes ++ data))).drop 6 = _
    rw [← List.append_assoc, List.drop_left' (by simp [hh])]
  unfold parseIcmp6
  rw [if_neg hlen]
  dsimp only
  rw [hkind, hdata, if_neg (by decide)]
  simp only [true_and, htv, Option.bind_eq_bind, Option.bind_some, Option.bind_none]
  refine ⟨{
    branch := .v6Echo, outcome := .echoReply, seq := info.seq, sender := .v6 sender, ttl := hoplimit
    tos := tclass, size := buf.length - ICMP_HDR, sentTv := some tv }, rfl, rfl, rfl, ?_⟩
  rw [ite_none_eq (q := info.pid = id.pid ∧ info.id = id.index.toUInt32)
    (by simp only [ne_eq, not_or, not_not]), ite_ite_none]

end

/-! ## TCP -/

/-- The IP header that comes with a packet, its sender's address being of the
family of the trace. -/
def Framed (v6 : Bool) (header : List UInt8) : Prop := if v6 then header = [] else IsHeader4 header

instance (v6 : Bool) (header : List UInt8) : Decidable (Framed v6 header) := by
  unfold Framed
  infer_instance

theorem tcpSegment_append {header : List UInt8} {sender : IpAddr} (hh : Framed sender.isIpv6 header)
    {segment : List UInt8} (hs : TCP_HDR ≤ segment.length) (hoplimit tclass : Int) :
    ∃ ttl tos size branch, branch ∈ [Branch.v4Tcp, .v6Tcp] ∧
      tcpSegment (header ++ segment) sender hoplimit tclass = some (segment, ttl, tos, size, branch) := by
  cases sender with
  | v4 addr =>
    have hh : IsHeader4 header := hh
    unfold tcpSegment
    dsimp only
    rw [hh.head?]
    simp only [Option.bind_eq_bind, Option.bind_some]
    rw [if_neg (hh.whole hs), hh.drop]
    exact ⟨_, _, _, _, by decide, rfl⟩
  | v6 addr =>
    have hh : header = [] := hh
    rw [hh]
    exact ⟨_, _, _, _, by decide, rfl⟩

/-- A segment is read by its destination port and its acknowledgment number. -/
theorem parseTcp_answer (id : TraceId) {header : List UInt8} {sender : IpAddr} (hh : Framed sender.isIpv6 header)
    (sport dport : UInt16) (seqno ack : UInt32) {offset : UInt8} (flags : UInt8) {tail : List UInt8}
    (ho : 5 ≤ (offset >>> 4).toNat) (ht : (offset >>> 4).toNat * 4 ≤ 14 + tail.length) (hoplimit tclass : Int) :
    ∃ a : Answer, a.branch ∈ [Branch.v4Tcp, .v6Tcp] ∧ a.outcome = .tcp ∧ a.seq = ack &&& 0xffff ∧
      parseTcp id (header ++ (bytes16 sport ++ (bytes16 dport ++ (bytes32 seqno ++ (bytes32 ack ++
        (offset :: flags :: tail)))))) sender hoplimit tclass =
        if dport = SRC_BASE_PORT + id.index ∧ (ack >>> 16).toUInt16 = id.index then some a else none := by
  generalize hseg : bytes16 sport ++ (bytes16 dport ++ (bytes32 seqno ++ (bytes32 ack ++
    (offset :: flags :: tail)))) = segment
  have hlen : segment.length = 14 + tail.length := by rw [← hseg]; simp; omega
  have hhdr : TCP_HDR ≤ segment.length := by rw [hlen, TCP_HDR]; omega
  obtain ⟨ttl, tos, size, branch, hbranch, hsegment⟩ := tcpSegment_append hh hhdr hoplimit tclass
  have hoff : byteAt segment 12 = offset := by
    rw [← hseg, ← List.append_assoc, ← List.append_assoc, ← List.append_assoc]
    exact byteAt_append_right (i := 12) (by simp) (offset :: flags :: tail) 0
  have hack : be32 segment 8 = some ack := by
    rw [← hseg, ← List.append_assoc, ← List.append_assoc]
    exact be32_append (by simp) ack _
  have hport : be16 segment 2 = some dport := by
    rw [← hseg]
    exact be16_append (by simp) dport _
  unfold parseTcp
  rw [hsegment]
  simp only [Option.bind_eq_bind, Option.bind_some, Option.bind_none]
  rw [if_neg (Nat.not_lt.mpr hhdr), hoff, hack, hport, hlen, if_neg (by omega)]
  simp only [Option.bind_some]
  refine ⟨{
    branch, outcome := .tcp, seq := ack &&& 0xffff, sender, ttl, tos, size
    flags := tcpFlags (byteAt segment 13)
    hdropts := if (offset >>> 4).toNat * 4 > TCP_HDR then
        some (Impl.Traceroute.hdropts ((segment.take ((offset >>> 4).toNat * 4)).drop TCP_HDR))
      else none }, hbranch, rfl, rfl, ?_⟩
  exact ite_none_eq (by simp only [ne_eq, not_or, not_not]) _

end Starla.Proof.Traceroute
