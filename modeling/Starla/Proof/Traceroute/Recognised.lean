import Starla.Proof.Traceroute.Replies

/-!
# A trace recognises its own replies

Every reply to a probe is read as an answer by the trace that sent it, and by
no other, exactly when the fields that identify the probe hold what they are
given (`Fits`).

* `ReadAs` : whose answer a packet is, and to which probe.
* `read_echo4` and the others after it : one lemma for each probe and reply.
* `recognised_iff` : which replies are recognised.
-/

namespace Starla.Proof.Traceroute

open Starla.Framework Starla.Impl.Controller Starla.Impl.Measurements Starla.Impl.Traceroute

/-! ## Two halves of a word -/

theorem toNat_tcpSeq (s : Sender) (seq : UInt16) : (tcpSeq s seq).toNat = s.index.toNat * 65536 + seq.toNat := by
  have hi := s.index.toNat_lt
  have hs := seq.toNat_lt
  unfold tcpSeq
  rw [UInt32.toNat_or, UInt32.toNat_shiftLeft, UInt16.toNat_toUInt32, UInt16.toNat_toUInt32]
  show s.index.toNat <<< 16 % 2 ^ 32 ||| seq.toNat = _
  rw [Nat.shiftLeft_eq, Nat.mod_eq_of_lt (by omega), Nat.mul_comm s.index.toNat (2 ^ 16),
    ← Nat.two_pow_add_eq_or_of_lt (i := 16) (by omega), Nat.mul_comm]

theorem high_half (n : UInt32) : (n >>> 16).toUInt16.toNat = n.toNat / 65536 := by
  have hn := n.toNat_lt
  rw [UInt32.toNat_toUInt16, UInt32.toNat_shiftRight]
  show n.toNat >>> 16 % 2 ^ 16 = _
  rw [Nat.shiftRight_eq_div_pow]
  omega

theorem low_half (n : UInt32) : (n &&& 0xffff).toNat = n.toNat % 65536 := by
  rw [UInt32.toNat_and]
  exact Nat.and_two_pow_sub_one_eq_mod n.toNat 16

theorem tcpSeq_high (s : Sender) (seq : UInt16) : (tcpSeq s seq >>> 16).toUInt16 = s.index := by
  have hs := seq.toNat_lt
  apply UInt16.toNat_inj.mp
  rw [high_half, toNat_tcpSeq]
  omega

theorem tcpSeq_low (s : Sender) (seq : UInt16) : tcpSeq s seq &&& 0xffff = seq.toUInt32 := by
  have hs := seq.toNat_lt
  apply UInt32.toNat_inj.mp
  rw [low_half, toNat_tcpSeq, UInt16.toNat_toUInt32]
  omega

/-- What acknowledges a probe's SYN and some of its data. -/
theorem toNat_acked (s : Sender) (seq : UInt16) (acked : Nat) :
    (tcpSeq s seq + 1 + UInt32.ofNat acked).toNat =
      (s.index.toNat * 65536 + seq.toNat + 1 + acked) % 2 ^ 32 := by
  rw [UInt32.toNat_add, UInt32.toNat_add, toNat_tcpSeq, UInt32.toNat_ofNat']
  show ((s.index.toNat * 65536 + seq.toNat + 1) % 2 ^ 32 + acked % 2 ^ 32) % 2 ^ 32 = _
  omega

theorem acked_high (s : Sender) (seq : UInt16) {acked : Nat} (ha : acked < 65536) :
    ((tcpSeq s seq + 1 + UInt32.ofNat acked) >>> 16).toUInt16 = s.index ↔ seq.toNat + 1 + acked < 65536 := by
  have hi := s.index.toNat_lt
  have hs := seq.toNat_lt
  rw [← UInt16.toNat_inj, high_half, toNat_acked s seq acked]
  omega

theorem acked_low (s : Sender) (seq : UInt16) {acked : Nat}
    (hfits : seq.toNat + 1 + acked < 65536) :
    ((tcpSeq s seq + 1 + UInt32.ofNat acked) &&& 0xffff).toNat = seq.toNat + 1 + acked := by
  have hi := s.index.toNat_lt
  rw [low_half, toNat_acked s seq acked]
  omega

/-- An IPv4 echo's id has 12 bits for the index. -/
theorem echo_id (index : UInt16) : (index >>> 12 = 0 ↔ index < 4096) ∧ (index < 4096 → index &&& 0x0fff = index) := by
  have hi := index.toNat_lt
  constructor
  · rw [← UInt16.toNat_inj, UInt16.toNat_shiftRight, UInt16.lt_iff_toNat_lt]
    show index.toNat >>> 12 = 0 ↔ index.toNat < 4096
    rw [Nat.shiftRight_eq_div_pow]
    omega
  · intro hlt
    have hlt : index.toNat < 4096 := UInt16.lt_iff_toNat_lt.mp hlt
    apply UInt16.toNat_inj.mp
    rw [UInt16.toNat_and]
    show index.toNat &&& 2 ^ 12 - 1 = index.toNat
    rw [Nat.and_two_pow_sub_one_eq_mod]
    omega

/-! ## The probes as they are quoted -/

section
variable (s : Sender) (chosen seq size : UInt16) (tv : Duration)

theorem send_icmp4 {src dst : BitVec 32} (he : s.ends = .v4 src dst) (hp : s.protocol = .ICMP) :
    ∃ c fudge, s.send chosen seq size tv = (IPPROTO_ICMP, 8 :: 0 :: (bytes16 c ++ (bytes16 s.index ++
      (bytes16 seq ++ (bytes16 fudge ++ idData (max size.toNat 2 - 2)))))) := by
  obtain ⟨c, fudge, heq⟩ := icmp4Echo_eq s.index seq size s.paris
  refine ⟨c, fudge, ?_⟩
  unfold Sender.send
  rw [he, hp, ← heq]

/-- The port a probe is sent from, but for a TCP one, whose own it is. -/
def sportOf : UInt16 := if s.local' = 0 then chosen else s.local'

theorem send_udp4 {src dst : BitVec 32} (he : s.ends = .v4 src dst) (hp : s.protocol = .UDP) :
    ∃ len c payload, s.send chosen seq size tv = (IPPROTO_UDP, bytes16 (sportOf s chosen) ++
      (bytes16 (s.dport seq) ++ (bytes16 len ++ (bytes16 c ++ payload)))) ∧
      (s.local' ≠ 0 → s.paris.isSome → size ≤ 4096 → 0 < seq.toNat → seq.toNat < 65535 → c = seq) := by
  have hsend : s.send chosen seq size tv = (IPPROTO_UDP, udpDatagram (pseudo4 src dst IPPROTO_UDP
      (UInt16.ofNat (8 + (udp4Payload src dst s.local' (s.dport seq) size
        (if s.paris.isSome then seq else s.index + 1)).length))) (sportOf s chosen) (s.dport seq)
      (udp4Payload src dst s.local' (s.dport seq) size (if s.paris.isSome then seq else s.index + 1))) := by
    unfold Sender.send
    rw [he, hp]
    rfl
  obtain ⟨len, c, hdatagram, hc⟩ := udpDatagram_eq (pseudo4 src dst IPPROTO_UDP
    (UInt16.ofNat (8 + (udp4Payload src dst s.local' (s.dport seq) size
      (if s.paris.isSome then seq else s.index + 1)).length))) (sportOf s chosen) (s.dport seq)
    (udp4Payload src dst s.local' (s.dport seq) size (if s.paris.isSome then seq else s.index + 1))
  refine ⟨len, c, _, by rw [hsend, hdatagram], fun hlocal hparis hsize hpos hlt => ?_⟩
  have hsport : sportOf s chosen = s.local' := if_neg hlocal
  have hseq : seq ≠ 0xffff := by
    rintro rfl
    exact absurd hlt (by decide)
  have hcksum := udp4Cksum_payload src dst s.local' (s.dport seq) size hseq
  rw [hsport, hparis] at hc
  change c = if udp4Cksum src dst s.local' (s.dport seq) (udp4Payload src dst s.local' (s.dport seq) size seq) = 0
    then _ else udp4Cksum src dst s.local' (s.dport seq) (udp4Payload src dst s.local' (s.dport seq) size seq) at hc
  rw [hcksum, if_neg (by rintro rfl; exact absurd hpos (by decide))] at hc
  exact hc

theorem send_tcp (hp : s.protocol = .TCP) :
    ∃ tail, s.send chosen seq size tv = (IPPROTO_TCP, bytes16 s.local' ++ (bytes16 s.destPort ++
      (bytes32 (tcpSeq s seq) ++ tail))) ∧ tail.length = 12 + size.toNat := by
  unfold Sender.send
  rw [hp]
  cases s.ends with
  | v4 src dst =>
    obtain ⟨tail, heq, hlen⟩ := tcpSyn_eq (.v4 src) (.v4 dst) s.local' s.destPort s.index seq size
    exact ⟨tail, congrArg (Prod.mk IPPROTO_TCP) heq, hlen⟩
  | v6 src dst =>
    obtain ⟨tail, heq, hlen⟩ := tcpSyn_eq (.v6 src) (.v6 dst) s.local' s.destPort s.index seq size
    exact ⟨tail, congrArg (Prod.mk IPPROTO_TCP) heq, hlen⟩

/-- The v6info of an IPv6 probe is eight bytes into its packet. -/
theorem send_info {src dst : BitVec 128} (he : s.ends = .v6 src dst) (hp : s.protocol ≠ .TCP) :
    ∃ nxt head, ∃ info : V6Info, ∃ data, s.send chosen seq size tv = (nxt, head ++ (info.bytes ++ data)) ∧ head.length = 8 ∧
      nxt ∈ [IPPROTO_UDP, IPPROTO_ICMPV6] ∧ quotedProtocol nxt = s.protocol ∧ info.pid = s.pid ∧
      info.id = s.index.toUInt32 ∧ info.seq = seq.toUInt32 := by
  unfold Sender.send
  rw [he]
  cases hproto : s.protocol with
  | TCP => exact absurd hproto hp
  | UDP =>
    obtain ⟨len, c, heq, -⟩ := udpDatagram_eq (pseudo6 src dst (UInt32.ofNat (8 + (udp6Payload s.pid s.index seq tv
      size).length)) IPPROTO_UDP) (sportOf s chosen) (s.dport seq) (udp6Payload s.pid s.index seq tv size)
    refine ⟨IPPROTO_UDP, bytes16 (sportOf s chosen) ++ (bytes16 (s.dport seq) ++ (bytes16 len ++ bytes16 c)),
      ⟨0, s.pid, s.index.toUInt32, seq.toUInt32, tv⟩, idData (max size.toNat 32 - 32), ?_, by simp, by decide,
      rfl, rfl, rfl, rfl⟩
    have hpayload := udp6Payload_eq s.pid s.index seq tv size
    change (IPPROTO_UDP, udpDatagram _ (sportOf s chosen) _ _) = _
    rw [heq, hpayload]
    simp only [List.append_assoc]
  | ICMP =>
    obtain ⟨fuzz, heq⟩ := icmp6Echo_eq src dst s.pid s.index seq tv size s.paris
    dsimp only
    rw [heq]
    generalize icmp6Cksum src dst _ = c
    refine ⟨IPPROTO_ICMPV6, 128 :: 0 :: (bytes16 c ++ (bytes16 s.pid.toUInt16 ++ bytes16 seq)),
      ⟨fuzz, s.pid, s.index.toUInt32, seq.toUInt32, tv⟩, idData (max size.toNat 32 - 32), ?_, by simp, by decide,
      rfl, rfl, rfl, rfl⟩
    rfl

end

/-! ## Whose answers they are -/

/-- What is made of a packet: by the traces `whose` it is, an answer of one of
`branches` to the probe `seqOf`, and nothing by the others. -/
structure ReadAs (parse : TraceId → UInt16 → Option Answer) (branches : List Branch) (whose : TraceId → Prop)
    (seqOf : TraceId → UInt16 → UInt32) : Prop where
  mine : ∀ {id} cur, whose id →
    ∃ a, a.branch ∈ branches ∧ Fitting a ∧ a.seq = seqOf id cur ∧ parse id cur = some a
  others : ∀ {id} cur, ¬ whose id → parse id cur = none

section
variable {parse : TraceId → UInt16 → Option Answer} {branches : List Branch} {whose : TraceId → Prop}
  {seqOf : TraceId → UInt16 → UInt32}

theorem ReadAs.of_ite [DecidablePred whose] (h : ∀ id cur, ∃ a : Answer, a.branch ∈ branches ∧ Fitting a ∧
    a.seq = seqOf id cur ∧ parse id cur = if whose id then some a else none) :
    ReadAs parse branches whose seqOf := by
  refine ⟨fun {id} cur hw => ?_, fun {id} cur hw => ?_⟩
  · obtain ⟨a, hb, hf, hs, hparse⟩ := h id cur
    exact ⟨a, hb, hf, hs, by rw [hparse, if_pos hw]⟩
  · obtain ⟨a, -, -, -, hparse⟩ := h id cur
    rw [hparse, if_neg hw]

theorem ReadAs.of_none (h : ∀ id cur, parse id cur = none) : ReadAs parse [] (fun _ => False) fun _ _ => 0 :=
  ⟨fun _ hw => hw.elim, fun {id} cur _ => h id cur⟩

end

/-- What a reply's packet is parsed as. -/
def Reply.parsed (s : Sender) (seq : UInt16) (sent : UInt8 × List UInt8) (sender : IpAddr) (hoplimit tclass : Int)
    (r : Reply) (id : TraceId) (cur : UInt16) : Option Answer :=
  parseReply id r.ofTcp (r.packet s seq sent) sender hoplimit tclass cur

section
variable {s : Sender} {src dst : BitVec 32} {header quoted : List UInt8} (chosen seq size : UInt16) (tv : Duration)
  (addr : BitVec 32) (hoplimit tclass : Int) (cksum : UInt16)

theorem read_echo4 (he : s.ends = .v4 src dst) (hp : s.protocol = .ICMP) (hh : IsHeader4 header) :
    ReadAs ((Reply.echo header cksum).parsed s seq (s.send chosen seq size tv) (.v4 addr) hoplimit tclass) [.v4Echo]
      (fun id => id.protocol = .ICMP ∧ s.index >>> 12 = 0 ∧ s.index &&& 0x0fff = id.index)
      (fun _ _ => seq.toUInt32) := by
  obtain ⟨c, fudge, hsend⟩ := send_icmp4 s chosen seq size tv he hp
  rw [hsend]
  have hid : carriesIdString (bytes16 fudge ++ idData (max size.toNat 2 - 2)) = true := by
    have h := carriesIdString_iff (UInt8.ofNat (fudge.toNat / 256)) (UInt8.ofNat fudge.toNat)
      (max size.toNat 2 - 2) []
    rw [List.append_nil, List.take_nil] at h
    rw [bytes16_eq]
    exact h.mpr List.nil_prefix
  apply ReadAs.of_ite
  intro id cur
  obtain ⟨a, hb, ho, hs, hparse⟩ := parseIcmp4_echo id addr cur hh cksum s.index seq
    (bytes16 fudge ++ idData (max size.toNat 2 - 2))
  refine ⟨a, by rw [hb]; decide, by rw [Fitting, hb]; exact ho, hs, ?_⟩
  rw [hid] at hparse
  simp only [and_true] at hparse
  rw [← hparse]
  unfold Reply.parsed Reply.packet
  rw [he]
  rfl

theorem map_ite {α β : Type} (p : Prop) [Decidable p] (x : α) (f : α → β) :
    (if p then some x else none).map f = if p then some (f x) else none := by
  by_cases hp : p
  · rw [if_pos hp, if_pos hp]
    rfl
  · rw [if_neg hp, if_neg hp]
    rfl

/-- An error is the answer of those whose probe it quotes. -/
theorem read_error4 {kind : UInt8} (hk : kind = 11 ∨ kind = 3) (hh : IsHeader4 header) (hq : IsHeader4 quoted)
    {sent : UInt8 × List UInt8} (hproto : byteAt quoted 9 = sent.1) {rest : List UInt8} {whose : TraceId → Prop}
    [DecidablePred whose] {seqOf : TraceId → UInt16 → UInt32} {branch : Branch} {len : UInt32}
    (hb : branch ∈ [Branch.v4ErrL4, .v4ErrIcmp, .v6Err])
    (hquoted : ∀ id cur, quotedIcmp4 id sent.1 (sent.2 ++ rest) cur =
      if whose id then some (branch, seqOf id cur, len) else none) (code : UInt8) (word : UInt32) :
    ReadAs ((Reply.error header kind code cksum word quoted none none rest).parsed s seq sent (.v4 addr) hoplimit
      tclass) [branch] whose seqOf := by
  apply ReadAs.of_ite
  intro id cur
  obtain ⟨f, hf, hparse⟩ := parseIcmp4_error id addr cur hh hq hk code cksum word (sent.2 ++ rest)
  rw [hproto, hquoted, map_ite] at hparse
  obtain ⟨hbranch, hseq, ho⟩ := hf (branch, seqOf id cur, len)
  exact ⟨f (branch, seqOf id cur, len), by rw [hbranch]; exact List.mem_singleton.mpr rfl,
    fitting_error (by rw [hbranch]; exact hb) ho, hseq, hparse⟩

theorem quoted_icmp4 (he : s.ends = .v4 src dst) (hp : s.protocol = .ICMP) (rest : List UInt8) (id : TraceId)
    (cur : UInt16) :
    let sent := s.send chosen seq size tv
    quotedIcmp4 id sent.1 (sent.2 ++ rest) cur =
      if id.protocol = .ICMP ∧ s.index >>> 12 = 0 ∧ s.index &&& 0x0fff = id.index ∧
        rest.take (36 - (max size.toNat 2 - 2)) <+: ID_STRING.drop (max size.toNat 2 - 2) then
        some (.v4ErrIcmp, seq.toUInt32, 8)
      else none := by
  obtain ⟨c, fudge, hsend⟩ := send_icmp4 s chosen seq size tv he hp
  dsimp only
  rw [hsend]
  simp only [List.cons_append, List.append_assoc]
  rw [quotedIcmp4_icmp, bytes16_eq fudge]
  simp only [List.cons_append, List.nil_append, carriesIdString_iff]

theorem quoted_udp4 {sent : UInt8 × List UInt8} {sport dport len c : UInt16} {payload : List UInt8}
    (hsend : sent = (IPPROTO_UDP, bytes16 sport ++ (bytes16 dport ++ (bytes16 len ++ (bytes16 c ++ payload)))))
    (rest : List UInt8) (id : TraceId) (cur : UInt16) :
    quotedIcmp4 id sent.1 (sent.2 ++ rest) cur =
      if id.protocol = .UDP ∧ sport = SRC_BASE_PORT + id.index then
        some (.v4ErrL4, if id.paris.isSome then (min c cur).toUInt32 else dport.toUInt32 - BASE_PORT.toUInt32, 8)
      else none := by
  rw [hsend]
  simp only [List.append_assoc]
  exact quotedIcmp4_udp id cur sport dport len c (payload ++ rest)

theorem quoted_tcp4 (hp : s.protocol = .TCP) (rest : List UInt8) (id : TraceId) (cur : UInt16) :
    let sent := s.send chosen seq size tv
    quotedIcmp4 id sent.1 (sent.2 ++ rest) cur =
      if id.protocol = .TCP ∧ s.local' = SRC_BASE_PORT + id.index ∧ s.index = id.index then
        some (.v4ErrL4, seq.toUInt32, UInt32.ofNat TCP_HDR)
      else none := by
  obtain ⟨tail, hsend, -⟩ := send_tcp s chosen seq size tv hp
  dsimp only
  rw [hsend]
  simp only [List.append_assoc]
  rw [quotedIcmp4_tcp, tcpSeq_high, tcpSeq_low]

/-- An error of another kind is not read. -/
theorem read_other4 {kind : UInt8} (hk : kind ≠ 11 ∧ kind ≠ 3 ∧ kind ≠ 0)
    (hh : IsHeader4 header) (sent : UInt8 × List UInt8) (hop dst' : Option (List UInt8)) (rest : List UInt8)
    (code : UInt8) (word : UInt32) :
    ReadAs ((Reply.error header kind code cksum word quoted hop dst' rest).parsed s seq sent (.v4 addr) hoplimit
      tclass) [] (fun _ => False) fun _ _ => 0 := by
  apply ReadAs.of_none
  intro id cur
  show parseIcmp4 id (header ++ (kind :: code :: (bytes16 cksum ++ (bytes32 word ++ (quoted ++
    ((afterHeader6 hop dst' sent).2 ++ rest)))))) addr cur = none
  generalize hicmp : kind :: code :: (bytes16 cksum ++ (bytes32 word ++ (quoted ++
    ((afterHeader6 hop dst' sent).2 ++ rest)))) = icmp
  have hkind : byteAt icmp 0 = kind := by rw [← hicmp]; rfl
  have hlen : ICMP_HDR ≤ icmp.length := by rw [← hicmp]; simp [ICMP_HDR]; omega
  unfold parseIcmp4
  rw [hh.head?]
  simp only [Option.bind_eq_bind, Option.bind_some]
  rw [hh.drop, if_neg (hh.whole hlen), hkind, if_neg (by simp [hk]), if_neg (by simp [hk])]

end

section
variable {s : Sender} {src dst : BitVec 128} {quoted : List UInt8} (chosen seq size : UInt16) (tv : Duration)
  (addr : BitVec 128) (hoplimit tclass : Int) (cksum : UInt16)

theorem read_echo6 (he : s.ends = .v6 src dst) (hp : s.protocol = .ICMP) :
    ReadAs ((Reply.echo [] cksum).parsed s seq (s.send chosen seq size tv) (.v6 addr) hoplimit tclass) [.v6Echo]
      (fun id => id.protocol = .ICMP ∧ s.pid = id.pid ∧ s.index.toUInt32 = id.index.toUInt32)
      (fun _ _ => seq.toUInt32) := by
  obtain ⟨nxt, head, info, data, hsend, hlen, -, -, hpid, hindex, hseq⟩ :=
    send_info s chosen seq size tv he (by rw [hp]; decide)
  rw [hsend]
  have hdrop : (head ++ (info.bytes ++ data)).drop 4 = head.drop 4 ++ (info.bytes ++ data) :=
    List.drop_append_of_le_length (by omega)
  apply ReadAs.of_ite
  intro id cur
  have hfour : (head.drop 4).length = 4 := by rw [List.length_drop]; omega
  obtain ⟨a, hb, ho, hs, hparse⟩ := parseIcmp6_echo id addr hoplimit tclass cksum hfour info data
  refine ⟨a, by rw [hb]; decide, by rw [Fitting, hb]; exact ho, by rw [hs, hseq], ?_⟩
  rw [hpid, hindex] at hparse
  rw [← hparse, ← hdrop]
  unfold Reply.parsed Reply.packet
  rw [he]
  rfl

theorem read_error6 {kind : UInt8} (hk : 1 ≤ kind ∧ kind ≤ 3) (hq : quoted.length = 40)
    {hop dst' : Option (List UInt8)} (hhop : ∀ o ∈ hop, IsOptions o) (hdst : ∀ o ∈ dst', IsOptions o)
    {sent : UInt8 × List UInt8} (hs : sent.1 ∈ [IPPROTO_TCP, IPPROTO_UDP, IPPROTO_ICMPV6])
    (hnxt : byteAt quoted 6 = (afterHeader6 hop dst' sent).1)
    (hlen : (if sent.1 = IPPROTO_TCP then TCP_HDR else 8 + V6INFO_LEN) ≤ sent.2.length) {rest : List UInt8}
    {whose : TraceId → Prop} [DecidablePred whose] {seq' : UInt32}
    (hquoted : ∀ id, ∃ sentTv, quotedIcmp6 id sent.1 (sent.2 ++ rest) =
      if whose id then some (seq', sentTv) else none) (code : UInt8) (word : UInt32) :
    ReadAs ((Reply.error [] kind code cksum word quoted hop dst' rest).parsed s seq sent (.v6 addr) hoplimit tclass)
      [.v6Err] (fun id => quotedProtocol sent.1 = id.protocol ∧ whose id) (fun _ _ => seq') := by
  apply ReadAs.of_ite
  intro id cur
  obtain ⟨f, hf, hparse⟩ := parseIcmp6_error id addr hoplimit tclass hq hk hhop hdst hs hnxt hlen code cksum word rest
  obtain ⟨sentTv, hsent⟩ := hquoted id
  rw [hsent, map_ite, ite_ite_none] at hparse
  obtain ⟨hbranch, hseq, ho⟩ := hf (seq', sentTv)
  exact ⟨f (seq', sentTv), by rw [hbranch]; exact List.mem_singleton.mpr rfl,
    fitting_error (by rw [hbranch]; decide) ho, hseq, hparse⟩

/-- The packet of an IPv6 probe, as an error quotes it. -/
theorem quoted6 (he : s.ends = .v6 src dst) :
    let sent := s.send chosen seq size tv
    sent.1 ∈ [IPPROTO_TCP, IPPROTO_UDP, IPPROTO_ICMPV6] ∧ quotedProtocol sent.1 = s.protocol ∧
      (if sent.1 = IPPROTO_TCP then TCP_HDR else 8 + V6INFO_LEN) ≤ sent.2.length ∧
      ∀ rest id, ∃ sentTv, quotedIcmp6 id sent.1 (sent.2 ++ rest) =
        if (s.protocol ≠ .TCP → s.pid = id.pid) ∧ s.index = id.index then some (seq.toUInt32, sentTv) else none := by
  dsimp only
  by_cases hp : s.protocol = .TCP
  · obtain ⟨tail, hsend, hlen⟩ := send_tcp s chosen seq size tv hp
    rw [hsend, hp]
    refine ⟨List.mem_cons_self, rfl, by rw [if_pos rfl, TCP_HDR]; simp; omega, fun rest id => ⟨none, ?_⟩⟩
    simp only [List.append_assoc]
    rw [quotedIcmp6_tcp, tcpSeq_high, tcpSeq_low]
    simp
  · obtain ⟨nxt, head, info, data, hsend, hlen, hn, hproto, hpid, hindex, hseq⟩ :=
      send_info s chosen seq size tv he hp
    have hn' : nxt ≠ IPPROTO_TCP := by
      rintro rfl
      exact absurd hn (by decide)
    rw [hsend]
    refine ⟨List.mem_cons_of_mem _ hn, hproto, ?_, fun rest id => ?_⟩
    · rw [if_neg hn', List.length_append, hlen, List.length_append, length_bytes]
      omega
    · obtain ⟨sentTv, hquoted⟩ := quotedIcmp6_info id hn' hlen info (data ++ rest)
      refine ⟨some sentTv, ?_⟩
      simp only [List.append_assoc]
      rw [hquoted, hpid, hindex, hseq]
      have hwiden : s.index.toUInt32 = id.index.toUInt32 ↔ s.index = id.index := by
        rw [← UInt32.toNat_inj, UInt16.toNat_toUInt32, UInt16.toNat_toUInt32, UInt16.toNat_inj]
      simp only [hwiden, ne_eq, hp, not_false_eq_true, true_implies]

theorem read_other6 {kind : UInt8} (hk : ¬ (1 ≤ kind ∧ kind ≤ 3)) (hk' : kind < 128) (hop dst' : Option (List UInt8))
    (sent : UInt8 × List UInt8) (rest : List UInt8) (code : UInt8) (word : UInt32) :
    ReadAs ((Reply.error [] kind code cksum word quoted hop dst' rest).parsed s seq sent (.v6 addr) hoplimit tclass)
      [] (fun _ => False) fun _ _ => 0 := by
  apply ReadAs.of_none
  intro id cur
  have hne : kind ≠ 129 := by
    rintro rfl
    exact absurd hk' (by decide)
  show parseIcmp6 id (kind :: code :: (bytes16 cksum ++ (bytes32 word ++ (quoted ++
    ((afterHeader6 hop dst' sent).2 ++ rest))))) addr hoplimit tclass = none
  generalize hbuf : kind :: code :: (bytes16 cksum ++ (bytes32 word ++ (quoted ++
    ((afterHeader6 hop dst' sent).2 ++ rest)))) = buf
  have hkind : byteAt buf 0 = kind := by rw [← hbuf]; rfl
  have hlen : ¬ buf.length < ICMP_HDR := by rw [← hbuf]; simp [ICMP_HDR]; omega
  unfold parseIcmp6
  rw [if_neg hlen]
  dsimp only
  rw [hkind, if_neg hk, if_neg (by simp [hne])]

end

theorem read_tcp {s : Sender} {sender : IpAddr} {header : List UInt8} (hh : Framed sender.isIpv6 header)
    (seq : UInt16) (seqno : UInt32) (acked : Nat) {offset flags : UInt8} {tail : List UInt8}
    (ho : 5 ≤ (offset >>> 4).toNat) (ht : (offset >>> 4).toNat * 4 ≤ 14 + tail.length)
    (sent : UInt8 × List UInt8) (hoplimit tclass : Int) :
    ReadAs ((Reply.tcp header seqno acked offset flags tail).parsed s seq sent sender hoplimit tclass)
      [.v4Tcp, .v6Tcp]
      (fun id => s.local' = SRC_BASE_PORT + id.index ∧
        ((tcpSeq s seq + 1 + UInt32.ofNat acked) >>> 16).toUInt16 = id.index)
      (fun _ _ => (tcpSeq s seq + 1 + UInt32.ofNat acked) &&& 0xffff) := by
  apply ReadAs.of_ite
  intro id cur
  obtain ⟨a, hb, hout, hs, hparse⟩ := parseTcp_answer id hh s.destPort s.local' seqno
    (tcpSeq s seq + 1 + UInt32.ofNat acked) flags ho ht hoplimit tclass
  have hfit : Fitting a := by
    unfold Fitting
    simp only [List.mem_cons, List.not_mem_nil, or_false] at hb
    rcases hb with hb | hb <;> rw [hb] <;> exact hout
  exact ⟨a, hb, hfit, hs, hparse⟩

/-! ## What is recognised -/

/-- A well-formed reply to the probe that left as `sent`. -/
def Reply.Ok (s : Sender) (size : UInt16) (sent : UInt8 × List UInt8) : Reply → Prop
  | .echo header _ => s.protocol = .ICMP ∧ Framed s.ends.isV6 header
  | .error header kind _ _ _ quoted hop dst _ =>
    Framed s.ends.isV6 header ∧
      if s.ends.isV6 then
        kind < 128 ∧ quoted.length = 40 ∧ byteAt quoted 6 = (afterHeader6 hop dst sent).1 ∧
          (∀ o ∈ hop, IsOptions o) ∧ ∀ o ∈ dst, IsOptions o
      else kind ∈ [3, 4, 5, 11, 12] ∧ IsHeader4 quoted ∧ byteAt quoted 9 = sent.1 ∧ hop = none ∧ dst = none
  | .tcp header _ acked offset _ tail =>
    s.protocol = .TCP ∧ Framed s.ends.isV6 header ∧ acked ≤ size.toNat ∧ 5 ≤ (offset >>> 4).toNat ∧
      (offset >>> 4).toNat * 4 ≤ 14 + tail.length

/-- Whether an answer is a fresh one while the probe `seq` waits for it. -/
def Fresh (a : Answer) (seq : UInt16) : Prop :=
  ∀ (since : Duration → Duration → Millis) (t : Trace) (now : Duration), t.seq = seq → t.gotresp = false →
    (t.reply since a now).1.isSome

/-- The trace takes a reply to its probe in flight for one, and no other trace does. -/
structure Recognised (s : Sender) (seq : UInt16) (sent : UInt8 × List UInt8) (sender : IpAddr)
    (hoplimit tclass : Int) (r : Reply) : Prop where
  answer : ∃ a, r.parsed s seq sent sender hoplimit tclass s.id seq = some a ∧
    (r.ofTcp = false → a.seq = seq.toUInt32) ∧ Fresh a seq
  alone : ∀ id cur, id.index ≠ s.index → r.parsed s seq sent sender hoplimit tclass id cur = none

/-- The fields that identify a probe hold what they are given: an IPv4 echo's id
the index, a UDP port the index or the sequence number, the low half of an
acknowledgment number the sequence number and the data; an error is of a kind
that is read, and what follows a quoted echo does not break its id string off. -/
def Fits (s : Sender) (seq size : UInt16) : Reply → Prop
  | .echo .. => s.ends.isV6 = true ∨ s.index < 4096
  | .error _ kind _ _ _ _ _ _ rest =>
    if s.ends.isV6 then 1 ≤ kind ∧ kind ≤ 3
    else (kind = 11 ∨ kind = 3) ∧
      match s.protocol with
      | .ICMP => s.index < 4096 ∧
        rest.take (36 - (max size.toNat 2 - 2)) <+: ID_STRING.drop (max size.toNat 2 - 2)
      | .UDP => s.local' ≠ 0 ∧ (s.paris.isSome ∨ BASE_PORT.toNat + seq.toNat < 65536)
      | .TCP => True
  | .tcp _ _ acked _ _ _ => seq.toNat + 1 + acked < 65536

theorem reply_not_stale (since : Duration → Duration → Millis) {t : Trace} {a : Answer} (h : t.stale a = false)
    (hg : t.gotresp = false) (now : Duration) : (t.reply since a now).1.isSome := by
  unfold Trace.reply
  simp [h, hg]

theorem fresh_of_seq {a : Answer} {seq : UInt16} (hb : a.branch ∉ [Branch.v4Tcp, .v6Tcp])
    (hs : a.seq = seq.toUInt32) : Fresh a seq := by
  intro since t now ht hg
  apply reply_not_stale since ?_ hg
  simp only [List.mem_cons, List.not_mem_nil, or_false] at hb
  unfold Trace.stale
  rw [if_neg hb, hs, ht]
  simp

theorem fresh_of_near {a : Answer} {seq : UInt16} (hb : a.branch ∈ [Branch.v4Tcp, .v6Tcp])
    (hs : a.seq - seq.toUInt32 ≤ 0x2000) : Fresh a seq := by
  intro since t now ht hg
  apply reply_not_stale since ?_ hg
  simp only [List.mem_cons, List.not_mem_nil, or_false] at hb
  unfold Trace.stale
  rw [if_pos hb, ht]
  simpa using hs

section
variable {s : Sender} {seq : UInt16} {sent : UInt8 × List UInt8} {sender : IpAddr} {hoplimit tclass : Int}
  {r : Reply} {branches : List Branch} {whose : TraceId → Prop} {seqOf : TraceId → UInt16 → UInt32}

theorem recognised_of_icmp (h : ReadAs (r.parsed s seq sent sender hoplimit tclass) branches whose seqOf)
    (hr : r.ofTcp = false) (hb : ∀ b ∈ branches, b ∉ [Branch.v4Tcp, .v6Tcp])
    (halone : whose s.id → ∀ id, whose id → id.index = s.index) :
    Recognised s seq sent sender hoplimit tclass r ↔ whose s.id ∧ seqOf s.id seq = seq.toUInt32 := by
  constructor
  · intro hrec
    obtain ⟨a, hparse, hseq, -⟩ := hrec.answer
    by_cases hw : whose s.id
    · obtain ⟨a', -, -, hs, hparse'⟩ := h.mine seq hw
      rw [hparse, Option.some.injEq] at hparse'
      exact ⟨hw, by rw [← hs, ← hparse']; exact hseq hr⟩
    · rw [h.others seq hw] at hparse
      exact absurd hparse (by simp)
  · rintro ⟨hw, hs⟩
    obtain ⟨a, hbranch, -, hseq, hparse⟩ := h.mine seq hw
    refine ⟨⟨a, hparse, fun _ => by rw [hseq, hs], fresh_of_seq (hb _ hbranch) (by rw [hseq, hs])⟩, ?_⟩
    intro id cur hne
    exact h.others cur fun hid => hne (halone hw id hid)

theorem recognised_of_tcp (h : ReadAs (r.parsed s seq sent sender hoplimit tclass) [.v4Tcp, .v6Tcp] whose seqOf)
    (hr : r.ofTcp = true) (hnear : whose s.id → seqOf s.id seq - seq.toUInt32 ≤ 0x2000)
    (halone : whose s.id → ∀ id, whose id → id.index = s.index) :
    Recognised s seq sent sender hoplimit tclass r ↔ whose s.id := by
  constructor
  · intro hrec
    obtain ⟨a, hparse, -, -⟩ := hrec.answer
    by_contra hw
    rw [h.others seq hw] at hparse
    exact absurd hparse (by simp)
  · intro hw
    obtain ⟨a, hbranch, -, hseq, hparse⟩ := h.mine seq hw
    refine ⟨⟨a, hparse, ?_, fresh_of_near hbranch (by rw [hseq]; exact hnear hw)⟩, ?_⟩
    · rw [hr]
      exact fun h => absurd h (by decide)
    · intro id cur hne
      exact h.others cur fun hid => hne (halone hw id hid)

end

theorem port_eq {a b : UInt16} (h : SRC_BASE_PORT + a = SRC_BASE_PORT + b) : b = a :=
  ((UInt16.add_right_inj _).mp h).symm

theorem eq_v4 {sender : IpAddr} (h : sender.isIpv6 = false) : ∃ addr, sender = .v4 addr := by
  cases sender with
  | v4 addr => exact ⟨addr, rfl⟩
  | v6 addr => exact Bool.noConfusion h

theorem eq_v6 {sender : IpAddr} (h : sender.isIpv6 = true) : ∃ addr, sender = .v6 addr := by
  cases sender with
  | v4 addr => exact Bool.noConfusion h
  | v6 addr => exact ⟨addr, rfl⟩

theorem sub_base_port (n : UInt16) : (BASE_PORT + n).toUInt32 - BASE_PORT.toUInt32 = n.toUInt32 ↔
    BASE_PORT.toNat + n.toNat < 65536 := by
  have hn := n.toNat_lt
  have hbase : BASE_PORT.toNat = 33434 := rfl
  rw [← UInt32.toNat_inj, UInt32.toNat_sub, UInt16.toNat_toUInt32, UInt16.toNat_toUInt32, UInt16.toNat_toUInt32,
    UInt16.toNat_add, hbase]
  omega

section
variable {s : Sender} (chosen seq size : UInt16) (tv : Duration) (sender : IpAddr) (hoplimit tclass : Int)

theorem recognised_echo (hs : sender.isIpv6 = s.ends.isV6) {header : List UInt8} {cksum : UInt16}
    (ok : (Reply.echo header cksum).Ok s size (s.send chosen seq size tv)) :
    Recognised s seq (s.send chosen seq size tv) sender hoplimit tclass (.echo header cksum) ↔
      Fits s seq size (.echo header cksum) := by
  obtain ⟨hp, hh⟩ := ok
  unfold Fits
  cases he : s.ends with
  | v4 src dst =>
    rw [he] at hs hh
    obtain ⟨addr, rfl⟩ := eq_v4 hs
    have hid := echo_id s.index
    rw [recognised_of_icmp (read_echo4 chosen seq size tv addr hoplimit tclass cksum he hp hh) rfl (by decide)]
    · constructor
      · rintro ⟨⟨-, hlt, -⟩, -⟩
        exact Or.inr (hid.1.mp hlt)
      · rintro (hv6 | hlt)
        · exact Bool.noConfusion hv6
        · exact ⟨⟨hp, hid.1.mpr hlt, hid.2 hlt⟩, rfl⟩
    · rintro ⟨-, -, hmine⟩ id ⟨-, -, hindex⟩
      rw [← hindex, hmine]
      rfl
  | v6 src dst =>
    rw [he] at hs hh
    obtain ⟨addr, rfl⟩ := eq_v6 hs
    have hheader : header = [] := hh
    rw [hheader, recognised_of_icmp (read_echo6 chosen seq size tv addr hoplimit tclass cksum he hp) rfl (by decide)]
    · exact ⟨fun _ => Or.inl rfl, fun _ => ⟨⟨hp, rfl, rfl⟩, rfl⟩⟩
    · rintro - id ⟨-, -, hindex⟩
      rw [← UInt32.toNat_inj, UInt16.toNat_toUInt32, UInt16.toNat_toUInt32, UInt16.toNat_inj] at hindex
      exact hindex.symm

variable {header quoted rest : List UInt8} {kind code : UInt8} {cksum : UInt16} {word : UInt32}
  {hop dst' : Option (List UInt8)}

theorem recognised_error4 {src dst : BitVec 32} (he : s.ends = .v4 src dst) (addr : BitVec 32) (hchosen : chosen ≠ 0)
    (hseq : 1 ≤ seq.toNat) (hseq' : seq.toNat ≤ 65280) (hsize : size ≤ 4096) (hk : kind = 11 ∨ kind = 3)
    (hh : IsHeader4 header) (hq : IsHeader4 quoted)
    (hproto : byteAt quoted 9 = (s.send chosen seq size tv).1) :
    Recognised s seq (s.send chosen seq size tv) (.v4 addr) hoplimit tclass
        (.error header kind code cksum word quoted none none rest) ↔
      match s.protocol with
      | .ICMP => s.index < 4096 ∧
        rest.take (36 - (max size.toNat 2 - 2)) <+: ID_STRING.drop (max size.toNat 2 - 2)
      | .UDP => s.local' ≠ 0 ∧ (s.paris.isSome ∨ BASE_PORT.toNat + seq.toNat < 65536)
      | .TCP => True := by
  cases hp : s.protocol with
  | ICMP =>
    have hid := echo_id s.index
    rw [recognised_of_icmp (read_error4 seq addr hoplimit tclass cksum hk hh hq hproto (by decide)
      (fun id cur => quoted_icmp4 chosen seq size tv he hp rest id cur) code word) rfl (by decide)]
    · constructor
      · rintro ⟨⟨-, hlt, -, hrest⟩, -⟩
        exact ⟨hid.1.mp hlt, hrest⟩
      · rintro ⟨hlt, hrest⟩
        exact ⟨⟨hp, hid.1.mpr hlt, hid.2 hlt, hrest⟩, rfl⟩
    · rintro ⟨-, -, hmine, -⟩ id ⟨-, -, hindex, -⟩
      rw [← hindex, hmine]
      rfl
  | UDP =>
    obtain ⟨len, c, payload, hsend, hc⟩ := send_udp4 s chosen seq size tv he hp
    rw [recognised_of_icmp (read_error4 seq addr hoplimit tclass cksum hk hh hq hproto (by decide)
      (fun id cur => quoted_udp4 hsend rest id cur) code word) rfl (by decide)]
    · by_cases hlocal : s.local' = 0
      · -- the port the kernel chose is not the one looked for
        have hsport : sportOf s chosen = chosen := if_pos hlocal
        rw [hsport]
        constructor
        · rintro ⟨⟨-, hport⟩, -⟩
          exact absurd (hport.trans hlocal) hchosen
        · rintro ⟨hne, -⟩
          exact absurd hlocal hne
      · have hsport : sportOf s chosen = SRC_BASE_PORT + s.id.index := if_neg hlocal
        have hmine : s.id.protocol = .UDP := hp
        have hparis : s.id.paris = s.paris := rfl
        simp only [hsport, hmine, hparis, and_self, true_and, hlocal, ne_eq, not_false_eq_true]
        cases hpar : s.paris with
        | none =>
          simp only [Option.isSome_none, Bool.false_eq_true, if_false, false_or, Sender.dport, hpar]
          exact sub_base_port seq
        | some paris =>
          have hcseq : c = seq := hc hlocal (by rw [hpar]; rfl) hsize hseq (by omega)
          have hmin : min seq seq = seq := ite_self seq
          simp [hcseq, hmin]
    · rintro ⟨-, hport⟩ id ⟨-, hport'⟩
      exact port_eq (hport.symm.trans hport')
  | TCP =>
    rw [recognised_of_icmp (read_error4 seq addr hoplimit tclass cksum hk hh hq hproto (by decide)
      (fun id cur => quoted_tcp4 chosen seq size tv hp rest id cur) code word) rfl (by decide)]
    · exact ⟨fun _ => trivial, fun _ => ⟨⟨hp, rfl, rfl⟩, rfl⟩⟩
    · rintro - id ⟨-, -, hindex⟩
      exact hindex.symm

theorem recognised_error6 {src dst : BitVec 128} (he : s.ends = .v6 src dst) (addr : BitVec 128)
    (hk : 1 ≤ kind ∧ kind ≤ 3) (hq : quoted.length = 40)
    (hhop : ∀ o ∈ hop, IsOptions o) (hdst : ∀ o ∈ dst', IsOptions o)
    (hnxt : byteAt quoted 6 = (afterHeader6 hop dst' (s.send chosen seq size tv)).1) :
    Recognised s seq (s.send chosen seq size tv) (.v6 addr) hoplimit tclass
      (.error [] kind code cksum word quoted hop dst' rest) := by
  obtain ⟨hmem, hproto, hlen, hquoted⟩ := quoted6 chosen seq size tv he
  have h := recognised_of_icmp (s := s) (read_error6 seq addr hoplimit tclass cksum hk hq hhop hdst hmem hnxt hlen
    (hquoted rest) code word) rfl (by decide)
  refine (h ?_).mpr ⟨⟨hproto, fun _ => rfl, rfl⟩, rfl⟩
  rintro - id ⟨-, -, hindex⟩
  exact hindex.symm

/-- A reply is recognised exactly when its probe's fields hold what they are given. -/
theorem recognised_iff (s : Sender) (r : Reply) (hchosen : chosen ≠ 0) (hseq : 1 ≤ seq.toNat)
    (hseq' : seq.toNat ≤ 65280) (hsize : size ≤ 4096) (hs : sender.isIpv6 = s.ends.isV6)
    (ok : r.Ok s size (s.send chosen seq size tv)) :
    Recognised s seq (s.send chosen seq size tv) sender hoplimit tclass r ↔ Fits s seq size r := by
  cases r with
  | echo header cksum => exact recognised_echo chosen seq size tv sender hoplimit tclass hs ok
  | error header kind code cksum word quoted hop dst' rest =>
    obtain ⟨hh, ok⟩ := ok
    unfold Fits
    cases he : s.ends with
    | v4 src dst =>
      rw [he] at hs hh ok
      obtain ⟨addr, rfl⟩ := eq_v4 hs
      obtain ⟨hkind, hq, hproto, rfl, rfl⟩ := ok
      have hh : IsHeader4 header := hh
      by_cases hk : kind = 11 ∨ kind = 3
      · rw [recognised_error4 chosen seq size tv hoplimit tclass he addr hchosen hseq hseq' hsize hk hh hq hproto]
        exact ⟨fun h => ⟨hk, h⟩, fun h => h.2⟩
      · have hne : kind ≠ 11 ∧ kind ≠ 3 ∧ kind ≠ 0 := by
          refine ⟨fun h => hk (Or.inl h), fun h => hk (Or.inr h), ?_⟩
          rintro rfl
          exact absurd hkind (by decide)
        rw [recognised_of_icmp (read_other4 seq addr hoplimit tclass cksum hne hh _ none none rest code word) rfl
          (by decide) (by simp)]
        exact ⟨fun h => h.1.elim, fun h => absurd h.1 hk⟩
    | v6 src dst =>
      rw [he] at hs hh ok
      obtain ⟨addr, rfl⟩ := eq_v6 hs
      obtain ⟨hkind, hq, hnxt, hhop, hdst⟩ := ok
      have hh : header = [] := hh
      rw [hh]
      by_cases hk : 1 ≤ kind ∧ kind ≤ 3
      · exact ⟨fun _ => hk, fun _ => recognised_error6 chosen seq size tv hoplimit tclass he addr hk hq hhop hdst hnxt⟩
      · rw [recognised_of_icmp (read_other6 seq addr hoplimit tclass cksum hk hkind hop dst' _ rest code word) rfl
          (by decide) (by simp)]
        exact ⟨fun h => h.1.elim, fun h => absurd h hk⟩
  | tcp header seqno acked offset flags tail =>
    obtain ⟨hp, hh, hacked, ho, ht⟩ := ok
    have hacked : acked ≤ 4096 := hacked.trans (UInt16.le_iff_toNat_le.mp hsize)
    rw [← hs] at hh
    rw [recognised_of_tcp (read_tcp hh seq seqno acked ho ht _ hoplimit tclass) rfl]
    · have hmine : s.local' = SRC_BASE_PORT + s.id.index ↔ True := iff_true_intro rfl
      rw [hmine, true_and]
      exact acked_high s seq (by omega)
    · rintro ⟨-, hhigh⟩
      have hlow := acked_low s seq ((acked_high s seq (by omega)).mp hhigh)
      rw [UInt32.le_iff_toNat_le, UInt32.toNat_sub, hlow, UInt16.toNat_toUInt32]
      show (2 ^ 32 - seq.toNat + (seq.toNat + 1 + acked)) % 2 ^ 32 ≤ 8192
      omega
    · rintro - id ⟨hport, -⟩
      exact port_eq hport

end

/-- A first trace, of a target in 198.51.100.0/24. -/
def firstTrace (protocol : TracerouteProtocol) : Sender where
  ends := .v4 0xc0000201 0xc6336401
  protocol
  pid := 7
  index := 0
  paris := some 1
  destPort := 80

/-- A header without options. -/
def plainHeader (protocol : UInt8) : List UInt8 := 0x45 :: List.replicate 8 0 ++ protocol :: List.replicate 10 0

/-- A hop's answer to a Paris UDP probe. -/
theorem recognised_iff_udp :
    Recognised (firstTrace .UDP) 5 ((firstTrace .UDP).send 1 5 40 0) (.v4 0xcb007101) 0 0
      (.error (plainHeader 1) 11 0 0 0 (plainHeader 17) none none []) :=
  (recognised_iff 1 5 40 0 (.v4 0xcb007101) 0 0 (firstTrace .UDP)
    (.error (plainHeader 1) 11 0 0 0 (plainHeader 17) none none []) (by decide) (by decide) (by decide) (by decide)
    rfl ⟨(by decide : IsHeader4 (plainHeader 1)), by decide, by decide, by decide, rfl, rfl⟩).mpr
    ⟨Or.inl rfl, by decide, Or.inl rfl⟩

/-- A hop that pads a small echo request to the 128 bytes before its extensions. -/
theorem padded_quote_unrecognised :
    let sent := (firstTrace .ICMP).send 1 1 16 0
    let r : Reply := .error (plainHeader 1) 11 0 0 0x200000 (plainHeader 1) none none
      (List.replicate 84 0 ++ [0x20, 0, 0, 0, 0, 8, 1, 1, 0, 6, 0x41, 1])
    r.Ok (firstTrace .ICMP) 16 sent ∧ ¬ Recognised (firstTrace .ICMP) 1 sent (.v4 0xcb007101) 0 0 r := by
  dsimp only
  refine ⟨⟨(by decide : IsHeader4 (plainHeader 1)), by decide, by decide, by decide, rfl, rfl⟩, fun h => ?_⟩
  obtain ⟨a, ha, -⟩ := h.answer
  have hnone : (Reply.error (plainHeader 1) 11 0 0 0x200000 (plainHeader 1) none none
      (List.replicate 84 0 ++ [0x20, 0, 0, 0, 0, 8, 1, 1, 0, 6, 0x41, 1])).parsed (firstTrace .ICMP) 1
      ((firstTrace .ICMP).send 1 1 16 0) (.v4 0xcb007101) 0 0 (firstTrace .ICMP).id 1 = none := by
    decide +kernel
  rw [hnone] at ha
  exact absurd ha (by simp)

end Starla.Proof.Traceroute
