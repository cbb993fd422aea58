import Starla.Proof.Traceroute.Engine
import Starla.Proof.Traceroute.Recognised

/-!
# Replies to earlier probes

A reply to a probe that is no longer waited for is recorded as late or
ignored, but where its sequence number is not told from the one in flight: in
a TCP answer that acknowledges as much, and in an error whose quoted checksum
was changed on its way (`Reaches`).

* `reply_stale`, `reply_future`, `reply_taken` : what a reply does to the trace.
* `step_sizes` : the sizes of a run's probes.
* `stale_replies` : the replies to the earlier probes of a run.
-/

namespace Starla.Proof.Traceroute

open Starla.Framework Starla.Impl.Controller Starla.Impl.Measurements Starla.Impl.Traceroute

/-! ## What a reply does -/

section
variable (since : Duration → Duration → Millis) {t : Trace} {a : Answer} (now : Duration)

/-- `t'` is `t` with a late entry for the answer. -/
structure Late (t t' : Trace) (a : Answer) : Prop where
  entries : ∃ late rtt, entriesOf t' = entriesOf t ++ [.reply a (some late) false rtt t.tos]
  gotresp : t'.gotresp = t.gotresp
  lastResponseHop : t'.lastResponseHop = t.lastResponseHop

theorem learn_late (t : Trace) (dup : Bool) (hf : Fitting a) (hb : a.branch ∉ [Branch.v4Echo, .v4Tcp, .v6Tcp]) :
    t.learn a true dup = t := by
  unfold Fitting at hf
  unfold Trace.learn
  cases hbranch : a.branch <;> cases houtcome : a.outcome <;> simp_all

theorem reply_stale (hops : t.hops ≠ []) (h : t.stale a = true) (hle : ¬ a.seq > t.seq.toUInt32) :
    (t.reply since a now).1 = none ∧ Late t (t.reply since a now).2 a ∧
      (Fitting a → a.branch ∉ [Branch.v4Echo, .v4Tcp, .v6Tcp] →
        (t.reply since a now).2.done = t.done ∧ (t.reply since a now).2.notDone = t.notDone) := by
  unfold Trace.reply
  dsimp only
  rw [if_neg (by simp [hle]), h]
  simp only [if_true, Option.isNone_some, Bool.false_and, Bool.not_false, Option.isSome_some, Bool.false_eq_true,
    if_false]
  generalize he : Entry.reply a (some (t.seq.toUInt32 - a.seq).toInt32.toInt) false
    (t.rtt since a (some (t.seq.toUInt32 - a.seq).toInt32.toInt) now) t.tos = e
  obtain ⟨-, -, hent⟩ := push_spec hops e
  obtain ⟨size, done, notDone, hlearn⟩ := learn_eq (t.push e) a true false
  obtain ⟨late, rtt, he⟩ : ∃ late rtt, Entry.reply a (some late) false rtt t.tos = e := ⟨_, _, he⟩
  refine ⟨trivial, ⟨⟨late, rtt, ?_⟩, ?_, ?_⟩, fun hf hb => ?_⟩
  · rw [hlearn, he]
    exact hent
  · rw [hlearn]
    rfl
  · rw [hlearn]
    rfl
  · rw [learn_late (t.push e) false hf hb]
    exact ⟨rfl, rfl⟩

theorem reply_future (h : t.stale a = true) (hgt : a.seq > t.seq.toUInt32) : t.reply since a now = (none, t) := by
  unfold Trace.reply
  dsimp only
  rw [if_pos (by simp [h, hgt])]

theorem reply_taken (h : t.stale a = false) : (t.reply since a now).1.isSome ↔ t.gotresp = false := by
  unfold Trace.reply
  cases hg : t.gotresp <;> simp [h]

end

/-! ## The sizes of a run's probes -/

section
variable (since : Duration → Duration → Millis)

theorem shrink_le (t : Trace) (mtu headers : UInt32) : (t.shrink mtu headers).curpacksize ≤ t.curpacksize := by
  unfold Trace.shrink
  split
  · rename_i h
    have hlt := UInt32.lt_iff_toNat_lt.mp h.2
    rw [UInt16.toNat_toUInt32] at hlt
    apply UInt16.le_iff_toNat_le.mpr
    show (mtu - headers).toUInt16.toNat ≤ t.curpacksize.toNat
    rw [UInt32.toNat_toUInt16]
    exact (Nat.mod_le _ _).trans hlt.le
  · exact UInt16.le_refl _

theorem learn_le (t : Trace) (a : Answer) (late dup : Bool) :
    (t.learn a late dup).curpacksize ≤ t.curpacksize := by
  unfold Trace.learn
  split <;> (try split) <;> first | exact UInt16.le_refl _ | exact shrink_le _ _ _

theorem reply_le (t : Trace) (a : Answer) (now : Duration) :
    (t.reply since a now).2.curpacksize ≤ t.curpacksize := by
  unfold Trace.reply
  dsimp only
  split
  · exact UInt16.le_refl _
  · generalize (if t.stale a = true then some (t.seq.toUInt32 - a.seq).toInt32.toInt else none) = late
    have hle := learn_le (t.push (.reply a late (late.isNone && t.gotresp) (t.rtt since a late now) t.tos)) a
      late.isSome (late.isNone && t.gotresp)
    split <;> split <;> exact hle

theorem nextHop_size (t : Trace) : t.nextHop.2.curpacksize = t.curpacksize := by
  unfold Trace.nextHop
  dsimp only
  split
  · rfl
  · split
    · split <;> rfl
    · rfl

theorem nextProbe_size (t : Trace) (now : Duration) :
    (t.nextProbe now).2.curpacksize = t.curpacksize ∧ ∀ p ∈ (t.nextProbe now).1, p.size = t.curpacksize := by
  unfold Trace.nextProbe
  dsimp only
  split
  · exact ⟨rfl, fun p hp => absurd hp (by simp)⟩
  · have hnext : (if t.sent ≥ t.count then Trace.nextHop { t with gotresp := false }
        else (true, { t with gotresp := false })).2.curpacksize = t.curpacksize := by
      split
      · exact nextHop_size { t with gotresp := false }
      · rfl
    generalize (if t.sent ≥ t.count then Trace.nextHop { t with gotresp := false }
      else (true, { t with gotresp := false })) = next at hnext ⊢
    obtain ⟨goesOn, t'⟩ := next
    cases goesOn with
    | false => exact ⟨hnext, fun p hp => absurd hp (by simp)⟩
    | true =>
      refine ⟨hnext, fun p hp => ?_⟩
      obtain rfl := Option.some.inj hp
      exact hnext

/-- No probe is larger than the run's are to be. -/
def Sized (opts : TracerouteOptions) (s : Log) : Prop :=
  s.run.trace.curpacksize ≤ opts.size ∧ ∀ p ∈ s.probes, p.size ≤ opts.size

theorem step_sized (opts : TracerouteOptions) (s : Log) (e : RunEvent) (hs : Sized opts s) :
    Sized opts (s.step since e) := by
  obtain ⟨hcur, hprobes⟩ := hs
  unfold Log.step Run.step
  cases hphase : s.run.phase with
  | ended => cases e <;> exact ⟨hcur, hprobes⟩
  | waiting =>
    cases e with
    | send => exact ⟨hcur, hprobes⟩
    | reply a now => exact ⟨UInt16.le_trans (reply_le since s.run.trace a now) hcur, hprobes⟩
    | deadline =>
      refine ⟨?_, hprobes⟩
      show s.run.trace.timeout.curpacksize ≤ _
      unfold Trace.timeout
      split <;> exact hcur
  | next =>
    cases e with
    | reply => exact ⟨hcur, hprobes⟩
    | deadline => exact ⟨hcur, hprobes⟩
    | send xmit sent =>
      obtain ⟨hsize, hp⟩ := nextProbe_size s.run.trace xmit
      have hprobes' : ∀ p ∈ s.probes ++ (s.run.trace.nextProbe xmit).1.toList, p.size ≤ opts.size := by
        intro p hmem
        rcases List.mem_append.mp hmem with hmem | hmem
        · exact hprobes p hmem
        · rw [hp p (Option.mem_toList.mp hmem)]
          exact hcur
      have hcur' : (s.run.trace.nextProbe xmit).2.curpacksize ≤ opts.size := by rw [hsize]; exact hcur
      dsimp only
      generalize s.run.trace.nextProbe xmit = next at hprobes' hcur'
      obtain ⟨_ | p, t⟩ := next
      · exact ⟨hcur', hprobes'⟩
      · cases sent with
        | error e => exact ⟨hcur', hprobes'⟩
        | ok u => exact ⟨hcur', hprobes'⟩

end

/-! ## Replies to an earlier probe -/

/-- A probe as an error quotes it, its UDP checksum over IPv4 changed on its way
where a NAT box did not restore it. -/
def natted (s : Sender) (cksum : Option UInt16) (sent : UInt8 × List UInt8) : UInt8 × List UInt8 :=
  match cksum with
  | some c =>
    if s.ends.isV6 = false ∧ s.protocol = .UDP then (sent.1, splice sent.2 6 (bytes16 c)) else sent
  | none => sent

/-- A reply to the probe `seq` that is not told from one to the probe `cur`. -/
def Reaches (s : Sender) (seq cur : UInt16) (cksum : Option UInt16) : Reply → Prop
  | .echo .. => False
  | .error .. => s.ends.isV6 = false ∧ s.protocol = .UDP ∧ s.paris.isSome ∧ ∃ c ∈ cksum, cur ≤ c
  | .tcp _ _ acked _ _ _ =>
    cur.toNat ≤ seq.toNat + 1 + acked ∧ seq.toNat + 1 + acked ≤ cur.toNat + 0x2000

/-- A reply that ends the trace whenever it comes. -/
def EndsTrace (s : Sender) : Reply → Bool
  | .echo .. => !s.ends.isV6
  | .error .. => false
  | .tcp .. => true

theorem ReadAs.of_some {parse : TraceId → UInt16 → Option Answer} {branches : List Branch} {whose : TraceId → Prop}
    {seqOf : TraceId → UInt16 → UInt32} (h : ReadAs parse branches whose seqOf) {id : TraceId} {cur : UInt16}
    {a : Answer} (ha : parse id cur = some a) :
    whose id ∧ a.branch ∈ branches ∧ Fitting a ∧ a.seq = seqOf id cur := by
  by_cases hw : whose id
  · obtain ⟨a', hb, hf, hs, hparse⟩ := h.mine cur hw
    rw [ha] at hparse
    obtain rfl := Option.some.inj hparse
    exact ⟨hw, hb, hf, hs⟩
  · rw [h.others cur hw] at ha
    exact absurd ha (by simp)

theorem stale_icmp {a : Answer} (hb : a.branch ∉ [Branch.v4Tcp, .v6Tcp]) (t : Trace) :
    t.stale a = false ↔ a.seq = t.seq.toUInt32 := by
  simp only [List.mem_cons, List.not_mem_nil, or_false] at hb
  unfold Trace.stale
  rw [if_neg hb]
  simp

theorem stale_tcp {a : Answer} (hb : a.branch ∈ [Branch.v4Tcp, .v6Tcp]) (t : Trace) :
    t.stale a = false ↔ t.seq.toNat ≤ a.seq.toNat ∧ a.seq.toNat ≤ t.seq.toNat + 0x2000 := by
  have hs := t.seq.toNat_lt
  have ha := a.seq.toNat_lt
  simp only [List.mem_cons, List.not_mem_nil, or_false] at hb
  unfold Trace.stale
  rw [if_pos hb, decide_eq_false_iff_not, gt_iff_lt, UInt32.not_lt, UInt32.le_iff_toNat_le, UInt32.toNat_sub,
    UInt16.toNat_toUInt32]
  show (2 ^ 32 - t.seq.toNat + a.seq.toNat) % 2 ^ 32 ≤ 8192 ↔ _
  omega

/-- What is told of an answer by the packet it was. -/
structure Earlier (s : Sender) (seq cur : UInt16) (cksum : Option UInt16) (r : Reply) (a : Answer) : Prop where
  fitting : Fitting a
  endsTrace : EndsTrace s r = false → a.branch ∉ [Branch.v4Echo, .v4Tcp, .v6Tcp]
  stale : ∀ t : Trace, t.seq = cur → (t.stale a = false ↔ Reaches s seq cur cksum r)

theorem Earlier.of_seq {s : Sender} {seq cur : UInt16} {cksum : Option UInt16} {r : Reply} {a : Answer}
    (hf : Fitting a) (hends : EndsTrace s r = false → a.branch ∉ [Branch.v4Echo, .v4Tcp, .v6Tcp])
    (hb : a.branch ∉ [Branch.v4Tcp, .v6Tcp]) (hreaches : ¬ Reaches s seq cur cksum r)
    (hseq : a.seq ≠ cur.toUInt32) : Earlier s seq cur cksum r a := by
  refine ⟨hf, hends, fun t ht => ?_⟩
  rw [stale_icmp hb, ht]
  exact iff_of_false hseq hreaches

theorem widened_ne {seq cur : UInt16} (h : seq < cur) : seq.toUInt32 ≠ cur.toUInt32 := by
  have h := UInt16.lt_iff_toNat_lt.mp h
  rw [ne_eq, ← UInt32.toNat_inj, UInt16.toNat_toUInt32, UInt16.toNat_toUInt32]
  omega

section
variable {s : Sender} {chosen seq cur size : UInt16} (tv : Duration) {sender : IpAddr} {hoplimit tclass : Int}
  {a : Answer}

theorem earlier_echo (hs : sender.isIpv6 = s.ends.isV6) (hlt : seq < cur) {header : List UInt8} {cksum : UInt16}
    {natCksum : Option UInt16} (ok : (Reply.echo header cksum).Ok s size (natted s natCksum (s.send chosen seq size tv)))
    (ha : (Reply.echo header cksum).parsed s seq (natted s natCksum (s.send chosen seq size tv)) sender hoplimit
      tclass s.id cur = some a) : Earlier s seq cur natCksum (.echo header cksum) a := by
  obtain ⟨hp, hh⟩ := ok
  have hnat : natted s natCksum (s.send chosen seq size tv) = s.send chosen seq size tv := by
    unfold natted
    cases natCksum with
    | none => rfl
    | some c => exact if_neg (by rw [hp]; simp)
  rw [hnat] at ha
  cases he : s.ends with
  | v4 src dst =>
    rw [he] at hs hh
    obtain ⟨addr, rfl⟩ := eq_v4 hs
    obtain ⟨-, hb, hf, hseq⟩ := (read_echo4 chosen seq size tv addr hoplimit tclass cksum he hp hh).of_some ha
    have hb := List.mem_singleton.mp hb
    refine .of_seq hf (fun h => ?_) (by rw [hb]; decide) id (by rw [hseq]; exact widened_ne hlt)
    unfold EndsTrace at h
    rw [he] at h
    exact Bool.noConfusion h
  | v6 src dst =>
    rw [he] at hs hh
    obtain ⟨addr, rfl⟩ := eq_v6 hs
    have hh : header = [] := hh
    rw [hh] at ha
    obtain ⟨-, hb, hf, hseq⟩ := (read_echo6 chosen seq size tv addr hoplimit tclass cksum he hp).of_some ha
    have hb := List.mem_singleton.mp hb
    exact .of_seq hf (fun _ => by rw [hb]; decide) (by rw [hb]; decide) id (by rw [hseq]; exact widened_ne hlt)

variable {header quoted rest : List UInt8} {kind code : UInt8} {cksum : UInt16} {word : UInt32}
  {hop dst' : Option (List UInt8)} {natCksum : Option UInt16}

theorem min_eq_right_iff' (c cur : UInt16) : min c cur = cur ↔ cur ≤ c := by
  show (if c ≤ cur then c else cur) = cur ↔ cur ≤ c
  split
  · rename_i hle
    exact ⟨fun h => h ▸ UInt16.le_refl c, fun h => UInt16.le_antisymm hle h⟩
  · rename_i hlt
    exact iff_of_true rfl (UInt16.le_of_lt (UInt16.not_le.mp hlt))

/-- A port counted from the base is not read as that of a later probe. -/
theorem port_ne (hlt : seq < cur) : (BASE_PORT + seq).toUInt32 - BASE_PORT.toUInt32 ≠ cur.toUInt32 := by
  have hlt := UInt16.lt_iff_toNat_lt.mp hlt
  have hcur := cur.toNat_lt
  have hbase : BASE_PORT.toNat = 33434 := rfl
  rw [ne_eq, ← UInt32.toNat_inj, UInt32.toNat_sub, UInt16.toNat_toUInt32, UInt16.toNat_toUInt32,
    UInt16.toNat_toUInt32, UInt16.toNat_add, hbase]
  omega

theorem earlier_udp4 {src dst : BitVec 32} (he : s.ends = .v4 src dst) (hp : s.protocol = .UDP) {addr : BitVec 32}
    (hchosen : chosen ≠ 0) (hseq : 1 ≤ seq.toNat) (hlt : seq < cur) (hsize : size ≤ 4096)
    (hk : kind = 11 ∨ kind = 3) (hh : IsHeader4 header) (hq : IsHeader4 quoted)
    (hproto : byteAt quoted 9 = (natted s natCksum (s.send chosen seq size tv)).1)
    (ha : (Reply.error header kind code cksum word quoted none none rest).parsed s seq
      (natted s natCksum (s.send chosen seq size tv)) (.v4 addr) hoplimit tclass s.id cur = some a) :
    Earlier s seq cur natCksum (.error header kind code cksum word quoted none none rest) a := by
  obtain ⟨len, c, payload, hsend, hc⟩ := send_udp4 s chosen seq size tv he hp
  have hnat : natted s natCksum (s.send chosen seq size tv) = (IPPROTO_UDP, bytes16 (sportOf s chosen) ++
      (bytes16 (s.dport seq) ++ (bytes16 len ++ (bytes16 (natCksum.getD c) ++ payload)))) := by
    unfold natted
    cases natCksum with
    | none => exact hsend
    | some c' =>
      dsimp only
      rw [if_pos ⟨by rw [he]; rfl, hp⟩, hsend]
      have hlen : (bytes16 c).length = (bytes16 c').length := by simp
      have h := splice_append (a := bytes16 (sportOf s chosen) ++ (bytes16 (s.dport seq) ++ bytes16 len)) (i := 6)
        (by simp) hlen payload
      simp only [List.append_assoc] at h
      exact congrArg (Prod.mk IPPROTO_UDP) h
  have hread := read_error4 (s := s) seq addr hoplimit tclass cksum hk hh hq hproto (by decide)
    (fun id cur => quoted_udp4 hnat rest id cur) code word
  obtain ⟨⟨-, hport⟩, hb, hf, hs⟩ := hread.of_some ha
  have hb := List.mem_singleton.mp hb
  have hlocal : s.local' ≠ 0 := by
    intro hzero
    have hsport : sportOf s chosen = chosen := if_pos hzero
    exact hchosen (hsport.symm.trans (hport.trans hzero))
  have hends : EndsTrace s (.error header kind code cksum word quoted none none rest) = false →
      a.branch ∉ [Branch.v4Echo, .v4Tcp, .v6Tcp] := fun _ => by rw [hb]; decide
  have hparis : s.id.paris = s.paris := rfl
  rw [hparis] at hs
  cases hpar : s.paris with
  | none =>
    simp only [hpar, Option.isSome_none, Bool.false_eq_true, if_false, Sender.dport] at hs
    refine .of_seq hf hends (by rw [hb]; decide) ?_ (by rw [hs]; exact port_ne hlt)
    rintro ⟨-, -, hsome, -⟩
    rw [hpar] at hsome
    exact Bool.noConfusion hsome
  | some paris =>
    simp only [hpar, Option.isSome_some, if_true] at hs
    have hlt' := UInt16.lt_iff_toNat_lt.mp hlt
    have hcur := cur.toNat_lt
    refine ⟨hf, hends, fun t ht => ?_⟩
    rw [stale_icmp (by rw [hb]; decide), ht, hs, ← UInt32.toNat_inj, UInt16.toNat_toUInt32, UInt16.toNat_toUInt32,
      UInt16.toNat_inj]
    have hreaches : Reaches s seq cur natCksum (.error header kind code cksum word quoted none none rest) ↔
        ∃ c ∈ natCksum, cur ≤ c := by
      unfold Reaches
      simp [he, hp, hpar, Ends.isV6]
    rw [hreaches]
    cases natCksum with
    | none =>
      have hcseq : c = seq := hc hlocal (by rw [hpar]; rfl) hsize hseq (by omega)
      rw [Option.getD_none, hcseq, min_eq_right_iff']
      refine iff_of_false (fun hle => ?_) (by simp)
      have hle := UInt16.le_iff_toNat_le.mp hle
      omega
    | some c' =>
      rw [Option.getD_some, min_eq_right_iff']
      simp

/-- Where no checksum is read, none is changed, and the answer has the probe's number. -/
theorem earlier_error (hlt : seq < cur) (hnot : ¬ (s.ends.isV6 = false ∧ s.protocol = .UDP))
    {branches : List Branch} {whose : TraceId → Prop} {sent : UInt8 × List UInt8}
    (hbranches : ∀ b ∈ branches, b ∉ [Branch.v4Echo, .v4Tcp, .v6Tcp])
    (hread : ReadAs ((Reply.error header kind code cksum word quoted hop dst' rest).parsed s seq sent sender hoplimit
      tclass) branches whose fun _ _ => seq.toUInt32)
    (ha : (Reply.error header kind code cksum word quoted hop dst' rest).parsed s seq sent sender hoplimit
      tclass s.id cur = some a) :
    Earlier s seq cur natCksum (.error header kind code cksum word quoted hop dst' rest) a := by
  obtain ⟨-, hb, hf, hs⟩ := hread.of_some ha
  have hne := hbranches _ hb
  refine .of_seq hf (fun _ => hne) (fun h => hne (List.mem_cons_of_mem _ h)) (fun h => hnot ⟨h.1, h.2.1⟩) ?_
  rw [hs]
  exact widened_ne hlt

theorem natted_eq (hnot : ¬ (s.ends.isV6 = false ∧ s.protocol = .UDP)) (sent : UInt8 × List UInt8) :
    natted s natCksum sent = sent := by
  unfold natted
  cases natCksum with
  | none => rfl
  | some c => exact if_neg hnot

/-- An answer that a reply to an earlier probe is read as. -/
theorem earlier (r : Reply) (hchosen : chosen ≠ 0) (hseq : 1 ≤ seq.toNat) (hlt : seq < cur) (hsize : size ≤ 4096)
    (hs : sender.isIpv6 = s.ends.isV6) (ok : r.Ok s size (natted s natCksum (s.send chosen seq size tv)))
    (ha : r.parsed s seq (natted s natCksum (s.send chosen seq size tv)) sender hoplimit tclass s.id cur = some a) :
    Earlier s seq cur natCksum r a := by
  cases r with
  | echo header cksum => exact earlier_echo tv hs hlt ok ha
  | error header kind code cksum word quoted hop dst' rest =>
    obtain ⟨hh, ok⟩ := ok
    cases he : s.ends with
    | v4 src dst =>
      rw [he] at hs hh ok
      obtain ⟨addr, rfl⟩ := eq_v4 hs
      obtain ⟨hkind, hq, hproto, rfl, rfl⟩ := ok
      have hh : IsHeader4 header := hh
      by_cases hk : kind = 11 ∨ kind = 3
      · cases hp : s.protocol with
        | UDP => exact earlier_udp4 tv he hp hchosen hseq hlt hsize hk hh hq hproto ha
        | ICMP =>
          have hnot : ¬ (s.ends.isV6 = false ∧ s.protocol = .UDP) := by simp [hp]
          rw [natted_eq hnot] at hproto ha
          exact earlier_error hlt hnot (by decide) (read_error4 seq addr hoplimit tclass cksum hk hh hq hproto
            (by decide) (fun id cur => quoted_icmp4 chosen seq size tv he hp rest id cur) code word) ha
        | TCP =>
          have hnot : ¬ (s.ends.isV6 = false ∧ s.protocol = .UDP) := by simp [hp]
          rw [natted_eq hnot] at hproto ha
          exact earlier_error hlt hnot (by decide) (read_error4 seq addr hoplimit tclass cksum hk hh hq hproto
            (by decide) (fun id cur => quoted_tcp4 chosen seq size tv hp rest id cur) code word) ha
      · have hne : kind ≠ 11 ∧ kind ≠ 3 ∧ kind ≠ 0 := by
          refine ⟨fun h => hk (Or.inl h), fun h => hk (Or.inr h), ?_⟩
          rintro rfl
          exact absurd hkind (by decide)
        obtain ⟨hnone, -⟩ := (read_other4 seq addr hoplimit tclass cksum hne hh _ none none rest code word).of_some ha
        exact hnone.elim
    | v6 src dst =>
      rw [he] at hs hh ok
      obtain ⟨addr, rfl⟩ := eq_v6 hs
      have hnot : ¬ (s.ends.isV6 = false ∧ s.protocol = .UDP) := by simp [he, Ends.isV6]
      rw [natted_eq hnot] at ok ha
      obtain ⟨hkind, hq, hnxt, hhop, hdst⟩ := ok
      have hh : header = [] := hh
      rw [hh] at ha ⊢
      by_cases hk : 1 ≤ kind ∧ kind ≤ 3
      · obtain ⟨hmem, -, hlen, hquoted⟩ := quoted6 chosen seq size tv he
        exact earlier_error hlt hnot (by decide) (read_error6 seq addr hoplimit tclass cksum hk hq hhop hdst hmem hnxt
          hlen (hquoted rest) code word) ha
      · obtain ⟨hnone, -⟩ := (read_other6 seq addr hoplimit tclass cksum hk hkind hop dst' _ rest code word).of_some ha
        exact hnone.elim
  | tcp header seqno acked offset flags tail =>
    obtain ⟨hp, hh, hacked, ho, ht⟩ := ok
    rw [← hs] at hh
    obtain ⟨⟨-, hhigh⟩, hb, hf, hseq'⟩ := (read_tcp hh seq seqno acked ho ht _ hoplimit tclass).of_some ha
    have hfits := (acked_high s seq (hacked.trans_lt size.toNat_lt)).mp hhigh
    refine ⟨hf, fun h => Bool.noConfusion h, fun t hcur => ?_⟩
    rw [stale_tcp hb, hcur, hseq', acked_low s seq hfits]
    exact Iff.rfl

end

/-! ## A run -/

/-- What is done with a reply to an earlier probe: it is taken for one to the
probe in flight where it reaches it, and otherwise recorded as late or ignored;
only some ever end the trace. -/
structure Aside (t : Trace) (after : Option Duration × Trace) (s : Sender) (seq : UInt16) (cksum : Option UInt16)
    (r : Reply) (a : Answer) : Prop where
  ends : after.1.isSome ↔ Reaches s seq t.seq cksum r ∧ t.gotresp = false
  late : ¬ Reaches s seq t.seq cksum r → after.2 = t ∨ Late t after.2 a
  done : ¬ Reaches s seq t.seq cksum r → EndsTrace s r = false →
    after.2.done = t.done ∧ after.2.notDone = t.notDone

theorem aside (since : Duration → Duration → Millis) {t : Trace} (hops : t.hops ≠ []) {s : Sender} {seq : UInt16}
    {cksum : Option UInt16} {r : Reply} {a : Answer} (h : Earlier s seq t.seq cksum r a) (now : Duration) :
    Aside t (t.reply since a now) s seq cksum r a := by
  have hreaches := h.stale t rfl
  cases hstale : t.stale a with
  | false =>
    have hr := hreaches.mp hstale
    refine ⟨?_, fun hn => absurd hr hn, fun hn => absurd hr hn⟩
    rw [reply_taken since now hstale]
    exact ⟨fun hg => ⟨hr, hg⟩, fun hg => hg.2⟩
  | true =>
    have hr : ¬ Reaches s seq t.seq cksum r := fun hr => by
      rw [hreaches.mpr hr] at hstale
      exact Bool.noConfusion hstale
    by_cases hgt : a.seq > t.seq.toUInt32
    · rw [reply_future since now hstale hgt]
      exact ⟨iff_of_false (by simp) fun h => hr h.1, fun _ => Or.inl rfl, fun _ _ => ⟨rfl, rfl⟩⟩
    · obtain ⟨hnone, hlate, hdone⟩ := reply_stale since now hops hstale hgt
      refine ⟨iff_of_false (by simp [hnone]) fun h => hr h.1, fun _ => Or.inr hlate, fun _ hends => ?_⟩
      exact hdone h.fitting (h.endsTrace hends)

/-- A run that waits for its second probe, the first one silent. -/
def second (protocol : TracerouteProtocol) : Log :=
  run (Log.step fun _ _ => ⟨false, 0⟩) (.start false { protocol } (some 1)) [.send 0 (.ok ()), .deadline, .send 1 (.ok ())]

/-- What a reply to the first probe does then: whether it ends the wait, and
whether the hop then counts as the destination. -/
def afterFirst (protocol : TracerouteProtocol) (cksum : Option UInt16) (r : Reply) : Option (Bool × Bool) :=
  let tr := firstTrace protocol
  (r.parsed tr 1 (natted tr cksum (tr.send 1 1 40 0)) tr.ends.target 0 0 tr.id (second protocol).run.trace.seq).map
    fun a =>
      let after := (second protocol).run.trace.reply (fun _ _ => ⟨false, 0⟩) a 2
      (after.1.isSome, after.2.done)

end Starla.Proof.Traceroute
