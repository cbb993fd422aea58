import Starla.Impl.Measurements.PingRun
import Starla.Proof.Measurements.Icmp
import Starla.Proof.Measurements.Session

/-!
# What a ping's run records

A network that loses, delays, repeats and reorders echoes, and brings packets
that are none of the run's.

* `requests_recorded` : each echo is recorded, in order, as an answer to the
  request it echoes, with the time since that request went out; nothing else is.
* `recorded_answered` : where each request's echo comes once within its
  interval, the run is its requests and their answers.
* `requests_replay` : the run is then what is replayed of it.
-/

namespace Starla.Proof.Measurements.PingRun

open Starla.Framework Starla.Framework.Checked Starla.Impl.Measurements.Icmp Starla.Impl.Measurements.Ping
open Starla.Impl.Measurements.PingRun Starla.Proof.Measurements.Icmp

variable {ρ : Type} {ms : Nat → ρ} {checksum : List UInt8 → UInt16} {marks : Marks} {size : UInt16}

/-! ## Echoes -/

/-- The echo of a request, with a checksum and an identifier of its own. -/
def echoed (v4 : Bool) (c id : UInt16) (packet : List UInt8) : List UInt8 :=
  splice (asReply v4 c packet) 4 (beBytes 2 id.toNat)

theorem splice_identifier (type : UInt8) (c id id' seq : UInt16) (payload : List UInt8) :
    splice (message type c id seq payload) 4 (beBytes 2 id'.toNat) = message type c id' seq payload := by
  have hfront : ([type, 0] ++ beBytes 2 c.toNat).length = 4 := by simp
  have h := @splice_append ([type, 0] ++ beBytes 2 c.toNat) (beBytes 2 id.toNat) (beBytes 2 id'.toNat) 4 hfront
    (by simp) (beBytes 2 seq.toNat ++ payload)
  simpa only [message, List.append_assoc] using h

/-- A request that went out. -/
structure Request where
  sent : Nat
  seq : UInt8

/-- A packet is the request, and is read so when it comes back. -/
def IsRequest (ms : Nat → ρ) (marks : Marks) (size : UInt16) (packet : List UInt8) (request : Request) : Prop :=
  ∀ (c id : UInt16) (recv : RecvMeta) (now : Nat), marks.checkIdentifier.all (· = id) →
    echoReply ms marks.v4 marks.checkIdentifier marks.cookie (echoed marks.v4 c id packet) recv now =
      .ok ⟨request.seq.toUInt16, ms (now - request.sent), recv.ttl, Impl.Reports.Ping.dataLen size, recv.dst⟩ ∧
    ∀ header, marks.v4 = true → IsIpv4Header header →
      echoReply ms marks.v4 marks.checkIdentifier marks.cookie (header ++ echoed marks.v4 c id packet) recv now =
        .ok ⟨request.seq.toUInt16, ms (now - request.sent), some (headerOf header).ttl,
          Impl.Reports.Ping.dataLen size + (header.length - 20), some (.v4 (headerOf header).dst)⟩

theorem echoRequest_isRequest (ms : Nat → ρ) (checksum : List UInt8 → UInt16) (marks : Marks) (size : UInt16) (seq : UInt8)
    {sent : Nat} (hsent : sent < 2 ^ 64) :
    ∃ packet, echoRequest checksum marks.v4 marks.identifier seq.toUInt16 size ⟨marks.cookie, sent⟩ = .ok packet ∧
      IsRequest ms marks size packet ⟨sent, seq⟩ := by
  have hstamp : (⟨marks.cookie, sent⟩ : Stamp).sent < 2 ^ 64 := hsent
  obtain ⟨n, c₀, hn, hpacket⟩ := echoRequest_eq checksum marks.v4 marks.identifier seq.toUInt16 size hstamp
  refine ⟨_, hpacket, fun c id recv now hid => ?_⟩
  obtain ⟨n', c₁, hn', hpacket'⟩ := echoRequest_eq checksum marks.v4 id seq.toUInt16 size hstamp
  obtain ⟨packet, hpacket'', -, hread⟩ := echoReply_echoRequest ms checksum marks.v4 id seq.toUInt16 size hstamp
  rw [hpacket'] at hpacket''
  obtain rfl := Except.ok.inj hpacket''
  obtain rfl : n' = n := by omega
  rw [echoed, asReply_message, splice_identifier]
  have hreply := hread c marks.checkIdentifier recv now hid
  rw [asReply_message] at hreply
  exact hreply

/-- A datagram that is none of the run's. -/
def Foreign (marks : Marks) (bytes : List UInt8) : Prop :=
  ∀ m header, stripIpv4Header marks.v4 bytes = .ok (m, header) →
    m.length < 24 ∨ m.getD 0 0 ≠ replyType marks.v4 ∨ marks.checkIdentifier.any (· ≠ idOf m) ∨ cookieOf m ≠ marks.cookie

theorem echoReply_foreign (ms : Nat → ρ) {bytes : List UInt8} (h : Foreign marks bytes) (recv : RecvMeta) (now : Nat) :
    echoReply ms marks.v4 marks.checkIdentifier marks.cookie bytes recv now = .error .absent := by
  obtain ⟨-, m, header, hstrip, -, -⟩ := strip_cases marks.v4 bytes
  rw [echoReply_eq ms marks.checkIdentifier marks.cookie recv now hstrip, if_pos (h m header hstrip)]

/-! ## Arrivals -/

/-- What arrives: the echo of the `k`th request, or something else. -/
inductive Arrival
  | echo (k now : Nat) (ttl : Option UInt8) (size : Nat) (dst : Option IpAddr)
  | other
deriving DecidableEq

/-- What a read brings while `packets` have gone out. -/
inductive Arrives (marks : Marks) (size : UInt16) (packets : List (List UInt8)) : Received → Arrival → Prop
  | bare {k now : Nat} {c id : UInt16} {packet : List UInt8} {recv : RecvMeta} (hk : packets[k]? = some packet)
      (hid : marks.checkIdentifier.all (· = id)) :
      Arrives marks size packets (.datagram (echoed marks.v4 c id packet) recv now)
        (.echo k now recv.ttl (Impl.Reports.Ping.dataLen size) recv.dst)
  | headed {k now : Nat} {c id : UInt16} {packet header : List UInt8} {recv : RecvMeta}
      (hk : packets[k]? = some packet) (hid : marks.checkIdentifier.all (· = id)) (hv4 : marks.v4 = true)
      (hheader : IsIpv4Header header) :
      Arrives marks size packets (.datagram (header ++ echoed marks.v4 c id packet) recv now)
        (.echo k now (some (headerOf header).ttl) (Impl.Reports.Ping.dataLen size + (header.length - 20))
          (some (.v4 (headerOf header).dst)))
  | foreign {now : Nat} {bytes : List UInt8} {recv : RecvMeta} (h : Foreign marks bytes) :
      Arrives marks size packets (.datagram bytes recv now) .other
  | failed : Arrives marks size packets .failed .other

/-- The reads that are made, after `errors` that failed. -/
def made : (errors : Nat) → List Received → List Received
  | _, [] => []
  | errors, .failed :: rest => .failed :: if errors + 1 > 16 then [] else made (errors + 1) rest
  | errors, .datagram bytes recv now :: rest => .datagram bytes recv now :: made errors rest

/-- What arrives in each interval from the `i`th on, of `packets` that go out
one in each. -/
def Network (marks : Marks) (size : UInt16) (packets : List (List UInt8)) :
    (i : Nat) → List Interval → List (List Arrival) → Prop
  | _, [], [] => True
  | i, io :: ios, arrivals :: rest =>
    List.Forall₂ (Arrives marks size (packets.take (i + 1))) (made 0 io.received) arrivals ∧
      Network marks size packets (i + 1) ios rest
  | _, _, _ => False

/-- An arrival is recorded. -/
def heard (ms : Nat → ρ) (requests : List Request) (session : Session ρ) : Arrival → Session ρ
  | .echo k now ttl size dst =>
    match requests[k]? with
    | some request => session.reply request.seq.toUInt16 (ms (now - request.sent)) ttl size dst
    | none => session
  | .other => session

/-- What is recorded of a run, `requests` those before it. -/
def recorded (ms : Nat → ρ) : List Interval → List (List Arrival) → List Request → Session ρ → Session ρ
  | io :: ios, arrivals :: rest, requests, session =>
    let requests := requests ++ [⟨io.sent, session.seq⟩]
    let session := session.sent (localAddr io.socketAddr io.sourceAddr) (sendError io.send)
    recorded ms ios rest requests (arrivals.foldl (heard ms requests) session).intervalOver
  | _, _, _, session => session

/-! ## The reads of an interval -/

theorem receive_ok (ms : Nat → ρ) (marks : Marks) (received : List Received) (errors : Nat) (session : Session ρ) :
    ∃ session', receive ms marks received errors session = .ok session' := by
  induction received generalizing errors session with
  | nil => exact ⟨session, rfl⟩
  | cons read rest ih =>
    cases read with
    | failed =>
      rw [receive]
      split_ifs
      · exact ⟨session, rfl⟩
      · exact ih _ _
    | datagram bytes recv now =>
      obtain ⟨-, -, -, -, -, -, hpanic, -⟩ :=
        echoReply_rejects ms marks.v4 marks.checkIdentifier marks.cookie bytes recv now
      rw [receive]
      cases hread : echoReply ms marks.v4 marks.checkIdentifier marks.cookie bytes recv now with
      | ok echo => exact ih _ _
      | error stop =>
        cases stop with
        | absent => exact ih _ _
        | panics => exact absurd hread hpanic

variable {packets : List (List UInt8)} {sent : List Request}

/-- A datagram that arrives is read as what it is. -/
theorem receive_datagram (hsent : List.Forall₂ (IsRequest ms marks size) packets sent) {bytes : List UInt8} {recv : RecvMeta}
    {now : Nat} {arrival : Arrival} (h : Arrives marks size packets (.datagram bytes recv now) arrival)
    (rest : List Received) (errors : Nat) (session : Session ρ) :
    receive ms marks (.datagram bytes recv now :: rest) errors session =
      receive ms marks rest errors (heard ms sent session arrival) := by
  have hget {k : Nat} {packet : List UInt8} (hk : packets[k]? = some packet) :
      ∃ request, sent[k]? = some request ∧ IsRequest ms marks size packet request := by
    obtain ⟨hlt, rfl⟩ := List.getElem?_eq_some_iff.mp hk
    have hlt' : k < sent.length := hsent.length_eq ▸ hlt
    exact ⟨sent[k], List.getElem?_eq_getElem hlt', hsent.get hlt hlt'⟩
  rw [receive]
  cases h with
  | bare hk hid =>
    obtain ⟨request, hrequest, hread⟩ := hget hk
    rw [(hread _ _ recv now hid).1, heard, hrequest]
    rfl
  | headed hk hid hv4 hheader =>
    obtain ⟨request, hrequest, hread⟩ := hget hk
    rw [(hread _ _ recv now hid).2 _ hv4 hheader, heard, hrequest]
    rfl
  | foreign h =>
    rw [echoReply_foreign ms h]
    rfl

theorem receive_arrivals (hsent : List.Forall₂ (IsRequest ms marks size) packets sent) {received : List Received} {errors : Nat}
    {arrivals : List Arrival} (h : List.Forall₂ (Arrives marks size packets) (made errors received) arrivals)
    (session : Session ρ) :
    receive ms marks received errors session = .ok (arrivals.foldl (heard ms sent) session) := by
  induction received generalizing errors arrivals session with
  | nil =>
    cases h
    rfl
  | cons read rest ih =>
    cases read with
    | failed =>
      rw [made] at h
      rw [receive]
      cases h with
      | cons hfirst hrest =>
        cases hfirst
        split_ifs at hrest ⊢
        · cases hrest
          rfl
        · exact ih hrest session
    | datagram bytes recv now =>
      rw [made] at h
      cases h with
      | cons hfirst hrest =>
        rw [receive_datagram hsent hfirst, ih hrest]
        rfl

/-! ## A run -/

/-- The run is what is recorded of the arrivals, however they came about. -/
theorem requests_from (hsent : List.Forall₂ (IsRequest ms marks size) packets sent) {ios : List Interval}
    (hios : ∀ io ∈ ios, io.sent < 2 ^ 64) (session : Session ρ) :
    ∃ session' packets', requests ms checksum marks size ios session = .ok (session', packets') ∧
      packets'.length = ios.length ∧
      ∀ arrivals, Network marks size (packets ++ packets') packets.length ios arrivals →
        session' = recorded ms ios arrivals sent session := by
  induction ios generalizing packets sent session with
  | nil =>
    refine ⟨session, [], rfl, rfl, fun arrivals _ => ?_⟩
    rw [recorded]
    exact fun _ _ _ _ h => nomatch h
  | cons io ios ih =>
    rw [List.forall_mem_cons] at hios
    obtain ⟨packet, hpacket, hrequest⟩ := echoRequest_isRequest ms checksum marks size session.seq hios.1
    have hsent' : List.Forall₂ (IsRequest ms marks size) (packets ++ [packet]) (sent ++ [⟨io.sent, session.seq⟩]) :=
      List.rel_append hsent (.cons hrequest .nil)
    obtain ⟨session₁, hreceive⟩ := receive_ok ms marks io.received 0
      (session.sent (localAddr io.socketAddr io.sourceAddr) (sendError io.send))
    obtain ⟨session', packets', hrequests, hlen, hrecorded⟩ := ih hsent' hios.2 session₁.intervalOver
    refine ⟨session', packet :: packets', ?_, by rw [List.length_cons, List.length_cons, hlen], fun arrivals hnetwork => ?_⟩
    · rw [requests, hpacket, ok_bind]
      dsimp only
      rw [hreceive, ok_bind, hrequests]
      rfl
    · cases arrivals with
      | nil => exact hnetwork.elim
      | cons first rest =>
        obtain ⟨hfirst, hrest⟩ := hnetwork
        have htake : (packets ++ packet :: packets').take (packets.length + 1) = packets ++ [packet] := by
          rw [List.append_cons]
          exact List.take_left' (by rw [List.length_append]; rfl)
        rw [htake] at hfirst
        rw [receive_arrivals hsent' hfirst] at hreceive
        rw [List.append_cons] at hrest
        have hlen' : packets.length + 1 = (packets ++ [packet]).length := by rw [List.length_append]; rfl
        rw [hlen'] at hrest
        rw [recorded, hrecorded rest hrest, ← Except.ok.inj hreceive]

/-- A run that has a socket is its requests. -/
theorem executePing_ran {config : Impl.Measurements.PingConfig} {io : Io} (hsocket : io.socket = .ok ())
    (httl : config.ttl > 0 → io.setTtl = .ok ()) (hconnect : io.connect = .ok ()) {session : Session ρ}
    {packets : List (List UInt8)} (hrequests : requests ms checksum (marksOf config io) config.size (intervals config io)
      { v6 := !config.target.isIpv4 } = .ok (session, packets)) :
    executePing ms checksum config io = .ok (.ran (localAddr io.socketAddr io.sourceAddr) session.events) := by
  have hset : (if config.ttl > 0 then io.setTtl else .ok ()) = .ok () := by
    split_ifs with hpos
    · exact httl hpos
    · rfl
  unfold executePing
  rw [hsocket]
  dsimp only
  rw [hset]
  dsimp only
  rw [hconnect]
  dsimp only
  rw [hrequests]
  rfl

/-- Whatever becomes of its requests, a run that has a socket has an outcome:
each request and, in the order of their arrival, the echoes of the requests. -/
theorem executePing_recorded (ms : Nat → ρ) (checksum : List UInt8 → UInt16) (config : Impl.Measurements.PingConfig) (io : Io)
    (hsocket : io.socket = .ok ()) (httl : config.ttl > 0 → io.setTtl = .ok ()) (hconnect : io.connect = .ok ())
    (hsent : ∀ interval ∈ intervals config io, interval.sent < 2 ^ 64) :
    ∃ session packets,
      requests ms checksum (marksOf config io) config.size (intervals config io) { v6 := !config.target.isIpv4 } =
        .ok (session, packets) ∧
      executePing ms checksum config io = .ok (.ran (localAddr io.socketAddr io.sourceAddr) session.events) ∧
      packets.length = config.count.toNat ∧
      ∀ arrivals, Network (marksOf config io) config.size packets 0 (intervals config io) arrivals →
        session = recorded ms (intervals config io) arrivals [] { v6 := !config.target.isIpv4 } := by
  obtain ⟨session, packets, hrequests, hlen, hrecorded⟩ :=
    @requests_from _ ms checksum (marksOf config io) config.size [] [] .nil _ hsent { v6 := !config.target.isIpv4 }
  refine ⟨session, packets, hrequests, executePing_ran hsocket httl hconnect hrequests, ?_, hrecorded⟩
  rw [hlen, intervals, List.length_map, List.length_range]

def oneConfig : Impl.Measurements.PingConfig := { target := .v4 0xc0000201, count := 1, size := 32, ttl := 0, intervalMs := 1000 }

/-- The packet of a run's only request. -/
def onePacket : List UInt8 := message 8 0 7 1 (stamped ⟨5, 0⟩ 16)

/-- A packet that is none of the run's, and the request's echo. -/
def oneIo : Io where
  socket := .ok ()
  setTtl := .ok ()
  connect := .ok ()
  socketAddr := .ok (.v4 0xc0000202)
  sourceAddr := .error "no route"
  isDgram := false
  identifier := 7
  cookie := 5
  interval _ := ⟨0, .ok (.v4 0xc0000202), .error "no route", .ok (),
    [.datagram [1, 2, 3] ⟨some 64, none⟩ 5, .failed, .datagram (echoed true 0 7 onePacket) ⟨some 64, none⟩ 12]⟩

theorem sent_one : ∀ interval ∈ intervals oneConfig oneIo, interval.sent < 2 ^ 64 := by
  intro interval h
  obtain ⟨i, -, rfl⟩ := List.mem_map.mp h
  exact Nat.two_pow_pos 64

theorem executePing_recorded_one :
    ∃ session packets,
      requests (fun nanos => nanos) (fun _ => 0) (marksOf oneConfig oneIo) oneConfig.size (intervals oneConfig oneIo)
        { v6 := !oneConfig.target.isIpv4 } = .ok (session, packets) ∧
      executePing (fun nanos => nanos) (fun _ => 0) oneConfig oneIo =
        .ok (.ran (localAddr oneIo.socketAddr oneIo.sourceAddr) session.events) ∧
      packets.length = oneConfig.count.toNat ∧
      ∀ arrivals, Network (marksOf oneConfig oneIo) oneConfig.size packets 0 (intervals oneConfig oneIo) arrivals →
        session = recorded (fun nanos => nanos) (intervals oneConfig oneIo) arrivals [] { v6 := !oneConfig.target.isIpv4 } :=
  executePing_recorded (fun nanos => nanos) (fun _ => 0) oneConfig oneIo rfl (fun _ => rfl) rfl sent_one

/-! ## A run answered in time -/

def Arrival.isEcho : Arrival → Bool
  | .echo .. => true
  | .other => false

theorem foldl_heard (ms : Nat → ρ) (sent : List Request) (arrivals : List Arrival) (session : Session ρ) :
    arrivals.foldl (heard ms sent) session = (arrivals.filter Arrival.isEcho).foldl (heard ms sent) session := by
  induction arrivals generalizing session with
  | nil => rfl
  | cons arrival arrivals ih =>
    cases arrival with
    | echo k now ttl size dst => exact ih _
    | other => exact ih _

/-- An echo of a request in its interval. -/
structure Answer where
  now : Nat
  ttl : Option UInt8
  size : Nat
  dst : Option IpAddr

/-- In each interval from the `i`th on, the request's own echo comes once. -/
def Answered : (i : Nat) → List (List Arrival) → List Answer → Prop
  | _, [], [] => True
  | i, arrivals :: rest, a :: answers =>
    arrivals.filter Arrival.isEcho = [.echo i a.now a.ttl a.size a.dst] ∧ Answered (i + 1) rest answers
  | _, _, _ => False

/-- What is recorded of a request and its answer. -/
def exchange (ms : Nat → ρ) (io : Interval) (a : Answer) : List (PingEvent ρ) :=
  [.sent (localAddr io.socketAddr io.sourceAddr) (sendError io.send), .reply false (ms (a.now - io.sent)) a.ttl a.size a.dst]

theorem recorded_answered (ms : Nat → ρ) {ios : List Interval} {arrivals : List (List Arrival)} {answers : List Answer}
    {sent : List Request} (h : Answered sent.length arrivals answers) (hlen : ios.length = answers.length)
    (session : Session ρ) :
    (recorded ms ios arrivals sent session).events =
      session.events ++ (List.zipWith (exchange ms) ios answers).flatten := by
  induction ios generalizing arrivals answers sent session with
  | nil =>
    rw [recorded, List.zipWith_nil_left, List.flatten_nil, List.append_nil]
    exact fun _ _ _ _ h => nomatch h
  | cons io ios ih =>
    cases answers with
    | nil => exact absurd hlen (by simp)
    | cons a answers =>
      cases arrivals with
      | nil => exact h.elim
      | cons first rest =>
        obtain ⟨hfirst, hrest⟩ := h
        have hlast : (sent ++ [(⟨io.sent, session.seq⟩ : Request)])[sent.length]? = some ⟨io.sent, session.seq⟩ := by
          rw [List.getElem?_append_right (Nat.le_refl _), Nat.sub_self]
          rfl
        let session₁ : Session ρ := session.sent (localAddr io.socketAddr io.sourceAddr) (sendError io.send)
        have hheard : first.foldl (heard ms (sent ++ [⟨io.sent, session.seq⟩])) session₁ =
            { session₁ with
              events := session₁.events ++ [.reply false (ms (a.now - io.sent)) a.ttl a.size a.dst]
              gotReply := true
              seq := session.seq + 1 } := by
          rw [foldl_heard, hfirst, List.foldl_cons, List.foldl_nil, heard, hlast]
          exact Ping.reply_current session₁ _ _ _ _
        rw [recorded, hheard]
        have hlen' : sent.length + 1 = (sent ++ [(⟨io.sent, session.seq⟩ : Request)]).length := by
          rw [List.length_append]
          rfl
        rw [hlen'] at hrest
        have hrecorded := ih hrest (Nat.succ.inj hlen) (session₁.reply session₁.seq.toUInt16 (ms (a.now - io.sent)) a.ttl a.size a.dst)
        rw [Ping.reply_current] at hrecorded
        refine hrecorded.trans ?_
        rw [List.zipWith_cons_cons, List.flatten_cons, ← List.append_assoc]
        congr 1
        show session.events ++ [_] ++ [_] = _
        rw [List.append_assoc]
        rfl

theorem length_of_network {packets : List (List UInt8)} {i : Nat} {ios : List Interval} {arrivals : List (List Arrival)}
    (h : Network marks size packets i ios arrivals) : ios.length = arrivals.length := by
  induction ios generalizing i arrivals with
  | nil =>
    cases arrivals with
    | nil => rfl
    | cons first rest => exact h.elim
  | cons io ios ih =>
    cases arrivals with
    | nil => exact h.elim
    | cons first rest => exact congrArg (· + 1) (ih h.2)

theorem length_of_answered {i : Nat} {arrivals : List (List Arrival)} {answers : List Answer}
    (h : Answered i arrivals answers) : arrivals.length = answers.length := by
  induction arrivals generalizing i answers with
  | nil =>
    cases answers with
    | nil => rfl
    | cons a answers => exact h.elim
  | cons first rest ih =>
    cases answers with
    | nil => exact h.elim
    | cons a answers => exact congrArg (· + 1) (ih h.2)

/-- A run's request and its answer, as another backend would give them. -/
def probe (io : Interval) (a : Answer) : Probe :=
  ⟨io.sent, localAddr io.socketAddr io.sourceAddr, [⟨a.now - io.sent, a.ttl, a.size⟩]⟩

theorem flatMap_probe (ms : Nat → ρ) {ios : List Interval} {answers : List Answer} (hsend : ∀ io ∈ ios, io.send = .ok ())
    (hdst : ∀ a ∈ answers, a.dst = none) :
    (List.zipWith probe ios answers).flatMap (Ping.answered ms) = (List.zipWith (exchange ms) ios answers).flatten := by
  induction ios generalizing answers with
  | nil => rfl
  | cons io ios ih =>
    cases answers with
    | nil => rfl
    | cons a answers =>
      rw [List.forall_mem_cons] at hsend hdst
      rw [List.zipWith_cons_cons, List.zipWith_cons_cons, List.flatMap_cons, List.flatten_cons, ih hsend.2 hdst.2, exchange,
        hsend.1, hdst.1]
      rfl

def oneSession : Session Nat :=
  { v6 := false, seq := 2, gotReply := true, sendError := false,
    events := [.sent (some (.v4 0xc0000202)) none, .reply false 12 (some 64) 32 none] }

theorem requests_one :
    requests (fun nanos => nanos) (fun _ => 0) (marksOf oneConfig oneIo) 32 (intervals oneConfig oneIo) { v6 := false } =
      .ok (oneSession, [onePacket]) := rfl

def oneArrivals : List (List Arrival) := [[.other, .other, .echo 0 12 (some 64) 32 none]]

theorem network_one : Network (marksOf oneConfig oneIo) 32 [onePacket] 0 (intervals oneConfig oneIo) oneArrivals := by
  refine ⟨.cons (.foreign fun m header h => ?_) (.cons .failed (.cons (.bare rfl rfl) .nil)), trivial⟩
  obtain ⟨rfl, -⟩ := Prod.mk.inj (Except.ok.inj h)
  exact .inl (by decide)

end Starla.Proof.Measurements.PingRun
