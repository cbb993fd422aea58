import Starla.Impl.Measurements.ResolvConf

/-!
# A resolver's name servers

The queries of `starla-measurements/src/target.rs` to the servers of a `Base`,
and the probes of those that are down. A lookup's query, a probe and a socket's
reader are tasks; what one does between two awaits is one `Base.step`. The base
stays alive. Names and messages are `hickory-proto`'s, a `Hickory`.
-/

namespace Starla.Impl.Measurements.Resolver

open Starla.Framework

/-! ## Messages -/

inductive RecordType
  | A
  | AAAA
deriving DecidableEq, Repr

/-- A record's data, where it is an address. -/
inductive RData
  | A (addr : BitVec 32)
  | AAAA (addr : BitVec 128)
  | other

structure Record where
  /-- `dns_class` is IN. -/
  inet : Bool
  data : RData

/-- Names and messages as they are read and written. -/
structure Hickory (Name : Type) where
  fromAscii : String → Option Name
  toAscii : Name → String
  eqIgnoreRoot : Name → Name → Bool
  /-- A query with RD and this question, and nothing else. -/
  queryPacket : UInt16 → Name → RecordType → Option (List UInt8)
  /-- A message's questions and answers. -/
  fromVec : List UInt8 → Option (List Name × List Record)

/-- How one query ended. -/
inductive Answer
  | addrs (addrs : List IpAddr)
  | notExist
  | timedOut
  | failed
deriving DecidableEq, Repr

inductive Reply
  | answer (answer : Answer)
  | servFail
  | refused
deriving DecidableEq, Repr

def MAX_REISSUES : ℕ := 1
def MAX_PROBE_TIMEOUT : ℕ := 3600 * nanosPerSec
def TIMEOUT_BACKOFF_FACTOR : ℕ := 3
def PROBE_NAME : String := "google.com"

/-- 0x20: a letter goes out lower case where its bit is set, upper case otherwise. -/
def randomizeCase (name : String) (bits : List UInt8) : String :=
  String.ofList (go 0 name.toList)
where
  go (i : ℕ) : List Char → List Char
    | [] => []
    | c :: cs =>
      (if (bits.getD (i / 8) 0).toNat.testBit (i % 8) then c.toLower else c.toUpper) ::
        go (i + c.utf8Size) cs

/-- A record's address, where it is of the type asked for. -/
def Record.addr (qtype : RecordType) (rr : Record) : Option IpAddr :=
  if rr.inet then
    match rr.data, qtype with
    | .A a, .A => some (.v4 a)
    | .AAAA a, .AAAA => some (.v6 a)
    | _, _ => none
  else none

def trimEndDots (s : String) : List Char := s.toList.rdropWhile (· == '.')

variable {Name : Type} (dns : Hickory Name)

/-- A datagram as a reply to a query; `none` where it is none. -/
def parseReply (bytes : List UInt8) (id : UInt16) (name : Name) (qtype : RecordType)
    (randomizeCase : Bool) : Option Reply :=
  if bytes.length < 12 ∨ (bytes.getD 0 0).toUInt16 * 256 + (bytes.getD 1 0).toUInt16 ≠ id ∨
      bytes.getD 2 0 &&& 0x80 = 0 then none
  else if bytes.getD 2 0 &&& 0x02 ≠ 0 then some (.answer .failed)
  else match (bytes.getD 3 0 &&& 0x0f).toNat with
    | 0 =>
      match dns.fromVec bytes with
      | none => some (.answer .failed)
      | some (queries, answers) =>
        let ours := fun q => if randomizeCase then dns.eqIgnoreRoot q name
          else trimEndDots (dns.toAscii q) == trimEndDots (dns.toAscii name)
        if !queries.any ours then some (.answer .failed)
        else match answers.filterMap (·.addr qtype) with
          | [] => some (.answer .failed)
          | addrs => some (.answer (.addrs addrs))
    | 3 => some (.answer .notExist)
    | 2 => some .servFail
    | 4 | 5 => some .refused
    | _ => some (.answer .failed)

/-! ## State -/

structure ServerState where
  down : Bool := false
  failedTimes : ℕ := 0
  timedout : ℕ := 0
  generation : ℕ := 0
deriving DecidableEq, Repr

structure NameServer where
  addr : Nameserver
  state : ServerState := {}
deriving DecidableEq, Repr

/-- Where an `ask` waits: in `transmit`, for the first time or `again`; for a
reply; or no more, with an answer unless it was dropped. -/
inductive Stage
  | sending (again : Bool)
  | waiting
  | finished (answer : Option Answer)
deriving DecidableEq, Repr

/-- An `ask` that has its place in the table. -/
structure Query (Name : Type) where
  conf : ResolvConf
  qname : Name
  qtype : RecordType
  id : UInt16
  packet : List UInt8
  server : ℕ
  /-- A probe's, not a lookup's. -/
  probing : Bool
  txCount : ℕ := 0
  reissues : ℕ := 0
  /-- Its channel. -/
  inbox : List (List UInt8) := []
  stage : Stage := .sending false

def Query.running (query : Query Name) : Bool :=
  match query.stage with
  | .finished _ => false
  | _ => true

inductive ProbeStage
  | sleeping
  | asking (query : ℕ)
  | ended
deriving DecidableEq, Repr

/-- A `probe` task. -/
structure Probe where
  server : ℕ
  generation : ℕ
  delay : ℕ
  stage : ProbeStage := .sleeping
deriving DecidableEq, Repr

/-- Bytes a query handed to a server's socket. -/
structure Transmission where
  query : ℕ
  server : ℕ
  packet : List UInt8
deriving DecidableEq, Repr

/-- A `Base`, and every task over it, in the order they started. -/
structure Base (Name : Type) where
  conf : ResolvConf
  servers : List NameServer
  head : ℕ := 0
  inflight : List (UInt16 × ℕ) := []
  queries : List (Query Name) := []
  probes : List Probe := []
  transmissions : List Transmission := []

namespace Base

/-- evdns links each server in right after the first. -/
def new (conf : ResolvConf) : Base Name where
  conf := conf
  servers := (conf.nameservers.take 1 ++ (conf.nameservers.drop 1).reverse).map fun addr => { addr }

variable (b : Base Name)

def setServer (i : ℕ) (state : ServerState) : Base Name :=
  match b.servers[i]? with
  | some s => { b with servers := b.servers.set i { s with state } }
  | none => b

def setQuery (q : ℕ) (query : Query Name) : Base Name := { b with queries := b.queries.set q query }

def setProbe (p : ℕ) (probe : Probe) : Base Name := { b with probes := b.probes.set p probe }

/-! ## Servers -/

/-- The next server up from `head` on, and the head after it, within so many servers. -/
def pickFrom (servers : List NameServer) : ℕ → ℕ → Option (ℕ × ℕ)
  | 0, _ => none
  | n + 1, head =>
    match servers[head]? with
    | none => none
    | some s =>
      if s.state.down then pickFrom servers n ((head + 1) % servers.length)
      else some (head, (head + 1) % servers.length)

/-- The server picked, and the head after it. -/
def pick : Option (ℕ × ℕ) :=
  if b.servers = [] then none
  else if b.servers.all (·.state.down) then
    some ((b.head + 1) % b.servers.length, (b.head + 1) % b.servers.length)
  else pickFrom b.servers b.servers.length b.head

def serverFailed (i : ℕ) : Base Name :=
  match b.servers[i]? with
  | none => b
  | some s =>
    if s.state.down then b
    else
      let generation := s.state.generation + 1
      let b := b.setServer i { s.state with down := true, failedTimes := 1, generation }
      { b with probes := b.probes ++ [{ server := i, generation, delay := b.conf.probeTimeout }] }

def serverUp (i : ℕ) : Base Name :=
  match b.servers[i]? with
  | none => b
  | some s =>
    if s.state.down then b.setServer i { s.state with down := false, failedTimes := 0, timedout := 0 }
    else b

/-! ## Queries -/

def transmit (q server : ℕ) (packet : List UInt8) : Base Name :=
  { b with transmissions := b.transmissions ++ [⟨q, server, packet⟩] }

/-- Unused, never 0xffff. -/
def fresh (id : UInt16) : Bool := id != 0xffff && (b.inflight.lookup id).isNone

/-- `ask` as far as its first transmission, with the random numbers it draws: the
query, if it gets that far. `none` where all the IDs drawn are taken. -/
def ask (conf : ResolvConf) (name : String) (qtype : RecordType) (first : Option ℕ)
    (bits : List UInt8) (draws : List UInt16) : Option (Base Name × Option ℕ) :=
  match (first.map fun server => (server, b.head)).or b.pick with
  | none => some (b, none)
  | some (server, head) =>
    let b := { b with head }
    match dns.fromAscii (if conf.randomizeCase then randomizeCase name bits else name) with
    | none => some (b, none)
    | some qname =>
      match draws.find? b.fresh with
      | none => none
      | some id =>
        match dns.queryPacket id qname qtype with
        | none => some (b, none)
        | some packet =>
          let q := b.queries.length
          let query := { conf, qname, qtype, id, packet, server, probing := first.isSome }
          some (({ b with
            inflight := (id, q) :: b.inflight
            queries := b.queries ++ [query] } : Base Name).transmit q server packet, some q)

/-- The end of an `ask`: its place in the table is given up. -/
def finish (q : ℕ) (query : Query Name) (answer : Option Answer) : Base Name :=
  { b.setQuery q { query with stage := .finished answer } with
    inflight := b.inflight.filter (·.1 != query.id) }

/-- What follows `transmit`. -/
def afterTransmit (q : ℕ) (query : Query Name) (again ok : Bool) : Base Name :=
  let b := if ok then b else b.serverFailed query.server
  if again then
    let b := b.setQuery q { query with txCount := query.txCount + 1, stage := .waiting }
    match b.servers[query.server]? with
    | none => b
    | some s =>
      if s.state.timedout + 1 > query.conf.maxTimeouts then
        (b.setServer query.server { s.state with timedout := 0 }).serverFailed query.server
      else b.setServer query.server { s.state with timedout := s.state.timedout + 1 }
  else b.setQuery q { query with txCount := 1, reissues := 0, stage := .waiting }

/-- A wait that ran out, or SERVFAIL. -/
def retransmit (q : ℕ) (query : Query Name) : Base Name :=
  if query.txCount ≥ query.conf.attempts then
    (b.serverFailed query.server).finish q query (some .timedOut)
  else match b.pick with
    | none => b.finish q query (some .timedOut)
    | some (server, head) =>
      (({ b with head } : Base Name).setQuery q { query with server, stage := .sending true }).transmit q
        server query.packet

/-- What `ask` does with a reply. -/
def reply (q : ℕ) (query : Query Name) : Reply → Base Name
  | .answer answer => (b.serverUp query.server).finish q query (some answer)
  | .refused =>
    if query.reissues ≥ MAX_REISSUES then b.finish q query (some .failed)
    else
      let b := b.serverFailed query.server
      match b.pick with
      | none => b.finish q query (some .failed)
      | some (next, head) =>
        let b := { b with head }
        if next = query.server then b.finish q query (some .failed)
        else b.setQuery q
          { query with reissues := query.reissues + 1, txCount := 0, server := next, stage := .waiting }
  | .servFail => b.retransmit q query

/-! ## Probes -/

/-- The timeout after so many failures, and as it is from an hour on. -/
def backoffFrom (timeout : ℕ) : ℕ → ℕ
  | 0 => timeout
  | n + 1 =>
    if timeout ≥ MAX_PROBE_TIMEOUT then timeout else backoffFrom (timeout * TIMEOUT_BACKOFF_FACTOR) n

def probeBackoff (probeTimeout failedTimes : ℕ) : ℕ :=
  min (backoffFrom probeTimeout failedTimes) MAX_PROBE_TIMEOUT

/-- The server is down, and has been since the probe started. -/
def stillDown (probe : Probe) : Bool :=
  match b.servers[probe.server]? with
  | some s => s.state.down && s.state.generation == probe.generation
  | none => false

/-- What a probe does with its query's answer. -/
def probed (p : ℕ) (probe : Probe) (answer : Option Answer) : Base Name :=
  match answer with
  | some (.addrs _) | some .notExist =>
    (b.serverUp probe.server).setProbe p { probe with stage := .ended }
  | _ =>
    match b.servers[probe.server]? with
    | none => b.setProbe p { probe with stage := .ended }
    | some s =>
      if b.stillDown probe then
        (b.setServer probe.server { s.state with failedTimes := s.state.failedTimes + 1 }).setProbe p
          { probe with delay := probeBackoff b.conf.probeTimeout s.state.failedTimes, stage := .sleeping }
      else b.setProbe p { probe with stage := .ended }

/-- A probe after its sleep. -/
def wake (p : ℕ) (probe : Probe) (bits : List UInt8) (draws : List UInt16) : Option (Base Name) :=
  if b.stillDown probe then
    (b.ask dns b.conf PROBE_NAME .A (some probe.server) bits draws).map fun (b, query) =>
      match query with
      | some q => b.setProbe p { probe with stage := .asking q }
      | none => b.probed p probe (some .failed)
  else some (b.setProbe p { probe with stage := .ended })

/-- A datagram that comes to a server's socket: for the query with its ID, if it
is from the server. -/
def received (server : ℕ) (source : IpAddr) (bytes : List UInt8) : Base Name :=
  match b.servers[server]? with
  | none => b
  | some s =>
    if source ≠ s.addr.ip then b
    else
      let b := b.setServer server { s.state with timedout := 0 }
      match bytes.take 1500 with
      | hi :: lo :: rest =>
        match b.inflight.lookup (hi.toUInt16 * 256 + lo.toUInt16) with
        | none => b
        | some q =>
          match b.queries[q]? with
          | none => b
          | some query => b.setQuery q { query with inbox := query.inbox ++ [hi :: lo :: rest] }
      | _ => b

end Base

/-! ## The tasks together -/

inductive Event
  /-- A lookup asks. -/
  | lookup (conf : ResolvConf) (name : String) (qtype : RecordType) (bits : List UInt8)
    (draws : List UInt16)
  /-- A query's bytes went out, or could not. -/
  | sent (query : ℕ) (ok : Bool)
  | received (server : ℕ) (source : IpAddr) (bytes : List UInt8)
  | readError (server : ℕ)
  /-- A query reads the next datagram in its channel. -/
  | recv (query : ℕ)
  | timeout (query : ℕ)
  /-- A lookup is dropped, and its query with it. -/
  | cancel (query : ℕ)
  | wake (probe : ℕ) (bits : List UInt8) (draws : List UInt16)
  /-- A probe's query is over. -/
  | resume (probe : ℕ)

/-- `none` where the event cannot be the next one. -/
def Base.step (b : Base Name) : Event → Option (Base Name)
  | .lookup conf name qtype bits draws => (b.ask dns conf name qtype none bits draws).map (·.1)
  | .sent q ok =>
    match b.queries[q]? with
    | none => none
    | some query =>
      match query.stage with
      | .sending again => some (b.afterTransmit q query again ok)
      | _ => none
  | .received server source bytes => some (b.received server source bytes)
  | .readError server => some (b.serverFailed server)
  | .recv q =>
    match b.queries[q]? with
    | none => none
    | some query =>
      match query.stage, query.inbox with
      | .waiting, bytes :: inbox =>
        match parseReply dns bytes query.id query.qname query.qtype query.conf.randomizeCase with
        | none => some (b.setQuery q { query with inbox })
        | some reply => some (b.reply q { query with inbox } reply)
      | _, _ => none
  | .timeout q =>
    match b.queries[q]? with
    | none => none
    | some query => if query.stage = .waiting then some (b.retransmit q query) else none
  | .cancel q =>
    match b.queries[q]? with
    | none => none
    | some query =>
      if query.running && !query.probing then some (b.finish q query none) else none
  | .wake p bits draws =>
    match b.probes[p]? with
    | none => none
    | some probe => if probe.stage = .sleeping then b.wake dns p probe bits draws else none
  | .resume p =>
    match b.probes[p]? with
    | none => none
    | some probe =>
      match probe.stage with
      | .asking q =>
        match b.queries[q]? with
        | none => none
        | some query =>
          match query.stage with
          | .finished answer => some (b.probed p probe answer)
          | _ => none
      | _ => none

/-- A run from a new base: the base it comes to. -/
inductive Reaches (conf : ResolvConf) : Base Name → Prop
  | start : Reaches conf (.new conf)
  | step {b b' : Base Name} {e : Event} (h : Reaches conf b) (hs : b.step dns e = some b') :
      Reaches conf b'

end Starla.Impl.Measurements.Resolver
