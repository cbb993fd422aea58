import Starla.Impl.Measurements.Target

/-!
# evtdig

`dns/mod.rs` and `dns/resolver.rs` of `starla-measurements`, from a run to its
queries, as far as whom it asks goes. What a query's packet holds, and what
is read from a reply, is not modelled here: whether a query can be formatted
is an argument.
-/

namespace Starla.Impl.Measurements

open Starla.Framework

structure DnsConfig where
  server : String
  af : UInt8
  tcp : Bool
  port : UInt16
  qtype : UInt16
  qclass : UInt16
  query : String
  resolv : Bool
  interface : Option String
  rd : Bool
  ad : Bool
  cd : Bool
  dnssec : Bool
  nsid : Bool
  clientSubnet : Bool
  cookies : Bool
  edns0 : UInt32
  ednsVersion : UInt8
  ednsFlags : UInt16
  ednsOption : UInt16
  qbuf : Bool
  abuf : Bool
  prependProbeId : Bool
  timeoutMs : UInt32
  retry : UInt32
  bundle : Option UInt64
  ttl : Bool
  disableCheckAddr : Bool := false
deriving DecidableEq, Repr

namespace Dns

/-- The address a query went to, or the server it was for. -/
inductive Dst
  | none
  | name (server : String)
  | udp (server : String) (addr : SocketAddr)
  | tcp (server : String) (addr : SocketAddr)
deriving DecidableEq, Repr

inductive Outcome
  | reply
  | timeout
  | error (text : String) (retry : Bool)
deriving DecidableEq, Repr

structure Attempt where
  dst : Dst
  outcome : Outcome
deriving DecidableEq, Repr

structure Entry where
  attempt : Attempt
  sub : Option (Nat × Nat)
  retry : Nat
deriving DecidableEq, Repr

/-! ## Servers -/

def EAI_NONAME : String := "nodename nor servname provided, or not known"
def EAI_FAIL : String := "non-recoverable failure in name resolution"

def SYSTEM_EAI_NONAME : List String :=
  ["Name or service not known", "Name does not resolve", "nodename nor servname provided, or not known"]

/-- `atlas_check_addr`'s prefixes, as evtdig has them. -/
def refused : IpAddr → Bool
  | .v4 a => hasPrefixOf [⟨0x7F000000, 8⟩, ⟨0x0A000000, 8⟩, ⟨0xAC100000, 12⟩, ⟨0xC0A80000, 16⟩,
      ⟨0xA9FE0000, 16⟩, ⟨0xE0000000, 4⟩] a
  | .v6 a => hasPrefixOf [⟨1, 128⟩, ⟨0xFFFF00000000, 96⟩, ⟨0xE000 <<< 112, 3⟩] a

def addressAllowed (var : Option String) (addr : SocketAddr) (cfg : DnsConfig) : Bool :=
  cfg.disableCheckAddr || checkAddrDisabled var || !refused addr.ip

/-- `--resolv` asks each resolver whatever its family. -/
def family (cfg : DnsConfig) : UInt8 := if cfg.resolv then 0 else cfg.af

/-- What evdns would have answered for the system resolver's error. -/
def evdnsError (error : String) : String :=
  if SYSTEM_EAI_NONAME.any fun t => hasInfix t.toList error.toList then EAI_NONAME else EAI_FAIL

/-- The server's addresses of the family, of the system resolver's answer. -/
def resolve (server : String) (port : UInt16) (af : UInt8) (answer : IoResult (List IpAddr)) :
    IoResult (List SocketAddr) :=
  match answer with
  | .error e => .error (evdnsError e)
  | .ok addrs =>
    let addrs := (addrs.filter (ofFamily af)).map (⟨·, port⟩)
    if !addrs.isEmpty then .ok addrs
    else if (parseIpAddr server.toList).isSome then .error EAI_NONAME
    else .error EAI_FAIL

def getaddrinfoFailed (server why : String) : String :=
  "\"evdns_getaddrinfo\": \"" ++ server ++ " " ++ why ++ "\""

/-! ## One query -/

/-- What the system answers the query at one address. -/
structure UdpIo where
  bind : IoResult Unit
  connect : IoResult Unit
  buildQuery : Bool
  send : IoResult Unit

structure TcpIo where
  connect : Connect
  buildQuery : Bool
  /-- how the exchange over the connection ends -/
  exchange : Outcome

/-- What an attempt meets: the server's lookup, and the network. -/
structure AttemptIo where
  answer : IoResult (List IpAddr)
  udp : Nat → UdpIo
  udpReply : Bool
  tcp : TcpIo

def afName (addr : IpAddr) : String := if addr.isIpv4 then "AF_INET" else "NOT AF_INET"

/-- The query at each address in turn, the `i`th next, `dst` the one it last
went to and `last` its send error: the reply is awaited from the last alone. -/
def udpQuery (var : Option String) (cfg : DnsConfig) (server : String) (io : AttemptIo) :
    List SocketAddr → (i : Nat) → Dst → (last : Option (IoResult Unit)) → Logged Contact Attempt
  | [], _, dst, none => pure ⟨dst, .error (getaddrinfoFailed server EAI_FAIL) false⟩
  | [], _, dst, some (.error text) => pure ⟨dst, .error text false⟩
  | [], _, dst, some (.ok ()) => pure ⟨dst, if io.udpReply then .reply else .timeout⟩
  | addr :: addrs, i, dst, _ =>
    match (io.udp i).bind with
    | .error e => pure ⟨dst, .error s!" \"socket\" : \"socket failed {e}\"" false⟩
    | .ok () =>
      if !cfg.resolv && !addressAllowed var addr cfg then
        pure ⟨.udp server addr, .error " \"reason\" : \"address not allowed\"" false⟩
      else
        match (io.udp i).connect with
        | .error e => pure ⟨dst, .error s!" \"socket\" : \"connect failed {e}\"" false⟩
        | .ok () =>
          if !(io.udp i).buildQuery then
            pure ⟨dst, .error " \"err\" : \"unable to format DNS query\"" false⟩
          else do
            Logged.emit (.packet addr)
            let sent := (io.udp i).send.mapError fun e =>
              s!" \"senderror\" : \"AF {e}, {afName addr.ip}\""
            udpQuery var cfg server io addrs (i + 1) (.udp server addr) (some sent)

def udpAttempt (var : Option String) (cfg : DnsConfig) (server : String) (io : AttemptIo) :
    Logged Contact Attempt :=
  match resolve server cfg.port (family cfg) io.answer with
  | .ok addrs => udpQuery var cfg server io addrs 0 (.name server) none
  | .error msg => pure ⟨.name server, .error (getaddrinfoFailed server msg) false⟩

/-- The query at the first address alone. -/
def tcpAttempt (var : Option String) (cfg : DnsConfig) (server : String) (io : AttemptIo) :
    Logged Contact Attempt :=
  match resolve server cfg.port (family cfg) io.answer with
  | .error msg => pure ⟨.name server, .error s!" \"TUDNS\" : \"{msg}\"" true⟩
  -- `resolve` gives no empty list
  | .ok [] => pure ⟨.name server, .error "" false⟩
  | .ok (addr :: _) =>
    let dst := Dst.tcp server addr
    if !addressAllowed var addr cfg then pure ⟨dst, .error " \"TU_BAD_ADDR\" : true" true⟩
    else do
      Logged.emit (.connection addr)
      match io.tcp.connect with
      | .timedOut => pure ⟨dst, .timeout⟩
      | .failed e => pure ⟨dst, .error s!" \"TUCONNECT\" : \"{e}\"" true⟩
      | .connected =>
        if !io.tcp.buildQuery then
          pure ⟨dst, .error " \"err\" : \"unable to format DNS query\"" false⟩
        else pure ⟨dst, io.tcp.exchange⟩

/-- Whether a query that ended so is asked again. -/
def Outcome.again : Outcome → Bool
  | timeout => true
  | error _ retry => retry
  | reply => false

def attempt (var : Option String) (cfg : DnsConfig) (server : String) (io : AttemptIo) :
    Logged Contact Attempt :=
  if cfg.tcp then tcpAttempt var cfg server io else udpAttempt var cfg server io

/-- One server's query, with its repeats: `left` of them may follow. -/
def query (var : Option String) (cfg : DnsConfig) (server : String) (sub : Option (Nat × Nat))
    (io : Nat → AttemptIo) : (left retry : Nat) → Logged Contact Entry
  | 0, retry => do
    let asked ← attempt var cfg server (io retry)
    pure ⟨asked, sub, retry⟩
  | left + 1, retry => do
    let asked ← attempt var cfg server (io retry)
    if asked.outcome.again then query var cfg server sub io left (retry + 1)
    else pure ⟨asked, sub, retry⟩

/-! ## A run -/

/-- What a run meets: its name with the macros expanded, the resolvers it
reads, and each resolver's attempts. -/
structure DnsIo where
  name : Option String
  resolvers : List String
  attempt : Nat → Nat → AttemptIo

/-- The resolvers' queries, the `i`th next. -/
def queries (var : Option String) (cfg : DnsConfig) (io : DnsIo) (submax : Nat) :
    List String → (i : Nat) → Logged Contact (List Entry)
  | [], _ => pure []
  | ns :: rest, i => do
    let entry ← query var cfg ns (some (i + 1, submax)) (io.attempt i) cfg.retry.toNat 0
    let entries ← queries var cfg io submax rest (i + 1)
    pure (entry :: entries)

def run (var : Option String) (cfg : DnsConfig) (io : DnsIo) : Logged Contact (List Entry) :=
  match io.name with
  | none =>
    let (dst, sub) := if cfg.resolv then (Dst.none, some (1, 0)) else (.name cfg.server, none)
    pure [⟨⟨dst, .error "\"err\": \"macro expansion failed\"" false⟩, sub, 0⟩]
  | some _ =>
    if !cfg.resolv then do
      let entry ← query var cfg cfg.server none (io.attempt 0) cfg.retry.toNat 0
      pure [entry]
    else if io.resolvers.isEmpty then
      pure [⟨⟨.none, .error "\"nameserver\": \"no local resolvers found\"" false⟩, some (1, 0), 0⟩]
    else queries var cfg io io.resolvers.length io.resolvers 0

end Dns

end Starla.Impl.Measurements
