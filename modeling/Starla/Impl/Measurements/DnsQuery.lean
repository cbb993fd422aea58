import Starla.Framework.Bytes
import Starla.Impl.Measurements.Dns
import Starla.Impl.Measurements.DnsName

/-!
# evtdig's packets

The query of `dns/resolver.rs`, and what `udp_query` and `tcp_attempt` take for
the reply to it. What is random is an argument.
-/

namespace Starla.Impl.Measurements.Dns

open Starla.Framework Starla.Impl.Measurements.DnsName

def DNS_HEADER : Nat := 12
def MAX_DNS_BUF_SIZE : Nat := 5120

/-! ## The query -/

def queryName (cfg : DnsConfig) (name : String) (probeId time : Int) : String :=
  if cfg.prependProbeId then toString (max probeId 0) ++ "." ++ toString time ++ "." ++ name else name

def queryId (random : UInt32) : UInt16 := (random % 65535).toUInt16

def bit (on : Bool) (mask : UInt16) : UInt16 := if on then mask else 0

def queryFlags (cfg : DnsConfig) : UInt16 := bit (cfg.resolv || cfg.rd) 0x0100 ||| bit cfg.ad 0x0020 ||| bit cfg.cd 0x0010

/-- Something needs an OPT record. -/
def opt (cfg : DnsConfig) : Bool :=
  cfg.nsid || cfg.clientSubnet || cfg.cookies || cfg.dnssec || decide (512 < cfg.edns0) || cfg.ednsVersion != 0 ||
    cfg.ednsFlags != 0 || cfg.ednsOption != 0

/-- The OPT record's data, `cookie` the client's. -/
def optData (cfg : DnsConfig) (v4 : Bool) (cookie : Vector UInt8 8) : List UInt8 :=
  (if cfg.nsid then [0, 3, 0, 0] else []) ++
    (if cfg.clientSubnet then [0, 8, 0, 4, 0, if v4 then 1 else 2, 0, 0] else []) ++
    (if cfg.cookies then [0, 10, 0, 8] ++ cookie.toList else []) ++
    (if cfg.ednsOption != 0 then beBytes 2 cfg.ednsOption.toNat ++ [0, 0] else [])

def buildQuery (cfg : DnsConfig) (name : String) (id : UInt16) (v4 : Bool) (cookie : Vector UInt8 8) :
    Option (List UInt8) := do
  let qname ← encodeName name
  let p := beBytes 2 id.toNat ++ beBytes 2 (queryFlags cfg).toNat ++ [0, 1, 0, 0, 0, 0, 0, 0] ++ qname ++
    beBytes 2 cfg.qtype.toNat ++ beBytes 2 cfg.qclass.toNat
  if opt cfg then
    let rdata := optData cfg v4 cookie
    let p := p ++ [0] ++ beBytes 2 41 ++ beBytes 2 cfg.edns0.toNat ++ [0, cfg.ednsVersion] ++
      beBytes 2 (cfg.ednsFlags ||| bit cfg.dnssec 0x8000).toNat ++ beBytes 2 rdata.length ++ rdata
    -- ARCOUNT
    return p.set 11 1
  else return p

/-- The query of an attempt. -/
def attemptQuery (cfg : DnsConfig) (name : String) (probeId time : Int) (random : UInt32) (v4 : Bool)
    (cookie : Vector UInt8 8) : Option (List UInt8) :=
  buildQuery cfg (queryName cfg name probeId time) (queryId random) v4 cookie

/-- What is written to a connection. -/
def tcpWire (query : List UInt8) : List UInt8 := beBytes 2 query.length ++ query

/-! ## The reply -/

/-- What a connected socket brings. -/
inductive Received
  | failed
  | datagram (bytes : List UInt8) (ttl : Option Int)

/-- The reply among what comes in time, and the TTL it came with. -/
def awaitReply (id : UInt16) : List Received → Option (List UInt8 × Option Int)
  | [] => none
  | .failed :: rest => awaitReply id rest
  | .datagram bytes ttl :: rest =>
    let wire := bytes.take MAX_DNS_BUF_SIZE
    if wire.length < DNS_HEADER || wire.take 2 != beBytes 2 id.toNat then awaitReply id rest else some (wire, ttl)

/-- What a connection came to. -/
inductive TcpReply
  | reply (wire : List UInt8)
  | timeout
  | readErr
  | tooSmall (size : Nat)
  | idMismatch (n : Nat)
deriving DecidableEq

/-- What of the bytes that come in time is the reply, `closed` if the connection
ends after them. -/
def tcpReply (id : UInt16) (bytes : List UInt8) (closed : Bool) : TcpReply :=
  let short := if closed then TcpReply.readErr else .timeout
  if bytes.length < 2 then short
  else
    let size := beNat (bytes.take 2)
    let rest := bytes.drop 2
    if size < DNS_HEADER then .tooSmall size
    else if rest.length < size then short
    else if (rest.take size).take 2 = beBytes 2 id.toNat then .reply (rest.take size)
    else .idMismatch (if size % 256 = 0 then 256 else size % 256)

end Starla.Impl.Measurements.Dns
