import Starla.Framework.Bytes
import Starla.Framework.Int64
import Starla.Impl.Measurements.Dns
import Starla.Impl.Reports.Envelope

/-!
# evtdig's lines

`format_line` of `starla-measurements/src/dns/mod.rs`, and `write_result`,
`read_name` and `numeric_host` of its `resolver.rs`. What became of each query
is an argument: where it got to, and the reply's bytes or what failed.
-/

namespace Starla.Impl.Reports

open Starla.Framework Starla.Impl.Measurements

namespace Dns

/-! ## Replies -/

def DNS_HEADER : Nat := 12

def byteAt (wire : List UInt8) (i : Nat) : Nat := (wire.getD i 0).toNat

def word (wire : List UInt8) (i : Nat) : Nat := byteAt wire i * 256 + byteAt wire (i + 1)

def long (wire : List UInt8) (i : Nat) : Nat := word wire i * 65536 + word wire (i + 2)

/-- A byte of a name or a text, a quote, a backslash or an unprintable one in
decimals. -/
def pushByte (b : UInt8) : String :=
  if b = 0x22 ∨ b = 0x5C ∨ ¬ (0x20 ≤ b ∧ b ≤ 0x7E) then "\\\\" ++ zeroPadded 3 (toString b.toNat)
  else String.ofList [Char.ofNat b.toNat]

def pushBytes (bytes : List UInt8) : String := String.join (bytes.map pushByte)

/-- `p` is the length of the name so far, `count` what it takes up in place. -/
def readNameFrom (base : List UInt8) (offset : Nat) (name : String) (count p : Nat) (jumped : Bool)
    (jumps : Nat) : Option (String × Nat) :=
  let len := byteAt base offset
  if offset < base.length ∧ len ≠ 0 then
    if len / 64 ≠ 0 then
      if len / 64 ≠ 3 then none
      else
        let next := len % 64 * 256 + byteAt base (offset + 1)
        if next ≥ base.length ∨ jumps > 256 then none
        else readNameFrom base next name (if jumped then count else count + 2) p true (jumps + 1)
    else if offset + len + 1 > base.length ∨ p + len + 1 > 255 then none
    else
      let label := (if p > 0 then "." else "") ++ pushBytes ((base.drop (offset + 1)).take len)
      readNameFrom base (offset + len + 1) (name ++ label) (if jumped then count else count + len + 1)
        (p + len + 1) jumped jumps
  else some (name, if jumped then count else count + 1)
termination_by (255 - p) + (257 - jumps)

/-- The name at `offset` and what it takes up there. -/
def readName (base : List UInt8) (offset : Nat) : Option (String × Nat) :=
  readNameFrom base offset "" 0 0 false 0

/-- The length of the question's name. -/
def dnsNamelenFrom (base : List UInt8) (start offset : Nat) : Option Nat :=
  let len := byteAt base offset
  if offset < base.length then
    if len / 64 ≠ 0 then if len / 64 ≠ 3 then none else some (offset + 1 - start)
    else if offset + len + 1 > base.length then none
    else if len = 0 then some (offset + 1 - start)
    else dnsNamelenFrom base start (offset + len + 1)
  else some (offset - start)
termination_by base.length - offset

def dnsNamelen (base : List UInt8) (start : Nat) : Option Nat := dnsNamelenFrom base start start

/-- The strings of a TXT, `left` bytes of the one begun, `none` before its
length. -/
def txtStrings : (left : Option Nat) → List UInt8 → String
  | _, [] => ""
  | none, b :: rest => txtStrings (some b.toNat) rest
  | some 0, b :: rest => "\", \"" ++ txtStrings (some b.toNat) rest
  | some (left + 1), b :: rest => pushByte b ++ txtStrings (some left) rest

def writeTxt (rdata : List UInt8) : String := "\"RDATA\" : [ \"" ++ txtStrings none rdata ++ "\" ] "

/-- An answer's record, after its name. -/
structure Rr where
  name : String
  rtype : Nat
  ttl : Nat
  rdlen : Nat
  offset : Nat

def readRr (wire : List UInt8) (offset : Nat) : Option Rr :=
  (readName wire offset).bind fun (name, used) =>
    let at' := offset + used
    if at' + 10 > wire.length then none
    else some ⟨name, word wire at', long wire (at' + 4), word wire (at' + 8), at' + 10⟩

/-- A TXT's text, and where it ends. -/
def txtAnswer (wire : List UInt8) (first : Bool) (rr : Rr) : Option (String × Nat) :=
  if rr.offset + rr.rdlen > wire.length then none
  else some ((if first then ",\"answers\" : [ \x7b" else ", \x7b") ++ "\"TYPE\" : \"TXT\" , \"NAME\" : \"" ++
    rr.name ++ "\" , " ++ writeTxt ((wire.drop rr.offset).take rr.rdlen) ++ "\x7d", rr.offset + rr.rdlen)

/-- A SOA's. -/
def soaAnswer (wire : List UInt8) (first : Bool) (rr : Rr) : Option (String × Nat) :=
  (readName wire rr.offset).bind fun (mname, used) =>
    (readName wire (rr.offset + used)).bind fun (rname, used') =>
      let at' := rr.offset + used + used'
      if at' + 5 * 4 > wire.length then none
      else some ((if first then ",\"answers\" : [ \x7b " else ",\x7b ") ++
        "\"TYPE\" : \"SOA\" , \"NAME\" : \"" ++ rr.name ++ ".\" , \"TTL\" : " ++ toString rr.ttl ++
        " , \"MNAME\" : \"" ++ mname ++ ".\" , \"RNAME\" : \"" ++ rname ++ ".\" , \"SERIAL\" : " ++
        toString (long wire at') ++ " \x7d ", at' + 5 * 4)

/-- The next `left` answers. A reply cut short ends where the cut is found. -/
def writeAnswers (wire : List UInt8) : (left offset : Nat) → (first : Bool) → String
  | 0, _, first => if first then "" else " ]"
  | left + 1, offset, first =>
    match readRr wire offset with
    | none => ""
    | some rr =>
      if rr.rtype = 16 then
        match txtAnswer wire first rr with
        | none => ""
        | some (text, offset) => text ++ writeAnswers wire left offset false
      else if rr.rtype = 6 then
        match soaAnswer wire first rr with
        | none => ""
        | some (text, offset) => text ++ writeAnswers wire left offset false
      else if rr.offset + rr.rdlen > wire.length then ""
      else writeAnswers wire left (rr.offset + rr.rdlen) first

def writeHeaderAndAnswers (wire : List UInt8) : String :=
  if wire.length < DNS_HEADER then ""
  else
    ",\"ID\" : " ++ toString (word wire 0) ++ " , \"ANCOUNT\" : " ++ toString (word wire 6) ++
      " , \"QDCOUNT\" : " ++ toString (word wire 4) ++ " , \"NSCOUNT\" : " ++ toString (word wire 8) ++
      " , \"ARCOUNT\" : " ++ toString (word wire 10) ++
      match dnsNamelen wire DNS_HEADER with
      | none => ""
      | some len =>
        if DNS_HEADER + len + 4 > wire.length ∨ word wire 6 = 0 then ""
        else writeAnswers wire (min (word wire 6) 2) (DNS_HEADER + len + 4) true

def writeResult (wire : List UInt8) (rt : Fixed 3) (qt : Option (Fixed 3)) (abuf : Bool) : String :=
  ",\"result\" : \x7b \"rt\" : " ++ rt.text ++ "," ++ (qt.map fun qt => "\"qt\" : " ++ qt.text ++ ",").getD "" ++
    "\"size\" : " ++ toString wire.length ++ " " ++
    (if abuf then ", \"abuf\" : \"" ++ String.ofList (base64 wire) ++ "\"" else "") ++
    writeHeaderAndAnswers wire ++ " \x7d"

/-! ## Queries -/

/-- An address with its scope: the interface's name where the system has one. -/
structure Host where
  ip : IpAddr
  scope : UInt32
  interfaceName : Option SystemText

def INET6_ADDRSTRLEN : Nat := 46

/-- Link-local, unicast or multicast. -/
def linkLocal (a : BitVec 128) : Bool :=
  let first := a.extractLsb' 112 16
  first &&& 0xffc0 == 0xfe80 || first &&& 0xff0f == 0xff02

def numericHost (h : Host) : String :=
  match h.ip with
  | .v4 _ => h.ip.text
  | .v6 a =>
    if h.scope = 0 then h.ip.text
    else
      let zone := match h.interfaceName with
        | some name => if linkLocal a then name.text else toString h.scope.toNat
        | none => toString h.scope.toNat
      if h.ip.text.utf8ByteSize + 1 + zone.utf8ByteSize + 1 > INET6_ADDRSTRLEN then h.ip.text
      else h.ip.text ++ "%" ++ zone

/-- Where a query went. -/
inductive Dst
  | none
  | name (server : String)
  | udp (server : String) (addr : Host)
  | tcp (server : String) (addr : Host)

/-- Why a lookup of the server failed. -/
inductive LookupFailure
  | noName
  | fail
deriving DecidableEq, Repr

def LookupFailure.text : LookupFailure → String
  | noName => Measurements.Dns.EAI_NONAME
  | fail => Measurements.Dns.EAI_FAIL

/-- What a query that has no reply reports. -/
inductive QueryError
  | macros
  | noResolvers
  | getaddrinfo (server : String) (why : LookupFailure)
  | socket (error : SystemText)
  | reason
  | connect (error : SystemText)
  | format
  | send (error : SystemText) (v4 : Bool)
  | tuDns (why : LookupFailure)
  | tuBadAddr
  | tuConnect (error : SystemText)
  | tuReadErr
  | tcpReadSize (size : Nat)
  | idMismatch (n : Nat)

def QueryError.text : QueryError → String
  | macros => "\"err\": \"macro expansion failed\""
  | noResolvers => "\"nameserver\": \"no local resolvers found\""
  | getaddrinfo server why => "\"evdns_getaddrinfo\": \"" ++ server ++ " " ++ why.text ++ "\""
  | socket error => " \"socket\" : \"socket failed " ++ error.text ++ "\""
  | reason => " \"reason\" : \"address not allowed\""
  | connect error => " \"socket\" : \"connect failed " ++ error.text ++ "\""
  | format => " \"err\" : \"unable to format DNS query\""
  | send error v4 => " \"senderror\" : \"AF " ++ error.text ++ ", " ++
      (if v4 then "AF_INET" else "NOT AF_INET") ++ "\""
  | tuDns why => " \"TUDNS\" : \"" ++ why.text ++ "\""
  | tuBadAddr => " \"TU_BAD_ADDR\" : true"
  | tuConnect error => " \"TUCONNECT\" : \"" ++ error.text ++ "\""
  | tuReadErr => " \"TU_READ_ERR\" : \"\""
  | tcpReadSize size => " \"TCPREADSIZE\" :  \"reply too small, got " ++ toString size ++ "\""
  | idMismatch n => "  \"idmismatch\" : \"mismatch id from tcp fd " ++ toString n ++ "\""

inductive Outcome
  | reply (wire : List UInt8) (rt : Fixed 3) (qt : Option (Fixed 3))
  | timeout
  | error (error : QueryError)

/-- One query, as far as it got. -/
structure Attempt where
  time : Int
  dst : Dst
  src : Option Host
  ttl : Option Int
  qbuf : Option (List UInt8)
  outcome : Outcome

/-- A query as it ended. -/
structure Entry where
  attempt : Attempt
  sub : Option (Nat × Nat)
  retry : Nat
  printed : Int

/-! ## Lines -/

def proto (cfg : DnsConfig) : String := if cfg.tcp then "TCP" else "UDP"

/-- How many seconds before the end of the run a query was reported. -/
def secondsBack (stop printed : Int) : Nat := (wrap64 (stop - printed)).toNat

/-- The server and the address it was asked at, the server where it is not
the address. -/
def sentText (cfg : DnsConfig) (key server ip : String) (addr : IpAddr) : String :=
  (if ip ≠ server then "\"" ++ key ++ "\" : \"" ++ server ++ "\" , " else "") ++ "\"dst_addr\" : \"" ++ ip ++
    "\" , \"dst_port\" : \"" ++ toString cfg.port.toNat ++ "\" , \"af\" : " ++
    toString (if addr.isIpv6 then 6 else 4 : Nat) ++ " , "

def dstText (cfg : DnsConfig) : Dst → String
  | .none => ""
  | .name server => "\"dst_name\" : \"" ++ server ++ "\" , "
  | .udp server addr => sentText cfg "name" server addr.ip.text addr.ip
  | .tcp server addr => sentText cfg "dst_name" server (numericHost addr) addr.ip

def outcomeText (cfg : DnsConfig) : Outcome → String
  | .reply wire rt qt => writeResult wire rt qt cfg.abuf
  | .timeout => ", \"error\" : \x7b" ++ " \"timeout\" : " ++ toString cfg.timeoutMs.toNat ++ "\x7d"
  | .error error => ", \"error\" : \x7b" ++ error.text ++ "\x7d"

/-- A query's text from its time on. -/
def entryText (cfg : DnsConfig) (stop : Int) (lts : LtsText) (e : Entry) : String :=
  let a := e.attempt
  "\"time\" : " ++ toString a.time ++ " , " ++ ("\"lts\" : " ++ lts.back (secondsBack stop e.printed) ++ " , ") ++
    (e.sub.map fun sub => "\"subid\" : " ++ toString sub.1 ++ " , \"submax\" : " ++ toString sub.2 ++ " , ").getD "" ++
    dstText cfg a.dst ++ (a.src.map fun src => "\"src_addr\" : \"" ++ numericHost src ++ "\" , ").getD "" ++
    (if e.retry > 0 then "\"retry\" : " ++ toString e.retry ++ " , " else "") ++
    (a.ttl.map fun ttl => "\"ttl\" : " ++ toString ttl ++ " , ").getD "" ++ "\"proto\" : \"" ++ proto cfg ++ "\" " ++
    (a.qbuf.map fun q => ",\"qbuf\" : \"" ++ String.ofList (base64 q) ++ "\" ").getD "" ++
    outcomeText cfg a.outcome ++ if cfg.resolv then "\x7d" else ""

/-- What the first query's text comes after. -/
def lineHead (msmId : UInt64) (cfg : DnsConfig) (stop : Int) (lts : LtsText) (e : Entry) : String :=
  "\"id\" : \"" ++ toString msmId.toNat ++ "\" , " ++
    (cfg.bundle.map fun bundle => "\"bundle\" : " ++ toString bundle.toNat ++ " , ").getD "" ++
    "\"fw\":" ++ toString FIRMWARE_VERSION ++ ", \"mver\": \"2.6.4\", " ++
    if cfg.resolv then
      "\"time\" : " ++ toString e.attempt.time ++ " , " ++
        ("\"lts\" : " ++ lts.back (secondsBack stop e.printed) ++ " , ") ++ "\"resultset\" : [ \x7b"
    else ""

def formatLine (msmId : UInt64) (cfg : DnsConfig) (entries : List Entry) (stop : Int) (lts : LtsText) : String :=
  (match entries with
    | [] => ""
    | e :: rest => lineHead msmId cfg stop lts e ++ entryText cfg stop lts e ++
        String.join (rest.map fun e => (if cfg.resolv then ",\x7b" else "") ++ entryText cfg stop lts e)) ++
    if cfg.resolv then "]" else ""

/-! ## A run -/

/-- Where a server's last query got to. -/
inductive Got
  | name
  | udp (addr : Host)
  | tcp (addr : Host)

def Got.dst (server : String) : Got → Dst
  | name => .name server
  | udp addr => .udp server addr
  | tcp addr => .tcp server addr

/-- How a server's query ends: a reply, or an error of its own. -/
inductive Ended
  | reply (wire : List UInt8) (rt : Fixed 3) (qt : Option (Fixed 3))
  | timeout
  | getaddrinfo (why : LookupFailure)
  | socket (error : SystemText)
  | reason
  | connect (error : SystemText)
  | format
  | send (error : SystemText) (v4 : Bool)
  | tuDns (why : LookupFailure)
  | tuBadAddr
  | tuConnect (error : SystemText)
  | tuReadErr
  | tcpReadSize (size : Nat)
  | idMismatch (n : Nat)

def Ended.outcome (server : String) : Ended → Outcome
  | reply wire rt qt => .reply wire rt qt
  | timeout => .timeout
  | getaddrinfo why => .error (.getaddrinfo server why)
  | socket error => .error (.socket error)
  | reason => .error .reason
  | connect error => .error (.connect error)
  | format => .error .format
  | send error v4 => .error (.send error v4)
  | tuDns why => .error (.tuDns why)
  | tuBadAddr => .error .tuBadAddr
  | tuConnect error => .error (.tuConnect error)
  | tuReadErr => .error .tuReadErr
  | tcpReadSize size => .error (.tcpReadSize size)
  | idMismatch n => .error (.idMismatch n)

/-- What a server's query comes to, its repeats included. -/
structure QueryMet where
  time : Int
  got : Got
  src : Option Host
  ttl : Option Int
  qbuf : Option (List UInt8)
  ended : Ended
  retry : Nat
  printed : Int

/-- What a run meets. -/
structure Met where
  /-- Whether the macros of the query's name expand. -/
  expands : Bool
  resolvers : List String
  query : Nat → QueryMet
  /-- When the run ends. -/
  stop : Int

def query (server : String) (sub : Option (Nat × Nat)) (met : QueryMet) : Entry :=
  ⟨⟨met.time, met.got.dst server, met.src, met.ttl, met.qbuf, met.ended.outcome server⟩, sub, met.retry,
    met.printed⟩

/-- An entry with nothing sent; its addresses are an earlier query's. -/
def Entry.error (dst : Dst) (sub : Option (Nat × Nat)) (error : QueryError) (met : QueryMet) : Entry :=
  ⟨⟨met.time, dst, met.src, met.ttl, none, .error error⟩, sub, 0, met.printed⟩

def run (cfg : DnsConfig) (met : Met) : List Entry :=
  if !met.expands then
    if cfg.resolv then [.error .none (some (1, 0)) .macros (met.query 0)]
    else [.error ((met.query 0).got.dst cfg.server) none .macros (met.query 0)]
  else if !cfg.resolv then [query cfg.server none (met.query 0)]
  else if met.resolvers.isEmpty then [.error .none (some (1, 0)) .noResolvers (met.query 0)]
  else met.resolvers.mapIdx fun i ns => query ns (some (i + 1, met.resolvers.length)) (met.query i)

/-- The line of a job's run. -/
def line (msmId : UInt64) (cfg : DnsConfig) (met : Met) (lts : LtsText) : String :=
  formatLine msmId cfg (run cfg met) met.stop lts

end Dns

end Starla.Impl.Reports
