import Starla.Framework.Bytes
import Starla.Impl.Measurements.Traceroute

/-!
# Traceroute packets

The probes and the reading of replies, of
`starla-measurements/src/traceroute/wire.rs`. A packet is a list of bytes. An
index into a packet that its length has been checked for reads 0 where there
is no byte. A `Duration` is a number of nanoseconds; the host's byte order is
little-endian.
-/

namespace Starla.Impl.Traceroute

open Starla.Framework Starla.Impl.Controller Starla.Impl.Measurements

abbrev Duration := Nat

def SRC_BASE_PORT : UInt16 := 20480

/-- What every probe's data carries after its own fields. -/
def ID_STRING : List UInt8 :=
  [104, 116, 116, 112, 58, 47, 47, 97, 116, 108, 97, 115, 46, 114, 105, 112, 101, 46, 110, 101, 116,
    32, 65, 116, 108, 97, 115, 32, 115, 97, 121, 115, 32, 72, 105, 33]

def V6INFO_LEN : Nat := 32
def ICMP_HDR : Nat := 8
def IPHDR : Nat := 20
def TCP_HDR : Nat := 20

def IPPROTO_HOPOPTS : UInt8 := 0
def IPPROTO_ICMP : UInt8 := 1
def IPPROTO_TCP : UInt8 := 6
def IPPROTO_UDP : UInt8 := 17
def IPPROTO_FRAGMENT : UInt8 := 44
def IPPROTO_ICMPV6 : UInt8 := 58
def IPPROTO_DSTOPTS : UInt8 := 60

/-! ## Checksums -/

/-- The sum of the 16-bit words, an odd last byte the high byte of one. -/
def sum16 : List UInt8 → Nat → Nat
  | a :: b :: data, acc => sum16 data (acc + (a.toNat * 256 + b.toNat))
  | [b], acc => acc + b.toNat * 256
  | [], acc => acc

def foldNot (acc : Nat) : UInt16 :=
  let s := acc / 65536 + acc % 65536
  let s := s + s / 65536
  ~~~ UInt16.ofNat s

def inCksum (data : List UInt8) : UInt16 := foldNot (sum16 data 0)

def bytes16 (n : UInt16) : List UInt8 := beBytes 2 n.toNat
def bytes32 (n : UInt32) : List UInt8 := beBytes 4 n.toNat

def pseudo4 (src dst : BitVec 32) (proto : UInt8) (len : UInt16) : List UInt8 :=
  beBytes 4 src.toNat ++ beBytes 4 dst.toNat ++ [0, proto] ++ bytes16 len

def pseudo6 (src dst : BitVec 128) (len : UInt32) (nxt : UInt8) : List UInt8 :=
  beBytes 16 src.toNat ++ beBytes 16 dst.toNat ++ bytes32 len ++ [0, 0, 0, nxt]

def cksumWith (ph data : List UInt8) : UInt16 := foldNot (sum16 data (sum16 ph 0))

/-- What a probe carries so that its checksum comes out as `val`. -/
def fudge (sum val : UInt16) : UInt16 :=
  let usum := sum.toNat + (65535 - val.toNat)
  UInt16.ofNat (usum + usum / 65536)

/-! ## Probes -/

/-- The data from `i` on: the id string, then zeros. -/
def fill (data : List UInt8) (i : Nat) : List UInt8 :=
  if i ≥ data.length then data
  else data.take i ++ ID_STRING.take (data.length - i) ++
    List.replicate (data.length - i - ID_STRING.length) 0

/-- Whether an IPv4 echo's data is a probe's: the id string after the two
Paris bytes, as far as the packet has it. -/
def carriesIdString (data : List UInt8) : Bool :=
  let rest := data.drop 2
  let n := min rest.length ID_STRING.length
  rest.take n == ID_STRING.take n

/-- The reference's header of an IPv6 UDP or ICMP probe. -/
structure V6Info where
  fuzz : UInt16
  pid : UInt32
  id : UInt32
  seq : UInt32
  tv : Duration
deriving DecidableEq, Repr

namespace V6Info

def bytes (info : V6Info) : List UInt8 :=
  bytes16 info.fuzz ++ [0, 0] ++ bytes32 info.pid ++ bytes32 info.id ++ bytes32 info.seq ++
    (beBytes 8 (info.tv / 1000000000)).reverse ++ (beBytes 8 (info.tv % 1000000000)).reverse

def read (b : List UInt8) : Option V6Info :=
  if b.length < V6INFO_LEN then none
  else
    let sec := beNat ((b.drop 16).take 8).reverse
    let nsec := beNat ((b.drop 24).take 8).reverse
    some {
      fuzz := UInt16.ofNat (beNat (b.take 2))
      pid := UInt32.ofNat (beNat ((b.drop 4).take 4))
      id := UInt32.ofNat (beNat ((b.drop 8).take 4))
      seq := UInt32.ofNat (beNat ((b.drop 12).take 4))
      tv := if sec < 2 ^ 63 ∧ nsec < 1000000000 then sec * 1000000000 + nsec else 0 }

end V6Info

def icmp4Echo (id seq size : UInt16) (paris : Option UInt16) : List UInt8 :=
  let p := [8, 0, 0, 0] ++ bytes16 id ++ bytes16 seq ++ List.replicate (max size.toNat 2) 0
  let p := fill p (ICMP_HDR + 2)
  let p := match paris with
    | some paris => splice p 8 (bytes16 (fudge (inCksum p) paris))
    | none => p
  splice p 2 (bytes16 (inCksum p))

def icmp6Echo (src dst : BitVec 128) (pid : UInt32) (index seq : UInt16) (tv : Duration) (size : UInt16)
    (paris : Option UInt16) : List UInt8 :=
  let len := ICMP_HDR + max size.toNat V6INFO_LEN
  let info : V6Info := ⟨0, pid, index.toUInt32, seq.toUInt32, tv⟩
  let p := [128, 0, 0, 0] ++ bytes16 pid.toUInt16 ++ bytes16 seq ++ List.replicate (len - ICMP_HDR) 0
  let p := fill (splice p ICMP_HDR info.bytes) (ICMP_HDR + V6INFO_LEN)
  match paris with
  | some paris =>
    let ph := pseudo6 src dst (UInt32.ofNat len) IPPROTO_ICMPV6
    -- "Avoid 0"
    splice p ICMP_HDR { info with fuzz := fudge (cksumWith ph p) (paris + 1) }.bytes
  | none => p

def udp6Payload (pid : UInt32) (index seq : UInt16) (tv : Duration) (size : UInt16) : List UInt8 :=
  let info : V6Info := ⟨0, pid, index.toUInt32, seq.toUInt32, tv⟩
  fill (splice (List.replicate (max size.toNat V6INFO_LEN) 0) 0 info.bytes) V6INFO_LEN

def udpHeader (sport dport len : UInt16) : List UInt8 :=
  bytes16 sport ++ bytes16 dport ++ bytes16 len ++ [0, 0]

/-- The UDP checksum the kernel puts on an IPv4 probe. -/
def udp4Cksum (src dst : BitVec 32) (sport dport : UInt16) (payload : List UInt8) : UInt16 :=
  let ulen := UInt16.ofNat (8 + payload.length)
  foldNot (sum16 payload (sum16 (udpHeader sport dport ulen) (sum16 (pseudo4 src dst IPPROTO_UDP ulen) 0)))

/-- Two bytes that make the UDP checksum `val`, then the id string. -/
def udp4Payload (src dst : BitVec 32) (sport dport size val : UInt16) : List UInt8 :=
  let p := fill (List.replicate (max size.toNat 2) 0) 2
  splice p 0 (bytes16 (fudge (udp4Cksum src dst sport dport p) val))

/-- A SYN with the index and the sequence number in its sequence number. -/
def tcpSyn (src dst : IpAddr) (sport dport index seq size : UInt16) : List UInt8 :=
  let p := bytes16 sport ++ bytes16 dport ++ bytes32 (index.toUInt32 <<< 16 ||| seq.toUInt32) ++
    [0, 0, 0, 0] ++ [0x50, 0x02] ++ List.replicate (6 + size.toNat) 0
  let p := fill p TCP_HDR
  let c := match src, dst with
    | .v4 s, .v4 d => cksumWith (pseudo4 s d IPPROTO_TCP (UInt16.ofNat p.length)) p
    | .v6 s, .v6 d => cksumWith (pseudo6 s d (UInt32.ofNat p.length) IPPROTO_TCP) p
    | _, _ => 0
  splice p 16 (bytes16 c)

/-! ## Replies -/

/-- Whose probes a reply may answer. -/
structure TraceId where
  v6 : Bool
  protocol : TracerouteProtocol
  pid : UInt32
  index : UInt16
  target : IpAddr
  paris : Option UInt16
deriving DecidableEq, Repr

/-- Which of the reference's handlers would take the packet. -/
inductive Branch
  | v4ErrL4
  | v4ErrIcmp
  | v4Echo
  | v4Tcp
  | v6Err
  | v6Echo
  | v6Tcp
deriving DecidableEq, Repr

inductive Outcome
  | timeExceeded
  | unreach (code : UInt8)
  | needFrag (mtu : UInt32)
  | tooBig (mtu : UInt32)
  | echoReply
  | tcp
deriving DecidableEq, Repr

structure Answer where
  branch : Branch
  outcome : Outcome
  /-- The quoted probe's sequence number, or the low half of a TCP answer's
  acknowledgment number. -/
  seq : UInt32
  sender : IpAddr
  ttl : Int := -42
  size : Int := 0
  tos : Int := 0
  innerTtl : UInt8 := 1
  innerTos : UInt8 := 0
  /-- The quoted probe's destination, where it is not the target. -/
  edst : Option (BitVec 32) := none
  hbhOptSize : UInt32 := 0
  dstOptSize : UInt32 := 0
  innerL4Len : UInt32 := 8
  flags : String := ""
  hdropts : Option String := none
  icmpext : Option String := none
  sentTv : Option Duration := none
deriving DecidableEq, Repr

def be16 (b : List UInt8) (i : Nat) : Option UInt16 :=
  if i + 2 ≤ b.length then some (UInt16.ofNat (beNat ((b.drop i).take 2))) else none

def be32 (b : List UInt8) (i : Nat) : Option UInt32 :=
  if i + 4 ≤ b.length then some (UInt32.ofNat (beNat ((b.drop i).take 4))) else none

def byteAt (b : List UInt8) (i : Nat) : UInt8 := b.getD i 0

/-! ### What a reply says beside its sequence number -/

def mplsEntries : (first : Bool) → List UInt8 → String
  | first, a :: b :: c :: d :: rest =>
    let v := beNat [a, b, c, d]
    (if first then "" else ",") ++ " \x7b \"label\":" ++ toString (v / 4096) ++ ", \"exp\":" ++
      toString (v / 512 % 8) ++ ", \"s\":" ++ toString (v / 256 % 2) ++ ", \"ttl\":" ++ toString (v % 256) ++
      " \x7d" ++ mplsEntries false rest
  | _, _ => ""

def mpls (p : List UInt8) : String := ", \"mpls\": [" ++ mplsEntries true p ++ " ]"

/-- The objects of an extension structure, up to one whose length is wrong. -/
def icmpObjects (first : Bool) (p : List UInt8) : String :=
  if p.length ≤ 4 then ""
  else
    let len := beNat (p.take 2)
    let cls := byteAt p 2
    let ctype := byteAt p 3
    let head := (if first then "" else ",") ++ " \x7b \"class\":" ++ toString cls.toNat ++ ", \"type\":" ++
      toString ctype.toNat
    if len < 4 ∨ len > p.length then head ++ " \x7d"
    else
      let labels := if cls = 1 ∧ ctype = 1 then mpls ((p.take len).drop 4) else ""
      head ++ labels ++ " \x7d" ++ icmpObjects false (p.drop len)
termination_by p.length
decreasing_by rw [List.length_drop]; omega

def icmpMulti (p : List UInt8) (preRfc4884 : Bool) : Option String :=
  if p.length < 4 ∨ inCksum p ≠ 0 then none
  else some (", \"icmpext\": \x7b \"version\":" ++ toString ((byteAt p 0).toNat / 16) ++ ", \"rfc4884\":" ++
    (if preRfc4884 then "0" else "1") ++ ", \"obj\": [" ++ icmpObjects true (p.drop 4) ++ " ] \x7d")

/-- MSS options, then the first other option's kind, and stop. -/
def hdroptEntries : (first : Bool) → (opts : List UInt8) → String
  | _, [] => ""
  | first, o :: rest =>
    let sep := if first then "" else ", "
    if o = 2 then
      let len := (byteAt rest 0).toNat
      if len < 4 ∨ len > (o :: rest).length then ""
      else
        sep ++ "\x7b \"mss\":" ++ toString (beNat ((rest.drop 1).take 2)) ++ " \x7d" ++
          hdroptEntries false (rest.drop (len - 1))
    else sep ++ "\x7b \"unknown-opt\":" ++ toString o.toNat ++ " \x7d"
termination_by _ opts => opts.length
decreasing_by rw [List.length_drop, List.length_cons]; omega

def hdropts (opts : List UInt8) : String := ", \"hdropts\": [ " ++ hdroptEntries true opts ++ " ]"

def tcpFlags (b : UInt8) : String :=
  String.ofList (([(0x01, 'F'), (0x02, 'S'), (0x04, 'R'), (0x08, 'P'), (0x10, 'A'), (0x20, 'U')] :
    List (UInt8 × Char)).filterMap fun (bit, c) => if b &&& bit ≠ 0 then some c else none)

/-- The extensions after the quoted packet, of `prefixLen` bytes where the
length field gives one. -/
def icmpExt (quoted : List UInt8) (prefixLen : Nat) : Option String :=
  if prefixLen ≠ 0 then
    if quoted.length > prefixLen then icmpMulti (quoted.drop prefixLen) false else none
  else if quoted.length > 128 then icmpMulti (quoted.drop 128) true
  else none

/-! ### IPv4 -/

/-- What an IPv4 ICMP error quotes after the IP header, if it is a probe of
this trace: the branch, the sequence number and what the header takes off an
MTU. -/
def quotedIcmp4 (id : TraceId) (proto : UInt8) (l4 : List UInt8) (curSeq : UInt16) :
    Option (Branch × UInt32 × UInt32) :=
  if proto = IPPROTO_TCP ∧ id.protocol = .TCP then do
    if l4.length < 8 then none
    let sport ← be16 l4 0
    let tseq ← be32 l4 4
    if sport ≠ SRC_BASE_PORT + id.index ∨ (tseq >>> 16).toUInt16 ≠ id.index then none
    some (.v4ErrL4, tseq &&& 0xffff, UInt32.ofNat TCP_HDR)
  else if proto = IPPROTO_UDP ∧ id.protocol = .UDP then do
    if l4.length < 8 then none
    let sport ← be16 l4 0
    if sport ≠ SRC_BASE_PORT + id.index then none
    let seq ← if id.paris.isSome then (be16 l4 6).map fun c => (min c curSeq).toUInt32
      else (be16 l4 2).map fun dport => dport.toUInt32 - BASE_PORT.toUInt32
    some (.v4ErrL4, seq, 8)
  else if proto = IPPROTO_ICMP ∧ id.protocol = .ICMP then do
    if l4.length < 8 ∨ byteAt l4 0 ≠ 8 ∨ byteAt l4 1 ≠ 0 then none
    let eid ← be16 l4 4
    if eid >>> 12 ≠ 0 ∨ eid &&& 0x0fff ≠ id.index ∨ !carriesIdString (l4.drop 8) then none
    let seq ← be16 l4 6
    some (.v4ErrIcmp, seq.toUInt32, 8)
  else none

/-- An IPv4 ICMP packet, its IP header first. -/
def parseIcmp4 (id : TraceId) (buf : List UInt8) (sender : BitVec 32) (curSeq : UInt16) : Option Answer := do
  let first ← buf.head?
  let ihl := (first &&& 0x0f).toNat
  let hlen := ihl * 4
  if buf.length < hlen + ICMP_HDR ∨ ihl < 5 then none
  let icmp := buf.drop hlen
  let kind := byteAt icmp 0
  let code := byteAt icmp 1
  let size : Int := buf.length - IPHDR - ICMP_HDR
  if kind = 11 ∨ kind = 3 then
    let eip := icmp.drop ICMP_HDR
    let first ← eip.head?
    let ehl := (first &&& 0x0f).toNat
    let ehlen := ehl * 4
    if eip.length < ehlen ∨ ehl < 5 then none
    let (branch, seq, l4Len) ← quotedIcmp4 id (byteAt eip 9) (eip.drop ehlen) curSeq
    let outcome ← if kind = 11 then some .timeExceeded
      else if code = 4 then (be16 icmp 6).map fun mtu => .needFrag mtu.toUInt32
      else some (.unreach code)
    let edst := BitVec.ofNat 32 (beNat ((eip.drop 16).take 4))
    some {
      branch, outcome, seq
      sender := .v4 sender
      ttl := (byteAt buf 8).toNat
      tos := (byteAt buf 1).toNat
      size
      innerTtl := byteAt eip 8
      innerTos := byteAt eip 1
      innerL4Len := l4Len
      edst := if IpAddr.v4 edst ≠ id.target then some edst else none
      icmpext := icmpExt eip ((byteAt icmp 5).toNat * 4) }
  else if kind = 0 ∧ id.protocol = .ICMP then
    if code ≠ 0 then none
    let rid ← be16 icmp 4
    if rid >>> 12 ≠ 0 ∨ rid &&& 0x0fff ≠ id.index ∨ !carriesIdString (icmp.drop ICMP_HDR) then none
    let seq ← be16 icmp 6
    some {
      branch := .v4Echo
      outcome := .echoReply
      seq := seq.toUInt32
      sender := .v4 sender
      ttl := (byteAt buf 8).toNat
      tos := (byteAt buf 1).toNat
      size }
  else none

/-! ### IPv6 -/

/-- The quoted headers up to the probe's own: its protocol, where it starts,
and the sizes of the options headers. -/
structure Headers where
  nxt : UInt8
  ptr : Nat
  hbh : UInt32 := 0
  dst : UInt32 := 0
deriving DecidableEq, Repr

/-- An options header: the next one, and its own size less 8. -/
def optionsHeader (buf : List UInt8) (ptr : Nat) : Option (UInt8 × UInt32 × Nat) :=
  if ptr + 2 > buf.length then none
  else
    let opt := 8 * (byteAt buf (ptr + 1)).toUInt32
    let optlen := opt.toNat + 8
    if ptr + optlen > buf.length then none
    else some (byteAt buf ptr, opt, ptr + optlen)

def hopOptions (buf : List UInt8) (h : Headers) : Option Headers :=
  if h.nxt = IPPROTO_HOPOPTS then
    (optionsHeader buf h.ptr).map fun (nxt, hbh, ptr) => { h with nxt, ptr, hbh }
  else some h

def fragmentHeader (buf : List UInt8) (h : Headers) : Option Headers :=
  if h.nxt = IPPROTO_FRAGMENT then
    if h.ptr + 8 > buf.length then none
    -- not the first fragment: nothing to match
    else (be16 buf (h.ptr + 2)).bind fun offset =>
      if offset &&& ~~~ 3 ≠ 0 then none
      else some { h with nxt := byteAt buf h.ptr, ptr := h.ptr + 8 }
  else some h

def dstOptions (buf : List UInt8) (h : Headers) : Option Headers :=
  if h.nxt = IPPROTO_DSTOPTS then
    (optionsHeader buf h.ptr).map fun (nxt, dst, ptr) => { h with nxt, ptr, dst }
  else some h

/-- The protocols a quoted IPv6 header may name. -/
def quotedNext : List UInt8 :=
  [IPPROTO_FRAGMENT, IPPROTO_HOPOPTS, IPPROTO_DSTOPTS, IPPROTO_TCP, IPPROTO_UDP, IPPROTO_ICMPV6]

def quotedProtocol (nxt : UInt8) : TracerouteProtocol :=
  if nxt = IPPROTO_TCP then .TCP else if nxt = IPPROTO_UDP then .UDP else .ICMP

/-- An ICMPv6 message, without an IPv6 header. -/
def parseIcmp6 (id : TraceId) (buf : List UInt8) (sender : BitVec 128) (hoplimit tclass : Int) : Option Answer :=
  if buf.length < ICMP_HDR then none
  else
    let kind := byteAt buf 0
    let size : Int := buf.length - ICMP_HDR
    if 1 ≤ kind ∧ kind ≤ 3 then do
      if buf.length < ICMP_HDR + 40 then none
      let eip := buf.drop ICMP_HDR
      let nxt := byteAt eip 6
      if nxt ∉ quotedNext then none
      let h ← hopOptions buf { nxt, ptr := ICMP_HDR + 40 }
      let h ← fragmentHeader buf h
      let h ← dstOptions buf h
      let (siz, infoSiz) := if h.nxt = IPPROTO_TCP then (TCP_HDR, 0) else (8, V6INFO_LEN)
      if h.ptr + siz + infoSiz > buf.length then none
      let (seq, sentTv) ←
        if h.nxt = IPPROTO_TCP then do
          let tseq ← be32 buf (h.ptr + 4)
          if (tseq >>> 16).toUInt16 ≠ id.index then none
          some (tseq &&& 0xffff, none)
        else do
          let info ← V6Info.read (buf.drop (h.ptr + 8))
          if info.pid ≠ id.pid ∨ info.id ≠ id.index.toUInt32 then none
          some (info.seq, some info.tv)
      if quotedProtocol h.nxt ≠ id.protocol then none
      let outcome ← if kind = 3 then some .timeExceeded
        else if kind = 2 then (be32 buf 4).map .tooBig
        else some (.unreach (byteAt buf 1))
      let word ← be32 eip 0
      some {
        branch := .v6Err
        outcome, seq
        sender := .v6 sender
        ttl := hoplimit
        tos := tclass
        size
        innerTtl := byteAt eip 7
        innerTos := ((word >>> 20) &&& 0xff).toUInt8
        hbhOptSize := h.hbh
        dstOptSize := h.dst
        innerL4Len := UInt32.ofNat siz
        sentTv
        icmpext := icmpExt eip ((byteAt buf 4).toNat * 8) }
    else if kind = 129 ∧ id.protocol = .ICMP then do
      let info ← V6Info.read (buf.drop ICMP_HDR)
      if info.pid ≠ id.pid ∨ info.id ≠ id.index.toUInt32 then none
      some {
        branch := .v6Echo
        outcome := .echoReply
        seq := info.seq
        sender := .v6 sender
        ttl := hoplimit
        tos := tclass
        size
        sentTv := some info.tv }
    else none

/-! ### TCP -/

/-- The segment of a packet off the raw TCP socket: IPv4 has its header in
front, IPv6 has none. -/
def tcpSegment (buf : List UInt8) (sender : IpAddr) (hoplimit tclass : Int) :
    Option (List UInt8 × Int × Int × Int × Branch) :=
  match sender with
  | .v4 _ => do
    let first ← buf.head?
    let ihl := (first &&& 0x0f).toNat
    let hlen := ihl * 4
    if buf.length < hlen + TCP_HDR ∨ ihl < 5 then none
    some (buf.drop hlen, (byteAt buf 8).toNat, (byteAt buf 1).toNat, buf.length - IPHDR - TCP_HDR, .v4Tcp)
  | .v6 _ => some (buf, hoplimit, tclass, buf.length - TCP_HDR, .v6Tcp)

def parseTcp (id : TraceId) (buf : List UInt8) (sender : IpAddr) (hoplimit tclass : Int) : Option Answer := do
  let (tcp, ttl, tos, size, branch) ← tcpSegment buf sender hoplimit tclass
  if tcp.length < TCP_HDR then none
  let doff := (byteAt tcp 12 >>> 4).toNat
  let tcpHlen := doff * 4
  if tcp.length < tcpHlen ∨ doff < 5 then none
  -- our port, and our index in the acknowledgment's high half
  let ack ← be32 tcp 8
  let port ← be16 tcp 2
  if port ≠ SRC_BASE_PORT + id.index ∨ (ack >>> 16).toUInt16 ≠ id.index then none
  some {
    branch
    outcome := .tcp
    seq := ack &&& 0xffff
    sender, ttl, tos, size
    flags := tcpFlags (byteAt tcp 13)
    hdropts := if tcpHlen > TCP_HDR then some (Traceroute.hdropts ((tcp.take tcpHlen).drop TCP_HDR)) else none }

/-- A packet off one of a run's sockets, `curSeq` the probe in flight. -/
def parseReply (id : TraceId) (fromTcpSocket : Bool) (buf : List UInt8) (sender : IpAddr)
    (hoplimit tclass : Int) (curSeq : UInt16) : Option Answer :=
  if fromTcpSocket then parseTcp id buf sender hoplimit tclass
  else match sender with
    | .v4 sender => parseIcmp4 id buf sender curSeq
    | .v6 sender => parseIcmp6 id buf sender hoplimit tclass

end Starla.Impl.Traceroute
