import Starla.Framework.Checked
import Starla.Impl.Traceroute.Wire

/-!
# Traceroute replies, read by index

The reading of replies of `starla-measurements/src/traceroute/wire.rs` again,
with its own indices, slices and arithmetic, as an `usize` of 64 bits has
them: one out of range stops the program.
-/

namespace Starla.Impl.Traceroute.Indexed

open Starla.Framework Starla.Framework.Checked Starla.Impl.Controller Starla.Impl.Measurements

/-! ## Checksums -/

def sum16 : List UInt8 → Nat → Checked Nat
  | a :: b :: data, acc => do
    fits 32 (acc + (a.toNat * 256 + b.toNat))
    sum16 data (acc + (a.toNat * 256 + b.toNat))
  | [b], acc => do
    fits 32 (acc + b.toNat * 256)
    return acc + b.toNat * 256
  | [], acc => return acc

def foldNot (acc : Nat) : Checked UInt16 := do
  let s := acc / 65536 + acc % 65536
  fits 32 s
  fits 32 (s + s / 65536)
  return ~~~ UInt16.ofNat (s + s / 65536)

def inCksum (data : List UInt8) : Checked UInt16 := do
  let acc ← sum16 data 0
  foldNot acc

/-! ## Fields -/

def be16 (b : List UInt8) (i : Nat) : Checked UInt16 := do
  fits 64 (i + 2)
  let word ← getRange b i (i + 2)
  return UInt16.ofNat (beNat word)

def be32 (b : List UInt8) (i : Nat) : Checked UInt32 := do
  fits 64 (i + 4)
  let word ← getRange b i (i + 4)
  return UInt32.ofNat (beNat word)

def carriesIdString (data : List UInt8) : Checked Bool := do
  let rest := data.drop 2
  let n := min rest.length ID_STRING.length
  let got ← sliceTo rest n
  let want ← sliceTo ID_STRING n
  return got == want

/-- `Duration::new`, of nanoseconds that may make up more seconds. -/
def durationNew (sec nsec : Nat) : Checked Duration := do
  fits 64 (sec + nsec / 1000000000)
  return sec * 1000000000 + nsec

def readV6Info (b : List UInt8) : Checked V6Info := do
  let b ← getRange b 0 V6INFO_LEN
  let sec ← slice b 16 24
  let nsec ← slice b 24 32
  let sec := beNat sec.reverse
  let nsec := beNat nsec.reverse
  let tv ← if sec < 2 ^ 63 ∧ nsec < 1000000000 then durationNew sec nsec else pure 0
  let fuzz0 ← index b 0
  let fuzz1 ← index b 1
  let pid ← slice b 4 8
  let id ← slice b 8 12
  let seq ← slice b 12 16
  return ⟨UInt16.ofNat (beNat [fuzz0, fuzz1]), UInt32.ofNat (beNat pid), UInt32.ofNat (beNat id),
    UInt32.ofNat (beNat seq), tv⟩

/-! ## What a reply says beside its sequence number -/

/-- The loop of `mpls`, from the byte `o` on. -/
def mplsEntries (out : String) (p : List UInt8) (o : Nat) : Checked String := do
  fits 64 (o + 4)
  if _h : o + 4 ≤ p.length then
    let a ← index p o
    let b ← index p (o + 1)
    let c ← index p (o + 2)
    let d ← index p (o + 3)
    let v := beNat [a, b, c, d]
    mplsEntries (out ++ ((if o = 0 then "" else ",") ++ " \x7b \"label\":" ++ toString (v / 4096) ++
      ", \"exp\":" ++ toString (v / 512 % 8) ++ ", \"s\":" ++ toString (v / 256 % 2) ++ ", \"ttl\":" ++
      toString (v % 256) ++ " \x7d")) p (o + 4)
  else return out
termination_by p.length - o

def mpls (out : String) (p : List UInt8) : Checked String := do
  let out ← mplsEntries (out ++ ", \"mpls\": [") p 0
  return out ++ " ]"

/-- The labels of an object that is of labels. -/
def objectLabels (out : String) (p : List UInt8) (cls ctype : UInt8) (lo hi : Nat) : Checked String :=
  if cls = 1 ∧ ctype = 1 then do
    let labels ← slice p lo hi
    mpls out labels
  else return out

/-- The loop of `icmp_multi`, from the byte `o` on. -/
def icmpObjects (out : String) (p : List UInt8) (o : Nat) : Checked String := do
  fits 64 (o + 4)
  if _h : o + 4 < p.length then
    let len0 ← index p o
    let len1 ← index p (o + 1)
    let len := beNat [len0, len1]
    let cls ← index p (o + 2)
    let ctype ← index p (o + 3)
    let out := out ++ ((if o = 4 then "" else ",") ++ " \x7b \"class\":" ++ toString cls.toNat ++ ", \"type\":" ++
      toString ctype.toNat)
    if _h : len < 4 then return out ++ " \x7d"
    else
      fits 64 (o + len)
      if _h : o + len > p.length then return out ++ " \x7d"
      else
        let out ← objectLabels out p cls ctype (o + 4) (o + len)
        icmpObjects (out ++ " \x7d") p (o + len)
  else return out
termination_by p.length - o

def icmpMulti (p : List UInt8) (preRfc4884 : Bool) : Checked (Option String) :=
  if p.length < 4 then return none
  else do
    let cksum ← inCksum p
    if cksum ≠ 0 then return none
    else
      let first ← index p 0
      let out ← icmpObjects (", \"icmpext\": \x7b \"version\":" ++ toString (first.toNat / 16) ++ ", \"rfc4884\":" ++
        (if preRfc4884 then "0" else "1") ++ ", \"obj\": [") p 4
      return some (out ++ " ] \x7d")

/-- The loop of `hdropts`, from the byte `s` on. -/
def hdroptEntries (out : String) (opts : List UInt8) (s : Nat) : Checked String :=
  if _h : s < opts.length then do
    let sep := if s ≠ 0 then ", " else ""
    let o ← index opts s
    if o = 2 then
      fits 64 (s + 1)
      let len := (byteAt opts (s + 1)).toNat
      if _h : len < 4 then return out
      else
        fits 64 (s + len)
        if _h : s + len > opts.length then return out
        else
          let mss0 ← index opts (s + 2)
          let mss1 ← index opts (s + 3)
          hdroptEntries (out ++ (sep ++ "\x7b \"mss\":" ++ toString (beNat [mss0, mss1]) ++ " \x7d")) opts (s + len)
    else return out ++ (sep ++ "\x7b \"unknown-opt\":" ++ toString o.toNat ++ " \x7d")
  else return out
termination_by opts.length - s

def hdropts (opts : List UInt8) : Checked String := do
  let out ← hdroptEntries ", \"hdropts\": [ " opts 0
  return out ++ " ]"

/-- The extensions of a message that quotes from `start` on. -/
def icmpExt (buf : List UInt8) (start prefixLen : Nat) : Checked (Option String) :=
  if prefixLen ≠ 0 then do
    fits 64 (start + prefixLen)
    if buf.length > start + prefixLen then
      let p ← sliceFrom buf (start + prefixLen)
      icmpMulti p false
    else return none
  else do
    fits 64 (start + 128)
    if buf.length > start + 128 then
      let p ← sliceFrom buf (start + 128)
      icmpMulti p true
    else return none

/-! ## IPv4 -/

def quotedIcmp4 (id : TraceId) (proto : UInt8) (l4 : List UInt8) (curSeq : UInt16) :
    Checked (Branch × UInt32 × UInt32) :=
  if proto = IPPROTO_TCP ∧ id.protocol = .TCP then do
    refuseIf (l4.length < 8)
    let sport ← be16 l4 0
    let tseq ← be32 l4 4
    refuseIf (sport ≠ SRC_BASE_PORT + id.index ∨ (tseq >>> 16).toUInt16 ≠ id.index)
    return (.v4ErrL4, tseq &&& 0xffff, UInt32.ofNat TCP_HDR)
  else if proto = IPPROTO_UDP ∧ id.protocol = .UDP then do
    refuseIf (l4.length < 8)
    let sport ← be16 l4 0
    refuseIf (sport ≠ SRC_BASE_PORT + id.index)
    if id.paris.isSome then
      let cksum ← be16 l4 6
      return (.v4ErrL4, (min cksum curSeq).toUInt32, 8)
    else
      let dport ← be16 l4 2
      return (.v4ErrL4, dport.toUInt32 - BASE_PORT.toUInt32, 8)
  else if proto = IPPROTO_ICMP ∧ id.protocol = .ICMP then do
    refuseIf (l4.length < 8)
    let kind ← index l4 0
    refuseIf (kind ≠ 8)
    let code ← index l4 1
    refuseIf (code ≠ 0)
    let eid ← be16 l4 4
    refuseIf (eid >>> 12 ≠ 0)
    refuseIf (eid &&& 0x0fff ≠ id.index)
    let data ← sliceFrom l4 8
    let carries ← carriesIdString data
    refuseIf (!carries)
    let seq ← be16 l4 6
    return (.v4ErrIcmp, seq.toUInt32, 8)
  else .error .absent

/-- The answer to an error whose message `icmp` starts at `hlen` and quotes
`eip`. -/
def answerIcmp4 (id : TraceId) (buf icmp eip : List UInt8) (hlen : Nat) (ttl tos : UInt8) (sender : BitVec 32)
    (quoted : Branch × UInt32 × UInt32) (outcome : Outcome) : Checked Answer := do
  fitsInt 31 (buf.length - IPHDR)
  fitsInt 31 (buf.length - IPHDR - ICMP_HDR)
  let innerTtl ← index eip 8
  let innerTos ← index eip 1
  let a ← index eip 16
  let b ← index eip 17
  let c ← index eip 18
  let d ← index eip 19
  let edst := BitVec.ofNat 32 (beNat [a, b, c, d])
  let words ← index icmp 5
  let icmpext ← icmpExt buf (hlen + ICMP_HDR) (words.toNat * 4)
  return {
    branch := quoted.1
    outcome
    seq := quoted.2.1
    sender := .v4 sender
    ttl := ttl.toNat
    tos := tos.toNat
    size := buf.length - IPHDR - ICMP_HDR
    innerTtl, innerTos
    innerL4Len := quoted.2.2
    edst := if IpAddr.v4 edst ≠ id.target then some edst else none
    icmpext }

def errorIcmp4 (id : TraceId) (buf icmp : List UInt8) (hlen : Nat) (ttl tos kind : UInt8) (sender : BitVec 32)
    (curSeq : UInt16) : Checked Answer := do
  let eip ← sliceFrom icmp ICMP_HDR
  let first ← ofOption eip.head?
  let ehl := (first &&& 0x0f).toNat
  let ehlen := ehl * 4
  refuseIf (eip.length < ehlen ∨ ehl < 5)
  let l4 ← sliceFrom eip ehlen
  let proto ← index eip 9
  let quoted ← quotedIcmp4 id proto l4 curSeq
  let code ← index icmp 1
  let answer := answerIcmp4 id buf icmp eip hlen ttl tos sender quoted
  if kind = 11 then answer .timeExceeded
  else if code = 4 then
    let mtu ← be16 icmp 6
    answer (.needFrag mtu.toUInt32)
  else answer (.unreach code)

def echoIcmp4 (id : TraceId) (buf icmp : List UInt8) (ttl tos : UInt8) (sender : BitVec 32) : Checked Answer := do
  let code ← index icmp 1
  refuseIf (code ≠ 0)
  let rid ← be16 icmp 4
  refuseIf (rid >>> 12 ≠ 0)
  refuseIf (rid &&& 0x0fff ≠ id.index)
  let data ← sliceFrom icmp ICMP_HDR
  let carries ← carriesIdString data
  refuseIf (!carries)
  let seq ← be16 icmp 6
  fitsInt 31 (buf.length - IPHDR)
  fitsInt 31 (buf.length - IPHDR - ICMP_HDR)
  return {
    branch := .v4Echo
    outcome := .echoReply
    seq := seq.toUInt32
    sender := .v4 sender
    ttl := ttl.toNat
    tos := tos.toNat
    size := buf.length - IPHDR - ICMP_HDR }

def parseIcmp4 (id : TraceId) (buf : List UInt8) (sender : BitVec 32) (curSeq : UInt16) : Checked Answer := do
  let first ← ofOption buf.head?
  let ihl := (first &&& 0x0f).toNat
  let hlen := ihl * 4
  fits 64 (hlen + ICMP_HDR)
  refuseIf (buf.length < hlen + ICMP_HDR ∨ ihl < 5)
  let ttl ← index buf 8
  let tos ← index buf 1
  let icmp ← sliceFrom buf hlen
  let kind ← index icmp 0
  if kind = 11 ∨ kind = 3 then errorIcmp4 id buf icmp hlen ttl tos kind sender curSeq
  else if kind = 0 ∧ id.protocol = .ICMP then echoIcmp4 id buf icmp ttl tos sender
  else .error .absent

/-! ## IPv6 -/

def optionsHeader (buf : List UInt8) (ptr : Nat) : Checked (UInt8 × UInt32 × Nat) := do
  fits 64 (ptr + 2)
  refuseIf (ptr + 2 > buf.length)
  let units ← index buf (ptr + 1)
  fits 32 (8 * units.toNat)
  let opt := 8 * units.toUInt32
  let optlen := opt.toNat + 8
  fits 64 (ptr + optlen)
  refuseIf (ptr + optlen > buf.length)
  let nxt ← index buf ptr
  return (nxt, opt, ptr + optlen)

def hopOptions (buf : List UInt8) (h : Headers) : Checked Headers :=
  if h.nxt = IPPROTO_HOPOPTS then do
    let (nxt, hbh, ptr) ← optionsHeader buf h.ptr
    return { h with nxt, ptr, hbh }
  else return h

def fragmentHeader (buf : List UInt8) (h : Headers) : Checked Headers :=
  if h.nxt = IPPROTO_FRAGMENT then do
    fits 64 (h.ptr + 8)
    refuseIf (h.ptr + 8 > buf.length)
    let offset ← be16 buf (h.ptr + 2)
    refuseIf (offset &&& ~~~ 3 ≠ 0)
    let nxt ← index buf h.ptr
    return { h with nxt, ptr := h.ptr + 8 }
  else return h

def dstOptions (buf : List UInt8) (h : Headers) : Checked Headers :=
  if h.nxt = IPPROTO_DSTOPTS then do
    let (nxt, dst, ptr) ← optionsHeader buf h.ptr
    return { h with nxt, ptr, dst }
  else return h

/-- The answer to an error that quotes `eip`. -/
def answerIcmp6 (buf eip : List UInt8) (h : Headers) (siz : Nat) (sender : BitVec 128) (hoplimit tclass : Int)
    (quoted : UInt32 × Option Duration) (outcome : Outcome) : Checked Answer := do
  fitsInt 31 (buf.length - ICMP_HDR)
  let innerTtl ← index eip 7
  let word ← be32 eip 0
  let units ← index buf 4
  let icmpext ← icmpExt buf ICMP_HDR (units.toNat * 8)
  return {
    branch := .v6Err
    outcome
    seq := quoted.1
    sender := .v6 sender
    ttl := hoplimit
    tos := tclass
    size := buf.length - ICMP_HDR
    innerTtl
    innerTos := ((word >>> 20) &&& 0xff).toUInt8
    hbhOptSize := h.hbh
    dstOptSize := h.dst
    innerL4Len := UInt32.ofNat siz
    sentTv := quoted.2
    icmpext }

/-- An error that quotes a probe with this sequence number and send time. -/
def matchedIcmp6 (id : TraceId) (buf eip : List UInt8) (h : Headers) (siz : Nat) (kind : UInt8)
    (sender : BitVec 128) (hoplimit tclass : Int) (quoted : UInt32 × Option Duration) : Checked Answer := do
  refuseIf (quotedProtocol h.nxt ≠ id.protocol)
  let answer := answerIcmp6 buf eip h siz sender hoplimit tclass quoted
  if kind = 3 then answer .timeExceeded
  else if kind = 2 then
    let mtu ← be32 buf 4
    answer (.tooBig mtu)
  else
    let code ← index buf 1
    answer (.unreach code)

def errorIcmp6 (id : TraceId) (buf : List UInt8) (kind : UInt8) (sender : BitVec 128) (hoplimit tclass : Int) :
    Checked Answer := do
  refuseIf (buf.length < ICMP_HDR + 40)
  let eip ← sliceFrom buf ICMP_HDR
  let nxt ← index eip 6
  refuseIf (nxt ∉ quotedNext)
  let h ← hopOptions buf { nxt, ptr := ICMP_HDR + 40 }
  let h ← fragmentHeader buf h
  let h ← dstOptions buf h
  let sizes : Nat × Nat := if h.nxt = IPPROTO_TCP then (TCP_HDR, 0) else (8, V6INFO_LEN)
  fits 64 (h.ptr + sizes.1 + sizes.2)
  refuseIf (h.ptr + sizes.1 + sizes.2 > buf.length)
  let matched := matchedIcmp6 id buf eip h sizes.1 kind sender hoplimit tclass
  if h.nxt = IPPROTO_TCP then
    fits 64 (h.ptr + 4)
    let tseq ← be32 buf (h.ptr + 4)
    refuseIf ((tseq >>> 16).toUInt16 ≠ id.index)
    matched (tseq &&& 0xffff, none)
  else
    fits 64 (h.ptr + 8)
    let data ← sliceFrom buf (h.ptr + 8)
    let info ← readV6Info data
    refuseIf (info.pid ≠ id.pid ∨ info.id ≠ id.index.toUInt32)
    matched (info.seq, some info.tv)

def echoIcmp6 (id : TraceId) (buf : List UInt8) (sender : BitVec 128) (hoplimit tclass : Int) : Checked Answer := do
  let data ← getRange buf ICMP_HDR buf.length
  let info ← readV6Info data
  refuseIf (info.pid ≠ id.pid ∨ info.id ≠ id.index.toUInt32)
  fitsInt 31 (buf.length - ICMP_HDR)
  return {
    branch := .v6Echo
    outcome := .echoReply
    seq := info.seq
    sender := .v6 sender
    ttl := hoplimit
    tos := tclass
    size := buf.length - ICMP_HDR
    sentTv := some info.tv }

def parseIcmp6 (id : TraceId) (buf : List UInt8) (sender : BitVec 128) (hoplimit tclass : Int) :
    Checked Answer := do
  refuseIf (buf.length < ICMP_HDR)
  let kind ← index buf 0
  if 1 ≤ kind ∧ kind ≤ 3 then errorIcmp6 id buf kind sender hoplimit tclass
  else if kind = 129 ∧ id.protocol = .ICMP then echoIcmp6 id buf sender hoplimit tclass
  else .error .absent

/-! ## TCP -/

def tcpSegment (buf : List UInt8) (sender : IpAddr) (hoplimit tclass : Int) :
    Checked (List UInt8 × Int × Int × Int × Branch) :=
  match sender with
  | .v4 _ => do
    let first ← ofOption buf.head?
    let ihl := (first &&& 0x0f).toNat
    let hlen := ihl * 4
    fits 64 (hlen + TCP_HDR)
    refuseIf (buf.length < hlen + TCP_HDR ∨ ihl < 5)
    let tcp ← sliceFrom buf hlen
    let ttl ← index buf 8
    let tos ← index buf 1
    fitsInt 31 (buf.length - IPHDR)
    fitsInt 31 (buf.length - IPHDR - TCP_HDR)
    return (tcp, ttl.toNat, tos.toNat, buf.length - IPHDR - TCP_HDR, .v4Tcp)
  | .v6 _ => do
    fitsInt 31 (buf.length - TCP_HDR)
    return (buf, hoplimit, tclass, buf.length - TCP_HDR, .v6Tcp)

def segmentOptions (tcp : List UInt8) (tcpHlen : Nat) : Checked (Option String) :=
  if tcpHlen > TCP_HDR then do
    let opts ← slice tcp TCP_HDR tcpHlen
    let text ← hdropts opts
    return some text
  else return none

def parseTcp (id : TraceId) (buf : List UInt8) (sender : IpAddr) (hoplimit tclass : Int) : Checked Answer := do
  let (tcp, ttl, tos, size, branch) ← tcpSegment buf sender hoplimit tclass
  refuseIf (tcp.length < TCP_HDR)
  let offset ← index tcp 12
  let doff := (offset >>> 4).toNat
  let tcpHlen := doff * 4
  refuseIf (tcp.length < tcpHlen ∨ doff < 5)
  let ack ← be32 tcp 8
  let port ← be16 tcp 2
  refuseIf (port ≠ SRC_BASE_PORT + id.index ∨ (ack >>> 16).toUInt16 ≠ id.index)
  let flags ← index tcp 13
  let hdropts ← segmentOptions tcp tcpHlen
  return {
    branch
    outcome := .tcp
    seq := ack &&& 0xffff
    sender, ttl, tos, size
    flags := tcpFlags flags
    hdropts }

def parseReply (id : TraceId) (fromTcpSocket : Bool) (buf : List UInt8) (sender : IpAddr)
    (hoplimit tclass : Int) (curSeq : UInt16) : Checked Answer :=
  if fromTcpSocket then parseTcp id buf sender hoplimit tclass
  else match sender with
    | .v4 sender => parseIcmp4 id buf sender curSeq
    | .v6 sender => parseIcmp6 id buf sender hoplimit tclass

end Starla.Impl.Traceroute.Indexed
