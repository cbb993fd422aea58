import Starla.Framework.Bytes
import Starla.Framework.Checked
import Starla.Impl.Reports.Ping

/-!
# Echo requests and replies

`Stamp`, `echo_request`, `strip_ipv4_header` and `echo_reply` of
`starla-measurements/src/ping/icmp.rs`, and the packets they build and read,
of `starla-network/src/icmp.rs`. A packet's fields are where `pnet_packet`'s
views have them: an ICMP packet has at least 4 bytes, an echo packet 8, its
type, its code, its checksum at 2, its identifier at 4, its sequence number at
6 and its payload from 8 on. `checksum` is `pnet_packet`'s.

A `Duration` is a number of nanoseconds. `ms` is `as_secs_f64() * 1e3`.
-/

namespace Starla.Impl.Measurements.Icmp

open Starla.Framework Starla.Framework.Checked

def ICMP_HEADER_LEN : Nat := 8

/-- What every echo request carries at the start of its data. -/
structure Stamp where
  cookie : UInt64
  /-- When the request went out, from the start of the run. -/
  sent : Nat
deriving DecidableEq, Repr

namespace Stamp

def write (stamp : Stamp) (data : List UInt8) : Checked (List UInt8) := do
  check (8 ≤ data.length)
  let data := splice data 0 (beBytes 8 stamp.cookie.toNat)
  check (16 ≤ data.length)
  return splice data 8 (beBytes 8 (min stamp.sent (2 ^ 64 - 1)))

def read (data : List UInt8) : Checked Stamp := do
  let cookie ← getRange data 0 8
  let nanos ← getRange data 8 16
  return ⟨UInt64.ofNat (beNat cookie), beNat nanos⟩

end Stamp

/-! ## Packets -/

/-- What both families' packets are built from: the type, the code, the
identifier, the sequence number and the payload. -/
def buildEchoRequest (type : UInt8) (buffer : List UInt8) (identifier sequence : UInt16)
    (payload : List UInt8) : Checked (List UInt8) := do
  refuseIf (buffer.length < 8)
  let packet := splice buffer 0 [type]
  let packet := splice packet 1 [0]
  let packet := splice packet 4 (beBytes 2 identifier.toNat)
  let packet := splice packet 6 (beBytes 2 sequence.toNat)
  check (8 + payload.length ≤ packet.length)
  return splice packet 8 payload

def buildIcmpv4EchoRequest (checksum : List UInt8 → UInt16) (buffer : List UInt8) (identifier sequence : UInt16)
    (payload : List UInt8) : Checked (List UInt8) := do
  let packet ← buildEchoRequest 8 buffer identifier sequence payload
  refuseIf (packet.length < 4)
  return splice packet 2 (beBytes 2 (checksum packet).toNat)

def buildIcmpv6EchoRequest (buffer : List UInt8) (identifier sequence : UInt16) (payload : List UInt8) :
    Checked (List UInt8) :=
  buildEchoRequest 128 buffer identifier sequence payload

inductive IcmpResponse
  | echoReply (identifier sequence : UInt16)
  | timeExceeded (inner : List UInt8)
  | destinationUnreachable (inner : List UInt8)
  | other
deriving DecidableEq, Repr

/-- The view of an echo reply. -/
def echoReplyPacket (buffer : List UInt8) : Checked IcmpResponse := do
  refuseIf (buffer.length < 8)
  let identifier ← slice buffer 4 6
  let sequence ← slice buffer 6 8
  return .echoReply (UInt16.ofNat (beNat identifier)) (UInt16.ofNat (beNat sequence))

def parseIcmpv4Packet (buffer : List UInt8) : Checked IcmpResponse := do
  refuseIf (buffer.length < 4)
  let type ← index buffer 0
  if type = 0 then echoReplyPacket buffer
  else if type = 11 then
    refuseIf (buffer.length < 8)
    let inner ← sliceFrom buffer 8
    return .timeExceeded inner
  else if type = 3 then
    refuseIf (buffer.length < 8)
    let inner ← sliceFrom buffer 8
    return .destinationUnreachable inner
  else return .other

def parseIcmpv6Packet (buffer : List UInt8) : Checked IcmpResponse := do
  refuseIf (buffer.length < 4)
  let type ← index buffer 0
  if type = 129 then echoReplyPacket buffer
  else if type = 1 then
    let inner ← getRange buffer 8 buffer.length
    return .destinationUnreachable inner
  else if type = 3 then
    let inner ← getRange buffer 8 buffer.length
    return .timeExceeded inner
  else return .other

/-- The identifier and sequence number of a response that is an echo reply. -/
def onlyEchoReply : IcmpResponse → Checked (UInt16 × UInt16)
  | .echoReply identifier sequence => .ok (identifier, sequence)
  | _ => .error .absent

def parseIcmpv4EchoReply (buffer : List UInt8) : Checked (UInt16 × UInt16) := do
  let response ← parseIcmpv4Packet buffer
  onlyEchoReply response

def parseIcmpv6EchoReply (buffer : List UInt8) : Checked (UInt16 × UInt16) := do
  let response ← parseIcmpv6Packet buffer
  onlyEchoReply response

/-! ## Requests and replies -/

def echoRequest (checksum : List UInt8 → UInt16) (v4 : Bool) (identifier sequence size : UInt16) (stamp : Stamp) :
    Checked (List UInt8) := do
  let payload ← stamp.write (List.replicate (Reports.Ping.dataLen size) 0)
  let packet := List.replicate (ICMP_HEADER_LEN + payload.length) 0
  if v4 then buildIcmpv4EchoRequest checksum packet identifier sequence payload
  else buildIcmpv6EchoRequest packet identifier sequence payload

structure Ipv4Header where
  ttl : UInt8
  dst : BitVec 32
deriving DecidableEq, Repr

def stripIpv4Header (v4 : Bool) (datagram : List UInt8) : Checked (List UInt8 × Option Ipv4Header) :=
  if v4 ∧ datagram.head?.any fun b : UInt8 => b >>> 4 = 4 then do
    let first ← index datagram 0
    let ihl := (first &&& 0x0f).toNat * 4
    if ihl ≥ 20 ∧ datagram.length ≥ ihl then
      let dst ← slice datagram 16 20
      let ttl ← index datagram 8
      let message ← sliceFrom datagram ihl
      return (message, some ⟨ttl, BitVec.ofNat 32 (beNat dst)⟩)
    else return (datagram, none)
  else return (datagram, none)

/-- What the socket says of a datagram beside its bytes. -/
structure RecvMeta where
  ttl : Option UInt8
  dst : Option IpAddr
deriving DecidableEq, Repr

/-- An echo reply of this run. -/
structure Echo (ρ : Type) where
  seq : UInt16
  rtt : ρ
  ttl : Option UInt8
  size : Nat
  dst : Option IpAddr
deriving DecidableEq, Repr

/-- The data after the ICMP header, which has an IPv4 header of 20 bytes in
front where it has one. -/
def echoSize (datagram message : List UInt8) : Option Ipv4Header → Checked Nat
  | some _ => .ok (datagram.length - (20 + ICMP_HEADER_LEN))
  | none => do
    check (ICMP_HEADER_LEN ≤ message.length)
    return message.length - ICMP_HEADER_LEN

def echoReply {ρ : Type} (ms : Nat → ρ) (v4 : Bool) (identifier : Option UInt16) (cookie : UInt64)
    (datagram : List UInt8) (recv : RecvMeta) (now : Nat) : Checked (Echo ρ) := do
  let (message, header) ← stripIpv4Header v4 datagram
  let (id, seq) ← (if v4 then parseIcmpv4EchoReply message else parseIcmpv6EchoReply message)
  refuseIf (identifier.any (· ≠ id))
  let data ← getRange message ICMP_HEADER_LEN message.length
  let stamp ← Stamp.read data
  refuseIf (stamp.cookie ≠ cookie)
  let size ← echoSize datagram message header
  return {
    seq
    rtt := ms (now - stamp.sent)
    ttl := (header.map Ipv4Header.ttl).or recv.ttl
    size
    dst := (header.map fun h => IpAddr.v4 h.dst).or recv.dst }

end Starla.Impl.Measurements.Icmp
