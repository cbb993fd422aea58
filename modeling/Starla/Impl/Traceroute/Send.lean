import Starla.Impl.Traceroute.Wire

/-!
# What a probe leaves as

`Sender::send` of `starla-measurements/src/traceroute/net.rs`, up to the
packet that follows the IP header on the wire: the probe, in the header and
with the checksum the kernel gives it where the socket is not one that takes
the whole packet.
-/

namespace Starla.Impl.Traceroute

open Starla.Framework Starla.Impl.Controller Starla.Impl.Measurements

/-- The source address and the target, of one family. -/
inductive Ends
  | v4 (src target : BitVec 32)
  | v6 (src target : BitVec 128)
deriving DecidableEq, Repr

def Ends.target : Ends → IpAddr
  | .v4 _ target => .v4 target
  | .v6 _ target => .v6 target

def Ends.isV6 : Ends → Bool
  | .v4 .. => false
  | .v6 .. => true

structure Sender where
  ends : Ends
  protocol : TracerouteProtocol
  pid : UInt32
  index : UInt16
  paris : Option UInt16
  destPort : UInt16
deriving DecidableEq, Repr

namespace Sender

/-- Whose replies they are. -/
def id (s : Sender) : TraceId where
  v6 := s.ends.isV6
  protocol := s.protocol
  pid := s.pid
  index := s.index
  target := s.ends.target
  paris := s.paris

/-- The port the socket is bound to; a UDP socket bound to port 0 gets one of
the kernel's choice. -/
def local' (s : Sender) : UInt16 := SRC_BASE_PORT + s.index

/-- Paris: one flow for the whole trace; classic: a port per probe. -/
def dport (s : Sender) (seq : UInt16) : UInt16 :=
  match s.paris with
  | some paris => BASE_PORT + paris
  | none => BASE_PORT + seq

end Sender

/-- The checksum the kernel puts into an ICMPv6 probe. -/
def icmp6Cksum (src dst : BitVec 128) (packet : List UInt8) : UInt16 :=
  cksumWith (pseudo6 src dst (UInt32.ofNat packet.length) IPPROTO_ICMPV6) (splice packet 2 [0, 0])

/-- The datagram the kernel makes of a UDP payload; a checksum of 0 goes as
its other form. -/
def udpDatagram (ph : List UInt8) (sport dport : UInt16) (payload : List UInt8) : List UInt8 :=
  let header := udpHeader sport dport (UInt16.ofNat (8 + payload.length))
  let c := foldNot (sum16 payload (sum16 header (sum16 ph 0)))
  splice header 6 (bytes16 (if c = 0 then 0xffff else c)) ++ payload

/-- A probe's packet and its protocol, `chosen` the kernel's choice of a port. -/
def Sender.send (s : Sender) (chosen : UInt16) (seq size : UInt16) (tv : Duration) : UInt8 × List UInt8 :=
  let sport := if s.local' = 0 then chosen else s.local'
  match s.protocol, s.ends with
  | .ICMP, .v6 src dst =>
    let p := icmp6Echo src dst s.pid s.index seq tv size s.paris
    (IPPROTO_ICMPV6, splice p 2 (bytes16 (icmp6Cksum src dst p)))
  | .ICMP, .v4 .. => (IPPROTO_ICMP, icmp4Echo s.index seq size s.paris)
  | .UDP, .v6 src dst =>
    let payload := udp6Payload s.pid s.index seq tv size
    (IPPROTO_UDP, udpDatagram (pseudo6 src dst (UInt32.ofNat (8 + payload.length)) IPPROTO_UDP) sport
      (s.dport seq) payload)
  | .UDP, .v4 src dst =>
    let val := if s.paris.isSome then seq else s.index + 1
    let payload := udp4Payload src dst s.local' (s.dport seq) size val
    (IPPROTO_UDP, udpDatagram (pseudo4 src dst IPPROTO_UDP (UInt16.ofNat (8 + payload.length))) sport
      (s.dport seq) payload)
  | .TCP, .v6 src dst => (IPPROTO_TCP, tcpSyn (.v6 src) (.v6 dst) s.local' s.destPort s.index seq size)
  | .TCP, .v4 src dst => (IPPROTO_TCP, tcpSyn (.v4 src) (.v4 dst) s.local' s.destPort s.index seq size)

end Starla.Impl.Traceroute
