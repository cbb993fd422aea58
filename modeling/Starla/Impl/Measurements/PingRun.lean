import Starla.Impl.Measurements.Icmp
import Starla.Impl.Measurements.Ping
import Starla.Impl.Measurements.Session

/-!
# A ping's run

`execute_ping` of `starla-measurements/src/ping/icmp.rs`, on unix, with what it
reads: a request goes out, and until its interval is over whatever the socket
brings is looked at. What the system answers is an argument, and so are the
identifier, the cookie and the checksum. An error that `execute_ping` returns
is `absent`.
-/

namespace Starla.Impl.Measurements.PingRun

open Starla.Framework Starla.Framework.Checked Starla.Impl.Measurements.Icmp Starla.Impl.Measurements.Ping

/-- What a read of the socket comes to, before the interval is over. -/
inductive Received
  | datagram (bytes : List UInt8) (recv : RecvMeta) (now : Nat)
  | failed

/-- What a request meets. -/
structure Interval where
  /-- When it goes out, from the start of the run. -/
  sent : Nat
  /-- The socket's own address, and the one that the route gives. -/
  socketAddr : IoResult IpAddr
  sourceAddr : IoResult IpAddr
  send : IoResult Unit
  received : List Received

def isUnspecified : IpAddr → Bool
  | .v4 a => a = 0
  | .v6 a => a = 0

def localAddr (socketAddr sourceAddr : IoResult IpAddr) : Option IpAddr :=
  match socketAddr with
  | .ok ip => if isUnspecified ip then sourceAddr.toOption else some ip
  | .error _ => sourceAddr.toOption

def sendError : IoResult Unit → Option String
  | .ok () => none
  | .error e => some e

/-- How a run's packets are told from others. -/
structure Marks where
  v4 : Bool
  identifier : UInt16
  /-- A datagram socket has an identifier of its own, which the system checks. -/
  isDgram : Bool
  cookie : UInt64

def Marks.checkIdentifier (marks : Marks) : Option UInt16 := if marks.isDgram then none else some marks.identifier

variable {ρ : Type}

def takeEcho (session : Session ρ) (echo : Echo ρ) : Session ρ :=
  session.reply echo.seq echo.rtt echo.ttl echo.size echo.dst

/-- The reads of an interval. One that keeps failing waits the interval out. -/
def receive (ms : Nat → ρ) (marks : Marks) : List Received → (errors : Nat) → Session ρ → Checked (Session ρ)
  | [], _, session => .ok session
  | .failed :: rest, errors, session =>
    if errors + 1 > 16 then .ok session else receive ms marks rest (errors + 1) session
  | .datagram bytes recv now :: rest, errors, session =>
    match echoReply ms marks.v4 marks.checkIdentifier marks.cookie bytes recv now with
    | .ok echo => receive ms marks rest errors (takeEcho session echo)
    | .error .absent => receive ms marks rest errors session
    | .error .panics => .error .panics

/-- The requests, the packets that went out for them, and what is recorded. -/
def requests (ms : Nat → ρ) (checksum : List UInt8 → UInt16) (marks : Marks) (size : UInt16) :
    List Interval → Session ρ → Checked (Session ρ × List (List UInt8))
  | [], session => .ok (session, [])
  | io :: rest, session => do
    let packet ← echoRequest checksum marks.v4 marks.identifier session.seq.toUInt16 size ⟨marks.cookie, io.sent⟩
    let session := session.sent (localAddr io.socketAddr io.sourceAddr) (sendError io.send)
    let session ← receive ms marks io.received 0 session
    let (session, packets) ← requests ms checksum marks size rest session.intervalOver
    return (session, packet :: packets)

/-- What a run meets. -/
structure Io where
  socket : IoResult Unit
  setTtl : IoResult Unit
  connect : IoResult Unit
  socketAddr : IoResult IpAddr
  sourceAddr : IoResult IpAddr
  isDgram : Bool
  identifier : UInt16
  cookie : UInt64
  interval : Nat → Interval

inductive Outcome (ρ : Type)
  | ran (loc : Option IpAddr) (events : List (PingEvent ρ))
  | failed (text : String)

def marksOf (config : PingConfig) (io : Io) : Marks := ⟨config.target.isIpv4, io.identifier, io.isDgram, io.cookie⟩

def intervals (config : PingConfig) (io : Io) : List Interval := (List.range config.count.toNat).map io.interval

def executePing (ms : Nat → ρ) (checksum : List UInt8 → UInt16) (config : PingConfig) (io : Io) :
    Checked (Outcome ρ) :=
  match io.socket with
  | .error e => .ok (.failed ("socket failed: " ++ e))
  | .ok () =>
    match (if config.ttl > 0 then io.setTtl else .ok ()) with
    | .error _ => .error .absent
    | .ok () =>
      match io.connect with
      | .error e => .ok (.failed ("connect failed: " ++ e))
      | .ok () => do
        let (session, _) ← requests ms checksum (marksOf config io) config.size (intervals config io)
          { v6 := !config.target.isIpv4 }
        return .ran (localAddr io.socketAddr io.sourceAddr) session.events

end Starla.Impl.Measurements.PingRun
