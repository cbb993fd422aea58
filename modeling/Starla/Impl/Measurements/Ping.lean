import Starla.Impl.Measurements.Target

/-!
# Ping

`execute_ping` of `starla-measurements/src/ping/icmp.rs`, on unix, as far as
what it sends goes: the replies are not read here.
-/

namespace Starla.Impl.Measurements

open Starla.Framework

structure PingConfig where
  target : IpAddr
  count : UInt32
  size : UInt16
  ttl : UInt8
  intervalMs : UInt64
deriving DecidableEq, Repr

/-- What the system answers a ping: its socket, the socket's options, and each
request's packet. -/
structure PingIo where
  socket : IoResult Unit
  setTtl : IoResult Unit
  connect : IoResult Unit
  echoRequest : Nat → IoResult Unit

inductive PingOutcome
  | ran
  | failed (text : String)
deriving DecidableEq, Repr

/-- The requests from the `i`th on. -/
def sendRequests (dest : SocketAddr) (io : PingIo) :
    (left i : Nat) → Logged Contact (IoResult PingOutcome)
  | 0, _ => pure (.ok .ran)
  | left + 1, i =>
    match io.echoRequest i with
    | .error e => pure (.error e)
    | .ok () => do
      Logged.emit (.packet dest)
      sendRequests dest io left (i + 1)

def executePing (config : PingConfig) (io : PingIo) : Logged Contact (IoResult PingOutcome) :=
  match io.socket with
  | .error e => pure (.ok (.failed s!"socket failed: {e}"))
  | .ok () =>
    match (if config.ttl > 0 then io.setTtl else .ok ()) with
    | .error e => pure (.error e)
    | .ok () =>
      match io.connect with
      | .error e => pure (.ok (.failed s!"connect failed: {e}"))
      | .ok () => sendRequests ⟨config.target, 0⟩ io config.count.toNat 0

end Starla.Impl.Measurements
