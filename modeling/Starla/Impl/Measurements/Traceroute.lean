import Starla.Impl.Controller.Command
import Starla.Impl.Measurements.Target

/-!
# Traceroute

`net::run` of `starla-measurements/src/traceroute/net.rs`, as far as what it
sends goes. The probes the trace asks for, in turn, are an argument: how many
there are depends on the replies.
-/

namespace Starla.Impl.Measurements

open Starla.Framework Starla.Impl.Controller

def BASE_PORT : UInt16 := 0x8000 + 666

structure RunSpec where
  target : IpAddr
  opts : TracerouteOptions
  paris : Option UInt16
deriving DecidableEq, Repr

/-- A probe, and what the system answers its socket and its packet. -/
structure ProbeIo where
  seq : UInt16
  socket : IoResult Unit
  /-- `send_to`'s error, and whether it is one the reference ignores -/
  sendTo : Except (String × Bool) Unit

structure TraceIo where
  source : IoResult IpAddr
  replySocket : IoResult Unit
  setup : IoResult Unit
  tcpSocket : IoResult Unit
  probes : List ProbeIo

/-- Where a probe is sent: a Paris trace is one flow. -/
def probeDest (spec : RunSpec) (seq : UInt16) : SocketAddr :=
  match spec.opts.protocol with
  | .UDP => ⟨spec.target, BASE_PORT + spec.paris.getD seq⟩
  | .ICMP | .TCP => ⟨spec.target, 0⟩

/-- One probe: an error ends the trace. -/
def sendProbe (spec : RunSpec) (probe : ProbeIo) : Logged Contact (IoResult Unit) :=
  match (if spec.opts.protocol = .ICMP then .ok () else probe.socket) with
  | .error e => pure (.error e)
  | .ok () => do
    Logged.emit (.packet (probeDest spec probe.seq))
    match probe.sendTo with
    | .ok () => pure (.ok ())
    | .error (e, ignorable) => pure (if ignorable then .ok () else .error s!"sendto failed: {e}")

def sendProbes (spec : RunSpec) : List ProbeIo → Logged Contact (IoResult Unit)
  | [] => pure (.ok ())
  | probe :: probes => do
    match ← sendProbe spec probe with
    | .error e => pure (.error e)
    | .ok () => sendProbes spec probes

/-- A trace: its end, or the error that ended it. -/
def traceRun (spec : RunSpec) (io : TraceIo) : Logged Contact (IoResult Unit) :=
  match io.source with
  | .error e => pure (.error s!"connect failed: {e}")
  | .ok _ =>
    match io.replySocket with
    | .error e => pure (.error s!"socket failed: {e}")
    | .ok () =>
      match io.setup with
      | .error e => pure (.error e)
      | .ok () =>
        match (if spec.opts.protocol = .TCP then io.tcpSocket else .ok ()) with
        | .error e => pure (.error e)
        | .ok () => sendProbes spec io.probes

end Starla.Impl.Measurements
