import Starla.Impl.Traceroute.Engine

/-!
# A traceroute run

The loop of `net::run`, of `starla-measurements/src/traceroute/net.rs`: a probe
goes, replies come until the wait for it is over, the next probe goes. What
the sockets bring is an input, and so is when a wait ends. A packet that
`parse_reply` gives nothing for leaves the wait as it is.
-/

namespace Starla.Impl.Traceroute

open Starla.Impl.Controller

inductive Phase
  /-- At the top of the loop. -/
  | next
  | waiting
  | ended
deriving DecidableEq, Repr

structure Run where
  trace : Trace
  phase : Phase

inductive RunEvent
  /-- The top of the loop, and how `send` ends. -/
  | send (xmit : Duration) (sent : Except String Unit)
  | reply (a : Answer) (now : Duration)
  | deadline

namespace Run

def start (v6 : Bool) (opts : TracerouteOptions) (paris : Option UInt16) : Run :=
  ⟨.new v6 opts paris, .next⟩

variable (since : Duration → Duration → Millis)

def step (s : Run) (e : RunEvent) : Run :=
  match s.phase, e with
  | .next, .send xmit sent =>
    match s.trace.nextProbe xmit with
    | (none, t) => ⟨t, .ended⟩
    | (some _, t) =>
      match sent with
      | .error e => ⟨t.sendFailed e, .ended⟩
      | .ok () => ⟨t.probeSent, .waiting⟩
  | .waiting, .reply a now => ⟨(s.trace.reply since a now).2, .waiting⟩
  | .waiting, .deadline => ⟨s.trace.timeout, .next⟩
  | _, _ => s

end Run

end Starla.Impl.Traceroute
