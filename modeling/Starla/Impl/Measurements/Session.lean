import Mathlib.Data.Prod.Lex
import Starla.Framework.Checked
import Starla.Impl.Measurements.Target

/-!
# A ping's sequence numbers

`Session` and `replay` of `starla-measurements/src/ping/mod.rs`. A `Duration`
is a number of nanoseconds; a reply's rtt is whatever `ms` makes of one
(`as_secs_f64() * 1e3`).
-/

namespace Starla.Impl.Measurements.Ping

open Starla.Framework Starla.Framework.Checked

inductive PingEvent (ρ : Type)
  | sent (loc : Option IpAddr) (error : Option String)
  | reply (dup : Bool) (rtt : ρ) (ttl : Option UInt8) (size : Nat) (dst : Option IpAddr)
  | timeout
deriving DecidableEq, Repr

/-- The sequence numbers and timeouts of a run. -/
structure Session (ρ : Type) where
  v6 : Bool
  seq : UInt8 := 1
  gotReply : Bool := false
  sendError : Bool := false
  events : List (PingEvent ρ) := []
deriving DecidableEq, Repr

variable {ρ : Type}

namespace Session

def sent (s : Session ρ) (loc : Option IpAddr) (error : Option String) : Session ρ :=
  { s with
    sendError := s.sendError || error.isSome
    events := s.events ++ [.sent loc error] }

/-- A reply to the request with sequence number `seq`; IPv6 counts duplicates
too. -/
def reply (s : Session ρ) (seq : UInt16) (rtt : ρ) (ttl : Option UInt8) (size : Nat) (dst : Option IpAddr) :
    Session ρ :=
  let dup := seq != s.seq.toUInt16
  { s with
    events := s.events ++ [.reply dup rtt ttl size dst]
    gotReply := s.gotReply || !dup
    seq := if s.v6 || !dup then s.seq + 1 else s.seq }

/-- The interval since the last request ran out. -/
def intervalOver (s : Session ρ) : Session ρ :=
  if !s.gotReply && !s.sendError then { s with events := s.events ++ [.timeout], seq := s.seq + 1 } else s

end Session

/-- A call of `Session`'s. -/
inductive Call (ρ : Type)
  | sent (loc : Option IpAddr) (error : Option String)
  | reply (seq : UInt16) (rtt : ρ) (ttl : Option UInt8) (size : Nat) (dst : Option IpAddr)
  | intervalOver

def Session.call (s : Session ρ) : Call ρ → Session ρ
  | .sent loc error => s.sent loc error
  | .reply seq rtt ttl size dst => s.reply seq rtt ttl size dst
  | .intervalOver => s.intervalOver

/-! ## A recorded run -/

structure ProbeReply where
  rtt : Nat
  ttl : Option UInt8
  size : Nat
deriving DecidableEq, Repr

/-- A request of a recorded run: when it went out, and its replies. -/
structure Probe where
  sent : Nat
  loc : Option IpAddr
  replies : List ProbeReply
deriving DecidableEq, Repr

/-- An entry of the timeline: `what` is 0 where the interval of request `i` is
over, 1 where it went out, 2 where its reply `j` came. -/
structure Moment where
  time : Nat
  what : Nat
  i : Nat
  j : Nat
deriving DecidableEq, Repr

def Moment.key (m : Moment) : Nat ×ₗ Nat ×ₗ Nat ×ₗ Nat := toLex (m.time, toLex (m.what, toLex (m.i, m.j)))

/-- The end of a request's interval: when the next request goes out, at the
latest. -/
def intervalEnd (interval : Nat) (probe : Probe) : Option Probe → Nat
  | some next => min (probe.sent + interval) (max next.sent probe.sent)
  | none => probe.sent + interval

def replyMoments (probe : Probe) (i j : Nat) : List ProbeReply → List Moment
  | [] => []
  | reply :: replies => ⟨probe.sent + reply.rtt, 2, i, j⟩ :: replyMoments probe i (j + 1) replies

/-- The timeline of the requests from the `i`th on, as they are gone through. -/
def timeline (interval : Nat) (i : Nat) : List Probe → List Moment
  | [] => []
  | probe :: probes =>
    ⟨probe.sent, 1, i, 0⟩ :: ⟨intervalEnd interval probe probes.head?, 0, i, 0⟩ ::
      (replyMoments probe i 0 probe.replies ++ timeline interval (i + 1) probes)

/-- The timeline played, up to the end of the last interval. -/
def play (ms : Nat → ρ) (probes : List Probe) (session : Session ρ) (seqOf : List UInt8) :
    List Moment → Checked (Session ρ)
  | [] => .ok session
  | m :: rest =>
    if m.what = 0 then
      if m.i + 1 = probes.length then .ok session.intervalOver
      else play ms probes session.intervalOver seqOf rest
    else if m.what = 1 then do
      check (m.i < seqOf.length)
      let probe ← index probes m.i
      play ms probes (session.sent probe.loc none) (seqOf.set m.i session.seq) rest
    else do
      let probe ← index probes m.i
      let reply ← index probe.replies m.j
      let seq ← index seqOf m.i
      play ms probes (session.reply seq.toUInt16 (ms reply.rtt) reply.ttl reply.size none) seqOf rest

def replay (ms : Nat → ρ) (v6 : Bool) (interval : Nat) (probes : List Probe) : Checked (List (PingEvent ρ)) := do
  let timeline := (timeline interval 0 probes).mergeSort fun a b => a.key ≤ b.key
  let session ← play ms probes { v6 } (List.replicate probes.length 0) timeline
  return session.events

end Starla.Impl.Measurements.Ping
