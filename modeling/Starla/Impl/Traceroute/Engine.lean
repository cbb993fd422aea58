import Starla.Impl.Traceroute.Wire

/-!
# The traceroute engine

`starla-measurements/src/traceroute/engine.rs`: which hop and sequence number
the next probe gets, when the trace ends, and what each reply and timeout
writes into the result. An entry is kept as what it says; `Entry.text` is the
text between its braces. A time in ms is what its three decimals print; the
`f64` arithmetic that gives it from two instants is the parameter `since`.
-/

namespace Starla.Impl.Traceroute

open Starla.Framework Starla.Impl.Controller

/-- What `{:.3}` prints of an `f64`. -/
structure Millis where
  negative : Bool
  thousandths : Nat
deriving DecidableEq, Repr

/-- A number's decimal digits, at least `width` of them. -/
def padded (width n : Nat) : String :=
  String.ofList (List.replicate (width - (toString n).length) '0') ++ toString n

def Millis.text (m : Millis) : String :=
  (if m.negative then "-" else "") ++ toString (m.thousandths / 1000) ++ "." ++ padded 3 (m.thousandths % 1000)

section
variable (showAddr : IpAddr → String)

def errText : UInt8 → List (UInt8 × String) → String
  | code, [] => ", \"err\":" ++ toString code.toNat
  | code, (c, text) :: rest => if code = c then text else errText code rest

/-- One reply as the reference writes it: each handler's fields in its own
order. -/
def entry (a : Answer) (late : Option Int) (dup : Bool) (rtt : Millis) (tos : UInt32) : String :=
  let head := match late with
    | some late => "\"late\":" ++ toString late
    | none => if dup then (if a.branch = .v4ErrL4 then " " else "") ++ "\"dup\":true" else ""
  let sender := (if late.isSome || dup then ", " else "") ++ "\"from\":\"" ++ showAddr a.sender ++ "\""
  let ttlSize := ", \"ttl\":" ++ toString a.ttl ++ ", \"size\":" ++ toString a.size
  let ttlRttSize := ", \"ttl\":" ++ toString a.ttl ++ ", \"rtt\":" ++ rtt.text ++ ", \"size\":" ++ toString a.size
  let rttUnlessLate := if late.isNone then ", \"rtt\":" ++ rtt.text else ""
  let inner := (if a.innerTtl ≠ 1 then ", \"ittl\":" ++ toString a.innerTtl.toNat else "") ++
    (if a.innerTos ≠ 0 ∨ tos ≠ 0 then ", \"itos\":" ++ toString a.innerTos.toNat else "")
  let tosText (name : String) :=
    if a.tos ≠ 0 ∨ tos ≠ 0 then ", \"" ++ name ++ "\":" ++ toString a.tos else ""
  head ++ sender ++ match a.branch with
    | .v4ErrL4 | .v4ErrIcmp =>
      ttlSize ++ rttUnlessLate ++ inner ++
        (match a.edst with
          | some edst => ", \"edst\":\"" ++ showAddr (.v4 edst) ++ "\""
          | none => "") ++
        (match a.outcome with
          | .needFrag mtu => ", \"mtu\":" ++ toString mtu.toNat
          | .unreach code =>
            errText code [(0, ", \"err\":\"N\""), (1, ", \"err\":\"H\""), (2, ", \"err\":\"P\""),
              (3, if a.branch = .v4ErrIcmp then ", \"err\":\"p\"" else ""), (13, ", \"err\":\"A\"")]
          | _ => "") ++ a.icmpext.getD ""
    | .v6Err =>
      ttlRttSize ++ inner ++
        (if a.hbhOptSize ≠ 0 then ", \"hbhoptsize\":" ++ toString a.hbhOptSize.toNat else "") ++
        (if a.dstOptSize ≠ 0 then ", \"dstoptsize\":" ++ toString a.dstOptSize.toNat else "") ++
        (match a.outcome with
          | .tooBig mtu => ", \"mtu\":" ++ toString mtu.toNat
          | .unreach code =>
            errText code [(0, ", \"err\":\"N\""), (1, ", \"err\":\"A\""), (2, ", \"err\":\"h\""),
              (3, ", \"err\":\"H\""), (4, "")]
          | _ => "") ++ a.icmpext.getD ""
    | .v4Echo => ttlSize ++ tosText "tos" ++ rttUnlessLate
    | .v6Echo => ttlRttSize ++ tosText "itos"
    | .v4Tcp | .v6Tcp =>
      ttlSize ++ tosText "tos" ++ ", \"flags\":\"" ++ a.flags ++ "\"" ++ a.hdropts.getD "" ++ rttUnlessLate

/-- What one reply, timeout or error leaves in a hop. -/
inductive Entry
  | reply (a : Answer) (late : Option Int) (dup : Bool) (rtt : Millis) (tos : UInt32)
  | timeout
  | error (text : String)
deriving DecidableEq, Repr

def Entry.text : Entry → String
  | .reply a late dup rtt tos => entry showAddr a late dup rtt tos
  | .timeout => "\"x\":\"*\""
  | .error text => "\"error\":\"" ++ text ++ "\""

structure Hop where
  hop : UInt8
  entries : List Entry := []
  /-- A failure before the first probe, in place of the hop's result. -/
  error : Option String := none
deriving DecidableEq, Repr

def joined (sep : String) : List String → String
  | [] => ""
  | [s] => s
  | s :: rest => s ++ sep ++ joined sep rest

def Hop.render (h : Hop) : String :=
  match h.error with
  | some e => "\x7b \"hop\":" ++ toString h.hop.toNat ++ ", \"error\":\"" ++ e ++ "\" \x7d"
  | none =>
    "\x7b \"hop\":" ++ toString h.hop.toNat ++ ", \"result\": [ " ++
      joined ", " (h.entries.map fun e => "\x7b " ++ e.text showAddr ++ " \x7d") ++ " ] \x7d"

def renderHops (hops : List Hop) : String :=
  "[ " ++ joined ", " (hops.map (Hop.render showAddr)) ++ " ]"

end

/-- The probe to send next. -/
structure Probe where
  hop : UInt8
  seq : UInt16
  size : UInt16
deriving DecidableEq, Repr

/-- A trace in progress. -/
structure Trace where
  v6 : Bool
  protocol : TracerouteProtocol
  paris : Bool
  count : UInt8
  maxHops : UInt8
  gapLimit : UInt8
  tos : UInt32
  dupTimeout : Duration
  hops : List Hop
  hop : UInt8
  sent : UInt8
  seq : UInt16
  curpacksize : UInt16
  lastResponseHop : UInt8
  done : Bool
  notDone : Bool
  lastditch : Bool
  /-- The probe in flight has had its answer. -/
  gotresp : Bool
  finished : Bool
  /-- When the probe in flight went. -/
  xmit : Duration
deriving DecidableEq, Repr

namespace Trace

def new (v6 : Bool) (opts : TracerouteOptions) (paris : Option UInt16) : Trace where
  v6
  protocol := opts.protocol
  paris := paris.isSome
  count := opts.count
  maxHops := opts.maxHops
  gapLimit := opts.gapLimit
  tos := opts.tos
  dupTimeout := opts.dupTimeoutMs.toNat * 1000000
  hops := [{ hop := opts.firstHop }]
  hop := opts.firstHop
  sent := 0
  seq := 0
  curpacksize := opts.size
  lastResponseHop := if opts.firstHop = 0 then 0 else opts.firstHop - 1
  done := false
  notDone := false
  lastditch := false
  gotresp := false
  finished := false
  xmit := 0

/-- An entry for the last hop. -/
def push (t : Trace) (e : Entry) : Trace :=
  { t with hops := t.hops.modifyLast fun h => { h with entries := h.entries ++ [e] } }

/-- The next hop, or hop 255 after `gapLimit` silent ones, once; and whether
the trace goes on. -/
def nextHop (t : Trace) : Bool × Trace :=
  if t.hop ≥ t.maxHops ∨ (t.done ∧ ¬ t.notDone) then (false, t)
  else
    let t := { t with hop := t.hop + 1, sent := 0, done := false, notDone := false }
    if (t.hop.toNat : Int) - t.lastResponseHop.toNat > t.gapLimit.toNat then
      if t.lastditch then (false, t)
      else (true, { t with lastditch := true, hop := 255, hops := t.hops ++ [{ hop := 255 }] })
    else (true, { t with hops := t.hops ++ [{ hop := t.hop }] })

/-- The next probe at the hop. -/
def nextSeq (t : Trace) (now : Duration) : Probe × Trace :=
  let seq := t.seq + 1
  -- a Paris UDP probe over IPv4 has it for its checksum, which is not 0
  let seq := if !t.v6 && t.paris && t.protocol = .UDP && seq = 0 then 1 else seq
  (⟨t.hop, seq, t.curpacksize⟩, { t with seq, xmit := now })

/-- The top of `send_pkt`: none once the trace is over. -/
def nextProbe (t : Trace) (now : Duration) : Option Probe × Trace :=
  let t := { t with gotresp := false }
  if t.finished then (none, t)
  else
    let (goesOn, t) := if t.sent ≥ t.count then t.nextHop else (true, t)
    if goesOn then
      let (probe, t) := t.nextSeq now
      (some probe, t)
    else (none, { t with finished := true })

/-- The probe went. -/
def probeSent (t : Trace) : Trace := { t with sent := if t.sent = 255 then 255 else t.sent + 1 }

def sendFailed (t : Trace) (error : String) : Trace := { t.push (.error error) with finished := true }

def startFailed (t : Trace) (error : String) : Trace :=
  { t with hops := t.hops.modifyLast fun h => { h with error := some error }, finished := true }

/-- The wait for the probe in flight, or for its duplicates, is over. -/
def timeout (t : Trace) : Trace := if t.gotresp then t else t.push .timeout

/-- A smaller next-hop MTU makes the next probes smaller. -/
def shrink (t : Trace) (mtu headers : UInt32) : Trace :=
  if mtu ≥ headers ∧ mtu - headers < t.curpacksize.toUInt32 then
    { t with curpacksize := (mtu - headers).toUInt16 }
  else t

/-- A TCP answer acknowledges more than its probe's sequence number: it is
stale only when more than 0x2000 away. -/
def stale (t : Trace) (a : Answer) : Bool :=
  if a.branch = .v4Tcp ∨ a.branch = .v6Tcp then a.seq - t.seq.toUInt32 > 0x2000
  else a.seq ≠ t.seq.toUInt32

variable (since : Duration → Duration → Millis)

/-- The time a reply's entry writes: a late IPv6 reply's is from the send time
it quotes, and a TCP probe quotes none. -/
def rtt (t : Trace) (a : Answer) (late : Option Int) (now : Duration) : Millis :=
  match a.branch, late, a.sentTv with
  | .v6Err, some _, some tv | .v6Echo, some _, some tv => since now tv
  | .v6Err, some _, none => ⟨true, 42000⟩
  | _, _, _ => since now t.xmit

/-- What the reply says about the trace. -/
def learn (t : Trace) (a : Answer) (late dup : Bool) : Trace :=
  match a.branch, a.outcome with
  -- counts duplicates too
  | .v4ErrL4, .timeExceeded => if !late then { t with notDone := true } else t
  | _, .timeExceeded => if !late && !dup then { t with notDone := true } else t
  | _, .needFrag mtu =>
    if !late then { t.shrink mtu (20 + a.innerL4Len) with done := true, notDone := true } else t
  | _, .tooBig mtu =>
    if !late then { t.shrink (max mtu 1200) (40 + a.innerL4Len) with notDone := true } else t
  | _, .unreach _ => if !late then { t with done := true } else t
  | .v6Echo, _ => if !late && !dup then { t with done := true } else t
  -- an IPv4 echo reply or a TCP answer ends the trace whatever it is
  | _, _ => { t with done := true }

/-- A reply to one of the trace's probes: the new end of the wait where it
answers the probe in flight. One from the future is ignored. -/
def reply (t : Trace) (a : Answer) (now : Duration) : Option Duration × Trace :=
  let cur := t.seq.toUInt32
  if t.stale a && a.seq > cur then (none, t)
  else
    let late : Option Int := if t.stale a then some (cur - a.seq).toInt32.toInt else none
    let dup := late.isNone && t.gotresp
    let fresh := late.isNone && !dup
    let t := (t.push (.reply a late dup (t.rtt since a late now) t.tos)).learn a late.isSome dup
    let t :=
      if fresh && a.branch ∈ [Branch.v4ErrL4, .v4ErrIcmp, .v6Err, .v6Echo] then
        { t with lastResponseHop := t.hop }
      else t
    if fresh then (some (now + t.dupTimeout), { t with gotresp := true }) else (none, t)

end Trace

end Starla.Impl.Traceroute
