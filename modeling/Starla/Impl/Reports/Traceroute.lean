import Starla.Impl.Reports.Envelope
import Starla.Impl.Scheduler.Job
import Starla.Impl.Traceroute.Net

/-!
# evtraceroute's lines

`result_body` and `lookup_failed_line` of
`starla-measurements/src/traceroute/mod.rs`, and the hops `net::run` gives
them: what the sockets bring is read by `parseReply`.
-/

namespace Starla.Impl.Reports

open Starla.Framework Starla.Impl.Controller Starla.Impl.Measurements Starla.Impl.Scheduler
open Starla.Impl.Traceroute (Duration Millis Hop Trace TraceId Run parseReply renderHops)

namespace Traceroute

/-- The call that ends a trace, or keeps it from starting. -/
inductive CallError
  | connect (error : SystemText)
  | socket (error : SystemText)
  | bind (error : SystemText)
  | sendto (error : SystemText)
  | setTos (v6 : Bool)
  | interface
  | family

def CallError.text : CallError → String
  | connect error => "connect failed: " ++ error.text
  | socket error => "socket failed: " ++ error.text
  | bind error => "bind failed: " ++ error.text
  | sendto error => "sendto failed: " ++ error.text
  | setTos v6 => "setting " ++ (if v6 then "traffic class" else "ToS") ++ " failed"
  | interface => "bind_interface failed"
  | family => "bind failed: address family mismatch"

/-- What the loop of a run meets. -/
inductive NetEvent
  /-- The top of the loop, and how `send` ends. -/
  | send (xmit : Duration) (sent : Except CallError Unit)
  | packet (fromTcpSocket : Bool) (buf : List UInt8) (sender : IpAddr) (hoplimit tclass : Int) (now : Duration)
  | deadline

/-- How a run goes: it does not start, or meets these events up to its end. -/
inductive RunOf
  | startFailed (error : CallError)
  | ran (events : List NetEvent)

section
variable (since : Duration → Duration → Millis)

def meets (id : TraceId) (s : Run) : NetEvent → Run
  | .send xmit sent => s.step since (.send xmit (sent.mapError CallError.text))
  | .packet fromTcpSocket buf sender hoplimit tclass now =>
    match parseReply id fromTcpSocket buf sender hoplimit tclass s.trace.seq with
    | some a => s.step since (.reply a now)
    | none => s
  | .deadline => s.step since .deadline

/-- The hops of one run. -/
def run (id : TraceId) (opts : TracerouteOptions) : RunOf → List Hop
  | .startFailed error => ((Trace.new id.v6 opts id.paris).startFailed error.text).hops
  | .ran events => (events.foldl (meets since id) (Run.start id.v6 opts id.paris)).trace.hops

end

/-- The Paris id of a measurement's `run`th run. -/
def parisId (opts : TracerouteOptions) (run : UInt64) : Option UInt16 :=
  if opts.parisMod = 0 then none
  else some ((run % opts.parisMod.toUInt64).toUInt16 + opts.parisBase.toUInt16)

/-- The traceroute of a job, its target looked up. -/
structure Config where
  msmId : UInt64
  target : IpAddr
  opts : TracerouteOptions
  dstName : DstName
deriving DecidableEq, Repr

def protoText : TracerouteProtocol → String
  | .ICMP => "ICMP"
  | .UDP => "UDP"
  | .TCP => "TCP"

namespace Config

def af (c : Config) : Nat := if c.target.isIpv4 then 4 else 6

/-- A line up to the target's name. -/
def head (c : Config) (time endtime : Int) (lts : LtsText) : String :=
  envelope (toString c.msmId.toNat) lts ++ "\"time\":" ++ toString time ++ ", \"endtime\":" ++
    toString endtime ++ ", " ++ (c.opts.bundle.map fun b => "\"bundle\":" ++ b ++ ", ").getD ""

/-- A line from the protocol on. -/
def tail (c : Config) (paris : Option UInt16) (result : String) : String :=
  ", \"proto\":\"" ++ protoText c.opts.protocol ++ "\"" ++ ", \"af\": " ++ toString c.af ++ ", \"size\":" ++
    toString c.opts.size.toNat ++ (paris.map fun p => ", \"paris_id\":" ++ toString p.toNat).getD "" ++
    ", \"result\": " ++ result

def resultBody (c : Config) (time endtime : Int) (srcAddr : Option IpAddr) (paris : Option UInt16)
    (hops : List Hop) (lts : LtsText) : String :=
  c.head time endtime lts ++ c.dstName.fields ++ ", \"dst_addr\":\"" ++ c.target.text ++ "\"" ++
    ", \"src_addr\":\"" ++ addrText srcAddr ++ "\"" ++ c.tail paris (renderHops IpAddr.text hops)

/-- The line of a run that makes no trace. -/
def lookupFailedLine (c : Config) (now : Int) (paris : Option UInt16) (dstAddr : Option IpAddr)
    (error : String) (lts : LtsText) : String :=
  c.head now now lts ++ c.dstName.fields ++
    (dstAddr.map fun addr => ", \"dst_addr\":\"" ++ addr.text ++ "\"").getD "" ++
    c.tail paris ("[ " ++ errorEntry error ++ " ]")

end Config

def lookupFailedText : LookupError → String
  | .noAddress => "name resolution failed: out of addresses"
  | error => "name resolution failed: " ++ lookupErrorText error

/-- What a run meets. -/
structure Met where
  /-- `ATLAS_DISABLE_CHECK_ADDR`. -/
  var : Option String
  lookup : Lookup
  /-- The instance's slot, and how many runs it has got under way. -/
  index : UInt16
  runs : UInt64
  pid : UInt32
  since : Duration → Duration → Millis
  run : RunOf
  time : Int
  endtime : Int
  srcAddr : Option IpAddr

/-- The line of a job's run. -/
def line (msmId : UInt64) (spec : TracerouteJobSpec) (met : Met) (lts : LtsText) : String :=
  let config (target : IpAddr) : Config := ⟨msmId, target, spec.opts, ⟨spec.target, met.lookup.ttr⟩⟩
  match met.lookup.addr with
  | .ok addr =>
    if addressAllowed met.var addr then
      let paris := parisId spec.opts (met.runs + 1)
      let id : TraceId := ⟨addr.isIpv6, spec.opts.protocol, met.pid, met.index, addr, paris⟩
      (config addr).resultBody met.time met.endtime met.srcAddr paris
        (run met.since id spec.opts met.run) lts
    else (config addr).lookupFailedLine met.time (parisId spec.opts met.runs) (some addr) "address not allowed" lts
  | .error error =>
    (config (familyOf spec.af)).lookupFailedLine met.time (parisId spec.opts met.runs) none
      (lookupFailedText error) lts

end Traceroute

end Starla.Impl.Reports
