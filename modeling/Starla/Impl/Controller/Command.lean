/-!
# Commands from the controller

`TelnetCommand` and its specifications, of `starla-controller/src/telnet.rs`,
and `TracerouteOptions` of `starla-common`. Intervals, spreads and times are
numbers; what is only carried keeps the source's width.
-/

namespace Starla.Impl.Controller

structure ScheduleSpec where
  interval : Nat
  startTime : Int
  stopTime : Int
deriving DecidableEq, Repr

inductive TracerouteProtocol
  | ICMP
  | UDP
  | TCP
deriving DecidableEq, Repr

structure TracerouteOptions where
  protocol : TracerouteProtocol := .UDP
  count : UInt8 := 3
  firstHop : UInt8 := 1
  gapLimit : UInt8 := 5
  maxHops : UInt8 := 32
  size : UInt16 := 40
  destPort : UInt16 := 80
  tos : UInt32 := 0
  timeoutMs : UInt32 := 1000
  dupTimeoutMs : UInt32 := 10
  parisMod : UInt8 := 16
  parisBase : UInt8 := 0
  hbhOptSize : UInt16 := 0
  destOptSize : UInt16 := 0
  dontFragment : Bool := false
  interface : Option String := none
  bundle : Option String := none
deriving DecidableEq, Repr

/-- The largest `-S` a traceroute takes. -/
def TracerouteOptions.MAX_SIZE : Nat := 4096

structure PingSpec where
  msmId : UInt64
  target : String
  af : UInt8
  packets : UInt32
  size : UInt16
  packetInterval : UInt32
  spread : Option Nat
  schedule : ScheduleSpec
deriving DecidableEq, Repr

structure TracerouteSpec where
  msmId : UInt64
  target : String
  af : UInt8
  opts : TracerouteOptions
  spread : Option Nat
  schedule : ScheduleSpec
deriving DecidableEq, Repr

structure DnsSpec where
  msmId : UInt64 := 0
  bundle : Option UInt64 := none
  target : String := ""
  af : UInt8 := 4
  protocol : String := "UDP"
  port : UInt16 := 53
  qtype : UInt16 := 16
  qclass : UInt16 := 3
  queryArgument : String := ""
  resolv : Bool := false
  interface : Option String := none
  rd : Bool := false
  ad : Bool := false
  cd : Bool := false
  dnssec : Bool := false
  nsid : Bool := false
  clientSubnet : Bool := false
  cookies : Bool := false
  edns0 : UInt32 := 512
  ednsVersion : UInt8 := 0
  ednsFlags : UInt16 := 0
  ednsOption : UInt16 := 0
  qbuf : Bool := false
  abuf : Bool := true
  prependProbeId : Bool := false
  timeoutMs : UInt32 := 5000
  retry : UInt32 := 0
  ttl : Bool := false
  spread : Option Nat := none
  schedule : ScheduleSpec := ⟨0, 0, 0⟩
deriving DecidableEq, Repr

structure HttpSpec where
  msmId : UInt64
  url : String
  method : String
  af : UInt8
  headers : List String
  body : Option String
  maxBodySize : Option UInt32
  storeHeaders : UInt32
  http10 : Bool
  timeoutMs : Option UInt32
  spread : Option Nat
  schedule : ScheduleSpec
deriving DecidableEq, Repr

structure TlsSpec where
  msmId : UInt64
  target : String
  port : UInt16
  af : UInt8
  hostname : Option String
  spread : Option Nat
  schedule : ScheduleSpec
deriving DecidableEq, Repr

structure NtpSpec where
  msmId : UInt64
  target : String
  af : UInt8
  packets : UInt32
  timeoutMs : UInt32
  gapMs : UInt32
  spread : Option Nat
  schedule : ScheduleSpec
deriving DecidableEq, Repr

inductive HostTelemetryKind
  | buddyinfo
  | rptaddrs
deriving DecidableEq, Repr

structure HostTelemetrySpec where
  kind : HostTelemetryKind
  interval : Nat
  msmId : Option UInt32
  lowmem : Option UInt32
deriving DecidableEq, Repr

structure HttppostSpec where
  interval : Nat
  startTime : Int
  endTime : Int
  spread : Nat
  url : String
  postDir : Bool
  setTime : Option Int
  localTime : Bool
deriving DecidableEq, Repr

/-- A CRONLINE of a crontab: what follows `CRONLINE `, and the line as
`parseCommand` reads it, a `C`. -/
structure CrontabLine (C : Type) where
  line : String
  command : C

/-- A crontab, as the controller sends one: its directory and its CRONLINEs,
in order. -/
structure CrontabSpec (C : Type) where
  dir : String
  lines : List (CrontabLine C)

/-- What is not understood, as it is logged: a line, a tool's arguments, or a
JSON object's `type`. -/
inductive NotUnderstood
  | line (cmd : String)
  | args (tool : String) (args : List String)
  | msmType (name : String)
deriving DecidableEq, Repr

inductive TelnetCommand
  | ping (spec : PingSpec)
  | traceroute (spec : TracerouteSpec)
  | dns (spec : DnsSpec)
  | http (spec : HttpSpec)
  | tls (spec : TlsSpec)
  | ntp (spec : NtpSpec)
  | hostTelemetry (spec : HostTelemetrySpec)
  /-- A measurement from a ONEOFF line. -/
  | oneoff (command : TelnetCommand)
  | httppost (spec : HttppostSpec)
  /-- A crontab, handed on once a line other than a CRONLINE has ended it. -/
  | crontab (spec : CrontabSpec TelnetCommand)
  | status
  | stop (msmId : UInt64)
  | ignored (cmd : String)
  | unknown (text : NotUnderstood)

end Starla.Impl.Controller
