import Starla.Impl.Measurements.Http
import Starla.Impl.Measurements.Ntp
import Starla.Impl.Measurements.Ping
import Starla.Impl.Measurements.Tls
import Starla.Impl.Measurements.Traceroute
import Starla.Impl.Scheduler.Job

/-!
# From a job to its measurement

`MeasurementJob::to_measurement`, `build`, `resolve_target` and
`LookUpThenRun` of `starla-scheduler/src/job.rs`, and the `execute` of each of
the six kinds. All that a run meets outside the probe is an argument,
`RunIo`.
-/

namespace Starla.Impl.Scheduler

open Starla.Framework Starla.Impl.Controller Starla.Impl.Measurements

/-- `Box<dyn Measurement>`. -/
inductive Measurement
  | ping (config : PingConfig)
  | traceroute (config : RunSpec)
  | dns (config : DnsConfig)
  | http (config : HttpConfig)
  | tls (config : TlsConfig)
  | ntp (config : NtpConfig)
deriving DecidableEq, Repr

structure RunIo where
  /-- `ATLAS_DISABLE_CHECK_ADDR` -/
  disableCheckAddr : Option String
  /-- the line's last run is still under way -/
  busy : Bool
  /-- the answer of the target's lookup, of a ping or traceroute -/
  lookup : Except LookupError IpAddr
  /-- the answer of an evntp target's lookup -/
  toSocketAddrs : IoResult (List IpAddr)
  /-- the Paris id of a traceroute's run -/
  paris : Option UInt16
  ping : PingIo
  trace : TraceIo
  dns : Dns.DnsIo
  http : Http.HttpIo
  tls : Tls.TlsIo
  ntp : Ntp.NtpIo

/-- What a run comes to. -/
inductive Report
  | measured
  | addressNotAllowed (addr : IpAddr)
  | lookupFailed (error : LookupError)
deriving DecidableEq, Repr

/-- The target ping and traceroute look up when they run. -/
def MeasurementSpec.target : MeasurementSpec → Option (String × UInt8)
  | ping s => some (s.target, s.af)
  | traceroute s => some (s.target, s.af)
  | _ => none

/-- Whether `-4` or `-6` asked for an address's family. -/
def askedFor (af : UInt8) (ip : IpAddr) : Bool := (af == 4 && ip.isIpv4) || (af == 6 && ip.isIpv6)

def resolveTarget (target : String) (af : UInt8) (toSocketAddrs : IoResult (List IpAddr)) :
    IoResult IpAddr :=
  match parseIpAddr target.toList with
  | some ip => .ok ip
  | none =>
    match toSocketAddrs with
    | .error e => .error e
    | .ok addrs =>
      -- no preference or no match: the first answer
      match (addrs.find? (askedFor af)).or addrs.head? with
      | some ip => .ok ip
      | none => .error s!"Could not resolve target: {target}"

/-- The headers of an HTTP job, by name: a name's last value is its value. -/
def headersOf (headers : List String) : Option (List (String × String)) :=
  let trim (cs : List Char) : String :=
    String.ofList ((cs.dropWhile isWhitespace).reverse.dropWhile isWhitespace).reverse
  let pairs := headers.filterMap fun h =>
    (splitOnce ':' h.toList).map fun (k, v) => (trim k, trim v)
  let named := pairs.foldl (fun m (k, v) => m.filter (·.1 ≠ k) ++ [(k, v)]) []
  if named.isEmpty then none else some named

def httpConfig (s : HttpJobSpec) : HttpConfig where
  url := s.url
  method := s.method
  headers := headersOf s.headers
  body := s.body
  timeoutMs := (s.timeoutMs.map UInt32.toUInt64).getD 30000
  af := s.af
  storeHeaders := s.storeHeaders
  http10 := s.http10

/-- The measurement, once its target is looked up. -/
def build (spec : MeasurementSpec) (io : RunIo) (lookedUp : Option IpAddr) : IoResult Measurement :=
  match spec with
  | .ping s =>
    match lookedUp with
    | none => .error "no target looked up"
    | some target =>
      if 1 ≤ s.packetInterval ∧ s.packetInterval ≤ 60000 then
        .ok (.ping ⟨target, s.packets, s.size, 64, s.packetInterval.toUInt64⟩)
      else .error "bad interval"
  | .traceroute s =>
    match lookedUp with
    | none => .error "no target looked up"
    | some target => .ok (.traceroute ⟨target, s.opts, io.paris⟩)
  | .dns s => .ok (.dns s)
  | .http s => .ok (.http (httpConfig s))
  | .tls s => .ok (.tls (TlsConfig.new io.disableCheckAddr s.target s.port s.af s.hostname))
  | .ntp s =>
    match resolveTarget s.target s.af io.toSocketAddrs with
    | .error e => .error e
    | .ok target => .ok (.ntp {
        target
        dstName := s.target
        timeoutMs := s.timeoutMs.toUInt64
        port := 123
        count := s.packets
        gapMs := s.gapMs.toUInt64 })

/-- `Measurement::execute`; a traceroute's is `execute_run`, the slot being its
run's. -/
def Measurement.execute (m : Measurement) (io : RunIo) : Logged Contact (IoResult Report) :=
  match m with
  | ping config => (·.map fun _ => .measured) <$> executePing config io.ping
  -- an error that ends a trace is part of its hops
  | traceroute config => (fun _ => .ok .measured) <$> traceRun config io.trace
  | dns config => (fun _ => .ok .measured) <$> Dns.run io.disableCheckAddr config io.dns
  | http config => (·.map fun _ => .measured) <$> Http.execute config io.http
  | tls config => (fun _ => .ok .measured) <$> Tls.sslgetcert config io.tls
  | ntp config => (·.map fun _ => .measured) <$> Ntp.executeNtpQuery config io.ntp

def Measurement.addressNotAllowed : Measurement → Option Report
  | ping config => some (.addressNotAllowed config.target)
  | traceroute config => some (.addressNotAllowed config.target)
  | _ => none

/-- An answer with no address of the family is one ping reports nothing for. -/
def Measurement.lookupFailed (error : LookupError) : Measurement → Option Report
  | ping _ => if error = .noAddress then none else some (.lookupFailed error)
  | traceroute _ => some (.lookupFailed error)
  | _ => none

/-- `LookUpThenRun::execute`, from the busy check on. -/
def lookUpThenRun (spec : MeasurementSpec) (target : String) (af : UInt8) (io : RunIo) :
    Logged Contact (IoResult Report) :=
  if io.busy then pure (.error "busy")
  else
    match io.lookup with
    | .ok addr =>
      match build spec io (some addr) with
      | .error e => pure (.error e)
      | .ok m =>
        if !addressAllowed io.disableCheckAddr addr then
          pure (m.addressNotAllowed.elim (.error s!"{target}: address not allowed") .ok)
        else m.execute io
    | .error error =>
      let unspecified : IpAddr := if af = 4 then .v4 0 else .v6 0
      match build spec io (some unspecified) with
      | .error e => pure (.error e)
      | .ok m => pure ((m.lookupFailed error).elim (.error s!"could not resolve {target}") .ok)

/-- A job's run: `to_measurement`, and the measurement's `execute`. -/
def runJob (job : MeasurementJob MeasurementSpec) (io : RunIo) : Logged Contact (IoResult Report) :=
  match job.spec.target with
  | some (target, af) => lookUpThenRun job.spec target af io
  | none =>
    match build job.spec io none with
    | .error e => pure (.error e)
    | .ok m => m.execute io

end Starla.Impl.Scheduler
