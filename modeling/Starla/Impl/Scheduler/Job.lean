import Starla.Impl.Controller.Cronline
import Starla.Impl.Measurements.Dns
import Starla.Impl.Scheduler.Lines

/-!
# Measurement jobs

`MeasurementSpec` of `starla-scheduler/src/job.rs`, and what the probe's
command handler (`starla-probe/src/main.rs`) makes of a command and of a
crontab's lines. What a ping or traceroute line keeps between its runs is
found by the line's own fields and is not part of its specification here.
-/

namespace Starla.Impl.Scheduler

open Starla.Impl.Controller Starla.Impl.Measurements

structure PingJobSpec where
  target : String
  af : UInt8
  packets : UInt32
  packetInterval : UInt32
  size : UInt16
deriving DecidableEq, Repr

structure TracerouteJobSpec where
  target : String
  af : UInt8
  opts : TracerouteOptions
deriving DecidableEq, Repr

abbrev DnsJobSpec := DnsConfig

structure HttpJobSpec where
  url : String
  method : String
  af : UInt8
  headers : List String
  body : Option String
  maxBodySize : Option UInt32
  storeHeaders : UInt32
  http10 : Bool
  timeoutMs : Option UInt32
deriving DecidableEq, Repr

structure TlsJobSpec where
  target : String
  port : UInt16
  af : UInt8
  hostname : Option String
deriving DecidableEq, Repr

structure NtpJobSpec where
  target : String
  af : UInt8
  packets : UInt32
  timeoutMs : UInt32
  gapMs : UInt32
deriving DecidableEq, Repr

inductive MeasurementSpec
  | ping (spec : PingJobSpec)
  | traceroute (spec : TracerouteJobSpec)
  | dns (spec : DnsJobSpec)
  | http (spec : HttpJobSpec)
  | tls (spec : TlsJobSpec)
  | ntp (spec : NtpJobSpec)
deriving DecidableEq, Repr

/-- The job a measurement command asks for. -/
def dispatchMeasurement (msmId : UInt64) (schedule : ScheduleSpec) (spread : Option Nat)
    (spec : MeasurementSpec) : MeasurementJob MeasurementSpec where
  msmId := msmId
  interval := schedule.interval
  startTime := schedule.startTime
  endTime := schedule.stopTime
  spread := spread.getD 0
  spec := spec

def jobOf : TelnetCommand → Option (MeasurementJob MeasurementSpec)
  | .ping s => some (dispatchMeasurement s.msmId s.schedule s.spread
      (.ping ⟨s.target, s.af, s.packets, s.packetInterval, s.size⟩))
  | .traceroute s => some (dispatchMeasurement s.msmId s.schedule s.spread
      (.traceroute ⟨s.target, s.af, s.opts⟩))
  | .dns s => some (dispatchMeasurement s.msmId s.schedule s.spread (.dns {
      server := s.target
      af := s.af
      tcp := s.protocol == "TCP"
      port := s.port
      qtype := s.qtype
      qclass := s.qclass
      query := s.queryArgument
      resolv := s.resolv
      interface := s.interface
      rd := s.rd
      ad := s.ad
      cd := s.cd
      dnssec := s.dnssec
      nsid := s.nsid
      clientSubnet := s.clientSubnet
      cookies := s.cookies
      edns0 := s.edns0
      ednsVersion := s.ednsVersion
      ednsFlags := s.ednsFlags
      ednsOption := s.ednsOption
      qbuf := s.qbuf
      abuf := s.abuf
      prependProbeId := s.prependProbeId
      timeoutMs := s.timeoutMs
      retry := s.retry
      bundle := s.bundle
      ttl := s.ttl }))
  | .http s => some (dispatchMeasurement s.msmId s.schedule s.spread (.http {
      url := s.url
      method := s.method
      af := s.af
      headers := s.headers
      body := s.body
      maxBodySize := s.maxBodySize
      storeHeaders := s.storeHeaders
      http10 := s.http10
      timeoutMs := s.timeoutMs }))
  | .tls s => some (dispatchMeasurement s.msmId s.schedule s.spread
      (.tls ⟨s.target, s.port, s.af, s.hostname⟩))
  | .ntp s => some (dispatchMeasurement s.msmId s.schedule s.spread
      (.ntp ⟨s.target, s.af, s.packets, s.timeoutMs, s.gapMs⟩))
  | _ => none

/-- The lines a crontab gives the scheduler: its recurring measurements. -/
def crontabOf (crontab : CrontabSpec TelnetCommand) : Crontab MeasurementSpec where
  file := crontab.dir
  lines := crontab.lines.filterMap fun l =>
    (jobOf l.command).bind fun job => if job.interval > 0 then some ⟨l.shell, job⟩ else none

end Starla.Impl.Scheduler
