import Starla.Impl.Reports.Dns
import Starla.Impl.Reports.Ntp
import Starla.Impl.Reports.Ping
import Starla.Impl.Reports.Tls
import Starla.Impl.Reports.Traceroute

/-!
# The line of a measurement

The job of a command, and the body of the line one of its runs gives, whatever
the measurement is. A run that gives no line has no body.
-/

namespace Starla.Impl.Reports.Line

open Starla.Framework Starla.Impl.Controller Starla.Impl.Scheduler

/-- The job of a measurement command, a one-off's too. -/
def measurementOf : TelnetCommand → Option (MeasurementJob MeasurementSpec)
  | .oneoff command => jobOf command
  | command => jobOf command

/-- What an HTTP run meets. -/
structure HttpMet where
  gstart : Int
  out : Http.RawHttpOutcome

/-- What an NTP run meets, its target looked up. -/
structure NtpMet where
  target : IpAddr
  srcAddr : Option IpAddr
  timestamp : Int
  results : Ntp.NtpResult

/-- What a run meets. -/
inductive Met
  | ping (met : Ping.Met)
  | traceroute (met : Traceroute.Met)
  | dns (met : Dns.Met)
  | http (met : HttpMet)
  | tls (met : Tls.Met)
  | ntp (met : NtpMet)

/-- The body of the line a run of a job gives. -/
def reportBody (lts : LtsText) (msmId : UInt64) : MeasurementSpec → Met → Option String
  | .ping spec, .ping met => (Ping.report msmId spec met).map (·.body lts)
  | .traceroute spec, .traceroute met => some (Traceroute.line msmId spec met lts)
  | .dns cfg, .dns met => some (Dns.line msmId cfg met lts)
  | .http _, .http met => some (Http.resultBody msmId met.gstart met.out lts)
  | .tls spec, .tls met => some (Tls.line msmId spec met lts)
  | .ntp spec, .ntp met =>
    some (Ntp.resultBody msmId spec.target met.target met.srcAddr met.timestamp met.results lts)
  | _, _ => none

end Starla.Impl.Reports.Line
