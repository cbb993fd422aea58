import Starla.Impl.Reports.Line
import Starla.Proof.Controller.Cronline
import Starla.Proof.Reports.Ntp
import Starla.Proof.Reports.Ping
import Starla.Proof.Reports.Tls
import Starla.Proof.Reports.Traceroute

/-!
# The lines of the measurements

Whatever a command asks for and its runs meet, the lines have their members, if
the target's name can stand in a string, a traceroute's bundle is a number, and
a certificate query refuses no address after others failed.

* `prescribed_of_adds` : a body whose members are known.
* `prescribed_reportBody_iff` : the line of a run, whatever the measurement is.
-/

namespace Starla.Proof.Reports.Line

open Starla.Framework Starla.Framework.JsonText Starla.Impl.Controller Starla.Impl.Measurements Starla.Impl.Reports
  Starla.Impl.Reports.Line Starla.Impl.Results Starla.Impl.Scheduler Starla.Proof.Results
open Starla.Proof.Controller (DigitBundle DigitBundles PlainFields digitBundles_parseCommand jobOf_pingLine jobOf_tokens
  pingJob)

theorem prescribed_of_adds {body : String} {fs : Fields} (hbody : Adds .member body fs) (lts : Int) :
    Prescribed (uploadedLine body lts) fs :=
  (prescribed_unmarked (hbody.not_mem isControl_mark) lts).mpr (read_of_readsAs (readsAs_object hbody))

/-! ## Commands -/

theorem measurementOf_cases (command : TelnetCommand) :
    (∃ command', command = .oneoff command' ∧ measurementOf command = jobOf command') ∨
      measurementOf command = jobOf command := by
  cases command with
  | oneoff command => exact .inl ⟨command, rfl, rfl⟩
  | _ => exact .inr rfl

/-- The bundle of the traceroute a command asks for is digits. -/
theorem digitBundle_of_command {fromStr : String → Option Json} {cmd : String} {job : MeasurementJob MeasurementSpec}
    {spec : TracerouteJobSpec} (hjob : measurementOf (parseCommand fromStr cmd) = some job)
    (hspec : job.spec = .traceroute spec) : DigitBundle spec.opts := by
  have hbundles := digitBundles_parseCommand fromStr cmd
  have hdirect {command : TelnetCommand} (hjob : jobOf command = some job)
      (h : ∀ s, command = .traceroute s → DigitBundle s.opts) : DigitBundle spec.opts := by
    cases command with
    | traceroute s =>
      cases hjob
      cases hspec
      exact h s rfl
    | _ => cases hjob <;> cases hspec
  rcases measurementOf_cases (parseCommand fromStr cmd) with ⟨command, hcommand, hmeasurement⟩ | hmeasurement
  · refine hdirect (hmeasurement.symm.trans hjob) fun s hs => ?_
    rw [hcommand, hs] at hbundles
    exact hbundles
  · refine hdirect (hmeasurement.symm.trans hjob) fun s hs => ?_
    rw [hs] at hbundles
    exact hbundles

/-! ## Lines -/

/-- The members of the line of a run. -/
def lineFields (msmId : UInt64) : MeasurementSpec → Line.Met → Fields
  | .ping spec, .ping met => ((Ping.report msmId spec met).map Ping.Report.fields).getD []
  | .traceroute spec, .traceroute met => Traceroute.lineFields spec met
  | .http _, .http met => Http.bodyFields met.out
  | .tls spec, .tls met => Tls.lineFields msmId spec met
  | .ntp _, .ntp met => Ntp.bodyFields met.results
  | _, _ => []

/-- The line of a run is one that is read: an HTTP fetch's and an NTP query's
always are. -/
def LineOk (lts : Int) : MeasurementSpec → Line.Met → Prop
  | .ping spec, _ => NameOk lts spec.target
  | .traceroute spec, _ => NameOk lts spec.target ∧ Traceroute.NumberBundle spec.opts
  | .tls spec, .tls met => NameOk lts spec.target ∧ ¬ Tls.RefusedAfterFailure spec met
  | _, _ => True

theorem prescribed_reportBody_iff (fromStr : String → Option Json) (cmd : String) (job : MeasurementJob MeasurementSpec)
    (hjob : measurementOf (parseCommand fromStr cmd) = some job) (hkind : ∀ cfg, job.spec ≠ .dns cfg) (met : Line.Met)
    (body : String) (hbody : reportBody .written job.msmId job.spec met = some body) (lts : Int) :
    Prescribed (uploadedLine body lts) (lineFields job.msmId job.spec met) ↔ LineOk lts job.spec met := by
  have hlts : IsNumber LtsText.written.own.toList := ⟨.zero, rfl, rfl⟩
  have hdigits {spec : TracerouteJobSpec} (h : job.spec = .traceroute spec) := digitBundle_of_command hjob h
  generalize job.spec = spec at *
  cases spec with
  | ping spec =>
    cases met with
    | ping met =>
      obtain ⟨r, hr, rfl⟩ := Option.map_eq_some_iff.mp hbody
      obtain ⟨hname, hresult⟩ := Ping.report_eq_some hr
      have h := Ping.prescribed_report_iff r hresult lts
      rw [hname] at h
      rw [lineFields, hr]
      exact h
    | _ => cases hbody
  | traceroute spec =>
    cases met with
    | traceroute met =>
      cases hbody
      exact Traceroute.prescribed_line_iff job.msmId spec met (hdigits rfl) lts
    | _ => cases hbody
  | dns cfg => exact absurd rfl (hkind cfg)
  | http spec =>
    cases met with
    | http met =>
      cases hbody
      exact iff_of_true (prescribed_of_adds (Http.adds_resultBody job.msmId met.gstart met.out hlts) lts) trivial
    | _ => cases hbody
  | tls spec =>
    cases met with
    | tls met =>
      cases hbody
      exact Tls.prescribed_line_iff job.msmId spec met lts
    | _ => cases hbody
  | ntp spec =>
    cases met with
    | ntp met =>
      obtain rfl : Ntp.resultBody job.msmId spec.target met.target met.srcAddr met.timestamp met.results .written = body :=
        Option.some.inj hbody
      exact iff_of_true (prescribed_of_adds (Ntp.adds_resultBody job.msmId spec.target met.target met.srcAddr
        met.timestamp met.results hlts) lts) trivial
    | _ => cases hbody

/-- The measurement of a CRONLINE. -/
theorem measurementOf_cronline {fromStr : String → Option Json} {text : String} {job : MeasurementJob MeasurementSpec}
    (hjob : jobOf (cronline fromStr text).command = some job) :
    measurementOf (parseCommand fromStr (CMD_CRONLINE ++ text)) = some job := by
  change jobOf (parseCommand fromStr (CMD_CRONLINE ++ text)) = some job at hjob
  cases hcommand : parseCommand fromStr (CMD_CRONLINE ++ text) with
  | oneoff command =>
    rw [hcommand] at hjob
    cases hjob
  | _ =>
    rw [hcommand] at hjob
    exact hjob

/-- A run whose name is not found. -/
def unresolved : Ping.Met := ⟨none, ⟨some ⟨false, 12000000⟩, .error .noName⟩, {}, .ran none [], 300⟩

/-- Its report. -/
def unresolvedReport (target : String) : Ping.Report where
  msmId := 1001
  time := 300
  dstName := ⟨target, some ⟨false, 12000000⟩⟩
  af := 4
  dstAddr := none
  srcAddr := none
  ttl := none
  size := 0
  result := "[ " ++ errorEntry ("dns resolution failed: " ++ lookupErrorText .noName) ++ " ]"

theorem report_unresolved (target : String) :
    Ping.report 1001 ⟨target, 4, 3, 1000, 0⟩ unresolved = some (unresolvedReport target) := rfl

theorem reportBody_unresolved (target : String) :
    reportBody .written (pingJob target).msmId (pingJob target).spec (.ping unresolved) =
      some ((unresolvedReport target).body .written) := by
  show (Ping.report 1001 ⟨target, 4, 3, 1000, 0⟩ unresolved).map (·.body .written) = _
  rw [report_unresolved]
  rfl

theorem prescribed_reportBody_iff_ping :
    Prescribed (uploadedLine ((unresolvedReport "192.0.2.1").body .written) 5)
        (lineFields (pingJob "192.0.2.1").msmId (pingJob "192.0.2.1").spec (.ping unresolved)) ↔
      LineOk 5 (pingJob "192.0.2.1").spec (.ping unresolved) :=
  have hkind : ∀ cfg, (pingJob "192.0.2.1").spec ≠ .dns cfg := fun cfg h => by cases h
  prescribed_reportBody_iff (fun _ => none) (CMD_CRONLINE ++ Controller.pingLine) (pingJob "192.0.2.1")
    (measurementOf_cronline jobOf_pingLine) hkind (.ping unresolved) ((unresolvedReport "192.0.2.1").body .written)
    (reportBody_unresolved "192.0.2.1") 5

/-- A line whose target has an escape that is none. -/
def backslashLine : String := "240 274 0 UNIFORM 3 evping -4 -A 1001 a\\q"

theorem jobOf_backslashLine : jobOf (cronline (fun _ => none) backslashLine).command = some (pingJob "a\\q") := by
  have hplain : PlainFields 5 (Controller.fields backslashLine) := by
    rw [Controller.fields, show backslashLine = String.ofList _ from rfl, String.toList_ofList]
    decide
  have htokens : Controller.leading 5 (Controller.fields backslashLine) ++
      tokensFrom false [] (Controller.rest backslashLine) =
        ["240", "274", "0", "UNIFORM", "3", "evping", "-4", "-A", "1001", "a\\q"] := by
    rw [Controller.rest, Controller.fields, show backslashLine = String.ofList _ from rfl, String.toList_ofList]
    rfl
  have hheader : parseHeader "240" "274" "0" "UNIFORM" "3" = some ⟨240, 274, 0, 3⟩ := by decide
  rw [jobOf_tokens _ hplain htokens hheader]
  decide

/-- The line of a run of it is no JSON object, whatever members it is to have. -/
theorem not_prescribed_backslashLine :
    measurementOf (parseCommand (fun _ => none) (CMD_CRONLINE ++ backslashLine)) = some (pingJob "a\\q") ∧
      reportBody .written (pingJob "a\\q").msmId (pingJob "a\\q").spec (.ping unresolved) =
        some ((unresolvedReport "a\\q").body .written) ∧
      ∀ lts fs, ¬ Prescribed (uploadedLine ((unresolvedReport "a\\q").body .written) lts) fs := by
  refine ⟨measurementOf_cronline jobOf_backslashLine, reportBody_unresolved _, fun lts fs => ?_⟩
  have hlts : IsNumber LtsText.written.own.toList := ⟨.zero, rfl, rfl⟩
  obtain ⟨ms, -, hleads⟩ := Ping.opens_head (unresolvedReport "a\\q") hlts
  have hname : Unmarked "a\\q" := by decide
  have hhead : Unmarked (Ping.Report.head (unresolvedReport "a\\q") .written) :=
    (Ping.opens_head _ hlts).not_mem isControl_mark
  have hbroken : feed ⟨[.root], .member []⟩
      (Ping.Report.head (unresolvedReport "a\\q") .written ++ "a\\q").toList = none := by
    rw [String.toList_append, feed_append, show feed _ _ = _ from hleads [.root] []]
    rfl
  rw [Ping.body_eq, String.append_assoc]
  exact not_prescribed_of_broken_start (unmarked_append.mpr ⟨hhead, hname⟩) hbroken

end Starla.Proof.Reports.Line
