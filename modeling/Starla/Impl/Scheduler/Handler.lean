import Starla.Framework.Weak
import Starla.Impl.Scheduler.Job
import Starla.Impl.Traceroute.Instance

/-!
# The command handler and the scheduler

The probe's command handler (`starla-probe/src/main.rs`) with the scheduler it
sends to (`starla-scheduler/src/lib.rs`), and which `PingKept` or
`TracerouteInstance` each job has: `PingKept::for_line` and
`TracerouteInstance::for_line`, which the handler calls for every command it
takes. Both are known by their addresses; one is live while a job that has it
is scheduled, on its way to the scheduler, or running.
-/

namespace Starla.Impl.Scheduler

open Starla.Framework Starla.Impl.Controller

/-- What tells one ping line from another. -/
structure PingLine where
  msmId : UInt64
  target : String
  af : UInt8
  packets : UInt32
  packetInterval : UInt32
  size : UInt16
  interval : Nat
  startTime : Int
deriving DecidableEq, Repr

abbrev TracerouteLine := Traceroute.Instances.LineKey

/-- What a line's runs share. -/
inductive Kept
  | ping (a : Nat)
  | traceroute (a : Nat)
deriving DecidableEq, Repr

/-- A job's specification with what it keeps. -/
structure JobSpec where
  spec : MeasurementSpec
  kept : Option Kept
deriving DecidableEq, Repr

abbrev Job := MeasurementJob JobSpec

inductive SchedulerCommand
  | schedule (job : Job)
  | crontab (crontab : Crontab JobSpec)
  | stop (msmId : UInt64)
  | executeNow (job : Job)
deriving DecidableEq, Repr

/-- The jobs a command brings. -/
def SchedulerCommand.jobs : SchedulerCommand → List Job
  | .schedule job => [job]
  | .crontab c => c.lines.map (·.job)
  | .stop _ => []
  | .executeNow job => [job]

structure Probe where
  /-- `LINES` of `ping/mod.rs`. -/
  pings : Weak PingLine := ∅
  /-- `LINES` of `traceroute/mod.rs`. -/
  traceroutes : Weak TracerouteLine := ∅
  next : Nat := 0
  /-- The lines of the handler's crontab it has yet to take. -/
  crontabLines : List (TelnetCommand × String) := []
  crontab : Option (Crontab JobSpec) := none
  /-- What the scheduler has yet to take. -/
  channel : List SchedulerCommand := []
  lines : Lines JobSpec := .empty
  /-- The jobs of the runs under way. -/
  runs : List Job := []

/-- What `for_line` finds or makes, an interval of 0 being a one-off's. -/
def forLine {K : Type} [DecidableEq K] (live : Nat → Bool) (next : Nat) (lines : Weak K) (key : K)
    (interval : Nat) : Nat × Weak K :=
  if interval = 0 then (next, lines)
  else
    let lines := lines.prune live
    match lines.upgrade live key with
    | some a => (a, lines)
    | none => (next, lines.insert key next)

def pingLine (msmId : UInt64) (interval : Nat) (startTime : Int) (s : PingJobSpec) : PingLine :=
  ⟨msmId, s.target, s.af, s.packets, s.packetInterval, s.size, interval, startTime⟩

def tracerouteLine (msmId : UInt64) (interval : Nat) (startTime : Int) (s : TracerouteJobSpec) :
    TracerouteLine :=
  ⟨msmId, s.target, s.af, s.opts, interval, startTime⟩

namespace Probe

/-- The jobs that hold what they keep. -/
def held (p : Probe) : List Job :=
  p.lines.lines.entries.map (·.2.job) ++ p.channel.flatMap SchedulerCommand.jobs ++
    (p.crontab.toList.flatMap fun c => c.lines.map (·.job)) ++ p.runs

def live (p : Probe) (kept : Kept) : Bool := p.held.any fun j => j.spec.kept == some kept

/-- A job with what it keeps. -/
def keep (p : Probe) (job : MeasurementJob MeasurementSpec) : Job × Probe :=
  let withKept (kept : Option Kept) : Job :=
    ⟨job.msmId, job.interval, job.startTime, job.endTime, job.spread, ⟨job.spec, kept⟩⟩
  match job.spec with
  | .ping s =>
    let (a, pings) := forLine (fun a => p.live (.ping a)) p.next p.pings
      (pingLine job.msmId job.interval job.startTime s) job.interval
    (withKept (some (.ping a)), { p with pings, next := p.next + 1 })
  | .traceroute s =>
    let (a, traceroutes) := forLine (fun a => p.live (.traceroute a)) p.next p.traceroutes
      (tracerouteLine job.msmId job.interval job.startTime s) job.interval
    (withKept (some (.traceroute a)), { p with traceroutes, next := p.next + 1 })
  | _ => (withKept none, p)

def send (p : Probe) (command : SchedulerCommand) : Probe := { p with channel := p.channel ++ [command] }

/-- One command, or one line of a crontab with its text. -/
def take (p : Probe) (command : TelnetCommand) (shell : Option String) : Probe :=
  let command := match command with
    | .oneoff inner => inner
    | command => command
  match jobOf command with
  | some job =>
    let (job, p) := p.keep job
    if job.interval > 0 then
      match p.crontab, shell with
      | some crontab, some shell =>
        { p with crontab := some { crontab with lines := crontab.lines ++ [⟨shell, job⟩] } }
      | _, _ => p.send (.schedule job)
    else p.send (.executeNow job)
  | none =>
    match command with
    | .stop msmId => p.send (.stop msmId)
    | _ => p

/-- A pass of the handler's loop. It receives a command, or its wait times out,
only once it has taken every line of its crontab and sent that. -/
def pass (p : Probe) (received : Option TelnetCommand) : Probe :=
  match p.crontabLines with
  | (command, shell) :: rest => { p with crontabLines := rest }.take command (some shell)
  | [] =>
    let p := match p.crontab with
      | some crontab => { p.send (.crontab crontab) with crontab := none }
      | none => p
    match received with
    | some (.crontab spec) =>
      { p with
        crontabLines := spec.lines.map fun line => (line.command, line.shell)
        crontab := some ⟨spec.dir, []⟩ }
    | some command => p.take command none
    | none => p

/-- The scheduler takes its next command. -/
def schedule (p : Probe) (now : Int) (draw : Nat → Nat) : Probe :=
  match p.channel with
  | [] => p
  | command :: channel =>
    let p := { p with channel }
    match command with
    | .schedule job =>
      if job.interval = 0 then { p with runs := p.runs ++ [job] }
      else { p with lines := p.lines.schedule job now (draw 0) }
    | .crontab crontab => { p with lines := (p.lines.synchronize crontab now draw).2 }
    | .stop msmId => { p with lines := p.lines.stop msmId }
    | .executeNow job => { p with runs := p.runs ++ [job] }

/-- The runs due start. -/
def runDue (p : Probe) (now : Int) (draw : LineKey → Nat) : Probe :=
  let (due, lines) := p.lines.takeDue now draw
  { p with lines, runs := p.runs ++ due }

inductive Event
  | pass (received : Option TelnetCommand)
  | schedule (now : Int) (draw : Nat → Nat)
  | due (now : Int) (draw : LineKey → Nat)
  /-- Run `i` has reported and its job is dropped. -/
  | finish (i : Nat)

def step (p : Probe) : Event → Probe
  | .pass received => p.pass received
  | .schedule now draw => p.schedule now draw
  | .due now draw => p.runDue now draw
  | .finish i => { p with runs := p.runs.eraseIdx i }

end Probe

end Starla.Impl.Scheduler
