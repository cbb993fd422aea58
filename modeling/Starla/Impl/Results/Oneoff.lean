import Starla.Impl.Controller.Command
import Starla.Impl.Results.Handler

/-!
# One-offs among the scheduled runs

The one-off dispatch of `starla-probe/src/main.rs` and the submissions of
`starla-scheduler/src/lib.rs`, around the result handler. A ONEOFF tells the
handler to expect a result of its measurement and starts a run; a scheduled
run just starts. A run that ends yields one result or none. Results carry what
started their run, which the handler does not read.
-/

namespace Starla.Impl.Results

open Starla.Impl.Controller (TelnetCommand)

/-- The measurement id of a ONEOFF's command, whose result is the one-off's. -/
def oneoffMsmId : TelnetCommand → Option UInt64
  | .ping s => some s.msmId
  | .traceroute s => some s.msmId
  | .dns s => some s.msmId
  | .http s => some s.msmId
  | .tls s => some s.msmId
  | .ntp s => some s.msmId
  | _ => none

/-- A run, or the result of one: its measurement, and whether a ONEOFF started it. -/
structure MsmRun where
  msmId : UInt64
  oneoff : Bool
deriving DecidableEq, Repr

instance : MeasurementResult MsmRun := ⟨MsmRun.msmId⟩

structure Runs where
  handler : ResultHandler MsmRun
  /-- The runs in progress, in the order they were started. -/
  running : List MsmRun

inductive RunEvent
  | oneoff (inner : TelnetCommand)
  | scheduled (msmId : UInt64)
  /-- The `i`th run in progress ends, with a result or without. -/
  | yields (i : Nat) (lts now : Int)
  | fails (i : Nat)

namespace Runs

def start (config : ResultHandlerConfig) : Runs := ⟨.new config, []⟩

def step (s : Runs) : RunEvent → Runs
  | .oneoff inner =>
    match oneoffMsmId inner with
    | some msmId => ⟨s.handler.expectOneoff msmId, s.running ++ [⟨msmId, true⟩]⟩
    | none => s
  | .scheduled msmId => { s with running := s.running ++ [⟨msmId, false⟩] }
  | .yields i lts now =>
    match s.running[i]? with
    | some r => ⟨s.handler.submit r lts now, s.running.eraseIdx i⟩
    | none => s
  | .fails i => { s with running := s.running.eraseIdx i }

end Runs

end Starla.Impl.Results
