import Mathlib.Init

/-!
# Host telemetry

`HostTelemetry` of `starla-results/src/host_telemetry.rs`: the lines waiting
for the next main upload, and what `upload_batch_to` of
`starla-results/src/uploader.rs` does with them. An upload is split where it
awaits the controller's answer. Lines may be of any type: nothing reads them.
-/

namespace Starla.Impl.Results

variable {L : Type}

def MAX_PENDING : Nat := 64

/-- Over the bound, the oldest lines go first. -/
def capPending (p : List L) : List L := if p.length > MAX_PENDING then p.drop (p.length - MAX_PENDING) else p

structure HostTelemetry (L : Type) where
  pending : List L := []
deriving DecidableEq, Repr

namespace HostTelemetry

def push (t : HostTelemetry L) (line : L) : HostTelemetry L := ⟨capPending (t.pending ++ [line])⟩

def drain (t : HostTelemetry L) : List L × HostTelemetry L := (t.pending, ⟨[]⟩)

/-- Puts back the lines a failed upload drained, ahead of those queued since. -/
def restore (t : HostTelemetry L) (lines : List L) : HostTelemetry L :=
  if lines.isEmpty then t else ⟨capPending (lines ++ t.pending)⟩

end HostTelemetry

/-- The telemetry with its main uploads: the one under way carries the lines
it drained. -/
structure TelemetryUploads (L : Type) where
  telemetry : HostTelemetry L := {}
  underWay : Option (List L) := none
  /-- What each successful upload carried. -/
  uploaded : List (List L) := []
deriving DecidableEq, Repr

namespace TelemetryUploads

def push (s : TelemetryUploads L) (line : L) : TelemetryUploads L :=
  { s with telemetry := s.telemetry.push line }

/-- `upload_batch_to` up to its post. Without an endpoint, nothing is drained;
the loop awaits one upload before it starts another. -/
def beginUpload (s : TelemetryUploads L) (hasEndpoint : Bool) : TelemetryUploads L :=
  match s.underWay with
  | some _ => s
  | none =>
    if hasEndpoint then
      let (lines, telemetry) := s.telemetry.drain
      { s with telemetry, underWay := some lines }
    else s

/-- `upload_batch_to` from the answer on. -/
def endUpload (s : TelemetryUploads L) (sent : Bool) : TelemetryUploads L :=
  match s.underWay with
  | none => s
  | some lines =>
    if sent then { s with underWay := none, uploaded := s.uploaded ++ [lines] }
    else { s with underWay := none, telemetry := s.telemetry.restore lines }

end TelemetryUploads

end Starla.Impl.Results
