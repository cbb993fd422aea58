import Mathlib.Data.Finset.Basic
import Starla.Framework.Weak
import Starla.Impl.Controller.Command

/-!
# Traceroute instances

`TracerouteInstance` and `Run` of
`starla-measurements/src/traceroute/mod.rs`, with the tables every instance
shares: the slots in use and the periodic lines' instances. An `Arc` is the
address of its instance, which no later instance takes, and the instance goes
with the last of them. A run in progress borrows the `Arc` it came from.
-/

namespace Starla.Impl.Traceroute.Instances

open Starla.Framework Starla.Impl.Controller

/-- What tells one periodic line from another. -/
structure LineKey where
  msmId : UInt64
  target : String
  af : UInt8
  opts : TracerouteOptions
  interval : Nat
  startTime : Int
deriving DecidableEq, Repr

structure TracerouteInstance where
  index : UInt16
  runs : UInt64 := 0
  /-- A run is in progress. -/
  busy : Bool := false
deriving DecidableEq, Repr

/-- An instance and how many `Arc`s hold it. -/
structure Shared where
  instance' : TracerouteInstance
  strongCount : Nat
deriving DecidableEq, Repr

/-- A run in progress, and whether it has got under way. -/
structure Run where
  instance' : Nat
  underway : Bool := false
deriving DecidableEq, Repr

structure Tables where
  /-- `SLOTS`. -/
  slots : Finset UInt16 := ∅
  /-- `LINES`. -/
  lines : Weak LineKey := ∅
  instances : Assoc Nat Shared := ∅
  runs : Assoc Nat Run := ∅
  /-- The next instance's address and the next run's name. -/
  next : Nat := 0

/-- The indexes an IPv4 echo id has bits for. -/
def slotCount : Nat := 2 ^ 12

/-- The lowest slot not in `taken`. -/
def lowestFree (taken : Finset UInt16) : UInt16 :=
  (((List.range' 0 slotCount ++ List.range' slotCount (65536 - slotCount)).map UInt16.ofNat).find?
    (· ∉ taken)).getD 0

namespace Tables

def live (t : Tables) (a : Nat) : Bool := (t.instances.lookup a).any (0 < ·.strongCount)

/-- A new instance takes the lowest free slot. -/
def default (t : Tables) : Nat × Tables :=
  let index := lowestFree t.slots
  (t.next, { t with
    slots := insert index t.slots
    instances := t.instances.insert t.next ⟨{ index }, 1⟩
    next := t.next + 1 })

/-- Changes instance `a` in place. -/
def update (t : Tables) (a : Nat) (f : Shared → Shared) : Tables :=
  match t.instances.lookup a with
  | some s => { t with instances := t.instances.insert a (f s) }
  | none => t

def clone (t : Tables) (a : Nat) : Tables :=
  t.update a fun s => { s with strongCount := s.strongCount + 1 }

/-- The instance of a line the controller delivers. -/
def forLine (t : Tables) (key : LineKey) : Nat × Tables :=
  if key.interval = 0 then t.default
  else
    let lines := t.lines.prune t.live
    match lines.upgrade t.live key with
    | some a => (a, { t.clone a with lines })
    | none =>
      let (a, t) := t.default
      (a, { t with lines := lines.insert key a })

/-- An `Arc` of instance `a` is dropped: with the last one the instance goes
and its slot is free. The last one stays while a run borrows it. -/
def dropArc (t : Tables) (a : Nat) : Tables :=
  match t.instances.lookup a with
  | none => t
  | some s =>
    if 1 < s.strongCount then t.update a fun s => { s with strongCount := s.strongCount - 1 }
    else if t.runs.entries.any (·.2.instance' == a) then t
    else { t with
      slots := t.slots.erase s.instance'.index
      instances := t.instances.erase a }

/-- Starts a run of instance `a`, unless its last one is still going. -/
def start (t : Tables) (a : Nat) : Option Nat × Tables :=
  match t.instances.lookup a with
  | none => (none, t)
  | some s =>
    let t' := t.update a fun s => { s with instance' := { s.instance' with busy := true } }
    if s.instance'.busy then (none, t')
    else (some t.next, { t' with runs := t'.runs.insert t.next ⟨a, false⟩, next := t.next + 1 })

/-- Run `r` gets under way, once: its number. -/
def underway (t : Tables) (r : Nat) : Option UInt64 × Tables :=
  match t.runs.lookup r with
  | some run =>
    if run.underway then (none, t)
    else
      let t' := t.update run.instance' fun s =>
        { s with instance' := { s.instance' with runs := s.instance'.runs + 1 } }
      ((t'.instances.lookup run.instance').map (·.instance'.runs),
        { t' with runs := t'.runs.insert r { run with underway := true } })
  | none => (none, t)

/-- Run `r` is dropped. -/
def finish (t : Tables) (r : Nat) : Tables :=
  match t.runs.lookup r with
  | some run =>
    { t.update run.instance' fun s => { s with instance' := { s.instance' with busy := false } } with
      runs := t.runs.erase r }
  | none => t

inductive Event
  | default
  | forLine (key : LineKey)
  | clone (a : Nat)
  | dropArc (a : Nat)
  | start (a : Nat)
  | underway (r : Nat)
  | finish (r : Nat)
deriving DecidableEq, Repr

def step (t : Tables) : Event → Tables
  | .default => t.default.2
  | .forLine key => (t.forLine key).2
  | .clone a => t.clone a
  | .dropArc a => t.dropArc a
  | .start a => (t.start a).2
  | .underway r => (t.underway r).2
  | .finish r => t.finish r

end Tables

end Starla.Impl.Traceroute.Instances
