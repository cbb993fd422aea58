import Starla.Impl.Scheduler.Task

/-!
# When results are posted

`PostSchedule` and `Slots` of `starla-results/src/post_schedule.rs`: the slots
of an httppost line, computed as perd computes them. The number a random draw
returns is the argument `draw`.
-/

namespace Starla.Impl.Results

open Starla.Framework
open Starla.Impl.Scheduler (uniformOffset)

structure PostSchedule where
  interval : Nat
  startTime : Int
  endTime : Int
  spread : Nat
deriving DecidableEq, Repr

def MAX_INTERVAL : Nat := 2 * 366 * 24 * 3600

/-- What `set_httppost_line` takes. -/
def PostSchedule.accepted (s : PostSchedule) : Bool :=
  1 ≤ s.interval && s.interval ≤ MAX_INTERVAL && 0 ≤ s.startTime

structure Slots where
  schedule : PostSchedule
  cycle : Int
  offset : Int
deriving DecidableEq, Repr

/-- `(now - start_time) / interval + 1`, truncated as C truncates. -/
def firstCycle (now : Int) (schedule : PostSchedule) : Int :=
  if schedule.interval = 0 then 0
  else wrap64 ((wrap64 (now - schedule.startTime)).tdiv (wrap64 schedule.interval) + 1)

namespace Slots

def new (schedule : PostSchedule) (now : Int) (draw : Nat) : Slots :=
  ⟨schedule, firstCycle now schedule, uniformOffset schedule.spread draw⟩

def slot (s : Slots) (cycle : Int) : Int :=
  wrap64 (s.schedule.startTime + wrap64 (cycle * wrap64 s.schedule.interval))

/-- When the next cycle is due, unless it never will be. -/
def nextRun (s : Slots) (now : Int) : Option Int :=
  let at_ := max (wrap64 (s.slot s.cycle + s.offset)) s.schedule.startTime
  if now ≤ s.schedule.endTime ∧ at_ ≤ s.schedule.endTime then some at_ else none

def sameCycles (s : Slots) (schedule : PostSchedule) : Bool :=
  s.schedule.interval = schedule.interval && s.schedule.startTime = schedule.startTime

/-- A line that is repeated keeps its cycle, and its offset if the spread is the
same. -/
def carriedOver (old : Slots) (schedule : PostSchedule) (draw : Nat) : Slots :=
  ⟨schedule, old.cycle,
    if old.schedule.spread = schedule.spread then old.offset else uniformOffset schedule.spread draw⟩

def isDue (s : Slots) (now : Int) : Bool :=
  wrap64 (s.slot s.cycle + s.offset) ≤ now && s.schedule.startTime ≤ now && now ≤ s.schedule.endTime

/-- The next cycle, or the first after `now` if its slot has passed. -/
def advance (s : Slots) (now : Int) (draw : Nat) : Slots :=
  let cycle := wrap64 (s.cycle + 1)
  { s with
    cycle := if s.slot cycle ≤ now then firstCycle now s.schedule else cycle
    offset := uniformOffset s.schedule.spread draw }

/-- More than ten cycles ahead of `now` starts over from cycle 0. -/
def checkClock (s : Slots) (now : Int) : Slots :=
  let t := wrap64 (s.schedule.startTime + wrap64 (wrap64 (s.cycle - 10) * wrap64 s.schedule.interval))
  if s.schedule.startTime ≤ now ∧ now < t then { s with cycle := 0 } else s

end Slots

/-! ## The upload loop's line -/

/-- The slots of a line that is set: `same`, whether a line of this kind was
there with the same target. -/
def setHttppostLine (old : Option Slots) (same : Bool) (schedule : PostSchedule) (now : Int) (draw : Nat) :
    Option Slots :=
  if schedule.accepted then
    match old with
    | some old =>
      if same && old.sameCycles schedule then some (old.carriedOver schedule draw)
      else some (.new schedule now draw)
    | none => some (.new schedule now draw)
  else none

/-- What a pass of the loop waits for. -/
def lineDeadline (s : Slots) (now : Int) : Slots × Option Int :=
  let s := s.checkClock now
  (s, s.nextRun now)

/-- The line moved on to its next cycle, if it is due. -/
def takeDueLine (s : Slots) (now : Int) (draw : Nat) : Option Slots :=
  if s.isDue now then some (s.advance now draw) else none

end Starla.Impl.Results
