import Starla.Framework.Int64

/-!
# Scheduled tasks

`ScheduledTask` of `starla-scheduler/src/task.rs`. A clock reading is the
argument `now`, in seconds; the number a random draw returns is the argument
`draw`, of which the generator keeps the part in its range. `S` is the
measurement's specification.
-/

namespace Starla.Impl.Scheduler

open Starla.Framework

variable {S : Type}

structure MeasurementJob (S : Type) where
  msmId : UInt64
  interval : Nat
  startTime : Int
  endTime : Int
  spread : Nat
  spec : S
deriving DecidableEq, Repr

structure ScheduledTask (S : Type) where
  id : UInt64
  interval : Nat
  startTime : Int
  endTime : Int
  spread : Nat
  job : MeasurementJob S
  /-- The cycle `nextRun` belongs to. -/
  cycle : Int
  nextRun : Int
deriving DecidableEq, Repr

/-- How far from its time a line still runs. -/
def timeSlack : Int := 10

/-- Cycle 0 while `startTime` is ahead, else the first cycle whose slot is after
`now`. -/
def firstCycleAfter (now startTime : Int) (interval : Nat) : Int :=
  if interval = 0 ∨ now < startTime then 0
  else wrap64 ((sat64 (now - startTime)).tdiv (wrap64 interval) + 1)

def slot (startTime : Int) (interval : Nat) (cycle : Int) : Int :=
  sat64 (startTime + sat64 (cycle * wrap64 interval))

/-- `random_range(0..=spread)`. -/
def randomRange (spread draw : Nat) : Nat := draw % (spread + 1)

/-- A whole number in `[0, spread]`, less `spread / 2`. -/
def uniformOffset (spread draw : Nat) : Int :=
  if spread = 0 then 0 else wrap64 (wrap64 (randomRange spread draw) - wrap64 (spread / 2 : Nat))

namespace ScheduledTask

/-- The first cycle after `now`, its offset drawn afresh. -/
def drawCycle (t : ScheduledTask S) (now : Int) (draw : Nat) : ScheduledTask S :=
  let cycle := firstCycleAfter now t.startTime t.interval
  { t with
    cycle
    nextRun := wrap64 (slot t.startTime t.interval cycle + uniformOffset t.spread draw) }

def newAt (now : Int) (id : UInt64) (interval : Nat) (startTime endTime : Int) (spread : Nat)
    (job : MeasurementJob S) (draw : Nat) : ScheduledTask S :=
  ScheduledTask.drawCycle ⟨id, interval, startTime, endTime, spread, job, 0, 0⟩ now draw

def isDue (t : ScheduledTask S) (now : Int) : Bool :=
  t.nextRun ≤ now && (t.endTime == 0 || t.nextRun ≤ t.endTime)

/-- A crontab repeats this line, with `endTime`. A line that had stopped, and
whose next run is more than the slack past, draws its cycle again. -/
def takeEndTime (t : ScheduledTask S) (endTime now : Int) (draw : Nat) : ScheduledTask S :=
  let hadStopped := t.endTime != 0 && t.nextRun > t.endTime
  let t := { t with endTime, job := { t.job with endTime } }
  if hadStopped && now > wrap64 (t.nextRun + timeSlack) then t.drawCycle now draw else t

/-- Moves to the next cycle after a run, or past the slots `now` has passed. -/
def scheduleNext (t : ScheduledTask S) (now : Int) (draw : Nat) : ScheduledTask S :=
  let cycle := wrap64 (t.cycle + 1)
  let cycle :=
    if slot t.startTime t.interval cycle < now then firstCycleAfter now t.startTime t.interval
    else cycle
  { t with
    cycle
    nextRun := wrap64 (slot t.startTime t.interval cycle + uniformOffset t.spread draw) }

def isExpired (t : ScheduledTask S) (now : Int) : Bool := t.endTime > 0 && now > t.endTime

end ScheduledTask

end Starla.Impl.Scheduler
