import Starla.Impl.Scheduler.Task

/-!
# Scheduled tasks, where an overflow stops the program

`starla-scheduler/src/task.rs` again, with overflow checks on: a plain sum,
difference or product out of range, or a cast of a number out of range, is
`none`. The saturating operations are as they were.
-/

namespace Starla.Impl.Scheduler

open Starla.Framework

variable {S : Type}

def firstCycleAfter? (now startTime : Int) (interval : Nat) : Option Int :=
  if interval = 0 ∨ now < startTime then some 0
  else do
    let interval ← checked64 interval
    checked64 ((sat64 (now - startTime)).tdiv interval + 1)

def slot? (startTime : Int) (interval : Nat) (cycle : Int) : Option Int := do
  let interval ← checked64 interval
  return sat64 (startTime + sat64 (cycle * interval))

def uniformOffset? (spread draw : Nat) : Option Int :=
  if spread = 0 then some 0
  else do
    let drawn ← checked64 (randomRange spread draw)
    let half ← checked64 (spread / 2 : Nat)
    checked64 (drawn - half)

namespace ScheduledTask

/-- The next run, on the slot of `cycle`. -/
def setCycle? (t : ScheduledTask S) (cycle : Int) (draw : Nat) : Option (ScheduledTask S) := do
  let slot ← slot? t.startTime t.interval cycle
  let offset ← uniformOffset? t.spread draw
  let nextRun ← checked64 (slot + offset)
  return { t with cycle, nextRun }

def drawCycle? (t : ScheduledTask S) (now : Int) (draw : Nat) : Option (ScheduledTask S) := do
  let cycle ← firstCycleAfter? now t.startTime t.interval
  t.setCycle? cycle draw

def newAt? (now : Int) (id : UInt64) (interval : Nat) (startTime endTime : Int) (spread : Nat)
    (job : MeasurementJob S) (draw : Nat) : Option (ScheduledTask S) :=
  ScheduledTask.drawCycle? ⟨id, interval, startTime, endTime, spread, job, 0, 0⟩ now draw

def takeEndTime? (t : ScheduledTask S) (endTime now : Int) (draw : Nat) : Option (ScheduledTask S) :=
  let hadStopped := t.endTime != 0 && t.nextRun > t.endTime
  let t := { t with endTime, job := { t.job with endTime } }
  -- the sum is there only where the line had stopped
  if hadStopped then do
    let late ← checked64 (t.nextRun + timeSlack)
    if now > late then t.drawCycle? now draw else some t
  else some t

def scheduleNext? (t : ScheduledTask S) (now : Int) (draw : Nat) : Option (ScheduledTask S) := do
  let cycle ← checked64 (t.cycle + 1)
  let at_ ← slot? t.startTime t.interval cycle
  if at_ < now then
    let cycle ← firstCycleAfter? now t.startTime t.interval
    t.setCycle? cycle draw
  else t.setCycle? cycle draw

end ScheduledTask

end Starla.Impl.Scheduler
