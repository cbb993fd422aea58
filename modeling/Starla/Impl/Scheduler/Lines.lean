import Starla.Framework.Assoc
import Starla.Impl.Scheduler.Task

/-!
# The scheduler's lines

`Lines` of `starla-scheduler/src/lines.rs`: the recurring lines of every
crontab file and Starla's own, by key. The hash map is an association list;
nothing below depends on its order but that of the jobs `takeDue` returns.
Each line that draws in a call has a draw of its own: `draw` is indexed by the
place in the crontab, or by the key.
-/

namespace Starla.Impl.Scheduler

open Starla.Framework

variable {S : Type}

/-- One line of a crontab: its command text and its job. -/
structure CrontabLine (S : Type) where
  command : String
  job : MeasurementJob S
deriving DecidableEq, Repr

structure Crontab (S : Type) where
  file : String
  lines : List (CrontabLine S)
deriving DecidableEq, Repr

/-- Which line a task is: a crontab's, by its interval, start time and command
within its file, or Starla's own, by its measurement id. -/
inductive LineKey
  | crontab (file : String) (interval : Nat) (startTime : Int) (command : String)
  | own (msmId : UInt64)
deriving DecidableEq, Repr

def LineKey.inFile (name : String) : LineKey → Bool
  | .crontab file .. => file == name
  | .own _ => false

/-- What a crontab did to its file's lines. -/
structure Synchronized where
  kept : Nat := 0
  added : Nat := 0
  dropped : Nat := 0
deriving DecidableEq, Repr

structure Lines (S : Type) where
  lines : Assoc LineKey (ScheduledTask S)

/-- A line just loaded: its first slot after `now`. -/
def start (job : MeasurementJob S) (now : Int) (draw : Nat) : ScheduledTask S :=
  ScheduledTask.newAt now job.msmId job.interval job.startTime job.endTime job.spread job draw

/-- The key of a line in a file. -/
def CrontabLine.key (l : CrontabLine S) (file : String) : LineKey :=
  .crontab file l.job.interval l.job.startTime l.command

namespace Lines

def empty : Lines S := ⟨∅⟩

/-- A job scheduled on its own. -/
def schedule (self : Lines S) (job : MeasurementJob S) (now : Int) (draw : Nat) : Lines S :=
  ⟨self.lines.insert (.own job.msmId) (start job now draw)⟩

/-- The state of `synchronize`'s loop: the lines the file had and nothing has
claimed yet, the lines so far, and the counts. -/
structure Synchronizing (S : Type) where
  old : Assoc LineKey (ScheduledTask S)
  lines : Assoc LineKey (ScheduledTask S)
  counts : Synchronized

/-- The loop's body: one line of the crontab. -/
def insertLine (file : String) (now : Int) (s : Synchronizing S) (l : CrontabLine S) (draw : Nat) :
    Synchronizing S :=
  let key := l.key file
  let had := s.old.lookup key
  let kept := had.isSome
  let s := { s with old := s.old.erase key }
  match had <|> s.lines.lookup key with
  | some task =>
    { s with
      lines := s.lines.insert key (task.takeEndTime l.job.endTime now draw)
      counts := { s.counts with kept := s.counts.kept + if kept then 1 else 0 } }
  | none =>
    { s with
      lines := s.lines.insert key (start l.job now draw)
      counts := { s.counts with added := s.counts.added + 1 } }

/-- The file's lines are now the crontab's. -/
def synchronize (self : Lines S) (crontab : Crontab S) (now : Int) (draw : Nat → Nat) :
    Synchronized × Lines S :=
  let old := self.lines.filterKeys (·.inFile crontab.file)
  let others := self.lines.filterKeys (!·.inFile crontab.file)
  let s := crontab.lines.zipIdx.foldl (fun s (l, i) => insertLine crontab.file now s l (draw i))
    ⟨old, others, {}⟩
  ({ s.counts with dropped := s.old.entries.length }, ⟨s.lines⟩)

/-- `STOP`: every line with that measurement id goes. -/
def stop (self : Lines S) (msmId : UInt64) : Lines S :=
  ⟨self.lines.retain fun _ task => if task.job.msmId ≠ msmId then some task else none⟩

/-- What `takeDue` leaves of a task. -/
def afterDue (now : Int) (draw : LineKey → Nat) (key : LineKey) (task : ScheduledTask S) :
    Option (ScheduledTask S) :=
  let own := key matches .own _
  if own && task.isExpired now && !task.isDue now then none
  else if !task.isDue now then some task
  else
    let task := task.scheduleNext now (draw key)
    if own && task.isExpired now then none else some task

/-- The jobs due at `now`, each line's next cycle drawn. -/
def takeDue (self : Lines S) (now : Int) (draw : LineKey → Nat) : List (MeasurementJob S) × Lines S :=
  ((self.lines.entries.filter fun e => e.2.isDue now).map fun e => e.2.job,
    ⟨self.lines.retain (afterDue now draw)⟩)

end Lines

end Starla.Impl.Scheduler
