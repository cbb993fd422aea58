import Starla.Framework.Run
import Starla.Proof.Scheduler.Synchronize
import Starla.Proof.Scheduler.Task

/-!
# One line of the map

What happens to one line of a crontab file (`Watched`) while the map of lines
is synchronized, with its own file or another, and its due lines are taken:
the line is loaded, repeated, looked at when due, or left alone (`LineEvent`).
The log beside the line is its runs, when it was loaded and the last clock.

* `project_step` : a call on the map is a list of events of the line
  (`events`).
* `always_project` : what the events of the line keep holds along a run of calls.
-/

namespace Starla.Proof.Scheduler

open Starla.Framework Starla.Impl.Scheduler

variable {S : Type}

/-! ## The line by itself -/

/-- A run of the line: its cycle and the clock it was taken at. -/
structure LineRun where
  cycle : Int
  time : Int
deriving DecidableEq, Repr

/-- The line and its log, newest run first. -/
structure LineState (S : Type) where
  task : Option (ScheduledTask S)
  runs : List LineRun
  loadedAt : Option Int
  clock : Option Int

inductive LineEvent (S : Type)
  | idle (now : Int)
  | load (job : MeasurementJob S) (now : Int) (draw : Nat)
  | again (endTime now : Int) (draw : Nat)
  | due (now : Int) (draw : Nat)

def LineEvent.now : LineEvent S → Int
  | .idle now | .load _ now _ | .again _ now _ | .due now _ => now

namespace LineState

/-- A line not loaded yet. -/
def start : LineState S := ⟨none, [], none, none⟩

/-- The run `takeDue` makes of a task. -/
def runOf (now : Int) (t : ScheduledTask S) : List LineRun :=
  if t.isDue now then [⟨t.cycle, now⟩] else []

/-- What `takeDue` leaves of a task. -/
def takeDue (now : Int) (draw : Nat) (t : ScheduledTask S) : ScheduledTask S :=
  if t.isDue now then t.scheduleNext now draw else t

def step (s : LineState S) : LineEvent S → LineState S
  | .idle now => { s with clock := some now }
  | .load job now draw =>
    { s with task := some (Impl.Scheduler.start job now draw), loadedAt := some now, clock := some now }
  | .again endTime now draw =>
    { s with task := s.task.map (·.takeEndTime endTime now draw), clock := some now }
  | .due now draw =>
    { s with
      task := s.task.map (takeDue now draw)
      runs := (s.task.map (runOf now)).getD [] ++ s.runs
      clock := some now }

end LineState

/-! ## The line in the map -/

inductive LinesOp (S : Type)
  | synchronize (crontab : Crontab S) (now : Int) (draw : Nat → Nat)
  | takeDue (now : Int) (draw : LineKey → Nat)

def LinesOp.now : LinesOp S → Int
  | .synchronize _ now _ => now
  | .takeDue now _ => now

/-- The line that is watched: its file, command and timing. -/
structure Watched where
  file : String
  command : String
  timing : Timing

def Watched.key (W : Watched) : LineKey :=
  .crontab W.file W.timing.interval W.timing.startTime W.command

/-- The map of lines, and the log of the watched one. -/
structure LineWorld (S : Type) where
  lines : Lines S
  runs : List LineRun
  loadedAt : Option Int
  clock : Option Int

namespace LineWorld

variable (W : Watched)

/-- A map that does not have the line yet. -/
def start (lines : Lines S) : LineWorld S := ⟨lines, [], none, none⟩

def task (w : LineWorld S) : Option (ScheduledTask S) := w.lines.lines.lookup W.key

/-- The calls. The line is loaded when the map first has it. -/
def step (w : LineWorld S) : LinesOp S → LineWorld S
  | .synchronize crontab now draw =>
    let lines := (w.lines.synchronize crontab now draw).2
    { w with
      lines
      loadedAt := if w.task W = none ∧ lines.lines.lookup W.key ≠ none then some now else w.loadedAt
      clock := some now }
  | .takeDue now draw =>
    { w with
      lines := (w.lines.takeDue now draw).2
      runs := ((w.task W).map (LineState.runOf now)).getD [] ++ w.runs
      clock := some now }

/-- The line and its log. -/
def project (w : LineWorld S) : LineState S := ⟨w.task W, w.runs, w.loadedAt, w.clock⟩

/-- The occurrences of a line in its crontab, as events: the first loads it if
the map does not have it. -/
def repeats (now : Int) (draw : Nat → Nat) (had : Bool) :
    List (CrontabLine S × Nat) → List (LineEvent S)
  | [] => []
  | i :: is =>
    (if had then .again i.1.job.endTime now (draw i.2) else .load i.1.job now (draw i.2)) ::
      is.map fun i => .again i.1.job.endTime now (draw i.2)

/-- What a call is to the line. -/
def events (w : LineWorld S) : LinesOp S → List (LineEvent S)
  | .synchronize crontab now draw =>
    if crontab.file = W.file then repeats now draw (w.task W).isSome (occurrences crontab W.key)
    else [.idle now]
  | .takeDue now draw => [.due now (draw W.key)]

/-- A crontab of the line's file repeats the line. -/
def Repeats (_ : LineWorld S) : LinesOp S → Prop
  | .synchronize crontab _ _ => crontab.file = W.file → W.key ∈ listed crontab
  | .takeDue .. => True

end LineWorld

/-- The end times of a line's occurrences, taken in turn. -/
theorem run_again (now : Int) (draw : Nat → Nat) (s : LineState S) (is : List (CrontabLine S × Nat))
    (hc : s.clock = some now) :
    run LineState.step s (is.map fun i => .again i.1.job.endTime now (draw i.2)) =
      { s with task := s.task.map fun t =>
        is.foldl (fun t i => t.takeEndTime i.1.job.endTime now (draw i.2)) t } := by
  induction is generalizing s with
  | nil => cases h : s.task <;> simp [← h]
  | cons i is ih =>
    rw [List.map_cons, run_cons, ih _ rfl]
    simp only [LineState.step, Option.map_map, List.foldl_cons, ← hc]
    rfl

namespace LineWorld

variable {W : Watched} {w : LineWorld S}

/-- A crontab of the line's file that lists it. -/
theorem project_own {crontab : Crontab S} {now : Int} {draw : Nat → Nat}
    (hk : W.key ∈ listed crontab) : (w.step W (.synchronize crontab now draw)).project W =
      run LineState.step (w.project W)
        (repeats now draw (w.task W).isSome (occurrences crontab W.key)) := by
  obtain ⟨first, rest, ho⟩ := List.exists_cons_of_ne_nil (mem_listed_iff.mp hk)
  cases ht : w.task W with
  | none =>
    have hl := synchronize_starts w.lines crontab now draw ht ho
    rw [ho, repeats, run_cons, run_again _ _ _ _ rfl]
    simp only [project, step, task, LineState.step, hl, Option.isSome_none, Bool.false_eq_true,
      if_false]
    rw [if_pos ⟨ht, by simp⟩]
    rfl
  | some t =>
    have hl := synchronize_keeps w.lines crontab now draw hk ht
    rw [ho] at hl ⊢
    rw [repeats, run_cons, Option.isSome_some, if_pos rfl, run_again _ _ _ _ rfl]
    simp only [project, step, task, LineState.step, hl]
    change LineState.mk _ _ _ _ = LineState.mk (((w.task W).map _).map _) _ _ _
    rw [if_neg fun h => Option.some_ne_none t (ht.symm.trans h.1), ht]
    rfl

/-- A crontab of another file. -/
theorem project_other {crontab : Crontab S} {now : Int} {draw : Nat → Nat} (hf : crontab.file ≠ W.file) :
    (w.step W (.synchronize crontab now draw)).project W =
      run LineState.step (w.project W) [.idle now] := by
  have hn : (w.lines.synchronize crontab now draw).2.lines.lookup W.key = w.task W :=
    synchronize_others w.lines crontab now draw
      (by simpa [Watched.key, LineKey.inFile] using Ne.symm hf)
  simp only [project, step, task, hn]
  rw [if_neg fun h => h.2 h.1]
  rfl

/-- A call on the map is its events to the line. -/
theorem project_step {op : LinesOp S} (hrep : Repeats W w op) :
    (w.step W op).project W = run LineState.step (w.project W) (events W w op) := by
  cases op with
  | synchronize crontab now draw =>
    rw [events]
    split
    · exact project_own (hrep ‹_›)
    · exact project_other ‹_›
  | takeDue now draw =>
    have hl : (w.lines.takeDue now draw).2.lines.lookup W.key =
        (w.task W).map (LineState.takeDue now (draw W.key)) := by
      change (w.lines.lines.retain _).lookup _ = _
      rw [Assoc.lookup_retain]
      change (w.task W).bind _ = _
      cases w.task W with
      | none => rfl
      | some t =>
        cases hd : t.isDue now <;> simp [Lines.afterDue, Watched.key, LineState.takeDue, hd]
    simp only [project, step, task, hl]
    rfl

/-- What every event of the line keeps, in a run of calls whose events are
permitted, holds along the run. -/
theorem always_project {I : LineState S → Prop} {ok : LineState S → LineEvent S → Prop}
    (hstep : ∀ s e, I s → ok s e → I (s.step e)) {permitted : LineWorld S → LinesOp S → Prop}
    (hrep : ∀ w op, permitted w op → Repeats W w op)
    (hok : ∀ w op, I (w.project W) → permitted w op → AllSteps LineState.step ok (w.project W) (events W w op))
    {ops : List (LinesOp S)} (h0 : I (w.project W)) (hops : AllSteps (step W) permitted w ops) :
    Always (step W) (fun w => I (w.project W)) w ops := by
  refine always_of_inv (fun w op hI hp => ?_) h0 hops
  rw [project_step (hrep w op hp)]
  exact (always_of_inv hstep hI (hok w op hI hp)).last

end LineWorld

end Starla.Proof.Scheduler
