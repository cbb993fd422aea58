import Starla.Proof.Scheduler.Line

/-!
# The cycles a line runs

A line waits for a cycle later than all those it has run (`Inv`), as long as
half its spread is at most its interval and the slack beyond it
(`increases_iff`). With a larger spread a line that was stopped and revived
before its start can run its first cycle twice (`revived`).
-/

namespace Starla.Proof.Scheduler

open Starla.Framework Starla.Impl.Scheduler

variable {S : Type}

/-- The cycles in a log, newest first, increase. -/
def Increases (runs : List LineRun) : Prop := runs.Pairwise fun r r' => r'.cycle < r.cycle

/-- A line just loaded waits for its first slot after now. -/
theorem start_pending {τ : Timing} {job : MeasurementJob S} {now : Int} (hst : job.startTime = τ.startTime)
    (hi : job.interval = τ.interval) (hsp : job.spread = τ.spread) (h : τ.Fits now) (draw : Nat) :
    Pending τ (start job now draw) ∧ (start job now draw).cycle = τ.firstOf now :=
  drawCycle_pending (t := ⟨job.msmId, job.interval, job.startTime, job.endTime, job.spread, job, 0, 0⟩)
    hst hi hsp h draw

/-! ## Events of the line -/

namespace LineState

/-- An event at a clock that fits; the job that loads the line has its timing. -/
def Ok (τ : Timing) (s : LineState S) (e : LineEvent S) : Prop :=
  τ.Fits e.now ∧ match e with
    | .load job _ _ => s.task = none ∧ job.startTime = τ.startTime ∧ job.interval = τ.interval ∧
        job.spread = τ.spread
    | _ => True

/-- The line waits for a cycle later than those it ran. -/
structure Inv (τ : Timing) (s : LineState S) : Prop where
  fresh : s.task = none → s.runs = []
  waits : ∀ t, s.task = some t → Pending τ t ∧ ∀ r ∈ s.runs, r.cycle < t.cycle
  increases : Increases s.runs

variable {τ : Timing} {s : LineState S} {e : LineEvent S}

theorem due_inv (hI : Inv τ s) {now : Int} {draw : Nat} (hfits : τ.Fits now) :
    Inv τ (s.step (.due now draw)) := by
  obtain ⟨task, runs, loadedAt, clock⟩ := s
  cases task with
  | none => exact ⟨hI.fresh, fun t h => (by cases h), hI.increases⟩
  | some t =>
    obtain ⟨hp, hlt⟩ := hI.waits t rfl
    cases hd : t.isDue now with
    | false =>
      have hs : step ⟨some t, runs, loadedAt, clock⟩ (.due now draw) =
          ⟨some t, runs, loadedAt, some now⟩ := by simp [step, takeDue, runOf, hd]
      rw [hs]
      exact ⟨fun h => (by cases h), hI.waits, hI.increases⟩
    | true =>
      have hs : step ⟨some t, runs, loadedAt, clock⟩ (.due now draw) =
          ⟨some (t.scheduleNext now draw), ⟨t.cycle, now⟩ :: runs, loadedAt, some now⟩ := by
        simp [step, takeDue, runOf, hd]
      obtain ⟨hp', hc, -⟩ := scheduleNext_pending hp (nextRun_le_of_isDue hd) hfits draw
      rw [hs]
      refine ⟨fun h => (by cases h), fun t' ht' => ?_, List.pairwise_cons.mpr ⟨hlt, hI.increases⟩⟩
      cases ht'
      refine ⟨hp', fun r hr => ?_⟩
      rcases List.mem_cons.mp hr with rfl | hr
      · exact hc
      · exact (hlt r hr).trans hc

theorem step_inv (hspread : τ.half ≤ τ.interval + 11) (hI : Inv τ s) (hok : Ok τ s e) : Inv τ (s.step e) := by
  cases e with
  | idle now => exact ⟨hI.fresh, hI.waits, hI.increases⟩
  | load job now draw =>
    obtain ⟨hfits, hnone, hst, hi, hsp⟩ := hok
    have hruns := hI.fresh hnone
    refine ⟨fun h => (by cases h), fun t ht => ?_, hI.increases⟩
    cases ht
    exact ⟨(start_pending hst hi hsp hfits draw).1, fun r hr => by
      rw [show (s.step (.load job now draw)).runs = [] from hruns] at hr
      exact absurd hr List.not_mem_nil⟩
  | again endTime now draw =>
    obtain ⟨task, runs, loadedAt, clock⟩ := s
    cases task with
    | none => exact ⟨hI.fresh, fun t h => (by cases h), hI.increases⟩
    | some t =>
      obtain ⟨hp, hlt⟩ := hI.waits t rfl
      refine ⟨fun h => (by cases h), fun t' ht' => ?_, hI.increases⟩
      cases ht'
      have hfits : τ.Fits now := hok.1
      obtain ⟨hp', hc | ⟨hc, hlate⟩⟩ := takeEndTime_pending hp endTime hfits draw
      · exact ⟨hp', fun r hr => (hlt r hr).trans_eq hc.symm⟩
      · exact ⟨hp', fun r hr =>
          ((hlt r hr).trans_le (cycle_le_firstOf hp hspread hlate)).trans_eq hc.symm⟩
  | due now draw => exact due_inv hI hok.1

end LineState

/-! ## Calls on the map -/

/-- Half the spread before the start: the earliest run of cycle 0. -/
def Watched.early (W : Watched) : Int := W.timing.startTime - W.timing.half

/-- More than the slack past the earliest run of cycle 1. -/
def Watched.late (W : Watched) : Int := W.timing.startTime - W.timing.half + W.timing.interval + 11

namespace LineWorld

/-- A call at a clock that fits; a crontab of the line's file repeats the line,
with any end times. -/
def Keeps (W : Watched) (w : LineWorld S) (op : LinesOp S) : Prop :=
  W.timing.Fits op.now ∧ Repeats W w op ∧ match op with
    | .synchronize crontab _ _ =>
      ∀ l ∈ crontab.lines, l.key crontab.file = W.key → l.job.spread = W.timing.spread
    | .takeDue .. => True

/-- An event is permitted, and its clock follows the last one by `R`. -/
def OkAfter (R : Int → Int → Prop) (τ : Timing) (s : LineState S) (e : LineEvent S) : Prop :=
  LineState.Ok τ s e ∧ ∀ c ∈ s.clock, R c e.now

/-- The events of a permitted call are permitted. -/
theorem events_ok {R : Int → Int → Prop} (hR : ∀ x, R x x) {W : Watched} {w : LineWorld S}
    {op : LinesOp S} (hkeep : Keeps W w op) (hclock : ∀ c ∈ w.clock, R c op.now) :
    AllSteps LineState.step (OkAfter R W.timing) (w.project W) (events W w op) := by
  obtain ⟨hfits, -, hspread⟩ := hkeep
  cases op with
  | takeDue now draw => exact ⟨⟨⟨hfits, trivial⟩, hclock⟩, trivial⟩
  | synchronize crontab now draw =>
    rw [events]
    split
    · have hagain : ∀ (is : List (CrontabLine S × Nat)) (s : LineState S), s.clock = some now →
          AllSteps LineState.step (OkAfter R W.timing) s
            (is.map fun i => .again i.1.job.endTime now (draw i.2)) := by
        intro is
        induction is with
        | nil => exact fun s _ => trivial
        | cons i is ih =>
          refine fun s hs => ⟨⟨⟨hfits, trivial⟩, fun c hc => ?_⟩, ih _ rfl⟩
          rw [hs] at hc
          cases hc
          exact hR now
      cases ho : occurrences crontab W.key with
      | nil => exact trivial
      | cons first rest =>
        refine ⟨?_, ?_⟩
        · cases ht : w.task W with
          | some t => exact ⟨⟨hfits, trivial⟩, hclock⟩
          | none =>
            have hm : first ∈ occurrences crontab W.key := ho ▸ List.mem_cons_self
            have hkey : first.1.key crontab.file = W.key := by simpa using (List.mem_filter.mp hm).2
            have hsp := hspread first.1 (List.fst_mem_of_mem_zipIdx (List.mem_filter.mp hm).1) hkey
            simp only [CrontabLine.key, Watched.key, LineKey.crontab.injEq] at hkey
            exact ⟨⟨hfits, ht, hkey.2.2.1, hkey.2.1, hsp⟩, hclock⟩
        · cases w.task W <;> exact hagain rest _ rfl
    · exact ⟨⟨⟨hfits, trivial⟩, hclock⟩, trivial⟩

theorem increases_of_half_le {W : Watched} (hspread : W.timing.half ≤ W.timing.interval + 11)
    {lines : Lines S} (hnew : lines.lines.lookup W.key = none) {ops : List (LinesOp S)}
    (hops : AllSteps (step W) (Keeps W) (start lines) ops) :
    Increases (run (step W) (start lines) ops).runs := by
  have h0 : LineState.Inv W.timing ((start lines).project W) :=
    ⟨fun _ => rfl, fun t ht => absurd (hnew.symm.trans ht) (by simp), List.Pairwise.nil⟩
  have := always_project (fun s e hI hok => LineState.step_inv hspread hI hok.1)
    (fun w op h => h.2.1) (fun w op _ h => events_ok (R := fun _ _ => True) (fun _ => trivial) h
      fun _ _ => trivial) h0 hops
  exact this.last.increases

/-! ## A spread too large -/

/-- A crontab of one line, the watched one, read with the draw 0. -/
def single [Inhabited S] (W : Watched) (endTime now : Int) : LinesOp S :=
  .synchronize ⟨W.file, [⟨W.command, ⟨0, W.timing.interval, W.timing.startTime, endTime,
    W.timing.spread, default⟩⟩]⟩ now fun _ => 0

def dueAt (now : Int) : LinesOp S := .takeDue now fun _ => 0

/-- The line is loaded half its spread before its start and runs its cycle 0 at
once; it is then stopped, by an end time in the past, and revived when its next
run is more than the slack past, still before its start: it draws cycle 0
again. -/
def revived [Inhabited S] (W : Watched) : List (LinesOp S) :=
  [single W 0 W.early, dueAt W.early, single W (-2 ^ 63) W.early, single W 0 W.late, dueAt W.late]

theorem single_keeps [Inhabited S] {W : Watched} {w : LineWorld S} {endTime now : Int}
    (h : W.timing.Fits now) : Keeps W w (single W endTime now) := by
  refine ⟨h, fun _ => ?_, fun l hl _ => ?_⟩
  · simp [listed, CrontabLine.key, Watched.key]
  · rw [List.mem_singleton.mp hl]

theorem project_single [Inhabited S] (W : Watched) (w : LineWorld S) (endTime now : Int) :
    (w.step W (single W endTime now)).project W = (w.project W).step
      (if (w.task W).isSome then .again endTime now 0
        else .load ⟨0, W.timing.interval, W.timing.startTime, endTime, W.timing.spread, default⟩ now 0) := by
  have hrep : Repeats W w (single W endTime now) := fun _ => by
    simp [listed, CrontabLine.key, Watched.key]
  rw [project_step hrep]
  simp [single, events, occurrences, CrontabLine.key, Watched.key, repeats]

theorem project_dueAt (W : Watched) (w : LineWorld S) (now : Int) :
    (w.step W (dueAt now)).project W = (w.project W).step (.due now 0) :=
  project_step trivial

/-- A task of the line with this cycle, next run and end time. -/
structure Stands (τ : Timing) (t : ScheduledTask S) (cycle nextRun endTime : Int) : Prop where
  startTime : t.startTime = τ.startTime
  interval : t.interval = τ.interval
  spread : t.spread = τ.spread
  cycle : t.cycle = cycle
  nextRun : t.nextRun = nextRun
  endTime : t.endTime = endTime

section
variable {τ : Timing} {t : ScheduledTask S} {now k nextRun endTime : Int}

theorem room_half (τ : Timing) : τ.startTime + 2 * τ.interval + τ.half + τ.half + 22 < 2 ^ 63 := by
  have := τ.room
  unfold Timing.half
  omega

theorem nextRun_zero {k : Int} (hk : k = 0 ∨ k = 1) :
    wrap64 (slot τ.startTime τ.interval k + uniformOffset τ.spread 0) = τ.slotOf k - τ.half := by
  have hroom := room_half τ
  have hfits : τ.slotOf k + τ.half + 11 < 2 ^ 63 := by
    unfold Timing.slotOf slotAt
    rcases hk with rfl | rfl <;> omega
  have hr : randomRange τ.spread 0 = 0 := Nat.zero_mod _
  rw [nextRun_eq (by omega) hfits, hr]
  omega

theorem fits_of_lt (h : now < τ.startTime) : τ.Fits now := by
  have := room_half τ
  unfold Timing.Fits
  omega

theorem firstCycleAfter_of_lt (h : now < τ.startTime) :
    firstCycleAfter now τ.startTime τ.interval = 0 :=
  if_pos (Or.inr h)

theorem drawCycle_stands (hst : t.startTime = τ.startTime) (hi : t.interval = τ.interval)
    (hsp : t.spread = τ.spread) (h : now < τ.startTime) :
    Stands τ (t.drawCycle now 0) 0 (τ.startTime - τ.half) t.endTime := by
  have hc : firstCycleAfter now t.startTime t.interval = 0 := by rw [hst, hi, firstCycleAfter_of_lt h]
  refine ⟨hst, hi, hsp, hc, ?_, rfl⟩
  rw [ScheduledTask.drawCycle, hc, hst, hi, hsp]
  have := nextRun_zero (τ := τ) (Or.inl rfl)
  simp only [Timing.slotOf, slotAt, Int.zero_mul, Int.add_zero] at this
  exact this

theorem isDue_of_stands (h : Stands τ t k nextRun 0) (hle : nextRun ≤ now) : t.isDue now = true := by
  simp [ScheduledTask.isDue, h.nextRun, h.endTime, hle]

theorem scheduleNext_stands (h : Stands τ t 0 nextRun endTime) (hnow : now < τ.startTime) :
    Stands τ (t.scheduleNext now 0) 1 (τ.startTime + τ.interval - τ.half) endTime := by
  have hroom := room_half τ
  have hs := τ.start_nonneg
  have hslot : slot τ.startTime τ.interval 1 = τ.startTime + τ.interval := by
    rw [slot_eq (by omega) (by unfold Timing.slotOf slotAt; omega)]
    simp [slotAt]
  have hnext := nextRun_zero (τ := τ) (Or.inr rfl)
  rw [hslot, show τ.slotOf 1 = τ.startTime + τ.interval by simp [Timing.slotOf, slotAt]] at hnext
  have hone : wrap64 (0 + 1) = 1 := by decide
  unfold ScheduledTask.scheduleNext
  simp only [h.startTime, h.interval, h.spread, h.cycle, hone, hslot,
    if_neg (show ¬ τ.startTime + τ.interval < now by omega)]
  exact ⟨rfl, rfl, rfl, rfl, hnext, h.endTime⟩

/-- A line that had not stopped keeps its run. -/
theorem takeEndTime_stands (endTime now : Int) (h : Stands τ t k nextRun 0) :
    Stands τ (t.takeEndTime endTime now 0) k nextRun endTime := by
  unfold ScheduledTask.takeEndTime
  simp only [h.endTime, bne_self_eq_false, Bool.false_and, Bool.false_eq_true, if_false]
  exact ⟨h.startTime, h.interval, h.spread, h.cycle, h.nextRun, rfl⟩

/-- A line stopped by the least end time is drawn again. -/
theorem takeEndTime_revives (endTime : Int) (h : Stands τ t k nextRun (-2 ^ 63)) (hn : -2 ^ 63 < nextRun)
    (hlate : nextRun + 10 < now) (hnow : now < τ.startTime) :
    Stands τ (t.takeEndTime endTime now 0) 0 (τ.startTime - τ.half) endTime := by
  have hslack : wrap64 (nextRun + timeSlack) = nextRun + 10 := by
    have := room_half τ
    unfold timeSlack
    exact wrap64_of_mem (by omega) (by omega)
  unfold ScheduledTask.takeEndTime
  rw [if_pos]
  · exact drawCycle_stands h.startTime h.interval h.spread hnow
  · simp only [h.endTime, h.nextRun, hslack]
    simp only [Bool.and_eq_true, bne_iff_ne, decide_eq_true_eq]
    omega

end

section
variable {W : Watched} {w : LineWorld S} {t : ScheduledTask S} {k nextRun : Int} (endTime now : Int)

theorem single_load [Inhabited S] (h : w.task W = none) (hnow : now < W.timing.startTime) :
    (∃ t, (w.step W (single W endTime now)).task W = some t ∧
      Stands W.timing t 0 (W.timing.startTime - W.timing.half) endTime) ∧
    (w.step W (single W endTime now)).runs = w.runs := by
  have hp := project_single W w endTime now
  rw [h] at hp
  exact ⟨⟨_, congrArg LineState.task hp, drawCycle_stands rfl rfl rfl hnow⟩, congrArg LineState.runs hp⟩

theorem single_again [Inhabited S] (h : w.task W = some t) :
    (w.step W (single W endTime now)).task W = some (t.takeEndTime endTime now 0) ∧
    (w.step W (single W endTime now)).runs = w.runs := by
  have hp := project_single W w endTime now
  rw [h] at hp
  refine ⟨(congrArg LineState.task hp).trans ?_, congrArg LineState.runs hp⟩
  change (w.task W).map _ = _
  rw [h]
  rfl

theorem dueAt_runs (h : w.task W = some t) (hs : Stands W.timing t k nextRun 0) (hle : nextRun ≤ now) :
    (w.step W (dueAt now)).task W = some (t.scheduleNext now 0) ∧
    (w.step W (dueAt now)).runs = ⟨k, now⟩ :: w.runs := by
  have hd := isDue_of_stands hs hle
  have hp := project_dueAt W w now
  have ht : (w.project W).task = some t := h
  constructor
  · rw [show (w.step W (dueAt now)).task W = _ from congrArg LineState.task hp]
    simp [LineState.step, ht, LineState.takeDue, hd]
  · rw [show (w.step W (dueAt now)).runs = _ from congrArg LineState.runs hp]
    simp only [LineState.step, ht, Option.map_some, Option.getD_some, LineState.runOf, hd, if_true, hs.cycle]
    rfl

end

section
variable [Inhabited S] {W : Watched}

/-- The revived line runs its cycle 0 twice. -/
theorem revived_runs (hspread : W.timing.interval + 12 ≤ W.timing.half) {lines : Lines S}
    (hnew : lines.lines.lookup W.key = none) :
    (run (step W) (start lines) (revived W)).runs = [⟨0, W.late⟩, ⟨0, W.early⟩] := by
  have hs := W.timing.start_nonneg
  have hroom := room_half W.timing
  have hearly : W.early < W.timing.startTime := by unfold Watched.early; omega
  have hlate : W.late < W.timing.startTime := by unfold Watched.late; omega
  have hbefore : W.timing.startTime - W.timing.half ≤ W.late := by unfold Watched.late; omega
  have hslack : W.timing.startTime + W.timing.interval - W.timing.half + 10 < W.late := by
    unfold Watched.late; omega
  unfold revived
  simp only [run_cons, run_nil]
  obtain ⟨⟨t1, h1, s1⟩, r1⟩ := single_load (w := start lines) 0 W.early hnew hearly
  obtain ⟨h2, r2⟩ := dueAt_runs W.early h1 s1 (Int.le_refl _)
  have s2 := scheduleNext_stands s1 hearly
  obtain ⟨h3, r3⟩ := single_again (-2 ^ 63) W.early h2
  have s3 := takeEndTime_stands (-2 ^ 63) W.early s2
  obtain ⟨h4, r4⟩ := single_again 0 W.late h3
  have s4 := takeEndTime_revives 0 s3 (by omega) hslack hlate
  obtain ⟨-, r5⟩ := dueAt_runs W.late h4 s4 hbefore
  rw [r5, r4, r3, r2, r1]
  rfl

theorem revived_keeps (hspread : W.timing.interval + 12 ≤ W.timing.half) (lines : Lines S) :
    AllSteps (step W) (Keeps W) (start lines) (revived W) := by
  have hearly : W.timing.Fits W.early := fits_of_lt (by unfold Watched.early; omega)
  have hlate : W.timing.Fits W.late := fits_of_lt (by unfold Watched.late; omega)
  exact ⟨single_keeps hearly, ⟨hearly, trivial, trivial⟩, single_keeps hearly, single_keeps hlate,
    ⟨hlate, trivial, trivial⟩, trivial⟩

end

/-- A line each second, moved by up to thirteen seconds. -/
def wide : Watched := ⟨"crons/7", "evping -4 127.0.0.1", ⟨1000, 1, 26, by decide, by decide, by decide⟩⟩

end LineWorld

end Starla.Proof.Scheduler
