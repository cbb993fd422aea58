import Starla.Framework.Slots
import Starla.Impl.Scheduler.Task

/-!
# A task's pending run

For a timing a CRONLINE may carry (`Timing`) and a clock far enough from the
end of 64 bits (`Timing.Fits`), the arithmetic of a task is exact, and a task
waits for a run of a cycle `k ≥ 0` at its slot moved by an offset (`Pending`).

* `newAt_pending`, `scheduleNext_pending`, `takeEndTime_pending` : the three
  ways a task gets its cycle, and which cycle that is.
* `cycle_le_firstAfter` : a line drawn again does not go back.
-/

namespace Starla.Proof.Scheduler

open Starla.Framework Starla.Impl.Scheduler

/-- The timing fields of a crontab's line: a start that is not negative, a
positive interval, and room for the slots that follow the start, so that no
arithmetic overflows. -/
structure Timing where
  startTime : Int
  interval : Nat
  spread : Nat
  start_nonneg : 0 ≤ startTime
  interval_pos : 1 ≤ interval
  room : startTime + 2 * interval + spread + 22 < 2 ^ 63

namespace Timing

variable (τ : Timing)

/-- The most an offset moves a run to the front. -/
def half : Nat := τ.spread / 2

/-- The slot of a cycle. -/
abbrev slotOf (k : Int) : Int := slotAt τ.startTime τ.interval k

/-- The first cycle after `now`. -/
abbrev firstOf (now : Int) : Int := firstAfter τ.startTime τ.interval now

/-- No slot that a clock reading leads to is too near the end of 64 bits. -/
def Fits (now : Int) : Prop := max τ.startTime (now + τ.half + τ.interval) + τ.half + 11 < 2 ^ 63

instance (now : Int) : Decidable (τ.Fits now) := inferInstanceAs (Decidable (_ < _))

theorem interval_lt : (τ.interval : Int) < 2 ^ 63 := by
  have := τ.start_nonneg
  have := τ.room
  omega

theorem half_lt : τ.half < 2 ^ 62 := by
  have := τ.start_nonneg
  have := τ.room
  unfold half
  omega

theorem spread_le : τ.spread ≤ 2 * τ.half + 1 := by
  unfold half
  omega

end Timing

variable {S : Type} {τ : Timing} {now k : Int}

theorem nextRun_le_of_isDue {t : ScheduledTask S} (h : t.isDue now = true) : t.nextRun ≤ now := by
  unfold ScheduledTask.isDue at h
  rw [Bool.and_eq_true, decide_eq_true_eq] at h
  exact h.1

/-! ## The arithmetic -/

theorem wrap64_interval (τ : Timing) : wrap64 τ.interval = τ.interval :=
  wrap64_of_mem (by omega) τ.interval_lt

theorem slot_eq (h0 : 0 ≤ k) (h : τ.slotOf k < 2 ^ 63) : slot τ.startTime τ.interval k = τ.slotOf k := by
  have hs := τ.start_nonneg
  have hk : 0 ≤ k * (τ.interval : Int) := Int.mul_nonneg h0 (by omega)
  unfold Timing.slotOf slotAt at h ⊢
  rw [slot, wrap64_interval, sat64_of_mem (x := k * (τ.interval : Int)) (by omega) (by omega),
    sat64_of_mem (by omega) (by omega)]

theorem randomRange_le (draw : Nat) : randomRange τ.spread draw ≤ τ.spread :=
  Nat.lt_succ_iff.mp (Nat.mod_lt _ (Nat.succ_pos _))

theorem uniformOffset_eq (draw : Nat) :
    uniformOffset τ.spread draw = randomRange τ.spread draw - τ.half := by
  have := τ.start_nonneg
  have := τ.room
  have hr : randomRange τ.spread draw ≤ τ.spread := randomRange_le draw
  unfold uniformOffset Timing.half
  split
  · omega
  · rw [wrap64_of_mem (x := (randomRange τ.spread draw : Int)) (by omega) (by omega),
      wrap64_of_mem (x := ((τ.spread / 2 : Nat) : Int)) (by omega) (by omega),
      wrap64_of_mem (by omega) (by omega)]

theorem firstCycleAfter_eq (h : τ.Fits now) :
    firstCycleAfter now τ.startTime τ.interval = τ.firstOf now := by
  have hp := τ.interval_pos
  have hs := τ.start_nonneg
  unfold firstCycleAfter Timing.firstOf firstAfter
  rw [if_congr (or_iff_right (by omega : ¬ τ.interval = 0)) rfl rfl]
  split
  · rfl
  · unfold Timing.Fits at h
    have hd : (now - τ.startTime) / (τ.interval : Int) ≤ now - τ.startTime :=
      Int.ediv_le_self _ (by omega)
    have hd0 : 0 ≤ (now - τ.startTime) / (τ.interval : Int) := Int.ediv_nonneg (by omega) (by omega)
    rw [sat64_of_mem (by omega) (by omega), wrap64_interval, Int.tdiv_eq_ediv_of_nonneg (by omega),
      wrap64_of_mem (by omega) (by omega)]

/-! ## A pending run -/

/-- A task that waits for the run of its cycle. -/
structure Pending (τ : Timing) (t : ScheduledTask S) : Prop where
  startTime : t.startTime = τ.startTime
  interval : t.interval = τ.interval
  spread : t.spread = τ.spread
  cycle_nonneg : 0 ≤ t.cycle
  nextRun_ge : τ.slotOf t.cycle - τ.half ≤ t.nextRun
  nextRun_le : t.nextRun ≤ τ.slotOf t.cycle + τ.half + 1
  fits : τ.slotOf t.cycle + τ.half + 11 < 2 ^ 63

/-- The run of a cycle, at its slot moved by the draw. -/
theorem nextRun_eq (hc : 0 ≤ k) (hfits : τ.slotOf k + τ.half + 11 < 2 ^ 63) (draw : Nat) :
    wrap64 (slot τ.startTime τ.interval k + uniformOffset τ.spread draw) =
      τ.slotOf k + (randomRange τ.spread draw - τ.half) := by
  have h0 : τ.startTime ≤ τ.slotOf k := by
    have : 0 ≤ k * (τ.interval : Int) := Int.mul_nonneg hc (by omega)
    unfold Timing.slotOf slotAt
    omega
  have hs := τ.start_nonneg
  have hh := τ.half_lt
  have hr : randomRange τ.spread draw ≤ τ.spread := randomRange_le draw
  have hle := τ.spread_le
  rw [slot_eq hc (by omega), uniformOffset_eq, wrap64_of_mem (by omega) (by omega)]

/-- A cycle and a fresh offset. -/
theorem pending_of_slot {t : ScheduledTask S} (hst : t.startTime = τ.startTime)
    (hi : t.interval = τ.interval) (hsp : t.spread = τ.spread) (hc : 0 ≤ k)
    (hfits : τ.slotOf k + τ.half + 11 < 2 ^ 63) (draw : Nat) :
    Pending τ { t with
      cycle := k
      nextRun := wrap64 (slot t.startTime t.interval k + uniformOffset t.spread draw) } := by
  have hr : randomRange τ.spread draw ≤ τ.spread := randomRange_le draw
  have hle := τ.spread_le
  have hnext := nextRun_eq hc hfits draw
  rw [← hst, ← hi, ← hsp] at hnext
  refine ⟨hst, hi, hsp, hc, ?_, ?_, hfits⟩
  · change τ.slotOf k - _ ≤ wrap64 _
    rw [hnext, hsp]
    omega
  · change wrap64 _ ≤ τ.slotOf k + _ + 1
    rw [hnext, hsp]
    omega

theorem firstOf_fits (h : τ.Fits now) : τ.slotOf (τ.firstOf now) + τ.half + 11 < 2 ^ 63 := by
  have : τ.slotOf (τ.firstOf now) ≤ max τ.startTime (now + τ.interval) :=
    slotAt_firstAfter_le τ.interval_pos
  unfold Timing.Fits at h
  omega

theorem drawCycle_pending {t : ScheduledTask S} (hst : t.startTime = τ.startTime)
    (hi : t.interval = τ.interval) (hsp : t.spread = τ.spread) (h : τ.Fits now) (draw : Nat) :
    Pending τ (t.drawCycle now draw) ∧ (t.drawCycle now draw).cycle = τ.firstOf now := by
  have hc : firstCycleAfter now t.startTime t.interval = τ.firstOf now := by
    rw [hst, hi, firstCycleAfter_eq h]
  refine ⟨?_, hc⟩
  rw [ScheduledTask.drawCycle, hc]
  exact pending_of_slot hst hi hsp (firstAfter_nonneg τ.interval_pos) (firstOf_fits h) draw

/-- After a run the task waits for a later cycle, whose slot has not passed. -/
theorem scheduleNext_pending {t : ScheduledTask S} (hp : Pending τ t) (hdue : t.nextRun ≤ now)
    (h : τ.Fits now) (draw : Nat) :
    Pending τ (t.scheduleNext now draw) ∧ t.cycle < (t.scheduleNext now draw).cycle ∧
      now ≤ τ.slotOf (t.scheduleNext now draw).cycle := by
  have hpos := τ.interval_pos
  have hslot : τ.slotOf t.cycle ≤ now + τ.half := by have := hp.nextRun_ge; omega
  have hsucc : τ.slotOf (t.cycle + 1) = τ.slotOf t.cycle + τ.interval := slotAt_succ ..
  have hfits : τ.slotOf (t.cycle + 1) + τ.half + 11 < 2 ^ 63 := by unfold Timing.Fits at h; omega
  have hwrap : wrap64 (t.cycle + 1) = t.cycle + 1 := by
    have hs := τ.start_nonneg
    have hc := hp.cycle_nonneg
    have : (t.cycle + 1) * 1 ≤ (t.cycle + 1) * τ.interval :=
      Int.mul_le_mul_of_nonneg_left (by omega) (by omega)
    unfold Timing.slotOf slotAt at hfits
    exact wrap64_of_mem (by omega) (by omega)
  have hnext : slot t.startTime t.interval (t.cycle + 1) = τ.slotOf (t.cycle + 1) := by
    rw [hp.startTime, hp.interval, slot_eq (by have := hp.cycle_nonneg; omega) (by omega)]
  unfold ScheduledTask.scheduleNext
  simp only [hwrap, hnext]
  split
  · -- the next slot has passed: the first one after now
    rename_i hlt
    have hc : firstCycleAfter now t.startTime t.interval = τ.firstOf now := by
      rw [hp.startTime, hp.interval, firstCycleAfter_eq h]
    have hafter : now < τ.slotOf (τ.firstOf now) := lt_slotAt_firstAfter hpos
    rw [hc]
    refine ⟨pending_of_slot hp.startTime hp.interval hp.spread (firstAfter_nonneg hpos)
      (firstOf_fits h) draw, ?_, Int.le_of_lt hafter⟩
    have : t.cycle + 1 < τ.firstOf now := lt_of_slotAt_lt (hlt.trans hafter)
    exact (Int.lt_succ _).trans this
  · rename_i hge
    refine ⟨pending_of_slot hp.startTime hp.interval hp.spread ?_ hfits draw, Int.lt_succ _,
      Int.not_lt.mp hge⟩
    have := hp.cycle_nonneg
    omega

/-- A line that is repeated keeps its run, or draws the first cycle after now:
then its run is more than the slack past. -/
theorem takeEndTime_pending {t : ScheduledTask S} (hp : Pending τ t) (endTime : Int) (h : τ.Fits now)
    (draw : Nat) :
    Pending τ (t.takeEndTime endTime now draw) ∧
      ((t.takeEndTime endTime now draw).cycle = t.cycle ∨
        (t.takeEndTime endTime now draw).cycle = τ.firstOf now ∧ t.nextRun + 10 < now) := by
  have hslack : wrap64 (t.nextRun + timeSlack) = t.nextRun + 10 := by
    have hs := τ.start_nonneg
    have hh := τ.half_lt
    have h1 := hp.nextRun_ge
    have h2 := hp.nextRun_le
    have h3 := hp.fits
    have h0 : 0 ≤ t.cycle * (τ.interval : Int) := Int.mul_nonneg hp.cycle_nonneg (by omega)
    unfold Timing.slotOf slotAt at h1 h2 h3
    unfold timeSlack
    exact wrap64_of_mem (by omega) (by omega)
  unfold ScheduledTask.takeEndTime
  simp only [hslack]
  split
  · rename_i hdrawn
    rw [Bool.and_eq_true, decide_eq_true_eq] at hdrawn
    obtain ⟨hpend, hcycle⟩ := drawCycle_pending (t := { t with
      endTime, job := { t.job with endTime } }) hp.startTime hp.interval hp.spread h draw
    exact ⟨hpend, Or.inr ⟨hcycle, hdrawn.2⟩⟩
  · exact ⟨⟨hp.startTime, hp.interval, hp.spread, hp.cycle_nonneg, hp.nextRun_ge, hp.nextRun_le,
      hp.fits⟩, Or.inl rfl⟩

/-- While no offset is more than the slack beyond an interval, a line drawn
again does not go back to a cycle before the one it waits for. -/
theorem cycle_le_firstOf {t : ScheduledTask S} (hp : Pending τ t) (hspread : τ.half ≤ τ.interval + 11)
    (hlate : t.nextRun + 10 < now) : t.cycle ≤ τ.firstOf now := by
  have hpos := τ.interval_pos
  by_contra hlt
  have hge := hp.nextRun_ge
  have hafter : now < τ.slotOf (τ.firstOf now) := lt_slotAt_firstAfter hpos
  have hle : τ.slotOf (τ.firstOf now + 1) ≤ τ.slotOf t.cycle := slotAt_le_slotAt (by omega)
  have hsucc : τ.slotOf (τ.firstOf now + 1) = τ.slotOf (τ.firstOf now) + τ.interval := slotAt_succ ..
  omega

end Starla.Proof.Scheduler
