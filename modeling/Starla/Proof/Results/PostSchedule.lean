import Starla.Framework.Slots
import Starla.Impl.Results.PostSchedule

/-!
# The two slot schedulers

* `newAt_eq`, `slotsNew_eq` : the first run of a measurement and of a post, where
  no arithmetic overflows.
* `first_runs` : they are the same, unless the start is ahead by less than an
  interval: there C's division has the post wait an interval longer.
-/

namespace Starla.Proof.Results

open Starla.Framework Starla.Impl.Results
open Starla.Impl.Scheduler (ScheduledTask MeasurementJob firstCycleAfter uniformOffset)

variable {interval : Nat} {start now : Int}

/-- The times are of 64 bits, and so is the slot the division leads to, which is
the largest of the sums and products. -/
structure NoOverflow (interval : Nat) (start now : Int) : Prop where
  interval64 : interval < 2 ^ 63
  start64 : start < 2 ^ 63
  now64 : now < 2 ^ 63
  slot64 : start + ((now - start).tdiv interval + 1) * interval < 2 ^ 63

/-- Truncation, where the start is ahead: the division's distance from it. -/
theorem tdiv_of_lt (h : now < start) :
    (now - start).tdiv interval = -((start - now) / interval) := by
  rw [show now - start = -(start - now) by omega, Int.neg_tdiv, Int.tdiv_eq_ediv_of_nonneg (by omega)]

theorem tdiv_of_le (h : start ≤ now) : (now - start).tdiv interval = (now - start) / interval :=
  Int.tdiv_eq_ediv_of_nonneg (by omega)

theorem ediv_bounds (hi : 1 ≤ interval) {d : Int} (h0 : 0 ≤ d) :
    0 ≤ d / interval ∧ d / interval ≤ d ∧ d / interval * interval ≤ d ∧ d < d / interval * interval + interval := by
  have hpos : (0 : Int) < interval := by omega
  have hlt := Int.lt_ediv_add_one_mul_self d hpos
  rw [Int.add_mul, Int.one_mul] at hlt
  exact ⟨Int.ediv_nonneg h0 (by omega), Int.ediv_le_self _ h0, Int.ediv_mul_le d (by omega), hlt⟩

/-- The first run of a measurement is on its first slot after `now`. -/
theorem newAt_eq {S : Type} (hi : 1 ≤ interval) (hs : 0 ≤ start) (hn : 0 ≤ now)
    (h : NoOverflow interval start now) (id : UInt64) (endTime : Int) (job : MeasurementJob S) (draw : Nat) :
    (ScheduledTask.newAt now id interval start endTime 0 job draw).nextRun =
      slotAt start interval (firstAfter start interval now) := by
  have hwi : wrap64 interval = interval := wrap64_of_mem (by omega) (by have := h.interval64; omega)
  show wrap64 (Starla.Impl.Scheduler.slot start interval (firstCycleAfter now start interval) + 0) = _
  unfold firstCycleAfter firstAfter
  by_cases hlt : now < start
  · have hst := h.start64
    rw [if_pos (.inr hlt), if_pos hlt]
    simp only [Starla.Impl.Scheduler.slot, slotAt, Int.zero_mul, Int.add_zero]
    rw [show sat64 0 = 0 from rfl, Int.add_zero, sat64_of_mem (by omega) hst, wrap64_of_mem (by omega) hst]
  · have hst := h.start64
    have hnow := h.now64
    have hslot := h.slot64
    obtain ⟨hq0, hqle, hqmul, hqlt⟩ := ediv_bounds (d := now - start) hi (by omega)
    rw [tdiv_of_le (by omega), Int.add_mul, Int.one_mul] at hslot
    rw [if_neg (by omega), if_neg hlt, hwi, sat64_of_mem (x := now - start) (by omega) (by omega),
      tdiv_of_le (by omega)]
    have hcycle : (now - start) / interval + 1 < 2 ^ 63 := by
      have : (now - start) / interval + 1 ≤ (now - start) / interval * interval + interval := by nlinarith
      omega
    rw [wrap64_of_mem (by omega) hcycle]
    simp only [Starla.Impl.Scheduler.slot, slotAt, hwi, Int.add_mul, Int.one_mul, Int.add_zero]
    rw [sat64_of_mem (x := _ + (interval : Int)) (by omega) (by omega), sat64_of_mem (by omega) (by omega),
      wrap64_of_mem (by omega) (by omega)]

/-- The first run of a post whose end time is never reached. -/
theorem slotsNew_eq (hi : 1 ≤ interval) (hs : 0 ≤ start) (hn : 0 ≤ now) (h : NoOverflow interval start now)
    (draw : Nat) :
    (Slots.new ⟨interval, start, 2 ^ 63 - 1, 0⟩ now draw).nextRun now =
      some (max (start + ((now - start).tdiv interval + 1) * interval) start) := by
  have hst := h.start64
  have hnow := h.now64
  have hslot := h.slot64
  have hi64 := h.interval64
  have hwi : wrap64 interval = interval := wrap64_of_mem (by omega) (by omega)
  have hq : -2 ^ 63 < (now - start).tdiv interval ∧ (now - start).tdiv interval < 2 ^ 63 - 1 ∧
      -2 ^ 63 ≤ ((now - start).tdiv interval + 1) * interval ∧
      -2 ^ 63 ≤ start + ((now - start).tdiv interval + 1) * interval := by
    by_cases hlt : now < start
    · obtain ⟨hq0, hqle, hqmul, hqlt⟩ := ediv_bounds (d := start - now) hi (by omega)
      rw [tdiv_of_lt hlt, Int.add_mul, Int.one_mul, Int.neg_mul]
      omega
    · obtain ⟨hq0, hqle, hqmul, hqlt⟩ := ediv_bounds (d := now - start) hi (by omega)
      rw [tdiv_of_le (by omega), Int.add_mul, Int.one_mul] at hslot ⊢
      have : (now - start) / interval + 1 ≤ (now - start) / interval * interval + interval := by nlinarith
      omega
  obtain ⟨hq1, hq2, hq3, hq4⟩ := hq
  have hcycle : firstCycle now ⟨interval, start, 2 ^ 63 - 1, 0⟩ = (now - start).tdiv interval + 1 := by
    show (if interval = 0 then 0 else wrap64 ((wrap64 (now - start)).tdiv (wrap64 interval) + 1)) = _
    rw [if_neg (by omega), hwi, wrap64_of_mem (x := now - start) (by omega) (by omega),
      wrap64_of_mem (by omega) (by omega)]
  have hat : wrap64 ((Slots.new ⟨interval, start, 2 ^ 63 - 1, 0⟩ now draw).slot
      (Slots.new ⟨interval, start, 2 ^ 63 - 1, 0⟩ now draw).cycle + 0) =
      start + ((now - start).tdiv interval + 1) * interval := by
    simp only [Slots.slot, Slots.new, hcycle, hwi]
    rw [wrap64_of_mem (x := _ * (interval : Int)) hq3 (by omega), wrap64_of_mem (x := start + _) hq4 hslot,
      Int.add_zero, wrap64_of_mem hq4 hslot]
  have hnext : (Slots.new ⟨interval, start, 2 ^ 63 - 1, 0⟩ now draw).nextRun now =
      let at_ := max (wrap64 ((Slots.new ⟨interval, start, 2 ^ 63 - 1, 0⟩ now draw).slot
        (Slots.new ⟨interval, start, 2 ^ 63 - 1, 0⟩ now draw).cycle + 0)) start
      if now ≤ 2 ^ 63 - 1 ∧ at_ ≤ 2 ^ 63 - 1 then some at_ else none := rfl
  rw [hnext, hat]
  dsimp only
  rw [if_pos (by omega)]

theorem first_runs {S : Type} (hi : 1 ≤ interval) (hs : 0 ≤ start) (hn : 0 ≤ now)
    (h : NoOverflow interval start now) (id : UInt64) (endTime : Int) (job : MeasurementJob S) (draw draw' : Nat) :
    let first := (ScheduledTask.newAt now id interval start endTime 0 job draw).nextRun
    IsLeast {x | IsSlot start interval x ∧ now < x} first ∧ (now < start → first = start) ∧
    (Slots.new ⟨interval, start, 2 ^ 63 - 1, 0⟩ now draw').nextRun now =
      some (if start - interval < now ∧ now < start then start + interval else first) := by
  intro first
  have hfirst : first = slotAt start interval (firstAfter start interval now) := newAt_eq hi hs hn h id endTime job draw
  rw [hfirst, slotsNew_eq hi hs hn h draw']
  refine ⟨isLeast_firstAfter (by omega), fun hlt => by simp [firstAfter, slotAt, hlt], ?_⟩
  congr 1
  unfold firstAfter slotAt
  by_cases hlt : now < start
  · obtain ⟨hq0, hqle, hqmul, hqlt⟩ := ediv_bounds (d := start - now) hi (by omega)
    rw [tdiv_of_lt hlt, if_pos hlt]
    by_cases hnear : start - interval < now
    · -- less than an interval ahead: the division gives 0, and the cycle is 1
      have hq : (start - now) / interval = 0 := Int.ediv_eq_zero_of_lt (by omega) (by omega)
      rw [if_pos ⟨hnear, hlt⟩, hq]
      omega
    · have hq : 1 ≤ (start - now) / interval := by
        by_contra hq
        rw [show (start - now) / (interval : Int) = 0 by omega] at hqlt
        omega
      rw [if_neg (fun hc => hnear hc.1)]
      have : (-((start - now) / interval) + 1) * interval ≤ 0 := by nlinarith
      omega
  · obtain ⟨hq0, hqle, hqmul, hqlt⟩ := ediv_bounds (d := now - start) hi (by omega)
    rw [tdiv_of_le (by omega), if_neg hlt, if_neg (fun hc => hlt hc.2)]
    have : 0 ≤ ((now - start) / interval + 1) * interval := by nlinarith
    omega

theorem first_runs_at_slot :
    IsLeast {x | IsSlot 312 900 x ∧ 1000 < x} (ScheduledTask.newAt 1000 1 900 312 0 0 (⟨1, 900, 312, 0, 0, ()⟩ : MeasurementJob Unit) 0).nextRun ∧
    (Slots.new ⟨900, 312, 2 ^ 63 - 1, 0⟩ 1000 0).nextRun 1000 = some 1212 := by
  have hsum : NoOverflow 900 312 1000 := ⟨by decide, by decide, by decide, by decide⟩
  have h := first_runs (by decide) (by decide) (by decide) hsum 1 0 (⟨1, 900, 312, 0, 0, ()⟩ : MeasurementJob Unit) 0 0
  exact ⟨h.1, by rw [h.2.2]; decide⟩

/-- A second before the start, the post comes an interval after the measurement. -/
theorem first_runs_just_before_start :
    (ScheduledTask.newAt 999 1 60 1000 0 0 (⟨1, 60, 1000, 0, 0, ()⟩ : MeasurementJob Unit) 0).nextRun = 1000 ∧
    (Slots.new ⟨60, 1000, 2 ^ 63 - 1, 0⟩ 999 0).nextRun 999 = some 1060 := by
  decide

end Starla.Proof.Results
