import Mathlib.Algebra.Group.Nat.Defs
import Mathlib.Algebra.Order.Group.Int
import Mathlib.Data.Finset.Card
import Mathlib.Data.Int.ConditionallyCompleteOrder
import Mathlib.Data.Int.Interval
import Mathlib.Order.Interval.Finset.Basic
import Mathlib.Tactic.Linarith

/-!
# Periodic slots

The slots `start + k * period`, `k ≥ 0`, of a periodic task.

* `firstAfter` : the index of the first slot after an instant
  (`isLeast_firstAfter`).
* `length_le_card_slots` : distinct indices whose slots lie in a window are no
  more than the window has slots.
-/

namespace Starla.Framework

/-- The `k`th slot. -/
def slotAt (start : Int) (period : Nat) (k : Int) : Int := start + k * period

/-- The index of the first slot after `now`. -/
def firstAfter (start : Int) (period : Nat) (now : Int) : Int :=
  if now < start then 0 else (now - start) / period + 1

/-- A slot of the task. -/
def IsSlot (start : Int) (period : Nat) (x : Int) : Prop := ∃ k : Nat, x = slotAt start period k

open Classical in
/-- The slots in a window `(a, b]`. -/
noncomputable def slotsIn (start : Int) (period : Nat) (a b : Int) : Finset Int :=
  (Finset.Ioc a b).filter (IsSlot start period)

variable {start now a b j k : Int} {period : Nat}

theorem slotAt_succ (start : Int) (period : Nat) (k : Int) :
    slotAt start period (k + 1) = slotAt start period k + period := by
  simp only [slotAt, Int.add_mul]; omega

theorem slotAt_le_slotAt (h : j ≤ k) : slotAt start period j ≤ slotAt start period k :=
  Int.add_le_add_left (Int.mul_le_mul_of_nonneg_right h (Int.natCast_nonneg _)) _

theorem slotAt_lt_slotAt (hp : 0 < period) (h : j < k) : slotAt start period j < slotAt start period k :=
  Int.add_lt_add_left (Int.mul_lt_mul_of_pos_right h (by omega)) _

theorem lt_of_slotAt_lt (h : slotAt start period j < slotAt start period k) : j < k :=
  Int.not_le.mp fun hle => Int.not_lt.mpr (slotAt_le_slotAt hle) h

theorem firstAfter_nonneg (hp : 0 < period) : 0 ≤ firstAfter start period now := by
  unfold firstAfter
  split
  · exact Int.le_refl _
  · have : 0 ≤ (now - start) / (period : Int) := Int.ediv_nonneg (by omega) (by omega)
    omega

theorem lt_slotAt_firstAfter (hp : 0 < period) : now < slotAt start period (firstAfter start period now) := by
  unfold firstAfter slotAt
  split
  · omega
  · have := Int.lt_ediv_add_one_mul_self (now - start) (show (0 : Int) < period by omega)
    omega

/-- No slot after `now` comes before the first. -/
theorem firstAfter_le (hp : 0 < period) (hk : 0 ≤ k) (h : now < slotAt start period k) :
    firstAfter start period now ≤ k := by
  unfold firstAfter
  split
  · exact hk
  · have : (now - start) / period < k := Int.ediv_lt_of_lt_mul (by omega) (by unfold slotAt at h; omega)
    omega

theorem isLeast_firstAfter (hp : 0 < period) :
    IsLeast {x | IsSlot start period x ∧ now < x} (slotAt start period (firstAfter start period now)) := by
  have h0 : 0 ≤ firstAfter start period now := firstAfter_nonneg hp
  refine ⟨⟨⟨(firstAfter start period now).toNat, ?_⟩, lt_slotAt_firstAfter hp⟩, ?_⟩
  · rw [Int.toNat_of_nonneg h0]
  · rintro x ⟨⟨k, rfl⟩, hk⟩
    exact slotAt_le_slotAt (firstAfter_le hp (Int.natCast_nonneg k) hk)

/-- The first slot after `now` is at most a period away, or slot 0. -/
theorem slotAt_firstAfter_le (hp : 0 < period) :
    slotAt start period (firstAfter start period now) ≤ max start (now + period) := by
  unfold firstAfter slotAt
  split
  · omega
  · have := Int.ediv_mul_le (now - start) (show (period : Int) ≠ 0 by omega)
    rw [Int.add_mul]
    omega

theorem length_le_card_slots (hp : 0 < period) {ks : List Int} (hnd : ks.Nodup)
    (h : ∀ k ∈ ks, 0 ≤ k ∧ a < slotAt start period k ∧ slotAt start period k ≤ b) :
    ks.length ≤ (slotsIn start period a b).card := by
  have hinj : Set.InjOn (slotAt start period) (ks.toFinset : Set Int) := fun x _ y _ e => by
    rcases Int.lt_trichotomy x y with hlt | rfl | hlt
    · exact absurd e (Int.ne_of_lt (slotAt_lt_slotAt hp hlt))
    · rfl
    · exact absurd e.symm (Int.ne_of_lt (slotAt_lt_slotAt hp hlt))
  calc ks.length = ks.toFinset.card := (List.toFinset_card_of_nodup hnd).symm
    _ = (ks.toFinset.image (slotAt start period)).card := (Finset.card_image_of_injOn hinj).symm
    _ ≤ (slotsIn start period a b).card := by
      refine Finset.card_le_card fun x hx => ?_
      obtain ⟨k, hk, rfl⟩ := Finset.mem_image.mp hx
      obtain ⟨h0, ha, hb⟩ := h k (List.mem_toFinset.mp hk)
      simp only [slotsIn, Finset.mem_filter, Finset.mem_Ioc]
      exact ⟨⟨ha, hb⟩, k.toNat, by rw [Int.toNat_of_nonneg h0]⟩

end Starla.Framework
