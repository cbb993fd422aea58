import Mathlib.Data.Int.ModEq
import Starla.Framework.Int64
import Starla.Impl.Measurements.Ntp

/-!
# NTP delay and offset

A time is a number of units of `2^-32` seconds since 1900, in any era; its
timestamp is the number modulo `2^64`.

* `nowNtp_eq` : the clock's timestamp, and the time it is of.
* `toInt_difference` : a difference of less than `2^31` seconds is exact.
* `delayAndOffset_exact_iff` : the delay and twice the offset are exact where they
  are less than `2^31` seconds too, and only there.
-/

namespace Starla.Proof.Measurements.Ntp

open Starla.Framework Starla.Impl.Measurements.Ntp

def timestamp (t : Int) : UInt64 := UInt64.ofInt t

/-- The time `now` nanoseconds after 1970. -/
def timeAt (now : Nat) : Int :=
  (now / 1000000000 + NTP_OFFSET.toNat) * 2 ^ 32 + now % 1000000000 * 2 ^ 32 / 1000000000

/-- A number an `i64` holds. -/
def Fits (n : Int) : Prop := -2 ^ 63 ≤ n ∧ n < 2 ^ 63

instance (n : Int) : Decidable (Fits n) := inferInstanceAs (Decidable (_ ∧ _))

/-- Times less than `2^31` seconds apart. -/
def Near (a b : Int) : Prop := |a - b| < 2 ^ 31 * 2 ^ 32

instance (a b : Int) : Decidable (Near a b) := inferInstanceAs (Decidable (_ < _))

/-! ## Timestamps -/

theorem toInt_toInt64 (a : UInt64) : a.toInt64.toInt = wrap64 a.toNat := by
  show a.toBitVec.toInt = (a.toBitVec.toNat : Int).bmod (2 ^ 64)
  exact BitVec.toInt_eq_toNat_bmod a.toBitVec

theorem toNat_timestamp (t : Int) : ((timestamp t).toNat : Int) = t % 2 ^ 64 := by
  have hlo : 0 ≤ t % 2 ^ 64 := Int.emod_nonneg t (by decide)
  have hhi : t % 2 ^ 64 < 2 ^ 64 := Int.emod_lt_of_pos t (by decide)
  rw [timestamp, UInt64.ofInt, UInt64.toNat_ofNat', Nat.mod_eq_of_lt (by omega), Int.toNat_of_nonneg hlo]

theorem toInt_difference {a b : Int} (h : Near a b) : (difference (timestamp a) (timestamp b)).toInt = a - b := by
  have hsub : timestamp a - timestamp b = timestamp (a - b) := by
    rw [timestamp, timestamp, timestamp, sub_eq_add_neg a b, UInt64.ofInt_add, UInt64.ofInt_neg, UInt64.sub_eq_add_neg]
  have hnear : -2 ^ 63 < a - b ∧ a - b < 2 ^ 63 := abs_lt.mp h
  have hmod : wrap64 ((a - b) % 2 ^ 64) = wrap64 (a - b) := Int.emod_bmod (a - b) (2 ^ 64)
  rw [difference, hsub, toInt_toInt64, toNat_timestamp, hmod]
  exact wrap64_of_mem hnear.1.le hnear.2

/-- Seconds in the high half and a fraction in the low one. -/
theorem toNat_halves (secs frac : UInt64) (hfrac : frac.toNat < 2 ^ 32) :
    (secs <<< 32 ||| (frac &&& 0xFFFFFFFF)).toNat = (secs.toNat * 2 ^ 32 + frac.toNat) % 2 ^ 64 := by
  have hlow : (frac &&& 0xFFFFFFFF).toNat = frac.toNat := by
    rw [UInt64.toNat_and]
    exact (Nat.and_two_pow_sub_one_eq_mod frac.toNat 32).trans (Nat.mod_eq_of_lt hfrac)
  have hhigh : (secs <<< 32).toNat = (secs.toNat % 2 ^ 32) <<< 32 := by
    rw [UInt64.toNat_shiftLeft, Nat.shiftLeft_eq, Nat.shiftLeft_eq]
    exact Nat.mul_mod_mul_right (2 ^ 32) secs.toNat (2 ^ 32)
  rw [UInt64.toNat_or, hlow, hhigh, ← Nat.shiftLeft_add_eq_or_of_lt hfrac, Nat.shiftLeft_eq]
  omega

theorem nowNtp_eq (now : Nat) : nowNtp now = timestamp (timeAt now) := by
  have hfrac : ((UInt64.ofNat (now % 1000000000) <<< 32) / 1000000000).toNat =
      now % 1000000000 * 2 ^ 32 / 1000000000 := by
    have hnanos : now % 1000000000 < 1000000000 := Nat.mod_lt _ (by decide)
    rw [UInt64.toNat_div, UInt64.toNat_shiftLeft, UInt64.toNat_ofNat', Nat.shiftLeft_eq]
    show now % 1000000000 % 2 ^ 64 * 2 ^ 32 % 2 ^ 64 / 1000000000 = _
    omega
  have hlt : ((UInt64.ofNat (now % 1000000000) <<< 32) / 1000000000).toNat < 2 ^ 32 := by
    omega
  have hsecs : ((now / 1000000000 % 2 ^ 64 + NTP_OFFSET.toNat) % 2 ^ 64 * 2 ^ 32 +
      now % 1000000000 * 2 ^ 32 / 1000000000) % 2 ^ 64 =
        ((now / 1000000000 + NTP_OFFSET.toNat) * 2 ^ 32 + now % 1000000000 * 2 ^ 32 / 1000000000) % 2 ^ 64 :=
    (((Nat.mod_modEq _ _).trans ((Nat.mod_modEq _ (2 ^ 64)).add_right _)).mul_right _).add_right _
  refine UInt64.toNat_inj.mp (Int.ofNat_inj.mp ?_)
  show ((nowNtp now).toNat : Int) = ((timestamp (timeAt now)).toNat : Int)
  rw [toNat_timestamp, nowNtp, toNat_halves _ _ hlt, hfrac, UInt64.toNat_add, UInt64.toNat_ofNat', hsecs, timeAt]
  push_cast
  rfl

/-! ## Delay and offset -/

/-- A result that wraps is another one. -/
theorem bmod_eq_iff (n : Int) : n.bmod (2 ^ 64) = n ↔ Fits n := by
  constructor
  · intro h
    rw [← h]
    exact ⟨Int.le_bmod (by decide), Int.bmod_lt (by decide)⟩
  · exact fun h => wrap64_of_mem h.1 h.2

theorem Near.symm {a b : Int} (h : Near a b) : Near b a := by
  rw [Near, abs_sub_comm]
  exact h

/-- For times near each other, in whatever eras, the delay and twice the offset
are exact exactly where they fit 64 bits: each of their two differences does, but
the sum needs a bit more. -/
theorem delayAndOffset_exact_iff {t1 t2 t3 t4 : Int} (h : [t1, t2, t3, t4].Pairwise Near) :
    let n := delayAndOffset (timestamp t1) (timestamp t2) (timestamp t3) (timestamp t4)
    n.1.toInt = (t4 - t1) - (t3 - t2) ∧ n.2.toInt = (t2 - t1) + (t3 - t4) ↔
      Fits ((t4 - t1) - (t3 - t2)) ∧ Fits ((t2 - t1) + (t3 - t4)) := by
  simp only [List.pairwise_cons, List.forall_mem_cons, List.not_mem_nil, false_implies, implies_true,
    List.Pairwise.nil, and_true] at h
  obtain ⟨⟨h12, -, h14⟩, ⟨h23, -⟩, h34⟩ := h
  intro n
  have hdelay : n.1.toInt = ((t4 - t1) - (t3 - t2)).bmod (2 ^ 64) := by
    show (difference _ _ - difference _ _).toInt = _
    rw [Int64.toInt_sub, toInt_difference h14.symm, toInt_difference h23.symm]
  have hoffset : n.2.toInt = ((t2 - t1) + (t3 - t4)).bmod (2 ^ 64) := by
    show (difference _ _ + difference _ _).toInt = _
    rw [Int64.toInt_add, toInt_difference h12.symm, toInt_difference h34]
  rw [hdelay, hoffset, bmod_eq_iff, bmod_eq_iff]

/-- The probe 10 s behind the server, 20 ms each way, at the end of an era. -/
theorem delayAndOffset_exact_iff_era :
    let t : Int := 2 ^ 64 - 5 * 2 ^ 32
    let n := delayAndOffset (timestamp t) (timestamp (t + 43035970436)) (timestamp (t + 43035970436))
      (timestamp (t + 171798692))
    [t, t + 43035970436, t + 43035970436, t + 171798692].Pairwise Near ∧
      n.1.toInt = 171798692 ∧ n.2.toInt = 85900142180 := by
  intro t n
  have hnear : [t, t + 43035970436, t + 43035970436, t + 171798692].Pairwise Near := by decide
  exact ⟨hnear, (delayAndOffset_exact_iff hnear).mpr ⟨by decide, by decide⟩⟩

/-- A probe whose clock starts at 1970, and a server in 2026: the sum of the two
differences wraps. -/
theorem clock_at_1970_wraps :
    ¬ ∀ t1 t2 t3 t4 : Int, [t1, t2, t3, t4].Pairwise Near →
      let n := delayAndOffset (timestamp t1) (timestamp t2) (timestamp t3) (timestamp t4)
      n.1.toInt = (t4 - t1) - (t3 - t2) ∧ n.2.toInt = (t2 - t1) + (t3 - t4) := by
  intro h
  have hprobe := h (timeAt 0) (timeAt 1790000000000000000) (timeAt 1790000000000000000) (timeAt 0) (by decide)
  exact absurd hprobe.2 (by decide)

end Starla.Proof.Measurements.Ntp
