import Mathlib.Algebra.Group.Nat.Defs
import Mathlib.Algebra.Order.Group.Int

/-!
# 64-bit signed arithmetic on integers

The ways an `i64` operation treats a result out of range: it wraps (`wrap64`),
stays at the nearer end (`sat64`) or stops the program (`checked64`). Within the
range all are the identity.
-/

namespace Starla.Framework

/-- Wraps into `[-2^63, 2^63)`. -/
def wrap64 (x : Int) : Int := x.bmod (2 ^ 64)

/-- Saturates into `[-2^63, 2^63)`. -/
def sat64 (x : Int) : Int := max (-2 ^ 63) (min x (2 ^ 63 - 1))

/-- A result within `[-2^63, 2^63)`. -/
def checked64 (x : Int) : Option Int := if -2 ^ 63 ≤ x ∧ x < 2 ^ 63 then some x else none

theorem wrap64_of_mem {x : Int} (h : -2 ^ 63 ≤ x) (h' : x < 2 ^ 63) : wrap64 x = x :=
  Int.bmod_eq_of_le (by omega) (by omega)

theorem sat64_of_mem {x : Int} (h : -2 ^ 63 ≤ x) (h' : x < 2 ^ 63) : sat64 x = x := by
  unfold sat64; omega

theorem checked64_of_mem {x : Int} (h : -2 ^ 63 ≤ x) (h' : x < 2 ^ 63) : checked64 x = some x :=
  if_pos ⟨h, h'⟩

end Starla.Framework
