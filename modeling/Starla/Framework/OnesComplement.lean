import Mathlib.Algebra.Group.Nat.Defs
import Mathlib.Tactic.Common

/-!
# One's-complement sums

A sum of 16-bit words with its carries added back in is the sum modulo
`65535`, and never 0 but for 0 itself.

* `fold16_eq` : what a sum folds to, from its residue.
* `fold16_add_complement` : the word that brings a sum to a given value.
* `fold16_add_not` : a sum with its complement added verifies.
-/

namespace Starla.Framework

/-- A sum of two words with its carry added in. -/
def carry16 (s : Nat) : Nat := (s + s / 65536) % 65536

/-- The 16 low bits of a sum, with the carries above them added in. -/
def fold16 (n : Nat) : Nat := carry16 (n / 65536 + n % 65536)

theorem carry16_of_lt {s : Nat} (h : s < 65536) : carry16 s = s := by
  unfold carry16
  rw [Nat.div_eq_of_lt h, Nat.add_zero, Nat.mod_eq_of_lt h]

theorem carry16_of_ge {s : Nat} (h : 65536 ≤ s) (h' : s ≤ 131070) : carry16 s = s - 65535 := by
  have hdiv : s / 65536 = 1 := by omega
  unfold carry16
  rw [hdiv]
  omega

theorem carry16_mod {s : Nat} (h : s ≤ 131070) : carry16 s % 65535 = s % 65535 := by
  rcases Nat.lt_or_ge s 65536 with hs | hs
  · rw [carry16_of_lt hs]
  · rw [carry16_of_ge hs h]
    omega

theorem carry16_le (s : Nat) : carry16 s ≤ 65535 := by
  unfold carry16
  omega

theorem fold16_le (n : Nat) : fold16 n ≤ 65535 := carry16_le _

theorem fold16_mod {n : Nat} (h : n < 2 ^ 32) : fold16 n % 65535 = n % 65535 := by
  have hhigh : n / 65536 ≤ 65535 := by omega
  have hlow : n % 65536 ≤ 65535 := by omega
  rw [fold16, carry16_mod (by omega)]
  have hn : n = 65536 * (n / 65536) + n % 65536 := (Nat.div_add_mod n 65536).symm
  generalize n / 65536 = q at *
  generalize n % 65536 = r at *
  omega

theorem fold16_eq {n t : Nat} (h : n < 2 ^ 32) (ht : 0 < t) (ht' : t < 65535) (hn : n % 65535 = t) :
    fold16 n = t := by
  have hmod := fold16_mod h
  have hle := fold16_le n
  omega

/-- Only the empty sum folds to 0: a multiple of `65535` folds to it. -/
theorem fold16_pos {n : Nat} (h : n < 2 ^ 32) (hn : 0 < n) : 0 < fold16 n := by
  have hhigh : n / 65536 ≤ 65535 := by omega
  have hlow : n % 65536 ≤ 65535 := by omega
  have hs : 0 < n / 65536 + n % 65536 := by omega
  have hs' : n / 65536 + n % 65536 ≤ 131070 := by omega
  unfold fold16
  rcases Nat.lt_or_ge (n / 65536 + n % 65536) 65536 with hlt | hge
  · rw [carry16_of_lt hlt]
    exact hs
  · rw [carry16_of_ge hge hs']
    omega

theorem fold16_full {n : Nat} (h : n < 2 ^ 32) (hn : 0 < n) (hmod : n % 65535 = 0) : fold16 n = 65535 := by
  have hpos := fold16_pos h hn
  have hle := fold16_le n
  have hfold := fold16_mod h
  omega

/-- Added to a sum, the one's-complement sum of its complement and that of `v`
makes the complement of the whole `v`. -/
theorem fold16_add_complement {n v : Nat} (h : n + 65535 < 2 ^ 32) (hn : 0 < n) (hv : v < 65535) :
    fold16 (n + carry16 (65535 - fold16 n + (65535 - v))) = 65535 - v := by
  have hle := fold16_le n
  have hpos := fold16_pos (n := n) (by omega) hn
  have hmod := fold16_mod (n := n) (by omega)
  have hc := carry16_mod (s := 65535 - fold16 n + (65535 - v)) (by omega)
  have hcle := carry16_le (65535 - fold16 n + (65535 - v))
  generalize carry16 (65535 - fold16 n + (65535 - v)) = w at *
  generalize fold16 n = f at *
  rcases Nat.eq_zero_or_pos v with rfl | hv₀
  · exact fold16_full (by omega) (by omega) (by omega)
  · exact fold16_eq (by omega) (by omega) (by omega) (by omega)

/-- With the complement of a sum added to it, it folds to all ones. -/
theorem fold16_add_not {n : Nat} (h : n + 65535 < 2 ^ 32) (hn : 0 < n) : fold16 (n + (65535 - fold16 n)) = 65535 := by
  have hle := fold16_le n
  have hmod := fold16_mod (n := n) (by omega)
  generalize fold16 n = f at *
  exact fold16_full (by omega) (by omega) (by omega)

end Starla.Framework
