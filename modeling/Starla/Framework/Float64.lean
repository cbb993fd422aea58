import Mathlib.Algebra.Order.Floor.Semifield
import Mathlib.Data.Int.Log
import Mathlib.Data.Rat.Floor
import Starla.Framework.Text

/-!
# 64-bit floating-point numbers as text

A number of the format is a rational, an infinity or not a number; zeros have
no sign here.

* `nearest` : the number nearest to a rational, of two the even one.
* `parseF64` : a number as Rust's `f64::from_str` reads it.
* `fromSecsF64` : as a duration in nanoseconds, if it fits one.
-/

namespace Starla.Framework

inductive F64
  | finite (q : ℚ)
  | infinity (negative : Bool)
  | nan
deriving DecidableEq

namespace F64

def neg : F64 → F64
  | finite q => finite (-q)
  | infinity negative => infinity !negative
  | nan => nan

/-- At least the rational `q`. -/
def atLeast (q : ℚ) : F64 → Bool
  | finite p => q ≤ p
  | infinity negative => !negative
  | nan => false

end F64

/-! ## Rounding -/

def roundHalfEven (q : ℚ) : ℤ :=
  let n := ⌊q⌋
  if q - n < 1 / 2 ∨ (q - n = 1 / 2 ∧ n % 2 = 0) then n else n + 1

theorem le_roundHalfEven {n : ℤ} {q : ℚ} (h : n ≤ q) : n ≤ roundHalfEven q := by
  have hn : n ≤ ⌊q⌋ := Int.le_floor.mpr h
  unfold roundHalfEven
  dsimp only
  split_ifs <;> omega

/-- The exponent of the last of the 53 bits of a number, no less than that of the
least number. -/
def lastPlace (q : ℚ) : ℤ := max (Int.log 2 q - 52) (-1074)

/-- The number nearest to a rational that is not negative. -/
def nearest (q : ℚ) : F64 :=
  let place : ℚ := 2 ^ lastPlace q
  let r := roundHalfEven (q / place) * place
  if r < 2 ^ 1024 then .finite r else .infinity false

/-! ## Numbers as text -/

/-- The digits a text starts with, and the rest of it. -/
def spanDigits (cs : List Char) : List Char × List Char := cs.span Char.isDigit

/-- A sign, or none, and what follows it. -/
def readSign : List Char → Bool × List Char
  | '-' :: cs => (true, cs)
  | '+' :: cs => (false, cs)
  | cs => (false, cs)

/-- An exponent, or nothing. -/
def readExponent : List Char → Option ℤ
  | [] => some 0
  | c :: cs =>
    if c = 'e' ∨ c = 'E' then
      let (negative, ds) := readSign cs
      if ds ≠ [] ∧ ds.all Char.isDigit then
        let n : ℤ := Nat.ofDigitChars 10 ds 0
        some (if negative then -n else n)
      else none
    else none

/-- Digits with a point among them or not, and an exponent. -/
def readDecimal (cs : List Char) : Option ℚ :=
  let (whole, rest) := spanDigits cs
  let (frac, rest) := match rest with
    | '.' :: rest => spanDigits rest
    | rest => ([], rest)
  if whole ++ frac = [] then none
  else (readExponent rest).map fun e =>
    (Nat.ofDigitChars 10 (whole ++ frac) 0 : ℚ) * (10 : ℚ) ^ (e - frac.length : ℤ)

def parseF64 (cs : List Char) : Option F64 :=
  let (negative, cs) := readSign cs
  let number := match String.ofList (cs.map Char.toLower) with
    | "nan" => some .nan
    | "inf" | "infinity" => some (.infinity false)
    | _ => (readDecimal cs).map nearest
  if negative then number.map F64.neg else number

/-! ## Durations -/

/-- Nanoseconds: none where the seconds are negative, no number or `2^64` and
more. -/
def fromSecsF64 : F64 → Option ℕ
  | .finite q => if 0 ≤ q ∧ q < 2 ^ 64 then some (roundHalfEven (q * 10 ^ 9)).toNat else none
  | _ => none

end Starla.Framework
