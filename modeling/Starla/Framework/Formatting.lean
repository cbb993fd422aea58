import Starla.Framework.Address

/-!
# Numbers and addresses as text

What Rust's formatting writes.

* `Fixed`, `Shortest`, `Scientific` : what `{:.n}`, `{}` and `{:e}` print of an
  `f64` that is a number. The digits are the value's: the rounding that gives
  them is not modelled.
* `hexText` : what `{:x}` prints, zeros before it up to a width.
* `base64` : bytes in the standard alphabet, with padding.
* `IpAddr.text` : an address, as `Display` writes it.
-/

namespace Starla.Framework

/-! ## Numbers -/

/-- At least `width` characters, zeros before the text. -/
def zeroPadded (width : Nat) (s : String) : String :=
  String.ofList (List.replicate (width - s.length) '0') ++ s

def hexText (width n : Nat) : String := zeroPadded width (String.ofList (Nat.toDigits 16 n))

/-- What `{:.places}` prints. -/
structure Fixed (places : Nat) where
  negative : Bool
  scaled : Nat
deriving DecidableEq, Repr

def Fixed.text {places : Nat} (x : Fixed places) : String :=
  (if x.negative then "-" else "") ++ toString (x.scaled / 10 ^ places) ++ "." ++
    zeroPadded places (toString (x.scaled % 10 ^ places))

def digitsText (digits : List (Fin 10)) : String := String.ofList (digits.map fun d : Fin 10 => Nat.digitChar d)

/-- The fraction of a number, none where it is whole. -/
def fractionText (fraction : List (Fin 10)) : String :=
  if fraction.isEmpty then "" else "." ++ digitsText fraction

/-- What `{}` prints of an `f64` that is not negative. -/
structure Shortest where
  whole : Nat
  fraction : List (Fin 10)
deriving DecidableEq, Repr

def Shortest.text (x : Shortest) : String := toString x.whole ++ fractionText x.fraction

/-- What `{:e}` prints of an `f64` that is not negative. -/
structure Scientific where
  lead : Fin 10
  fraction : List (Fin 10)
  exponent : Int
deriving DecidableEq, Repr

def Scientific.text (x : Scientific) : String :=
  digitsText [x.lead] ++ fractionText x.fraction ++ "e" ++ toString x.exponent

/-! ## Bytes -/

def base64Char (n : Nat) : Char :=
  if n < 26 then Char.ofNat (65 + n)
  else if n < 52 then Char.ofNat (71 + n)
  else if n < 62 then Char.ofNat (n - 4)
  else if n = 62 then '+' else '/'

def base64 : List UInt8 → List Char
  | a :: b :: c :: rest =>
    let n := a.toNat * 65536 + b.toNat * 256 + c.toNat
    base64Char (n / 262144) :: base64Char (n / 4096 % 64) :: base64Char (n / 64 % 64) :: base64Char (n % 64) ::
      base64 rest
  | [a, b] =>
    let n := a.toNat * 1024 + b.toNat * 4
    [base64Char (n / 4096), base64Char (n / 64 % 64), base64Char (n % 64), '=']
  | [a] =>
    let n := a.toNat * 16
    [base64Char (n / 64), base64Char (n % 64), '=', '=']
  | [] => []

/-! ## Lists -/

/-- Texts with a comma between them and a blank before each. -/
def spaced : (first : Bool) → List String → String
  | _, [] => ""
  | first, text :: texts => (if first then "" else ",") ++ " " ++ text ++ spaced false texts

/-! ## Addresses -/

/-- The octets of an IPv4 address. -/
def octets (a : BitVec 32) : List Nat := [24, 16, 8, 0].map fun i => a.toNat / 2 ^ i % 256

/-- The segments of an IPv6 address. -/
def segmentsOf (a : BitVec 128) : List Nat :=
  [112, 96, 80, 64, 48, 32, 16, 0].map fun i => a.toNat / 2 ^ i % 65536

def ipv4Text (a : BitVec 32) : String := ".".intercalate ((octets a).map toString)

/-- A run of zero segments: where it starts, and its length. -/
abbrev Span := Nat × Nat

/-- The longest run of zeros from the `i`th segment on, the first of its
length. -/
def longestZeros (longest current : Span) : (i : Nat) → List Nat → Span
  | _, [] => longest
  | i, 0 :: rest =>
    let current := if current.2 = 0 then (i, 1) else (current.1, current.2 + 1)
    longestZeros (if longest.2 < current.2 then current else longest) current (i + 1) rest
  | i, _ :: rest => longestZeros longest (0, 0) (i + 1) rest

def segmentsText (segments : List Nat) : String := ":".intercalate (segments.map (hexText 1))

def ipv6Text (a : BitVec 128) : String :=
  let segments := segmentsOf a
  if segments.take 6 = [0, 0, 0, 0, 0, 0xFFFF] then "::ffff:" ++ ipv4Text (a.setWidth 32)
  else
    let zeroes := longestZeros (0, 0) (0, 0) 0 segments
    if zeroes.2 > 1 then
      segmentsText (segments.take zeroes.1) ++ "::" ++ segmentsText (segments.drop (zeroes.1 + zeroes.2))
    else segmentsText segments

/-- `IpAddr`'s `Display`. -/
def IpAddr.text : IpAddr → String
  | v4 a => ipv4Text a
  | v6 a => ipv6Text a

example : (IpAddr.v4 0xC1000695).text = "193.0.6.149" := by decide

example : (IpAddr.v6 0x200107FD000000000000000000000001).text = "2001:7fd::1" := by decide

example : String.ofList (base64 [77, 97, 110, 77]) = "TWFuTQ==" := by decide

end Starla.Framework
