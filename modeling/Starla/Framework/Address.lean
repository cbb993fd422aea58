import Mathlib.Data.BitVec
import Starla.Framework.Text

/-!
# Internet addresses

IPv4 and IPv6 addresses as numbers, blocks of them, and address literals as
Rust's `IpAddr::from_str` reads them.

* `masked_eq_iff` : an address under a block's mask is the block's base exactly
  when it lies in the block.
* `parseIpAddr` : an address literal.
-/

namespace Starla.Framework

inductive IpAddr
  | v4 (addr : BitVec 32)
  | v6 (addr : BitVec 128)
deriving DecidableEq, Repr

namespace IpAddr

def isIpv4 : IpAddr → Bool
  | v4 _ => true
  | v6 _ => false

def isIpv6 : IpAddr → Bool
  | v4 _ => false
  | v6 _ => true

end IpAddr

/-! ## Blocks of addresses -/

/-- The addresses that share their first `len` bits with `base`. -/
structure Block (w : Nat) where
  base : BitVec w
  len : Nat
deriving DecidableEq, Repr

namespace Block

def Holds {w : Nat} (b : Block w) (a : BitVec w) : Prop :=
  a.toNat / 2 ^ (w - b.len) = b.base.toNat / 2 ^ (w - b.len)

instance {w : Nat} (b : Block w) (a : BitVec w) : Decidable (b.Holds a) :=
  inferInstanceAs (Decidable (_ = _))

/-- A block whose base has nothing after its first `len` bits. -/
def Aligned {w : Nat} (b : Block w) : Prop := b.base.toNat % 2 ^ (w - b.len) = 0

instance {w : Nat} (b : Block w) : Decidable b.Aligned := inferInstanceAs (Decidable (_ = _))

end Block

/-- An address without its last `k` bits. -/
theorem toNat_masked {w : Nat} (a : BitVec w) (k : Nat) :
    (a &&& (BitVec.allOnes w <<< k)).toNat = a.toNat / 2 ^ k * 2 ^ k := by
  rw [← BitVec.shiftLeft_ushiftRight, BitVec.toNat_shiftLeft, BitVec.toNat_ushiftRight,
    Nat.shiftLeft_eq, Nat.shiftRight_eq_div_pow, Nat.mod_eq_of_lt]
  exact lt_of_le_of_lt (Nat.div_mul_le_self _ _) a.isLt

theorem masked_eq_iff {w : Nat} {b : Block w} (hb : b.Aligned) (a : BitVec w) :
    a &&& (BitVec.allOnes w <<< (w - b.len)) = b.base ↔ b.Holds a := by
  have hbase : b.base.toNat / 2 ^ (w - b.len) * 2 ^ (w - b.len) = b.base.toNat :=
    Nat.div_mul_cancel (Nat.dvd_of_mod_eq_zero hb)
  rw [← BitVec.toNat_inj, toNat_masked, ← hbase, Nat.mul_left_inj (Nat.two_pow_pos _).ne', Block.Holds]

/-! ## Address literals -/

/-- The character `c`. -/
def readChar (c : Char) : List Char → Option (List Char)
  | [] => none
  | d :: cs => if d = c then some cs else none

/-- All digits that follow: at most `digits` of them, a value up to `max`, and
no zero in front of others unless `zeros`. -/
def readNumber (radix digits max : Nat) (zeros : Bool) (cs : List Char) : Option (Nat × List Char) :=
  let run := cs.takeWhile fun c => (digitValue radix c).isSome
  if digits < run.length || (!zeros && run.head? == some '0' && 1 < run.length) then none
  else (digitsUpTo max radix run).map (·, cs.drop run.length)

def readOctet : List Char → Option (Nat × List Char) := readNumber 10 3 255 false

def readIpv4Addr (cs : List Char) : Option (Nat × List Char) := do
  let (a, cs) ← readOctet cs
  let (b, cs) ← (readChar '.' cs).bind readOctet
  let (c, cs) ← (readChar '.' cs).bind readOctet
  let (d, cs) ← (readChar '.' cs).bind readOctet
  return (((a * 256 + b) * 256 + c) * 256 + d, cs)

/-- Up to `left` groups of an IPv6 address, a colon before each but the first,
and whether an IPv4 address stood for the last two. -/
def readGroups : (left : Nat) → (first : Bool) → List Char → (List Nat × Bool) × List Char
  | 0, _, cs => (([], false), cs)
  | left + 1, first, cs =>
    let field := if first then some cs else readChar ':' cs
    match (if 0 < left then field.bind readIpv4Addr else none) with
    | some (a, cs) => (([a / 65536, a % 65536], true), cs)
    | none =>
      match field.bind (readNumber 16 4 65535 true) with
      | some (group, cs) =>
        let ((groups, ipv4), cs) := readGroups left false cs
        ((group :: groups, ipv4), cs)
      | none => (([], false), cs)

def ofGroups (groups : List Nat) : Nat := groups.foldl (fun n group => n * 65536 + group) 0

def readIpv6Addr (cs : List Char) : Option (Nat × List Char) := do
  let ((head, ipv4), cs) := readGroups 8 true cs
  if head.length = 8 then return (ofGroups head, cs)
  if ipv4 then none
  let cs ← (readChar ':' cs).bind (readChar ':')
  -- the two colons stand for at least one group
  let ((tail, _), cs) := readGroups (7 - head.length) true cs
  return (ofGroups (head ++ List.replicate (8 - head.length - tail.length) 0 ++ tail), cs)

def parseIpAddr (cs : List Char) : Option IpAddr :=
  match readIpv4Addr cs with
  | some (a, rest) => if rest.isEmpty then some (.v4 (BitVec.ofNat 32 a)) else none
  | none =>
    match readIpv6Addr cs with
    | some (a, rest) => if rest.isEmpty then some (.v6 (BitVec.ofNat 128 a)) else none
    | none => none

end Starla.Framework
