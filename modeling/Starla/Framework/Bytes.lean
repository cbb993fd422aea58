import Mathlib.Data.List.Basic
import Mathlib.Tactic.Ring

/-!
# Numbers as bytes

* `beBytes`, `beNat` : a number in a given number of bytes, the highest first,
  and back (`beNat_beBytes`).
* `Endian` : the same in a machine's own order (`Endian.number_bytes`).
* `splice` : bytes written over others (`splice_append`).
-/

namespace Starla.Framework

/-- The last `8 * k` bits of `n`, in `k` bytes. -/
def beBytes : (k : Nat) → (n : Nat) → List UInt8
  | 0, _ => []
  | k + 1, n => UInt8.ofNat (n / 256 ^ k) :: beBytes k n

def beNat (bytes : List UInt8) : Nat := bytes.foldl (fun n b => n * 256 + b.toNat) 0

@[simp] theorem length_beBytes (k n : Nat) : (beBytes k n).length = k := by
  induction k with
  | zero => rfl
  | succ k ih => rw [beBytes, List.length_cons, ih]

theorem foldl_beBytes (k n acc : Nat) :
    (beBytes k n).foldl (fun n b => n * 256 + b.toNat) acc = acc * 256 ^ k + n % 256 ^ k := by
  induction k generalizing acc with
  | zero => simp [beBytes, Nat.mod_one]
  | succ k ih =>
    have hb : (UInt8.ofNat (n / 256 ^ k)).toNat = n / 256 ^ k % 256 := UInt8.toNat_ofNat'
    have hn : n % 256 ^ (k + 1) = n / 256 ^ k % 256 * 256 ^ k + n % 256 ^ k := by
      rw [Nat.pow_succ, Nat.mod_mul]
      ring
    rw [beBytes, List.foldl_cons, ih, hb, hn]
    ring

@[simp] theorem beNat_beBytes (k n : Nat) : beNat (beBytes k n) = n % 256 ^ k := by
  rw [beNat, foldl_beBytes, Nat.zero_mul, Nat.zero_add]

/-- A machine's byte order. -/
inductive Endian
  | big
  | little
deriving DecidableEq, Repr

namespace Endian

/-- `to_ne_bytes`. -/
def bytes (e : Endian) (k n : Nat) : List UInt8 :=
  match e with
  | big => beBytes k n
  | little => (beBytes k n).reverse

/-- `from_ne_bytes`. -/
def number (e : Endian) (bs : List UInt8) : Nat :=
  match e with
  | big => beNat bs
  | little => beNat bs.reverse

@[simp] theorem length_bytes (e : Endian) (k n : Nat) : (e.bytes k n).length = k := by
  cases e <;> simp [bytes]

@[simp] theorem number_bytes (e : Endian) (k n : Nat) : e.number (e.bytes k n) = n % 256 ^ k := by
  cases e <;> simp [bytes, number]

end Endian

/-- `bytes` with `new` written at place `i`. -/
def splice (bytes : List UInt8) (i : Nat) (new : List UInt8) : List UInt8 :=
  bytes.take i ++ new ++ bytes.drop (i + new.length)

theorem splice_append {a old new : List UInt8} {i : Nat} (h : a.length = i) (h' : old.length = new.length)
    (b : List UInt8) : splice (a ++ (old ++ b)) i new = a ++ (new ++ b) := by
  unfold splice
  rw [← h, List.take_left, ← h', ← List.length_append, ← List.append_assoc a old, List.drop_left,
    List.append_assoc]

end Starla.Framework
