import Starla.Impl.Measurements.Icmp

/-!
# Winsock's control messages

`wsacmsg.rs` of `starla-network`. The width of a `usize` and the order of its
bytes are the target's.
-/

namespace Starla.Impl.Measurements.Wsacmsg

open Starla.Framework Starla.Framework.Checked Starla.Impl.Measurements.Icmp

def IPPROTO_IPV6 : Int32 := 41

def IPV6_PKTINFO : Int32 := 19

def IPV6_HOPLIMIT : Int32 := 21

/-- What the program is built for. -/
structure Target where
  is64 : Bool
  endian : Endian
deriving DecidableEq, Repr

namespace Target

/-- `size_of::<usize>()`. -/
def ALIGN (t : Target) : Nat := if t.is64 then 8 else 4

/-- The bits of a `usize`. -/
def BITS (t : Target) : Nat := 8 * t.ALIGN

/-- No allocation is larger. -/
def ISIZE_MAX (t : Target) : Nat := 2 ^ (t.BITS - 1) - 1

def HEADER (t : Target) : Nat := t.ALIGN + 2 * 4

/-- The next multiple of the alignment: `!(ALIGN - 1)` clears the bits below it. -/
def align (t : Target) (len : Nat) : Nat := (len + t.ALIGN - 1) / t.ALIGN * t.ALIGN

def DATA (t : Target) : Nat := t.align t.HEADER

/-- The sums in `align`. -/
def fitsAlign (t : Target) (len : Nat) : Checked Unit := fits t.BITS (len + t.ALIGN)

end Target

/-- `out[lo..hi].copy_from_slice(new)`. -/
def copyFromSlice (out : List UInt8) (lo hi : Nat) (new : List UInt8) : Checked (List UInt8) := do
  let part ← slice out lo hi
  check (part.length = new.length)
  return splice out lo new

def cmsg (t : Target) (level kind : Int32) (data : List UInt8) : Checked (List UInt8) := do
  fits t.BITS (t.DATA + data.length)
  let len := t.DATA + data.length
  t.fitsAlign len
  check (t.align len ≤ t.ISIZE_MAX)
  let out := List.replicate (t.align len) 0
  let out ← copyFromSlice out 0 t.ALIGN (t.endian.bytes t.ALIGN len)
  let out ← copyFromSlice out t.ALIGN (t.ALIGN + 4) (t.endian.bytes 4 level.toUInt32.toNat)
  let out ← copyFromSlice out (t.ALIGN + 4) t.HEADER (t.endian.bytes 4 kind.toUInt32.toNat)
  copyFromSlice out t.DATA len data

/-! ## The walk -/

/-- `get(lo..)`. -/
def getFrom (l : List UInt8) (lo : Nat) : Option (List UInt8) := if lo ≤ l.length then some (l.drop lo) else none

/-- `get(..hi)`. -/
def getTo (l : List UInt8) (hi : Nat) : Option (List UInt8) := if hi ≤ l.length then some (l.take hi) else none

/-- `try_into().unwrap_or_default()` for an array of `k` bytes. -/
def arrayOf (k : Nat) (bs : List UInt8) : List UInt8 := if bs.length = k then bs else List.replicate k 0

/-- `i32::from_ne_bytes`. -/
def int32Of (t : Target) (bs : List UInt8) : Int32 := (UInt32.ofNat (t.endian.number (arrayOf 4 bs))).toInt32

/-- `u8::try_from`. -/
def uint8Of (n : Int32) : Option UInt8 :=
  if 0 ≤ n.toInt ∧ n.toInt ≤ 255 then some (UInt8.ofNat n.toInt.toNat) else none

/-- What a message says. -/
def readMessage (t : Target) (recv : RecvMeta) (level kind : Int32) (data : List UInt8) : RecvMeta :=
  if level = IPPROTO_IPV6 ∧ kind = IPV6_HOPLIMIT then
    match getTo data 4 with
    | some int => { recv with ttl := uint8Of (int32Of t int) }
    | none => recv
  else if level = IPPROTO_IPV6 ∧ kind = IPV6_PKTINFO then
    match getTo data 16 with
    | some addr => { recv with dst := some (.v6 (BitVec.ofNat 128 (beNat (arrayOf 16 addr)))) }
    | none => recv
  else recv

theorem align_pos (t : Target) {len : Nat} (h : t.DATA ≤ len) : 0 < t.align len := by
  obtain ⟨is64, e⟩ := t
  cases is64 <;> simp [Target.align, Target.ALIGN, Target.DATA, Target.HEADER] at h ⊢ <;> omega

def recvMetaFrom (t : Target) (control : List UInt8) (at' : Nat) (recv : RecvMeta) : Checked RecvMeta :=
  match _hheader : (getFrom control at').bind fun rest => getTo rest t.HEADER with
  | none => .ok recv
  | some header => do
    let len ← sliceTo header t.ALIGN
    let level ← slice header t.ALIGN (t.ALIGN + 4)
    let kind ← sliceFrom header (t.ALIGN + 4)
    let len := t.endian.number (arrayOf t.ALIGN len)
    let level := int32Of t level
    let kind := int32Of t kind
    if _hlen : t.DATA ≤ len then
      fits t.BITS (at' + t.DATA)
      match (getFrom control (at' + t.DATA)).bind fun rest => getTo rest (len - t.DATA) with
      | none => return recv
      | some data =>
        let recv := readMessage t recv level kind data
        t.fitsAlign len
        fits t.BITS (at' + t.align len)
        recvMetaFrom t control (at' + t.align len) recv
    else return recv
termination_by control.length - at'
decreasing_by
  obtain ⟨rest, hrest, hto⟩ := Option.bind_eq_some_iff.mp _hheader
  unfold getFrom at hrest
  unfold getTo at hto
  split_ifs at hrest hto with hle hfits
  cases hrest
  rw [List.length_drop] at hfits
  have hpos := align_pos t _hlen
  have hsize : 0 < t.HEADER := by
    rw [Target.HEADER]
    omega
  show control.length - (at' + t.align len) < control.length - at'
  omega

def recvMeta (t : Target) (control : List UInt8) : Checked RecvMeta := recvMetaFrom t control 0 ⟨none, none⟩

end Starla.Impl.Measurements.Wsacmsg
