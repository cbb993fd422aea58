import Starla.Framework.Checked
import Starla.Impl.Reports.Dns

/-!
# Names of a reply, read by index

`read_name` and `dns_namelen` of `starla-measurements/src/dns/resolver.rs`
again, with their own indices, slices and sums, as a `usize` of `w` bits has
them.
-/

namespace Starla.Impl.Reports.DnsIndexed

open Starla.Framework Starla.Framework.Checked Starla.Impl.Reports.Dns

/-- `count`, which no longer counts after a jump. -/
def counted (w : Nat) (jumped : Bool) (count n : Nat) : Checked Nat :=
  if jumped then return count
  else do
    fits w (count + n)
    return count + n

def readNameFrom (w : Nat) (base : List UInt8) (offset : Nat) (name : String) (count p : Nat) (jumped : Bool)
    (jumps : Nat) : Checked (String × Nat) :=
  let size := base.length
  if offset < size then do
    let byte ← index base offset
    let len := byte.toNat
    if len = 0 then
      let count ← counted w jumped count 1
      return (name, count)
    else if len &&& 0xC0 ≠ 0 then
      if len &&& 0xC0 ≠ 0xC0 then .error .absent
      else
        fits w (offset + 1)
        let next := (len &&& 0x3F) <<< 8 ||| (base.getD (offset + 1) 0).toNat
        if _hnext : next ≥ size ∨ jumps > 256 then .error .absent
        else
          let count ← counted w jumped count 2
          fits 32 (jumps + 1)
          readNameFrom w base next name count p true (jumps + 1)
    else
      fits w (offset + len + 1)
      if offset + len + 1 > size then .error .absent
      else
        fits w (p + len + 1)
        if _hp : p + len + 1 > 255 then .error .absent
        else
          let name := if p > 0 then name ++ "." else name
          fits w (offset + 1 + len)
          let label ← slice base (offset + 1) (offset + 1 + len)
          let count ← counted w jumped count (len + 1)
          readNameFrom w base (offset + len + 1) (name ++ pushBytes label) count (p + len + 1) jumped jumps
  else do
    let count ← counted w jumped count 1
    return (name, count)
termination_by (255 - p) + (257 - jumps)

def readName (w : Nat) (base : List UInt8) (offset : Nat) : Checked (String × Nat) :=
  readNameFrom w base offset "" 0 0 false 0

/-- `offset - start`. -/
def taken (start offset : Nat) : Checked Nat := do
  check (start ≤ offset)
  return offset - start

def dnsNamelenFrom (w : Nat) (base : List UInt8) (start offset : Nat) : Checked Nat :=
  if _hin : offset < base.length then do
    let byte ← index base offset
    let len := byte.toNat
    if len &&& 0xC0 ≠ 0 then
      if len &&& 0xC0 ≠ 0xC0 then .error .absent
      else
        fits w (offset + 1)
        taken start (offset + 1)
    else
      fits w (offset + len + 1)
      if offset + len + 1 > base.length then .error .absent
      else if len = 0 then taken start (offset + len + 1)
      else dnsNamelenFrom w base start (offset + len + 1)
  else taken start offset
termination_by base.length - offset

def dnsNamelen (w : Nat) (base : List UInt8) (start : Nat) : Checked Nat := dnsNamelenFrom w base start start

end Starla.Impl.Reports.DnsIndexed
