import Starla.Framework.ByteSlice

/-!
# The header lines that are stored

`stored_headers` of `starla-measurements/src/http/raw.rs`, with the slice of the
line it cuts and the sums it compares. The program is compiled for addresses
of `w` bits.
-/

namespace Starla.Impl.Measurements.StoredHeaders

open Starla.Framework Starla.Framework.Checked

/-- One line, at what is stored so far and its bytes. -/
def storeLine (w max : Nat) : List String × Nat → String → Checked (List String × Nat)
  | (out, tot), line => do
    let len := line.utf8ByteSize
    fits w (tot + len)
    if tot + len < max then return (out ++ [line], tot + len)
    else if tot ≤ max then
      let keep ← floorBoundary line.toList (max - tot)
      let kept ← sliceBytes keep line.toList
      fits w (tot + len + 1)
      return (out ++ [String.ofList kept ++ "[...]"], tot + len + 1)
    else return (out, tot)

def storedHeaders (w : Nat) (lines : List String) (max : Nat) : Checked (Option (List String)) := do
  if max = 0 then return none
  let (out, tot) ← lines.foldlM (storeLine w max) ([], 0)
  return some (if tot ≤ max then out ++ [""] else out)

end Starla.Impl.Measurements.StoredHeaders
