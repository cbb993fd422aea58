import Starla.Framework.ByteSlice

/-!
# Macros in a DNS name

`expand_name_macros` of `starla-measurements/src/dns/resolver.rs`. A text is
its characters; its length and its slices are in bytes. The time and the random
bytes are the `k`th macro's own.
-/

namespace Starla.Impl.Measurements.NameMacros

open Starla.Framework Starla.Framework.Checked
open String (utf8Len)

def BUF : Nat := 256

/-- What the macros stand for. -/
structure Values where
  probeId : Int64
  unixNow : Nat → Int64
  random : Nat → Vector UInt8 8

/-- `{b:02x}`. -/
def hexByte (b : UInt8) : List Char := [Nat.digitChar (b.toNat / 16), Nat.digitChar (b.toNat % 16)]

/-- What is left of the buffer. -/
def room (out : List Char) : Nat := BUF - 1 - min (utf8Len out) (BUF - 1)

/-- The part before a macro must fit whole. -/
def pushLiteral (out lit : List Char) : Checked (List Char) :=
  if utf8Len lit > 0 then do
    check (utf8Len out ≤ BUF)
    refuseIf (utf8Len lit + 1 > BUF - utf8Len out)
    return out ++ lit
  else return out

/-- What the macro `m` stands for, the `k`th one, after `out`. -/
def macroText (v : Values) (k : Nat) (out : List Char) (m : Char) : Checked (List Char) :=
  if m = 'p' then return (toString v.probeId.toInt).toList
  else if m = 't' then return (toString (v.unixNow k).toInt).toList
  else if m = 'r' then do
    check (utf8Len out ≤ BUF)
    refuseIf (8 * 2 + 1 > BUF - utf8Len out)
    return (v.random k).toList.flatMap hexByte
  else .error .absent

def expandFrom (v : Values) (k : Nat) (out rest : List Char) : Checked (List Char) :=
  if rest.isEmpty then .ok out
  else if '$' ∈ rest then do
    let out ← pushLiteral out (rest.takeWhile (· != '$'))
    match _h : rest.dropWhile (· != '$') with
    | _ :: m :: next =>
      let piece ← macroText v k out m
      let kept ← sliceBytes (min (utf8Len piece) (room out)) piece
      expandFrom v (k + 1) (out ++ kept) next
    | _ => .error .absent
  else do
    let kept ← sliceBytes (min (utf8Len rest) (room out)) rest
    return out ++ kept
termination_by rest.length
decreasing_by
  have hle := (rest.dropWhile_sublist (· != '$')).length_le
  rw [_h, List.length_cons, List.length_cons] at hle
  omega

def expandNameMacros (v : Values) (name : String) : Checked String :=
  if '$' ∈ name.toList then do
    let out ← expandFrom v 0 [] name.toList
    return String.ofList out
  else return name

end Starla.Impl.Measurements.NameMacros
