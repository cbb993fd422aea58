import Mathlib.Data.List.Basic

/-!
# The name a query asks for

`encode_name` of `starla-measurements/src/dns/resolver.rs`.
-/

namespace Starla.Impl.Measurements.DnsName

def MAXLEN : Nat := 255

/-- The bytes of a text. -/
def asBytes (s : String) : List UInt8 := s.toByteArray.data.toList

/-- The labels of what is left of a name, each after its length, and the end. -/
def encodeLabels (rest : List UInt8) : Option (List UInt8) :=
  if rest.isEmpty then some [0]
  else
    match _h : rest.findIdx? (· == 0x2E) with
    | none => none
    | some dot =>
      if dot = 0 ∨ dot > 63 then none
      else (encodeLabels (rest.drop (dot + 1))).map fun out => UInt8.ofNat dot :: (rest.take dot ++ out)
termination_by rest.length
decreasing_by
  rw [List.length_drop]
  obtain ⟨hdot, -⟩ := List.findIdx?_eq_some_iff_getElem.mp _h
  omega

def encodeName (name : String) : Option (List UInt8) :=
  if name.utf8ByteSize + 1 > MAXLEN then none
  else if name = "." then some [0]
  else encodeLabels (asBytes name)

end Starla.Impl.Measurements.DnsName
