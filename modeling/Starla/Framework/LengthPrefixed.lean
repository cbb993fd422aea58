import Mathlib.Data.List.Basic

/-!
# Bytes with their length before them

* `prefixed` : byte strings one after the other, each after a byte with its
  length. No two lists of strings of at most 255 bytes give the same bytes
  (`prefixed_injective`).
* `Placed` : where a packet has some bytes at an offset, with what can be read
  there.
-/

namespace Starla.Framework

def prefixed (pieces : List (List UInt8)) : List UInt8 :=
  pieces.flatMap fun piece => UInt8.ofNat piece.length :: piece

@[simp] theorem prefixed_nil : prefixed [] = [] := rfl

theorem prefixed_cons (piece : List UInt8) (pieces : List (List UInt8)) :
    prefixed (piece :: pieces) = UInt8.ofNat piece.length :: (piece ++ prefixed pieces) := rfl

theorem toNat_length {piece : List UInt8} (h : piece.length ≤ 255) : (UInt8.ofNat piece.length).toNat = piece.length :=
  UInt8.toNat_ofNat_of_lt' (by
    show piece.length < 256
    omega)

theorem prefixed_injective {ps qs : List (List UInt8)} (hp : ∀ p ∈ ps, p.length ≤ 255) (hq : ∀ q ∈ qs, q.length ≤ 255)
    (h : prefixed ps = prefixed qs) : ps = qs := by
  induction ps generalizing qs with
  | nil =>
    cases qs with
    | nil => rfl
    | cons q qs => exact absurd h (by simp [prefixed_cons])
  | cons p ps ih =>
    cases qs with
    | nil => exact absurd h (by simp [prefixed_cons])
    | cons q qs =>
      simp only [List.forall_mem_cons] at hp hq
      rw [prefixed_cons, prefixed_cons, List.cons.injEq] at h
      have hlength : p.length = q.length := by
        rw [← toNat_length hp.1, h.1, toNat_length hq.1]
      obtain ⟨rfl, hrest⟩ := List.append_inj h.2 hlength
      rw [ih hp.2 hq.2 hrest]

/-! ## Places -/

/-- `base` has `bytes` at `offset`. -/
def Placed (base : List UInt8) (offset : Nat) (bytes : List UInt8) : Prop := bytes <+: base.drop offset

variable {base : List UInt8} {offset : Nat} {bytes : List UInt8}

theorem placed_append {pre post : List UInt8} : Placed (pre ++ (bytes ++ post)) pre.length bytes := by
  rw [Placed, List.drop_left]
  exact List.prefix_append bytes post

theorem Placed.left {more : List UInt8} (h : Placed base offset (bytes ++ more)) : Placed base offset bytes :=
  (List.prefix_append bytes more).trans h

theorem Placed.right {more : List UInt8} (h : Placed base offset (bytes ++ more)) :
    Placed base (offset + bytes.length) more := by
  obtain ⟨rest, hrest⟩ := h
  refine ⟨rest, ?_⟩
  rw [← List.drop_drop, ← hrest, List.append_assoc, List.drop_left]

theorem Placed.tail {b : UInt8} (h : Placed base offset (b :: bytes)) : Placed base (offset + 1) bytes :=
  @Placed.right base offset [b] bytes h

theorem Placed.length_le (h : Placed base offset bytes) (hne : bytes ≠ []) : offset + bytes.length ≤ base.length := by
  have hlength := List.IsPrefix.length_le h
  have hpos := List.length_pos_iff.mpr hne
  rw [List.length_drop] at hlength
  omega

theorem Placed.take (h : Placed base offset bytes) : (base.drop offset).take bytes.length = bytes :=
  (List.prefix_iff_eq_take.mp h).symm

theorem Placed.getD {b : UInt8} (h : Placed base offset (b :: bytes)) : base.getD offset 0 = b := by
  obtain ⟨rest, hrest⟩ := h
  have hget : (base.drop offset)[0]? = some b := by rw [← hrest]; rfl
  rw [List.getElem?_drop, Nat.add_zero] at hget
  rw [List.getD_eq_getElem?_getD, hget, Option.getD_some]

end Starla.Framework
