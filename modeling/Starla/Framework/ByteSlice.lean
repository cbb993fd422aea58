import Mathlib.Data.String.Basic
import Starla.Framework.Checked

/-!
# Text cut at a byte

A text is its characters, each of one to four bytes (`String.utf8Len`).

* `sliceBytes` : the first bytes of a text. A cut inside a character panics.
* `Cut` : a text cut to a number of bytes, between characters. It is the
  longest part of so many bytes and whole characters (`Cut.longest`).
* `Longest`, `floorBoundary` : the longest part of at most so many bytes, and
  the byte where it ends (`floorBoundary_eq`).
-/

namespace Starla.Framework

open String (utf8Len)

/-- `&s[..n]`. -/
def sliceBytes : (n : Nat) → List Char → Checked (List Char)
  | 0, _ => .ok []
  | _ + 1, [] => .error .panics
  | n + 1, c :: cs =>
    if c.utf8Size ≤ n + 1 then do
      let rest ← sliceBytes (n + 1 - c.utf8Size) cs
      return c :: rest
    else .error .panics

/-- `p` is `cs` cut to at most `n` bytes, `n` where it has them. -/
structure Cut (n : Nat) (cs p : List Char) : Prop where
  isPrefix : p <+: cs
  size : utf8Len p = min n (utf8Len cs)

theorem utf8Len_le_of_prefix {p cs : List Char} (h : p <+: cs) : utf8Len p ≤ utf8Len cs :=
  String.utf8Len_le_of_sublist h.sublist

/-- Of two parts of a text from its start, the one with fewer bytes is in the
other. -/
theorem prefix_of_utf8Len_le {p q cs : List Char} (hp : p <+: cs) (hq : q <+: cs) (h : utf8Len p ≤ utf8Len q) :
    p <+: q := by
  rcases List.prefix_or_prefix_of_prefix hp hq with hpq | ⟨rest, rfl⟩
  · exact hpq
  · rw [String.utf8Len_append] at h
    have hrest : rest = [] := String.utf8Len_eq_zero.mp (by omega)
    exact ⟨[], by rw [hrest, List.append_nil, List.append_nil]⟩

theorem eq_of_utf8Len_eq {p q cs : List Char} (hp : p <+: cs) (hq : q <+: cs) (h : utf8Len p = utf8Len q) : p = q :=
  (prefix_of_utf8Len_le hp hq h.le).eq_of_length_le (prefix_of_utf8Len_le hq hp h.ge).length_le

/-- A cut is the longest part of so many bytes and whole characters. -/
theorem Cut.longest {n : Nat} {cs p q : List Char} (h : Cut n cs p) (hq : q <+: cs) (hn : utf8Len q ≤ n) : q <+: p :=
  prefix_of_utf8Len_le hq h.isPrefix (by
    have := utf8Len_le_of_prefix hq
    rw [h.size]
    omega)

theorem Cut.unique {n : Nat} {cs p q : List Char} (h : Cut n cs p) (h' : Cut n cs q) : p = q :=
  eq_of_utf8Len_eq h.isPrefix h'.isPrefix (h.size.trans h'.size.symm)

theorem cut_self {n : Nat} {cs : List Char} (h : utf8Len cs ≤ n) : Cut n cs cs :=
  ⟨List.prefix_refl cs, (Nat.min_eq_right h).symm⟩

theorem cut_of_le {n : Nat} {cs p : List Char} (h : Cut n cs p) (hle : utf8Len cs ≤ n) : p = cs :=
  h.unique (cut_self hle)

/-- More text after a cut that is full changes nothing. -/
theorem Cut.append_full {n : Nat} {cs p : List Char} (h : Cut n cs p) (hfull : n ≤ utf8Len cs) (more : List Char) :
    Cut n (cs ++ more) p where
  isPrefix := h.isPrefix.trans (List.prefix_append cs more)
  size := by
    have := h.size
    rw [String.utf8Len_append]
    omega

/-- A cut of a text goes on after what is all inside it. -/
theorem cut_append {n : Nat} {a b p : List Char} (h : utf8Len a ≤ n) :
    Cut n (a ++ b) (a ++ p) ↔ Cut (n - utf8Len a) b p := by
  constructor
  · rintro ⟨hpre, hsize⟩
    rw [String.utf8Len_append, String.utf8Len_append] at hsize
    exact ⟨(List.prefix_append_right_inj a).mp hpre, by omega⟩
  · rintro ⟨hpre, hsize⟩
    refine ⟨(List.prefix_append_right_inj a).mpr hpre, ?_⟩
    rw [String.utf8Len_append, String.utf8Len_append]
    omega

theorem prefix_of_cut_append {n : Nat} {a b p : List Char} (h : utf8Len a ≤ n) (hp : Cut n (a ++ b) p) :
    ∃ q, p = a ++ q := by
  have ha : a <+: p := hp.longest (List.prefix_append a b) h
  obtain ⟨q, rfl⟩ := ha
  exact ⟨q, rfl⟩

/-- A slice that is in the text is the part of that size, if there is one. -/
theorem sliceBytes_of_prefix {p cs : List Char} (h : p <+: cs) : sliceBytes (utf8Len p) cs = .ok p := by
  induction p generalizing cs with
  | nil =>
    rw [String.utf8Len_nil, sliceBytes]
  | cons c p ih =>
    obtain ⟨rest, rfl⟩ := h
    have hpos := c.utf8Size_pos
    obtain ⟨n, hn⟩ : ∃ n, utf8Len (c :: p) = n + 1 := ⟨utf8Len p + c.utf8Size - 1, by
      rw [String.utf8Len_cons]
      omega⟩
    have hc : utf8Len p + c.utf8Size = n + 1 := by rw [← hn, String.utf8Len_cons]
    have hrest : n + 1 - c.utf8Size = utf8Len p := by omega
    rw [hn, List.cons_append, sliceBytes, if_pos (by omega), hrest, ih (List.prefix_append p rest)]
    rfl

theorem sliceBytes_panics {n : Nat} {cs : List Char} (h : ∀ p, p <+: cs → utf8Len p ≠ n) :
    sliceBytes n cs = .error .panics := by
  induction cs generalizing n with
  | nil =>
    cases n with
    | zero => exact absurd rfl (h [] (List.prefix_refl []))
    | succ n => rfl
  | cons c cs ih =>
    cases n with
    | zero => exact absurd rfl (h [] List.nil_prefix)
    | succ n =>
      rw [sliceBytes]
      by_cases hc : c.utf8Size ≤ n + 1
      · rw [if_pos hc, ih fun p hp hsize => h (c :: p) (List.cons_prefix_cons.mpr ⟨rfl, hp⟩) (by
          rw [String.utf8Len_cons]
          omega)]
        rfl
      · rw [if_neg hc]

/-! ## The boundary before -/

/-- `is_char_boundary`. -/
def isCharBoundary : List Char → (n : Nat) → Bool
  | _, 0 => true
  | [], _ + 1 => false
  | c :: cs, n + 1 => c.utf8Size ≤ n + 1 && isCharBoundary cs (n + 1 - c.utf8Size)

/-- `while !s.is_char_boundary(n) { n -= 1 }`. -/
def floorBoundary (cs : List Char) : (n : Nat) → Checked Nat
  | 0 => if isCharBoundary cs 0 then .ok 0 else .error .panics
  | n + 1 => if isCharBoundary cs (n + 1) then .ok (n + 1) else floorBoundary cs n

/-- `p` is the longest part of `cs`, from its start, of at most `n` bytes. -/
structure Longest (n : Nat) (cs p : List Char) : Prop where
  isPrefix : p <+: cs
  size : utf8Len p ≤ n
  longest : ∀ q, q <+: cs → utf8Len q ≤ n → q <+: p

theorem isCharBoundary_iff {cs : List Char} {n : Nat} : isCharBoundary cs n = true ↔ ∃ p, p <+: cs ∧ utf8Len p = n := by
  induction cs generalizing n with
  | nil =>
    cases n with
    | zero => exact iff_of_true rfl ⟨[], List.prefix_refl [], rfl⟩
    | succ n => simp [isCharBoundary, List.prefix_nil]
  | cons c cs ih =>
    cases n with
    | zero => exact iff_of_true rfl ⟨[], List.nil_prefix, rfl⟩
    | succ n =>
      rw [isCharBoundary, Bool.and_eq_true, decide_eq_true_eq, ih]
      constructor
      · rintro ⟨hc, p, hp, hsize⟩
        refine ⟨c :: p, List.cons_prefix_cons.mpr ⟨rfl, hp⟩, ?_⟩
        rw [String.utf8Len_cons]
        omega
      · rintro ⟨p, hp, hsize⟩
        cases p with
        | nil => cases hsize
        | cons d p =>
          obtain ⟨rfl, htail⟩ := List.cons_prefix_cons.mp hp
          rw [String.utf8Len_cons] at hsize
          exact ⟨by omega, p, htail, by omega⟩

/-- The loop ends where the longest part does. -/
theorem floorBoundary_eq {n : Nat} {cs p : List Char} (h : Longest n cs p) : floorBoundary cs n = .ok (utf8Len p) := by
  induction n with
  | zero =>
    have hzero : isCharBoundary cs 0 = true := isCharBoundary_iff.mpr ⟨[], List.nil_prefix, rfl⟩
    rw [floorBoundary, if_pos hzero, Nat.le_zero.mp h.size]
  | succ n ih =>
    rw [floorBoundary]
    by_cases hb : isCharBoundary cs (n + 1) = true
    · obtain ⟨q, hq, hsize⟩ := isCharBoundary_iff.mp hb
      have hle := utf8Len_le_of_prefix (h.longest q hq hsize.le)
      have := h.size
      rw [if_pos hb]
      congr 1
      omega
    · have hne : utf8Len p ≠ n + 1 := fun hsize => hb (isCharBoundary_iff.mpr ⟨p, h.isPrefix, hsize⟩)
      have := h.size
      rw [if_neg hb]
      exact ih ⟨h.isPrefix, by omega, fun q hq hn => h.longest q hq (by omega)⟩

end Starla.Framework
