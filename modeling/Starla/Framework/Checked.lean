import Mathlib.Algebra.Group.Int.Defs
import Mathlib.Algebra.Group.Nat.Defs
import Mathlib.Data.List.Basic
import Mathlib.Tactic.Common

/-!
# Code that indexes and counts

What a function with indices, slices and machine arithmetic comes to: its
value, no value, or the end of the program. A plain index or slice is one of
`index`, `slice`, `sliceFrom`, `sliceTo`, and plain arithmetic stands behind
`fits` or `fitsInt`: each panics out of range.

* `Computes` : code that never panics, with the value it computes.
* `Computes.bind`, `Computes.step`, `Computes.refuse`, `Computes.ite` : its
  rules, by the code's own statements.
-/

namespace Starla.Framework

variable {α β : Type}

inductive Stop
  /-- The function returned `None`, or an error. -/
  | absent
  | panics
deriving DecidableEq, Repr

abbrev Checked (α : Type) := Except Stop α

namespace Checked

def ofOption : Option α → Checked α
  | some a => .ok a
  | none => .error .absent

/-- An early `return None`. -/
def refuseIf (p : Prop) [Decidable p] : Checked Unit := if p then .error .absent else .ok ()

def index (l : List α) (i : Nat) : Checked α :=
  match l[i]? with
  | some a => .ok a
  | none => .error .panics

def slice (l : List α) (lo hi : Nat) : Checked (List α) :=
  if lo ≤ hi ∧ hi ≤ l.length then .ok ((l.take hi).drop lo) else .error .panics

def sliceFrom (l : List α) (lo : Nat) : Checked (List α) :=
  if lo ≤ l.length then .ok (l.drop lo) else .error .panics

def sliceTo (l : List α) (hi : Nat) : Checked (List α) :=
  if hi ≤ l.length then .ok (l.take hi) else .error .panics

/-- `get` of a range: no value where it is not there. -/
def getRange (l : List α) (lo hi : Nat) : Checked (List α) :=
  if lo ≤ hi ∧ hi ≤ l.length then .ok ((l.take hi).drop lo) else .error .absent

def check (p : Prop) [Decidable p] : Checked Unit := if p then .ok () else .error .panics

/-- An unsigned number of `w` bits can be `n`. -/
def fits (w n : Nat) : Checked Unit := check (n < 2 ^ w)

/-- A signed number of `w + 1` bits can be `n`. -/
def fitsInt (w : Nat) (n : Int) : Checked Unit := check (-2 ^ w ≤ n ∧ n < 2 ^ w)

theorem ok_bind (a : α) (f : α → Checked β) : ((.ok a : Checked α) >>= f) = f a := rfl

theorem index_eq {l : List α} {i : Nat} (d : α) (h : i < l.length) : index l i = .ok (l.getD i d) := by
  rw [index, List.getD_eq_getElem?_getD, List.getElem?_eq_getElem h]
  rfl

theorem slice_eq {l : List α} {lo hi : Nat} (h : lo ≤ hi) (h' : hi ≤ l.length) :
    slice l lo hi = .ok ((l.take hi).drop lo) := if_pos ⟨h, h'⟩

theorem sliceFrom_eq {l : List α} {lo : Nat} (h : lo ≤ l.length) : sliceFrom l lo = .ok (l.drop lo) :=
  if_pos h

theorem sliceTo_eq {l : List α} {hi : Nat} (h : hi ≤ l.length) : sliceTo l hi = .ok (l.take hi) := if_pos h

theorem getRange_eq {l : List α} {lo hi : Nat} (h : lo ≤ hi) (h' : hi ≤ l.length) :
    getRange l lo hi = .ok ((l.take hi).drop lo) := if_pos ⟨h, h'⟩

theorem getRange_absent {l : List α} {lo hi : Nat} (h : l.length < hi) :
    getRange l lo hi = .error .absent := if_neg fun hr => Nat.not_le_of_lt h hr.2

theorem check_eq {p : Prop} [Decidable p] (h : p) : check p = .ok () := if_pos h

theorem fits_eq {w n : Nat} (h : n < 2 ^ w) : fits w n = .ok () := check_eq h

theorem fitsInt_eq {w : Nat} {n : Int} (h : -2 ^ w ≤ n) (h' : n < 2 ^ w) : fitsInt w n = .ok () :=
  check_eq ⟨h, h'⟩

end Checked

/-- The code `c` never panics, and returns `o`. -/
def Computes (c : Checked α) (o : Option α) : Prop := c = Checked.ofOption o

namespace Computes

open Checked

theorem ok (a : α) : Computes (.ok a) (some a) := rfl

theorem absent : Computes (.error .absent : Checked α) none := rfl

theorem ofOption (o : Option α) : Computes (Checked.ofOption o) o := rfl

theorem not_panics {c : Checked α} {o : Option α} (h : Computes c o) : c ≠ .error .panics := by
  rw [h]
  cases o with
  | none => exact fun h => nomatch h
  | some a => exact fun h => nomatch h

theorem bind {c : Checked α} {o : Option α} {f : α → Checked β} {g : α → Option β} (hc : Computes c o)
    (hf : ∀ a, o = some a → Computes (f a) (g a)) : Computes (c >>= f) (o >>= g) := by
  rw [hc]
  cases o with
  | none => rfl
  | some a => exact hf a rfl

theorem bindMap {γ : Type} {c : Checked α} {o : Option α} {f : α → Checked γ} {m : α → β} {g : β → Option γ}
    (hc : Computes c o) (hf : ∀ a, o = some a → Computes (f a) (g (m a))) : Computes (c >>= f) (o.map m >>= g) := by
  rw [hc]
  cases o with
  | none => rfl
  | some a => exact hf a rfl

/-- A checked step that is in range. -/
theorem step {c : Checked α} {a : α} {f : α → Checked β} {o : Option β} (hc : c = .ok a)
    (hf : Computes (f a) o) : Computes (c >>= f) o := by
  rw [hc]
  exact hf

theorem refuse {p : Prop} [Decidable p] {f : Unit → Checked α} {o : Option α}
    (hf : ¬p → Computes (f ()) o) : Computes (refuseIf p >>= f) (if p then none else o) := by
  rw [refuseIf]
  by_cases h : p
  · rw [if_pos h, if_pos h]
    rfl
  · rw [if_neg h, if_neg h]
    exact hf h

/-- One of two reasons to return nothing, looked at first. -/
theorem refuse_or {p q : Prop} [Decidable p] [Decidable q] {f : Unit → Checked α} {o : Option α}
    (hf : ¬p → Computes (f ()) (if q then none else o)) :
    Computes (refuseIf p >>= f) (if p ∨ q then none else o) := by
  rw [ite_or]
  exact refuse hf

theorem ite {p : Prop} [Decidable p] {c c' : Checked α} {o o' : Option α} (h : p → Computes c o)
    (h' : ¬p → Computes c' o') : Computes (if p then c else c') (if p then o else o') := by
  by_cases hp : p
  · rw [if_pos hp, if_pos hp]
    exact h hp
  · rw [if_neg hp, if_neg hp]
    exact h' hp

end Computes

end Starla.Framework
