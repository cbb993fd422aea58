import Mathlib.Data.List.Basic
import Mathlib.Logic.Function.Basic
import Mathlib.Tactic.Common

/-!
# Mark, insert, delete

The in-place way to replace a part of a table by a list of items: mark every
entry of the part, insert the items (an item finds its entry, marked or not,
updates it and clears its mark, or makes a new one), then delete what is still
marked. The table is a function, so an entry is known by its lookup.

* `markInsertDelete_of_not` : the rest of the table is left alone.
* `markInsertDelete_kept`, `markInsertDelete_fresh` : what becomes of an entry
  of the part that the list holds.
-/

namespace Starla.Framework

variable {K V I : Type*} [DecidableEq K]

/-- An entry and its mark. -/
structure Marked (V : Type*) where
  value : V
  needsDelete : Bool

/-- A pass over a table: the part it replaces, the key of an item, the entry an
item makes, and what an item does to an entry it finds. -/
structure MarkingPass (K V I : Type*) where
  inPart : K → Bool
  key : I → K
  fresh : I → V
  again : V → I → V
  key_inPart : ∀ i, inPart (key i) = true

namespace MarkingPass

variable (P : MarkingPass K V I)

def mark (table : K → Option V) (k : K) : Option (Marked V) := (table k).map (⟨·, P.inPart k⟩)

def insert (table : K → Option (Marked V)) (i : I) : K → Option (Marked V) :=
  Function.update table (P.key i) (some ⟨match table (P.key i) with
    | some m => P.again m.value i
    | none => P.fresh i, false⟩)

def delete (table : K → Option (Marked V)) (k : K) : Option V :=
  (table k).bind fun m => if m.needsDelete then none else some m.value

/-- The whole pass. -/
def markInsertDelete (table : K → Option V) (items : List I) : K → Option V :=
  delete (items.foldl P.insert (P.mark table))

/-- The items with a key. -/
def occurrences (items : List I) (k : K) : List I := items.filter fun i => P.key i = k

variable {P} {table : K → Option V} {items : List I} {k : K}

theorem foldl_insert_of_nil (st : K → Option (Marked V)) (h : P.occurrences items k = []) :
    items.foldl P.insert st k = st k := by
  induction items generalizing st with
  | nil => rfl
  | cons i is ih =>
    rw [occurrences, List.filter_cons] at h
    by_cases hi : P.key i = k
    · simp [hi] at h
    · simp only [hi, decide_false, Bool.false_eq_true, if_false] at h
      rw [List.foldl_cons, ih _ h, insert, Function.update_of_ne (Ne.symm hi)]

/-- An entry the insertions find, after them. -/
theorem foldl_insert_of_some (st : K → Option (Marked V)) {m : Marked V} (h : st k = some m)
    (hne : P.occurrences items k ≠ []) :
    items.foldl P.insert st k = some ⟨(P.occurrences items k).foldl P.again m.value, false⟩ := by
  induction items generalizing st m with
  | nil => exact absurd rfl hne
  | cons i is ih =>
    rw [List.foldl_cons]
    by_cases hi : P.key i = k
    · have hocc : P.occurrences (i :: is) k = i :: P.occurrences is k := by
        simp [occurrences, hi]
      have hst : P.insert st i k = some ⟨P.again m.value i, false⟩ := by
        rw [insert, hi, Function.update_self, h]
      rw [hocc, List.foldl_cons]
      by_cases hrest : P.occurrences is k = []
      · rw [foldl_insert_of_nil _ hrest, hrest, hst]; rfl
      · exact ih _ hst hrest
    · have hocc : P.occurrences (i :: is) k = P.occurrences is k := by
        simp [occurrences, hi]
      rw [hocc] at hne ⊢
      exact ih _ (by rw [insert, Function.update_of_ne (Ne.symm hi)]; exact h) hne

/-- An entry the insertions make. -/
theorem foldl_insert_of_none (st : K → Option (Marked V)) (h : st k = none) {i : I} {is : List I}
    (hocc : P.occurrences items k = i :: is) :
    items.foldl P.insert st k = some ⟨is.foldl P.again (P.fresh i), false⟩ := by
  induction items generalizing st with
  | nil => cases hocc
  | cons j js ih =>
    rw [List.foldl_cons]
    by_cases hj : P.key j = k
    · have hc : P.occurrences (j :: js) k = j :: P.occurrences js k := by simp [occurrences, hj]
      obtain ⟨rfl, rfl⟩ := List.cons_eq_cons.mp (hc.symm.trans hocc)
      have hst : P.insert st j k = some ⟨P.fresh j, false⟩ := by
        rw [insert, hj, Function.update_self, h]
      by_cases hrest : P.occurrences js k = []
      · rw [foldl_insert_of_nil _ hrest, hrest, hst]; rfl
      · exact foldl_insert_of_some _ hst hrest
    · have hc : P.occurrences (j :: js) k = P.occurrences js k := by simp [occurrences, hj]
      exact ih _ (by rw [insert, Function.update_of_ne (Ne.symm hj)]; exact h) (hc ▸ hocc)

theorem occurrences_of_not (h : P.inPart k = false) : P.occurrences items k = [] := by
  refine List.filter_eq_nil_iff.mpr fun i _ hi => ?_
  have hi : P.key i = k := by simpa using hi
  exact Bool.noConfusion ((hi ▸ P.key_inPart i).symm.trans h)

theorem markInsertDelete_of_not (h : P.inPart k = false) :
    P.markInsertDelete table items k = table k := by
  rw [markInsertDelete, delete, foldl_insert_of_nil _ (occurrences_of_not h), mark, h]
  cases table k <;> rfl

theorem markInsertDelete_kept {v : V} (hv : table k = some v) (hne : P.occurrences items k ≠ []) :
    P.markInsertDelete table items k = some ((P.occurrences items k).foldl P.again v) := by
  rw [markInsertDelete, delete, foldl_insert_of_some _ (by rw [mark, hv, Option.map_some]) hne]
  rfl

theorem markInsertDelete_fresh (hv : table k = none) {i : I} {is : List I}
    (hocc : P.occurrences items k = i :: is) :
    P.markInsertDelete table items k = some (is.foldl P.again (P.fresh i)) := by
  rw [markInsertDelete, delete, foldl_insert_of_none _ (by rw [mark, hv, Option.map_none]) hocc]
  rfl

end MarkingPass

end Starla.Framework
