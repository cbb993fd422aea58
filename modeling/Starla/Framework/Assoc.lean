import Mathlib.Data.List.AList

/-!
# Association lists: restriction and in-place update

Two operations a hash map has and `AList` lacks, for values of one type:
`filterKeys` keeps the entries whose key passes a test, and `retain` visits
every entry once, replacing its value or dropping it. Each is known by what
it does to a lookup.
-/

namespace Starla.Framework

variable {K V : Type*}

/-- A map from `K` to `V`. -/
abbrev Assoc (K V : Type*) := AList fun _ : K => V

namespace Assoc

theorem keys_filterMap_sublist (f : K → V → Option V) (l : List (Sigma fun _ : K => V)) :
    (l.filterMap fun e => (f e.1 e.2).map (⟨e.1, ·⟩ : V → Sigma fun _ : K => V)).keys.Sublist l.keys := by
  induction l with
  | nil => exact List.Sublist.slnil
  | cons e l ih =>
    rw [List.filterMap_cons]
    cases f e.1 e.2 with
    | none => exact ih.cons _
    | some v => exact ih.cons_cons _

/-- Visits every entry, keeping it with a new value or dropping it. -/
def retain (f : K → V → Option V) (m : Assoc K V) : Assoc K V where
  entries := m.entries.filterMap fun e => (f e.1 e.2).map (⟨e.1, ·⟩)
  nodupKeys := List.Nodup.sublist (keys_filterMap_sublist f m.entries) m.nodupKeys

/-- The entries whose key passes a test. -/
def filterKeys (p : K → Bool) (m : Assoc K V) : Assoc K V :=
  m.retain fun k v => if p k then some v else none

variable [DecidableEq K]

theorem dlookup_retain (f : K → V → Option V) (k : K) (l : List (Sigma fun _ : K => V))
    (h : l.NodupKeys) :
    (l.filterMap fun e => (f e.1 e.2).map (⟨e.1, ·⟩ : V → Sigma fun _ : K => V)).dlookup k =
      (l.dlookup k).bind (f k) := by
  induction l with
  | nil => rfl
  | cons e l ih =>
    obtain ⟨a, v⟩ := e
    obtain ⟨hnew, hl⟩ := List.nodupKeys_cons.mp h
    rw [List.filterMap_cons]
    by_cases ha : a = k
    · subst ha
      rw [List.dlookup_cons_eq, Option.bind_some]
      cases hv : f a v with
      | none =>
        simp only [Option.map_none]
        rw [ih hl, List.dlookup_eq_none.mpr hnew, Option.bind_none]
      | some v' => exact List.dlookup_cons_eq _ _ _
    · rw [List.dlookup_cons_ne _ _ (Ne.symm ha), ← ih hl]
      cases f a v with
      | none => rfl
      | some v' => exact List.dlookup_cons_ne _ _ (Ne.symm ha)

@[simp] theorem lookup_retain (f : K → V → Option V) (k : K) (m : Assoc K V) :
    (m.retain f).lookup k = (m.lookup k).bind (f k) :=
  dlookup_retain f k m.entries m.nodupKeys

@[simp] theorem lookup_filterKeys (p : K → Bool) (k : K) (m : Assoc K V) :
    (m.filterKeys p).lookup k = if p k then m.lookup k else none := by
  rw [filterKeys, lookup_retain]
  cases hk : m.lookup k <;> cases hp : p k <;> rfl

theorem mem_iff_lookup {k : K} {m : Assoc K V} : k ∈ m ↔ (m.lookup k).isSome := AList.lookup_isSome.symm

end Assoc

end Starla.Framework
