import Mathlib.Algebra.Group.Nat.Defs
import Starla.Framework.Assoc

/-!
# Tables of weak references

A table files values under keys by their addresses and keeps none of them
alive. `prune` drops the entries of dead values; `upgrade` is the live value
of a key.
-/

namespace Starla.Framework

/-- The address of the value each key was last given. -/
abbrev Weak (K : Type*) := Assoc K Nat

namespace Weak

variable {K : Type*}

def prune (live : Nat → Bool) (t : Weak K) : Weak K := t.retain fun _ a => if live a then some a else none

variable [DecidableEq K]

def upgrade (live : Nat → Bool) (k : K) (t : Weak K) : Option Nat := (t.lookup k).filter live

theorem upgrade_eq_some {live : Nat → Bool} {k : K} {t : Weak K} {a : Nat} :
    t.upgrade live k = some a ↔ t.lookup k = some a ∧ live a = true := by
  rw [upgrade, Option.filter_eq_some_iff]

theorem lookup_prune (live : Nat → Bool) (k : K) (t : Weak K) :
    (t.prune live).lookup k = t.upgrade live k := by
  rw [prune, Assoc.lookup_retain, upgrade]
  cases t.lookup k with
  | none => rfl
  | some a => cases ha : live a <;> simp [Option.filter, ha]

/-- Pruning loses no live value. -/
@[simp] theorem upgrade_prune (live : Nat → Bool) (k : K) (t : Weak K) :
    (t.prune live).upgrade live k = t.upgrade live k := by
  rw [upgrade, lookup_prune, upgrade, Option.filter_filter]
  simp only [Bool.and_self]

/-- The table files no address twice, and none from `next` on. -/
structure Ok (t : Weak K) (next : Nat) : Prop where
  inj : ∀ k k' a, t.lookup k = some a → t.lookup k' = some a → k = k'
  fresh : ∀ k a, t.lookup k = some a → a < next

theorem ok_empty (next : Nat) : Ok (∅ : Weak K) next where
  inj k k' a h := by rw [AList.lookup_empty] at h; cases h
  fresh k a h := by rw [AList.lookup_empty] at h; cases h

theorem Ok.mono {t : Weak K} {next next' : Nat} (h : t.Ok next) (hle : next ≤ next') : t.Ok next' :=
  ⟨h.inj, fun k a ha => Nat.lt_of_lt_of_le (h.fresh k a ha) hle⟩

theorem Ok.prune {t : Weak K} {next : Nat} (h : t.Ok next) (live : Nat → Bool) : (t.prune live).Ok next := by
  have hold : ∀ k a, (t.prune live).lookup k = some a → t.lookup k = some a := fun k a ha => by
    rw [lookup_prune] at ha
    exact (upgrade_eq_some.mp ha).1
  exact ⟨fun k k' a ha ha' => h.inj k k' a (hold k a ha) (hold k' a ha'), fun k a ha => h.fresh k a (hold k a ha)⟩

theorem Ok.insert {t : Weak K} {next : Nat} (h : t.Ok next) (k : K) :
    Ok (AList.insert k next t : Weak K) (next + 1) := by
  have hold : ∀ k' a, (AList.insert k next t).lookup k' = some a →
      (k' = k ∧ a = next) ∨ (k' ≠ k ∧ t.lookup k' = some a) := by
    intro k' a ha
    by_cases hk : k' = k
    · rw [hk, AList.lookup_insert] at ha
      exact .inl ⟨hk, (Option.some.inj ha).symm⟩
    · rw [AList.lookup_insert_ne hk] at ha
      exact .inr ⟨hk, ha⟩
  constructor
  · intro k₁ k₂ a h₁ h₂
    rcases hold k₁ a h₁ with ⟨e₁, ha⟩ | ⟨-, old₁⟩ <;> rcases hold k₂ a h₂ with ⟨e₂, ha'⟩ | ⟨-, old₂⟩
    · rw [e₁, e₂]
    · have := h.fresh k₂ a old₂
      omega
    · have := h.fresh k₁ a old₁
      omega
    · exact h.inj k₁ k₂ a old₁ old₂
  · intro k' a ha
    rcases hold k' a ha with ⟨-, rfl⟩ | ⟨-, ha⟩
    · omega
    · have := h.fresh k' a ha
      omega

end Weak

end Starla.Framework
