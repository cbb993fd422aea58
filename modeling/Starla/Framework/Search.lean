import Starla.Framework.Text

/-!
# Where a text is first found in another

* `findSub_take` : in the first part of a text, it is found where it is found in
  the whole, or is not there yet.
* `findSub_le` : nowhere before.
-/

namespace Starla.Framework

variable {α : Type} [DecidableEq α]

/-- What comes before and after the first `p`. -/
def findSub (p : List α) : List α → Option (List α × List α)
  | [] => if p.isEmpty then some ([], []) else none
  | c :: cs =>
    match stripPrefix p (c :: cs) with
    | some rest => some ([], rest)
    | none => (findSub p cs).map fun s => (c :: s.1, s.2)

theorem stripPrefix_append (p rest : List α) : stripPrefix p (p ++ rest) = some rest :=
  stripPrefix_eq_some.mpr rfl

theorem stripPrefix_eq_none_of_append {p cs v : List α} (h : stripPrefix p (cs ++ v) = none) :
    stripPrefix p cs = none := by
  cases hs : stripPrefix p cs with
  | none => rfl
  | some rest =>
    rw [stripPrefix_eq_some.mp hs, List.append_assoc, stripPrefix_append] at h
    cases h

/-- What comes after enough of a text decides nothing. -/
theorem stripPrefix_append_eq_none {p cs : List α} (hlen : p.length ≤ cs.length) (h : stripPrefix p cs = none)
    (v : List α) : stripPrefix p (cs ++ v) = none := by
  cases hs : stripPrefix p (cs ++ v) with
  | none => rfl
  | some rest =>
    have hp : p <+: cs := by
      refine List.prefix_of_prefix_length_le ?_ (List.prefix_append cs v) hlen
      exact ⟨rest, (stripPrefix_eq_some.mp hs).symm⟩
    obtain ⟨rest, rfl⟩ := hp
    rw [stripPrefix_append] at h
    cases h

theorem findSub_cons_of_some {p cs rest : List α} {c : α} (h : stripPrefix p (c :: cs) = some rest) :
    findSub p (c :: cs) = some ([], rest) := by
  rw [findSub, h]

theorem findSub_cons_of_none {p cs : List α} {c : α} (h : stripPrefix p (c :: cs) = none) :
    findSub p (c :: cs) = (findSub p cs).map fun s => (c :: s.1, s.2) := by
  rw [findSub, h]

theorem findSub_eq_some {p cs a b : List α} (h : findSub p cs = some (a, b)) : cs = a ++ (p ++ b) := by
  induction cs generalizing a with
  | nil =>
    rw [findSub] at h
    split_ifs at h with hp
    cases h
    rw [List.isEmpty_iff.mp hp]
    rfl
  | cons c cs ih =>
    cases hs : stripPrefix p (c :: cs) with
    | some rest =>
      rw [findSub_cons_of_some hs] at h
      cases h
      exact (stripPrefix_eq_some (p := p)).mp hs
    | none =>
      rw [findSub_cons_of_none hs] at h
      obtain ⟨⟨a', b'⟩, hs', he⟩ := Option.map_eq_some_iff.mp h
      cases he
      exact congrArg (c :: ·) (ih hs')

/-- Where it is found depends on what comes before it alone. -/
theorem findSub_replace {p a b : List α} (h : findSub p (a ++ (p ++ b)) = some (a, b)) (x : List α) :
    findSub p (a ++ (p ++ x)) = some (a, x) := by
  induction a with
  | nil =>
    cases p with
    | nil => cases x <;> rfl
    | cons c p => exact findSub_cons_of_some (stripPrefix_append (c :: p) x)
  | cons c a ih =>
    cases hs : stripPrefix p (c :: (a ++ (p ++ b))) with
    | some rest =>
      rw [List.cons_append, findSub_cons_of_some hs] at h
      cases h
    | none =>
      rw [List.cons_append, findSub_cons_of_none hs] at h
      obtain ⟨⟨a', b'⟩, hs', he⟩ := Option.map_eq_some_iff.mp h
      obtain ⟨rfl, rfl⟩ : a' = a ∧ b' = b := by simpa using he
      have hnone : stripPrefix p (c :: (a' ++ p)) = none := by
        rw [← List.append_assoc, ← List.cons_append] at hs
        exact stripPrefix_eq_none_of_append hs
      have hx := stripPrefix_append_eq_none (by simp; omega) hnone x
      rw [List.cons_append, List.append_assoc] at hx
      rw [List.cons_append, findSub_cons_of_none hx, ih hs']
      rfl

theorem findSub_append {p cs a b : List α} (h : findSub p cs = some (a, b)) (v : List α) :
    findSub p (cs ++ v) = some (a, b ++ v) := by
  have hcs := findSub_eq_some h
  rw [hcs] at h
  rw [hcs, List.append_assoc, List.append_assoc]
  exact findSub_replace h (b ++ v)

theorem findSub_take_of_none {p cs : List α} (h : findSub p cs = none) (k : Nat) : findSub p (cs.take k) = none := by
  cases hs : findSub p (cs.take k) with
  | none => rfl
  | some s =>
    have := findSub_append hs (cs.drop k)
    rw [List.take_append_drop, h] at this
    cases this

theorem findSub_take {p cs a b : List α} (h : findSub p cs = some (a, b)) (k : Nat) :
    findSub p (cs.take k) =
      if a.length + p.length ≤ k then some (a, b.take (k - (a.length + p.length))) else none := by
  have hcs := findSub_eq_some h
  split_ifs with hk
  · have htake : cs.take k = a ++ (p ++ b.take (k - (a.length + p.length))) := by
      rw [hcs, ← List.append_assoc, List.take_append, List.take_of_length_le (by simp; omega), List.length_append,
        List.append_assoc]
    rw [htake]
    rw [hcs] at h
    exact findSub_replace h _
  · cases hs : findSub p (cs.take k) with
    | none => rfl
    | some s =>
      have happ := findSub_append hs (cs.drop k)
      rw [List.take_append_drop, h] at happ
      cases happ
      have hlen := congrArg List.length (findSub_eq_some hs)
      simp only [List.length_append, List.length_take] at hlen
      omega

/-- It is found no later than any place it is at. -/
theorem findSub_le {p cs a b : List α} (h : cs = a ++ (p ++ b)) :
    ∃ a' b', findSub p cs = some (a', b') ∧ a'.length ≤ a.length := by
  subst h
  induction a with
  | nil =>
    refine ⟨[], b, ?_, Nat.le_refl _⟩
    cases p with
    | nil => cases b <;> rfl
    | cons c p => exact findSub_cons_of_some (stripPrefix_append (c :: p) b)
  | cons c a ih =>
    cases hs : stripPrefix p (c :: (a ++ (p ++ b))) with
    | some rest => exact ⟨[], rest, findSub_cons_of_some hs, Nat.zero_le _⟩
    | none =>
      obtain ⟨a', b', hfind, hle⟩ := ih
      refine ⟨c :: a', b', ?_, Nat.succ_le_succ hle⟩
      rw [List.cons_append, findSub_cons_of_none hs, hfind]
      rfl

end Starla.Framework
