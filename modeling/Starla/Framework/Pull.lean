import Mathlib.Algebra.Group.Nat.Defs
import Mathlib.Data.List.Basic

/-!
# Readers that take whole records off a stream

A stream is cut into records by a `Framing`. A `Puller` takes one record after
the other until one brings an event, and then looks at what is left.

* `Framing.split` : the records that are complete, and what is left.
* `Framing.split_append` : where a stream is cut makes no difference to them.
* `Puller.drain_append_of_none`, `Puller.drain_append_of_event` : nor does it
  to what a reader comes to.
-/

namespace Starla.Framework

variable {β ρ σ ε : Type}

/-- How a stream starts with a record. -/
structure Framing (β ρ : Type) where
  next : List β → Option (ρ × List β)
  shorter : ∀ {u r rest}, next u = some (r, rest) → rest.length < u.length
  /-- What follows a record does not change it. -/
  append : ∀ {u r rest} (v : List β), next u = some (r, rest) → next (u ++ v) = some (r, rest ++ v)

namespace Framing

def splitFrom (F : Framing β ρ) : (turns : Nat) → List β → List ρ × List β
  | 0, u => ([], u)
  | turns + 1, u =>
    match F.next u with
    | none => ([], u)
    | some (r, rest) => (r :: (splitFrom F turns rest).1, (splitFrom F turns rest).2)

variable (F : Framing β ρ)

/-- The complete records, and what is left. -/
def split (u : List β) : List ρ × List β := F.splitFrom u.length u

theorem next_nil : F.next [] = none := by
  cases h : F.next [] with
  | none => rfl
  | some s => exact absurd (F.shorter h) (Nat.not_lt_zero _)

theorem splitFrom_nil (n : Nat) : F.splitFrom n [] = ([], []) := by
  cases n with
  | zero => rfl
  | succ n => rw [splitFrom, F.next_nil]

theorem splitFrom_eq {n m : Nat} {u : List β} (hn : u.length ≤ n) (hm : u.length ≤ m) :
    F.splitFrom n u = F.splitFrom m u := by
  induction n generalizing m u with
  | zero =>
    rw [List.eq_nil_of_length_eq_zero (Nat.le_zero.mp hn), F.splitFrom_nil, F.splitFrom_nil]
  | succ n ih =>
    cases m with
    | zero =>
      rw [List.eq_nil_of_length_eq_zero (Nat.le_zero.mp hm), F.splitFrom_nil, F.splitFrom_nil]
    | succ m =>
      rw [splitFrom, splitFrom]
      cases h : F.next u with
      | none => rfl
      | some s =>
        have hlt : s.2.length < u.length := F.shorter h
        show (s.1 :: _, _) = (s.1 :: _, _)
        rw [ih (show s.2.length ≤ n by omega) (show s.2.length ≤ m by omega)]

theorem split_of_none {u : List β} (h : F.next u = none) : F.split u = ([], u) := by
  unfold split
  cases u.length with
  | zero => rfl
  | succ n => rw [splitFrom, h]

theorem split_of_some {u rest : List β} {r : ρ} (h : F.next u = some (r, rest)) :
    F.split u = (r :: (F.split rest).1, (F.split rest).2) := by
  have hlt := F.shorter h
  unfold split
  cases hu : u.length with
  | zero => omega
  | succ n =>
    rw [splitFrom, h]
    show (r :: _, _) = (r :: _, _)
    rw [F.splitFrom_eq (show rest.length ≤ n by omega) (Nat.le_refl _)]

/-- What is left is no record. -/
theorem next_split (u : List β) : F.next (F.split u).2 = none := by
  induction hn : u.length using Nat.strongRecOn generalizing u with
  | ind n ih =>
    cases h : F.next u with
    | none => rwa [F.split_of_none h]
    | some s =>
      obtain ⟨r, rest⟩ := s
      have hlt := F.shorter h
      rw [F.split_of_some h]
      exact ih rest.length (by omega) rest rfl

theorem split_append (u v : List β) :
    F.split (u ++ v) =
      ((F.split u).1 ++ (F.split ((F.split u).2 ++ v)).1, (F.split ((F.split u).2 ++ v)).2) := by
  induction hn : u.length using Nat.strongRecOn generalizing u with
  | ind n ih =>
    cases h : F.next u with
    | none => rw [F.split_of_none h]; rfl
    | some s =>
      obtain ⟨r, rest⟩ := s
      have hlt := F.shorter h
      rw [F.split_of_some (F.append v h), F.split_of_some h, ih rest.length (by omega) rest rfl]
      rfl

theorem split_nil_iff {u rest : List β} : F.split u = ([], rest) ↔ F.next u = none ∧ u = rest := by
  cases h : F.next u with
  | none => simp [F.split_of_none h]
  | some s => simp [F.split_of_some (show F.next u = some (s.1, s.2) from h)]

end Framing

/-! ## The reader -/

/-- What a reader does with a record, and with what is left. -/
structure Puller (β ρ σ ε : Type) extends Framing β ρ where
  take : σ → ρ → σ × Option ε
  look : σ → List β → σ
  /-- A record is read as if nothing of it had been seen. -/
  take_look : ∀ s u r, take (look s u) r = take s r
  look_look : ∀ s u v, look (look s u) (u ++ v) = look s (u ++ v)

namespace Puller

variable (P : Puller β ρ σ ε)

/-- The records taken until one brings an event, or there are no more. -/
def pull : σ → List ρ → σ × Option ε
  | s, [] => (s, none)
  | s, r :: rs =>
    match P.take s r with
    | (s, some e) => (s, some e)
    | (s, none) => pull s rs

/-- The reader's way through a stream. -/
def drain (s : σ) (u : List β) : σ × Option ε :=
  match P.pull s (P.split u).1 with
  | (s, some e) => (s, some e)
  | (s, none) => (P.look s (P.split u).2, none)

variable {s s' : σ} {u : List β} {r : ρ} {rs : List ρ} {e : ε}

@[simp] theorem pull_nil : P.pull s [] = (s, none) := rfl

theorem pull_cons_of_none (h : P.take s r = (s', none)) : P.pull s (r :: rs) = P.pull s' rs := by
  rw [pull, h]

theorem pull_cons_of_event (h : P.take s r = (s', some e)) : P.pull s (r :: rs) = (s', some e) := by
  rw [pull, h]

theorem pull_append_of_none (h : P.pull s rs = (s', none)) (rs' : List ρ) :
    P.pull s (rs ++ rs') = P.pull s' rs' := by
  induction rs generalizing s with
  | nil =>
    cases h
    rfl
  | cons r rs ih =>
    rcases ht : P.take s r with ⟨t, _ | e⟩
    · rw [P.pull_cons_of_none ht] at h
      rw [List.cons_append, P.pull_cons_of_none ht]
      exact ih h
    · rw [P.pull_cons_of_event ht] at h
      cases h

theorem pull_append_of_event (h : P.pull s rs = (s', some e)) (rs' : List ρ) :
    P.pull s (rs ++ rs') = (s', some e) := by
  induction rs generalizing s with
  | nil => cases h
  | cons r rs ih =>
    rcases ht : P.take s r with ⟨t, _ | e'⟩
    · rw [P.pull_cons_of_none ht] at h
      rw [List.cons_append, P.pull_cons_of_none ht]
      exact ih h
    · rw [P.pull_cons_of_event ht] at h
      rw [List.cons_append, P.pull_cons_of_event ht]
      exact h

theorem drain_of_none (h : P.pull s (P.split u).1 = (s', none)) :
    P.drain s u = (P.look s' (P.split u).2, none) := by
  rw [drain, h]

theorem drain_of_event (h : P.pull s (P.split u).1 = (s', some e)) : P.drain s u = (s', some e) := by
  rw [drain, h]

theorem drain_of_next_none (h : P.next u = none) : P.drain s u = (P.look s u, none) := by
  rw [drain, P.split_of_none h]
  rfl

theorem drain_of_next_take {rest : List β} (h : P.next u = some (r, rest)) (ht : P.take s r = (s', none)) :
    P.drain s u = P.drain s' rest := by
  rw [drain, P.split_of_some h, P.pull_cons_of_none ht]
  rfl

theorem drain_of_next_event {rest : List β} (h : P.next u = some (r, rest)) (ht : P.take s r = (s', some e)) :
    P.drain s u = (s', some e) := by
  rw [drain, P.split_of_some h, P.pull_cons_of_event ht]

/-- What has been seen of a record that is not complete makes no difference. -/
theorem drain_look (u v : List β) :
    P.drain (P.look s u) (u ++ v) = P.drain s (u ++ v) := by
  unfold drain
  rcases hs : P.split (u ++ v) with ⟨_ | ⟨r, rs⟩, rest⟩
  · have hrest : u ++ v = rest := (P.split_nil_iff.mp hs).2
    show (P.look (P.look s u) rest, none) = (P.look s rest, none)
    rw [← hrest, P.look_look]
  · show (match P.pull (P.look s u) (r :: rs) with | (s, some e) => _ | (s, none) => _) = _
    rw [pull, P.take_look]
    rfl

theorem drain_append_of_none (h : P.drain s u = (s', none)) (v : List β) :
    P.drain s (u ++ v) = P.drain s' ((P.split u).2 ++ v) := by
  rcases hp : P.pull s (P.split u).1 with ⟨t, _ | e⟩
  · rw [P.drain_of_none hp] at h
    cases h
    rw [P.drain_look, drain, P.split_append, P.pull_append_of_none hp]
    rfl
  · rw [P.drain_of_event hp] at h
    cases h

theorem drain_append_of_event (h : P.drain s u = (s', some e)) (v : List β) :
    P.drain s (u ++ v) = (s', some e) := by
  rcases hp : P.pull s (P.split u).1 with ⟨t, _ | e'⟩
  · rw [P.drain_of_none hp] at h
    cases h
  · rw [P.drain_of_event hp] at h
    cases h
    rw [drain, P.split_append, P.pull_append_of_event hp]

end Puller

end Starla.Framework
