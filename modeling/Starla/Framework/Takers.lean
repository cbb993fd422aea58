import Mathlib.Data.List.Basic
import Starla.Framework.Bytes

/-!
# What is taken off the front of a list

A taker takes what it reads off the front of a list and leaves the rest.

* `Takes` : what a taker takes of some symbols, whatever comes after them
  (`Takes.bind`, `Takes.unique`).
* `whole`, `every` : a list that is one thing, or one thing after another
  (`every_flatMap`).
* `symbols`, `number`, `vector` : so many symbols, a number, and bytes with their
  number before them. A number that is cut leaves some of the bytes
  (`whole_vector_of_le`).
-/

namespace Starla.Framework

variable {σ α β : Type}

abbrev Taker (σ α : Type) := StateT (List σ) Option α

/-- Of `s` the taker takes `a`, whatever comes after. -/
def Takes (r : Taker σ α) (s : List σ) (a : α) : Prop := ∀ rest, r.run (s ++ rest) = some (a, rest)

variable {r : Taker σ α} {f : α → Taker σ β} {s t s' t' : List σ} {a a' : α} {b : β}

namespace Takes

theorem pure (a : α) : Takes (Pure.pure a : Taker σ α) [] a := fun _ => rfl

theorem bind (h : Takes r s a) (hf : Takes (f a) t b) : Takes (r >>= f) (s ++ t) b := by
  intro rest
  rw [StateT.run_bind, List.append_assoc, h]
  exact hf rest

/-- What comes after needs nothing more. -/
theorem bind_last (h : Takes r s a) (hf : Takes (f a) [] b) : Takes (r >>= f) s b := by
  have hboth := h.bind hf
  rw [List.append_nil] at hboth
  exact hboth

theorem map (g : α → β) (h : Takes r s a) : Takes (g <$> r) s (g a) := by
  intro rest
  rw [StateT.run_map, h]
  rfl

/-- Nothing else is taken of the same symbols. -/
theorem unique (h : Takes r s a) (h' : Takes r s' a') (heq : s ++ t = s' ++ t') : a = a' ∧ t = t' := by
  have hrun := h t
  rw [heq, h' t', Option.some.injEq, Prod.mk.injEq] at hrun
  exact ⟨hrun.1.symm, hrun.2.symm⟩

end Takes

theorem run_bind_eq_some : (r >>= f).run s = some (b, t) ↔ ∃ a s', r.run s = some (a, s') ∧ (f a).run s' = some (b, t) := by
  rw [StateT.run_bind]
  constructor
  · intro h
    obtain ⟨⟨a, s'⟩, hr, hf⟩ := Option.bind_eq_some_iff.mp h
    exact ⟨a, s', hr, hf⟩
  · rintro ⟨a, s', hr, hf⟩
    exact Option.bind_eq_some_iff.mpr ⟨(a, s'), hr, hf⟩

/-! ## Lists that are taken whole -/

/-- The list is one thing. -/
def whole (r : Taker σ α) (s : List σ) : Option α :=
  match r.run s with
  | some (a, []) => some a
  | _ => none

theorem Takes.whole (h : Takes r s a) : whole r s = some a := by
  have hrun := h []
  rw [List.append_nil] at hrun
  rw [Framework.whole, hrun]

theorem of_whole (h : Framework.whole r s = some a) : r.run s = some (a, []) := by
  unfold Framework.whole at h
  split at h
  · rename_i a' hrun
    cases h
    exact hrun
  · cases h

/-- What comes first is taken first. -/
theorem Takes.whole_bind (h : Takes r s a) : Framework.whole (r >>= f) (s ++ t) = Framework.whole (f a) t := by
  rw [Framework.whole, Framework.whole, StateT.run_bind, h]
  rfl

theorem Takes.whole_bind_last (h : Takes r s a) : Framework.whole (r >>= f) s = Framework.whole (f a) [] := by
  rw [← h.whole_bind (f := f), List.append_nil]

/-- The list has more. -/
theorem whole_of_left (h : r.run s = some (a, t)) (ht : t ≠ []) : whole r s = none := by
  rw [whole, h]
  cases t with
  | nil => exact absurd rfl ht
  | cons x t => rfl

/-- So many turns of a taker, until nothing is left. -/
def everyFrom (r : Taker σ α) : (turns : Nat) → List σ → Option (List α)
  | _, [] => some []
  | 0, _ :: _ => none
  | turns + 1, x :: s => do
    let (a, rest) ← r.run (x :: s)
    let as ← everyFrom r turns rest
    return a :: as

/-- The list is one thing after another, of a symbol or more. -/
def every (r : Taker σ α) (s : List σ) : Option (List α) := everyFrom r s.length s

theorem everyFrom_append {as : List α} {turns : Nat} (h : Takes r s a) (hs : s ≠ [])
    (ht : everyFrom r turns t = some as) : everyFrom r (turns + 1) (s ++ t) = some (a :: as) := by
  obtain ⟨x, s, rfl⟩ := List.exists_cons_of_ne_nil hs
  rw [List.cons_append, everyFrom, ← List.cons_append, h t]
  show (everyFrom r turns t).bind _ = _
  rw [ht]
  rfl

theorem everyFrom_flatMap {enc : α → List σ} {as : List α} (h : ∀ a ∈ as, Takes r (enc a) a ∧ enc a ≠ [])
    {turns : Nat} (hturns : as.length ≤ turns) : everyFrom r turns (as.flatMap enc) = some as := by
  induction as generalizing turns with
  | nil =>
    rw [List.flatMap_nil]
    unfold everyFrom
    rfl
  | cons a as ih =>
    rw [List.forall_mem_cons] at h
    obtain ⟨turns, rfl⟩ : ∃ n, turns = n + 1 := ⟨turns - 1, by rw [List.length_cons] at hturns; omega⟩
    rw [List.flatMap_cons]
    apply everyFrom_append h.1.1 h.1.2
    apply ih h.2
    rw [List.length_cons] at hturns
    omega

/-- What is written one after the other is taken so. -/
theorem every_flatMap {enc : α → List σ} {as : List α} (h : ∀ a ∈ as, Takes r (enc a) a ∧ enc a ≠ []) :
    every r (as.flatMap enc) = some as := by
  apply everyFrom_flatMap h
  induction as with
  | nil => simp
  | cons a as ih =>
    rw [List.forall_mem_cons] at h
    have hpos := List.length_pos_iff.mpr h.1.2
    have := ih h.2
    rw [List.flatMap_cons, List.length_append, List.length_cons]
    omega

/-- So many things, one after another. -/
def times (r : Taker σ α) : Nat → Taker σ (List α)
  | 0 => return []
  | n + 1 => do
    let a ← r
    let as ← times r n
    return a :: as

theorem takes_times {enc : α → List σ} {as : List α} (h : ∀ a ∈ as, Takes r (enc a) a) :
    Takes (times r as.length) (as.flatMap enc) as := by
  induction as with
  | nil => exact .pure []
  | cons a as ih =>
    rw [List.forall_mem_cons] at h
    rw [List.length_cons, List.flatMap_cons, times]
    apply h.1.bind
    exact (ih h.2).bind_last (.pure _)

/-! ## Symbols, numbers and vectors -/

/-- The next `n` symbols. -/
def symbols (n : Nat) : Taker σ (List σ) := fun s => if n ≤ s.length then some (s.take n, s.drop n) else none

theorem symbols_append (s t : List σ) : (symbols s.length).run (s ++ t) = some (s, t) := by
  have hle : s.length ≤ (s ++ t).length := by simp
  show (if s.length ≤ (s ++ t).length then _ else none : Option (List σ × List σ)) = _
  rw [if_pos hle, List.take_left, List.drop_left]

theorem takes_symbols {n : Nat} (h : s.length = n) : Takes (symbols n) s s := by
  subst h
  exact symbols_append s

/-- The next thing is as it has to be. -/
def demand (p : Prop) [Decidable p] : Taker σ Unit := if p then pure () else StateT.lift none

theorem takes_demand {p : Prop} [Decidable p] (h : p) : Takes (demand p : Taker σ Unit) [] () := by
  rw [demand, if_pos h]
  exact .pure ()

/-- What the thing is found to be. -/
def found (x : Option α) : Taker σ α := StateT.lift x

theorem of_found {x : Option α} (h : (found x : Taker σ α).run s = some (a, t)) : x = some a := by
  cases x with
  | none => cases h
  | some a' => cases h; rfl

theorem takes_found (a : α) : Takes (found (some a) : Taker σ α) [] a := fun _ => rfl

/-- The number in the next `k` bytes. -/
def number (k : Nat) : Taker UInt8 Nat := beNat <$> symbols k

/-- A number is cut to its bytes. -/
theorem takes_number_mod (k n : Nat) : Takes (number k) (beBytes k n) (n % 256 ^ k) := by
  rw [← beNat_beBytes]
  exact (takes_symbols (length_beBytes k n)).map beNat

theorem takes_number {k n : Nat} (h : n < 256 ^ k) : Takes (number k) (beBytes k n) n := by
  have hnumber := takes_number_mod k n
  rw [Nat.mod_eq_of_lt h] at hnumber
  exact hnumber

/-- Bytes after their number, in `k` bytes. -/
def vector (k : Nat) : Taker UInt8 (List UInt8) := number k >>= symbols

/-- Bytes with their number before them, the number cut to `k` bytes. -/
def vectorBytes (k : Nat) (bytes : List UInt8) : List UInt8 := beBytes k bytes.length ++ bytes

theorem takes_vector (k : Nat) (bytes : List UInt8) (h : bytes.length < 256 ^ k) :
    Takes (vector k) (vectorBytes k bytes) bytes :=
  (takes_number h).bind (takes_symbols rfl)

/-- Where the number is cut, some of the bytes are left. -/
theorem run_vector_of_le {k : Nat} {bytes : List UInt8} (rest : List UInt8) (h : 256 ^ k ≤ bytes.length) :
    ∃ front left, (vector k).run (vectorBytes k bytes ++ rest) = some (front, left) ∧ left ≠ [] := by
  have hlt : bytes.length % 256 ^ k < bytes.length := lt_of_lt_of_le (Nat.mod_lt _ (Nat.pow_pos (by decide))) h
  refine ⟨(bytes ++ rest).take (bytes.length % 256 ^ k), (bytes ++ rest).drop (bytes.length % 256 ^ k), ?_, ?_⟩
  · rw [vector, StateT.run_bind, vectorBytes, List.append_assoc, takes_number_mod]
    show (if _ ≤ (bytes ++ rest).length then _ else none : Option (List UInt8 × List UInt8)) = _
    rw [if_pos]
    rw [List.length_append]
    omega
  · intro hnil
    have hlength := congrArg List.length hnil
    rw [List.length_drop, List.length_append, List.length_nil] at hlength
    omega

/-- So the bytes are not taken whole. -/
theorem whole_vector_of_le {k : Nat} {bytes : List UInt8} {f : List UInt8 → Taker UInt8 β} (h : 256 ^ k ≤ bytes.length)
    (hf : ∀ front left, left ≠ [] → whole (f front) left = none) : whole (vector k >>= f) (vectorBytes k bytes) = none := by
  obtain ⟨front, left, hrun, hleft⟩ := run_vector_of_le [] h
  rw [List.append_nil] at hrun
  rw [whole, StateT.run_bind, hrun]
  exact hf front left hleft

/-- A vector of one thing after another. -/
def listOf (k : Nat) (r : Taker UInt8 α) : Taker UInt8 (List α) := do
  let bytes ← vector k
  found (every r bytes)

theorem takes_listOf {k : Nat} {r : Taker UInt8 α} {enc : α → List UInt8} {as : List α}
    (hlen : (as.flatMap enc).length < 256 ^ k) (h : ∀ a ∈ as, Takes r (enc a) a ∧ enc a ≠ []) :
    Takes (listOf k r) (vectorBytes k (as.flatMap enc)) as := by
  have hfound : Takes (found (every r (as.flatMap enc)) : Taker UInt8 (List α)) [] as := by
    rw [every_flatMap h]
    exact takes_found as
  exact (takes_vector k _ hlen).bind_last hfound

/-- Where nothing more is taken, what is left is left. -/
theorem whole_found {x : Option α} {left : List σ} (hleft : left ≠ []) : whole (found x) left = none := by
  cases x with
  | none => rfl
  | some a => exact whole_of_left (a := a) (t := left) rfl hleft

theorem whole_found_bind {x : Option α} {g : α → β} {left : List σ} (hleft : left ≠ []) :
    whole (do let a ← found x; pure (g a)) left = none := by
  cases x with
  | none => rfl
  | some a => exact whole_of_left (a := g a) (t := left) rfl hleft

end Starla.Framework
