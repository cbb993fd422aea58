import Mathlib.Data.List.Basic
import Mathlib.Data.List.Induction

/-!
# Runs of a deterministic system

A system is a step function `step : σ → ι → σ`: the environment's choices are
the inputs `ι`. A run is a list of inputs.

* `Always P` : every state a run reaches satisfies `P`, its first state included.
* `AllSteps ok` : every step of a run meets a condition on the state before it
  and the input.
* `always_of_inv` : the invariant rule. An invariant that every permitted step
  keeps holds in every state a permitted run reaches.
* `always_of_always` : the same where the states a run reaches are restricted.
* `always_iff_allSteps` : the same rule read both ways, for a property that a
  step keeps exactly when it is permitted.
* `allSteps_congr_of_inv` : conditions on steps that agree under an invariant.
-/

namespace Starla.Framework

variable {σ ι : Type*} (step : σ → ι → σ)

/-- The state a run ends in. -/
def run (s : σ) (is : List ι) : σ := is.foldl step s

/-- Every state of a run satisfies `P`, the first included. -/
def Always (P : σ → Prop) : σ → List ι → Prop
  | s, [] => P s
  | s, i :: is => P s ∧ Always P (step s i) is

/-- Every step of a run meets `ok`, a condition on the state before the step. -/
def AllSteps (ok : σ → ι → Prop) : σ → List ι → Prop
  | _, [] => True
  | s, i :: is => ok s i ∧ AllSteps ok (step s i) is

variable {step} {P Q I : σ → Prop} {ok : σ → ι → Prop} {s : σ} {i : ι} {is : List ι}

@[simp] theorem run_nil : run step s [] = s := rfl

@[simp] theorem run_cons : run step s (i :: is) = run step (step s i) is := rfl

@[simp] theorem always_nil : Always step P s [] ↔ P s := Iff.rfl

@[simp] theorem always_cons : Always step P s (i :: is) ↔ P s ∧ Always step P (step s i) is := Iff.rfl

@[simp] theorem allSteps_nil : AllSteps step ok s [] := trivial

@[simp] theorem allSteps_cons :
    AllSteps step ok s (i :: is) ↔ ok s i ∧ AllSteps step ok (step s i) is := Iff.rfl

instance instDecidableAlways [DecidablePred P] : ∀ s is, Decidable (Always step P s is)
  | s, [] => inferInstanceAs (Decidable (P s))
  | s, i :: is =>
    have := instDecidableAlways (step s i) is
    inferInstanceAs (Decidable (_ ∧ _))

theorem Always.head (h : Always step P s is) : P s := by
  cases is with
  | nil => exact h
  | cons i is => exact h.1

theorem Always.mono (hpq : ∀ s, P s → Q s) (h : Always step P s is) : Always step Q s is := by
  induction is generalizing s with
  | nil => exact hpq s h
  | cons i is ih => exact ⟨hpq s h.1, ih h.2⟩

theorem Always.and (hp : Always step P s is) (hq : Always step Q s is) :
    Always step (fun s => P s ∧ Q s) s is := by
  induction is generalizing s with
  | nil => exact ⟨hp, hq⟩
  | cons i is ih => exact ⟨⟨hp.1, hq.1⟩, ih hp.2 hq.2⟩

/-- A condition on steps that follows from the states around them. -/
theorem allSteps_of_always (hstep : ∀ s i, P s → P (step s i) → ok s i) (h : Always step P s is) :
    AllSteps step ok s is := by
  induction is generalizing s with
  | nil => exact trivial
  | cons i is ih => exact ⟨hstep s i h.1 h.2.head, ih h.2⟩

/-- The last state of a run is one of its states. -/
theorem Always.last (h : Always step P s is) : P (run step s is) := by
  induction is generalizing s with
  | nil => exact h
  | cons i is ih => exact ih h.2

/-- The invariant rule. -/
theorem always_of_inv (hstep : ∀ s i, I s → ok s i → I (step s i)) (h0 : I s)
    (hok : AllSteps step ok s is) : Always step I s is := by
  induction is generalizing s with
  | nil => exact h0
  | cons i is ih => exact ⟨h0, ih (hstep s i h0 hok.1) hok.2⟩

/-- What every step keeps holds at the end of any run. -/
theorem run_of_inv (hstep : ∀ s i, I s → I (step s i)) (h0 : I s) : I (run step s is) := by
  induction is generalizing s with
  | nil => exact h0
  | cons i is ih => exact ih (hstep s i h0)

/-- The invariant rule read at each step: it holds before every permitted one. -/
theorem allSteps_and_inv (hstep : ∀ s i, I s → ok s i → I (step s i)) (h0 : I s)
    (hok : AllSteps step ok s is) : AllSteps step (fun s i => I s ∧ ok s i) s is := by
  induction is generalizing s with
  | nil => exact trivial
  | cons i is ih => exact ⟨⟨h0, hok.1⟩, ih (hstep s i h0 hok.1) hok.2⟩

theorem AllSteps.mono {ok' : σ → ι → Prop} (h : AllSteps step ok s is) (hok : ∀ s i, ok s i → ok' s i) :
    AllSteps step ok' s is := by
  induction is generalizing s with
  | nil => exact trivial
  | cons i is ih => exact ⟨hok s i h.1, ih h.2⟩

/-- The invariant rule where every step is permitted. -/
theorem always_of_step (hstep : ∀ s i, I s → I (step s i)) (h0 : I s) : Always step I s is := by
  induction is generalizing s with
  | nil => exact h0
  | cons i is ih => exact ⟨h0, ih (hstep s i h0)⟩

theorem run_of_step (hstep : ∀ s i, I s → I (step s i)) (h0 : I s) : I (run step s is) := by
  have h : Always step I s is := always_of_step hstep h0
  exact h.last

/-- The invariant rule for runs whose states all satisfy `P`. -/
theorem always_of_always (hstep : ∀ s i, I s → P s → P (step s i) → I (step s i)) (h0 : I s)
    (hP : Always step P s is) : Always step I s is := by
  induction is generalizing s with
  | nil => exact h0
  | cons i is ih => exact ⟨h0, ih (hstep s i h0 hP.1 hP.2.head) hP.2⟩

/-- The invariant rule read both ways: where a step from a state of the
invariant `I` keeps `P` exactly if it is permitted, `P` holds all along a run
exactly if all its steps are permitted. -/
theorem always_iff_allSteps (hI : ∀ s i, I s → P s → ok s i → I (step s i))
    (hstep : ∀ s i, I s → P s → (P (step s i) ↔ ok s i)) (hi : I s) (hp : P s) :
    Always step P s is ↔ AllSteps step ok s is := by
  induction is generalizing s with
  | nil => simp [hp]
  | cons i is ih =>
    rw [always_cons, allSteps_cons]
    constructor
    · rintro ⟨-, h⟩
      have hok := (hstep s i hi hp).mp h.head
      exact ⟨hok, (ih (hI s i hi hp hok) h.head).mp h⟩
    · rintro ⟨hok, h⟩
      have hp' := (hstep s i hi hp).mpr hok
      exact ⟨hp, (ih (hI s i hi hp hok) hp').mpr h⟩

/-- Two conditions on steps that agree in every state of an invariant, which
the steps that meet them keep, are met by the same runs. -/
theorem allSteps_congr_of_inv {ok' : σ → ι → Prop} (hI : ∀ s i, I s → ok s i → I (step s i))
    (hiff : ∀ s i, I s → (ok s i ↔ ok' s i)) (h0 : I s) :
    AllSteps step ok s is ↔ AllSteps step ok' s is := by
  induction is generalizing s with
  | nil => simp
  | cons i is ih =>
    rw [allSteps_cons, allSteps_cons, hiff s i h0]
    exact and_congr_right fun hok => ih (hI s i h0 ((hiff s i h0).mpr hok))

end Starla.Framework
