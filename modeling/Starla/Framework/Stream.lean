import Mathlib.Data.List.Basic

/-!
# Machines on a stream that comes in pieces

A machine takes in a list of symbols, puts out a list of others and goes to a
new state. It does not see where its input is cut (`StreamHom`) if taking in
two pieces one after the other is taking in both at once.

* `StreamHom.of_step` : a machine that reads one symbol at a time.
* `StreamHom.andThen` : two machines, one reading what the other puts out.
* `StreamHom.feedChunks` : a whole list of pieces.
-/

namespace Starla.Framework

variable {σ τ α β γ : Type*} {f : σ → List α → List β × σ} {g : τ → List β → List γ × τ}

/-- The machine does not see where its input is cut. -/
structure StreamHom (f : σ → List α → List β × σ) : Prop where
  nil : ∀ s, f s [] = ([], s)
  append : ∀ s a b, f s (a ++ b) = ((f s a).1 ++ (f (f s a).2 b).1, (f (f s a).2 b).2)

/-- A machine that reads one symbol at a time. -/
theorem StreamHom.of_step (step : σ → α → List β × σ) (nil : ∀ s, f s [] = ([], s))
    (cons : ∀ s a as, f s (a :: as) = ((step s a).1 ++ (f (step s a).2 as).1, (f (step s a).2 as).2)) :
    StreamHom f where
  nil := nil
  append s a b := by
    induction a generalizing s with
    | nil => simp [nil]
    | cons x a ih => rw [List.cons_append, cons, cons, ih, List.append_assoc]

/-- `g` reading what `f` puts out. -/
def andThen (f : σ → List α → List β × σ) (g : τ → List β → List γ × τ) (s : σ × τ) (a : List α) :
    List γ × (σ × τ) :=
  let (out, s₁) := f s.1 a
  let (out, s₂) := g s.2 out
  (out, (s₁, s₂))

theorem StreamHom.andThen (hf : StreamHom f) (hg : StreamHom g) : StreamHom (andThen f g) where
  nil s := by simp [Framework.andThen, hf.nil, hg.nil]
  append s a b := by simp [Framework.andThen, hf.append, hg.append]

/-- The machine over a list of pieces. -/
def feedChunks (f : σ → List α → List β × σ) : σ → List (List α) → List β × σ
  | s, [] => ([], s)
  | s, c :: cs =>
    let (out, s) := f s c
    let (rest, s) := feedChunks f s cs
    (out ++ rest, s)

theorem StreamHom.feedChunks (hf : StreamHom f) (s : σ) (cs : List (List α)) :
    feedChunks f s cs = f s cs.flatten := by
  induction cs generalizing s with
  | nil => rw [List.flatten_nil, hf.nil, Framework.feedChunks]
  | cons c cs ih => rw [List.flatten_cons, hf.append, ← ih]; rfl

end Starla.Framework
