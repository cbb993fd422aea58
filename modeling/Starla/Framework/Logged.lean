import Mathlib.Init

/-!
# Computations with a log

`Logged ε α` is a value with the events that came before it, in order. What a
program may log is proved along its text: `all_bind` for a sequence, `all_ite`
for a choice, `all_pure` and `all_emit` at its ends.
-/

namespace Starla.Framework

structure Logged (ε α : Type) where
  log : List ε
  value : α
deriving DecidableEq, Repr

namespace Logged

variable {ε α β : Type}

instance : Monad (Logged ε) where
  pure a := ⟨[], a⟩
  bind m f := ⟨m.log ++ (f m.value).log, (f m.value).value⟩

/-- Logs one event. -/
def emit (e : ε) : Logged ε Unit := ⟨[e], ()⟩

@[simp] theorem log_pure (a : α) : (pure a : Logged ε α).log = [] := rfl

@[simp] theorem value_pure (a : α) : (pure a : Logged ε α).value = a := rfl

@[simp] theorem log_emit (e : ε) : (emit e).log = [e] := rfl

@[simp] theorem log_bind (m : Logged ε α) (f : α → Logged ε β) :
    (m >>= f).log = m.log ++ (f m.value).log := rfl

@[simp] theorem value_bind (m : Logged ε α) (f : α → Logged ε β) :
    (m >>= f).value = (f m.value).value := rfl

@[simp] theorem log_map (m : Logged ε α) (f : α → β) : (f <$> m).log = m.log := by
  change m.log ++ [] = m.log
  exact List.append_nil _

/-- Whatever is logged satisfies `P`. -/
def All (P : ε → Prop) (m : Logged ε α) : Prop := ∀ e ∈ m.log, P e

variable {P : ε → Prop}

@[simp] theorem all_pure (a : α) : (pure a : Logged ε α).All P := fun _ h => by cases h

@[simp] theorem all_emit {e : ε} : (emit e).All P ↔ P e := by simp [All]

@[simp] theorem all_bind {m : Logged ε α} {f : α → Logged ε β} :
    (m >>= f).All P ↔ m.All P ∧ (f m.value).All P := by
  simp [All, or_imp, forall_and]

@[simp] theorem all_map {m : Logged ε α} {f : α → β} : (f <$> m).All P ↔ m.All P := by
  simp [All]

theorem all_ite {c : Prop} [Decidable c] {m n : Logged ε α} (hm : c → m.All P) (hn : ¬ c → n.All P) :
    (if c then m else n).All P := by
  split
  · exact hm ‹_›
  · exact hn ‹_›

theorem All.mono {Q : ε → Prop} {m : Logged ε α} (h : m.All P) (hPQ : ∀ e, P e → Q e) : m.All Q :=
  fun e he => hPQ e (h e he)

end Logged

end Starla.Framework
