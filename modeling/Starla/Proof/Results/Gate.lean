import Mathlib.Algebra.Order.Group.Nat
import Mathlib.Tactic.Common
import Mathlib.Tactic.Ring
import Starla.Framework.Run
import Starla.Impl.Results.Gate

/-!
# What the upload gate counts

The law of the gate (`lawHold`): a 429 sets the hold of its place among the
429s since the last success; another failure sets one exactly if at least
three others came before it since the last success, and its length doubles
with each up to 300 s. The gate keeps one count of both kinds of failure, so it
follows the law exactly as long as that count and the count of the other
failures pass three together (`lawful_iff`).
-/

namespace Starla.Proof.Results

open Starla.Framework Starla.Impl.Results

/-- The failures since the last success, by kind. -/
structure Tally where
  refused : Nat := 0
  failed : Nat := 0
deriving DecidableEq, Repr

namespace Tally

def count (t : Tally) : Except PostError Unit → Tally
  | .ok () => {}
  | .error (.rateLimited _) => { t with refused := t.refused + 1 }
  | .error .other => { t with failed := t.failed + 1 }

/-- The hold an outcome calls for, itself counted in `t`. -/
def lawHold (t : Tally) : Except PostError Unit → Option Duration
  | .ok () => none
  | .error (.rateLimited retryAfter) => some (rateLimitHold (UInt32.ofNat t.refused) retryAfter)
  | .error .other => if 4 ≤ t.failed then some (min (secs (2 ^ (t.failed - 4))) (secs 300)) else none

end Tally

/-- The hold that `after_post` sets for an outcome, if it sets one. -/
def holdSet (g : UploadGate) (sent : Except PostError Unit) : Option Duration :=
  ({ g with holdUntil := none }.afterPost 0 sent).holdUntil

/-- `after_post` sets `holdSet` from the tick on, or leaves the hold alone. -/
theorem afterPost_holdUntil (g : UploadGate) (tick : Instant) (sent : Except PostError Unit) :
    (g.afterPost tick sent).holdUntil = ((holdSet g sent).map (tick + ·)).or g.holdUntil := by
  rcases sent with (ra | -) | -
  · simp [holdSet, UploadGate.afterPost]
  · simp only [holdSet, UploadGate.afterPost]
    split <;> simp
  · simp [holdSet, UploadGate.afterPost]

/-- The gate and the failures it was told of. -/
structure GateWorld where
  gate : UploadGate := {}
  tally : Tally := {}
deriving DecidableEq, Repr

namespace GateWorld

def step (w : GateWorld) (call : Instant × Except PostError Unit) : GateWorld :=
  ⟨w.gate.afterPost call.1 call.2, w.tally.count call.2⟩

/-- A call sets the hold its outcome calls for, and no other. -/
def Lawful (w : GateWorld) (call : Instant × Except PostError Unit) : Prop :=
  holdSet w.gate call.2 = (w.tally.count call.2).lawHold call.2

/-- At a failure other than a 429, the `u32` count of all failures is past
three exactly if the number of such failures is. -/
def CountsAgree (w : GateWorld) (call : Instant × Except PostError Unit) : Prop :=
  call.2 = .error .other →
    ((w.tally.refused + w.tally.failed + 1) % 2 ^ 32 > 3 ↔ w.tally.failed + 1 > 3)

/-- What the gate's fields are while it follows the law. -/
structure Inv (w : GateWorld) : Prop where
  failures : w.gate.consecutiveFailures = UInt32.ofNat (w.tally.refused + w.tally.failed)
  refused : w.gate.rateLimited = UInt32.ofNat w.tally.refused
  backoff : w.gate.backoff = min (secs (2 ^ (w.tally.failed - 3))) (secs 300)

variable {w : GateWorld}

theorem ofNat_succ (n : Nat) : UInt32.ofNat n + 1 = UInt32.ofNat (n + 1) := by
  rw [← UInt32.toNat_inj]; simp

theorem three_lt_ofNat (n : Nat) : UInt32.ofNat n > 3 ↔ n % 2 ^ 32 > 3 := by
  rw [gt_iff_lt, UInt32.lt_iff_toNat_lt]; simp

theorem holdSet_failed (hI : Inv w) : holdSet w.gate (.error .other) =
    if (w.tally.refused + w.tally.failed + 1) % 2 ^ 32 > 3 then
      some (min (secs (2 ^ (w.tally.failed - 3))) (secs 300)) else none := by
  simp only [holdSet, UploadGate.afterPost, hI.failures, ofNat_succ, three_lt_ofNat, hI.backoff]
  split <;> simp

/-- A call follows the law exactly if the counts agree. -/
theorem lawful_iff_countsAgree (hI : Inv w) (call : Instant × Except PostError Unit) :
    Lawful w call ↔ CountsAgree w call := by
  obtain ⟨tick, (ra | -) | -⟩ := call
  · refine iff_of_true ?_ (fun h => by cases h)
    simp [Lawful, holdSet, UploadGate.afterPost, Tally.count, Tally.lawHold, hI.refused]
  · simp only [Lawful, CountsAgree, holdSet_failed hI, Tally.count, Tally.lawHold, forall_const,
      show w.tally.failed + 1 - 4 = w.tally.failed - 3 by omega]
    split <;> split <;> simp <;> omega
  · exact iff_of_true rfl (fun h => by cases h)

theorem backoff_doubles (n : Nat) :
    min (min (secs n) (secs 300) * 2) (secs 300) = min (secs (n * 2)) (secs 300) := by
  have (a b : Nat) : min (min a b * 2) b = min (a * 2) b := by omega
  rw [secs, secs, secs, this, Nat.mul_right_comm]

/-- A call that follows the law keeps the fields what they are. -/
theorem step_inv (hI : Inv w) {call : Instant × Except PostError Unit} (h : Lawful w call) :
    Inv (w.step call) := by
  rw [lawful_iff_countsAgree hI] at h
  obtain ⟨tick, (ra | -) | -⟩ := call
  · refine ⟨?_, ?_, hI.backoff⟩
    · simp only [step, UploadGate.afterPost, Tally.count, hI.failures, ofNat_succ]
      congr 1; omega
    · simp only [step, UploadGate.afterPost, Tally.count, hI.refused, ofNat_succ]
  · have h := h rfl
    have hf : w.gate.consecutiveFailures + 1 = UInt32.ofNat (w.tally.refused + w.tally.failed + 1) := by
      rw [hI.failures, ofNat_succ]
    refine ⟨?_, ?_, ?_⟩
    · simp only [step, UploadGate.afterPost, Tally.count]
      split <;> exact hf
    · simp only [step, UploadGate.afterPost, Tally.count]
      split <;> exact hI.refused
    · simp only [step, UploadGate.afterPost, Tally.count, hf, three_lt_ofNat, h]
      split
      · rename_i h3
        have hp : 2 ^ (w.tally.failed + 1 - 3) = 2 ^ (w.tally.failed - 3) * 2 := by
          rw [← pow_succ]; congr 1; omega
        simp only [hI.backoff, UploadGate.maxBackoff, hp]
        exact backoff_doubles _
      · rename_i h3
        simp only [hI.backoff, show w.tally.failed + 1 - 3 = w.tally.failed - 3 by omega]
  · exact ⟨rfl, rfl, show secs 1 = min (secs (2 ^ (0 - 3))) (secs 300) by decide⟩

/-- A sequence of posts follows the law exactly if the counts agree at each. -/
theorem lawful_iff (calls : List (Instant × Except PostError Unit)) :
    AllSteps step Lawful {} calls ↔ AllSteps step CountsAgree {} calls :=
  allSteps_congr_of_inv (I := Inv) (fun _ _ hI h => step_inv hI h)
    (fun _ call hI => lawful_iff_countsAgree hI call) ⟨rfl, rfl, by decide⟩

/-- Three 429s, then one other failure, the first of its kind: it sets a hold. -/
theorem failure_after_refusals : ¬ ∀ calls : List (Instant × Except PostError Unit),
    AllSteps step Lawful {} calls := by
  intro h
  have := h [(0, .error (.rateLimited none)), (secs 60, .error (.rateLimited none)),
    (secs 180, .error (.rateLimited none)), (secs 420, .error .other)]
  exact absurd this.2.2.2.1 (by unfold Lawful; decide)

end GateWorld

end Starla.Proof.Results
