import Mathlib.Tactic.Common
import Starla.Framework.Run
import Starla.Impl.Results.Oneoff

/-!
# Where a one-off's result goes

The handler pairs a result with a ONEOFF by its measurement id alone. Beside
it stands the list of the ONEOFFs that wait for their result (`waiting`): a
ONEOFF joins it, its own result leaves it, nothing else does but the 256th
newer one that waits. The two agree as long as every result is routed by what
started its run (`Matched`).

* `submit_routed_iff` : one submission.
* `routed_iff` : a whole run.
-/

namespace Starla.Proof.Results.Oneoff

open Starla.Framework Starla.Impl.Results

/-- The one-offs' queue holds results of one-offs, the main queue holds the
others. -/
def Routed (s : Runs) : Prop :=
  (∀ q ∈ s.handler.oneoffQueue.items, q.result.oneoff = true) ∧
    ∀ q ∈ s.handler.queue.items, q.result.oneoff = false

instance : DecidablePred Routed := fun _ => inferInstanceAs (Decidable (_ ∧ _))

/-- The measurement ids of the ONEOFFs that wait for their result, oldest
first. -/
def waiting (running : List MsmRun) (w : List UInt64) : RunEvent → List UInt64
  | .oneoff inner =>
    match oneoffMsmId inner with
    | some msmId => (if w.length ≥ maxPendingOneoffs then w.tail else w) ++ [msmId]
    | none => w
  | .yields i _ _ =>
    match running[i]? with
    | some ⟨msmId, true⟩ => w.erase msmId
    | _ => w
  | _ => w

/-- The runs with the ONEOFFs that wait. -/
def step (s : Runs × List UInt64) (e : RunEvent) : Runs × List UInt64 :=
  (s.1.step e, waiting s.1.running s.2 e)

/-- A result of a ONEOFF's run comes while a ONEOFF of its measurement still
waits, one of another run while none does. -/
def Timely (s : Runs × List UInt64) (e : RunEvent) : Prop :=
  ∀ i lts now, e = .yields i lts now → ∀ r, s.1.running[i]? = some r →
    (r.oneoff = true ↔ r.msmId ∈ s.2)

/-- The handler expects the results the ONEOFFs wait for. -/
def Matched (s : Runs × List UInt64) : Prop := s.1.handler.oneoffPending = s.2

/-! ## One submission -/

theorem mem_enqueueMeasured {R : Type} (q : ResultQueue R) (r : R) (lts now : Int) (x : QueuedResult R) :
    x ∈ (q.enqueueMeasured r lts now).items → x ∈ q.items ∨ x.result = r := by
  unfold ResultQueue.enqueueMeasured
  dsimp only
  intro h
  rcases List.mem_append.mp h with h | h
  · split at h
    · exact Or.inl (List.mem_of_mem_tail h)
    · exact Or.inl h
  · exact Or.inr (by rw [List.mem_singleton.mp h])

theorem enqueueMeasured_mem {R : Type} (q : ResultQueue R) (r : R) (lts now : Int) :
    ⟨r, now, 0, none, lts⟩ ∈ (q.enqueueMeasured r lts now).items := by
  unfold ResultQueue.enqueueMeasured
  exact List.mem_append_right _ (List.mem_singleton_self _)

/-- A result goes where it belongs exactly if what is expected of its
measurement says what started its run. -/
theorem submit_routed_iff (s : Runs) (hs : Routed s) (r : MsmRun) (lts now : Int) (running : List MsmRun) :
    Routed ⟨s.handler.submit r lts now, running⟩ ↔ (r.oneoff = true ↔ r.msmId ∈ s.handler.oneoffPending) := by
  unfold ResultHandler.submit
  show Routed ⟨if r.msmId ∈ _ then _ else _, running⟩ ↔ _
  by_cases hmem : r.msmId ∈ s.handler.oneoffPending
  · rw [if_pos hmem]
    have hnew := enqueueMeasured_mem s.handler.oneoffQueue r lts now
    constructor
    · intro h
      exact ⟨fun _ => hmem, fun _ => h.1 _ hnew⟩
    · intro h
      refine ⟨fun q hq => ?_, hs.2⟩
      rcases mem_enqueueMeasured _ _ _ _ _ hq with hq | hq
      · exact hs.1 q hq
      · rw [hq]
        exact h.mpr hmem
  · rw [if_neg hmem]
    have hnew := enqueueMeasured_mem s.handler.queue r lts now
    constructor
    · intro h
      have hfalse : r.oneoff = false := h.2 _ hnew
      exact ⟨fun ht => absurd (hfalse.symm.trans ht) (by simp), fun hm => absurd hm hmem⟩
    · intro h
      refine ⟨hs.1, fun q hq => ?_⟩
      rcases mem_enqueueMeasured _ _ _ _ _ hq with hq | hq
      · exact hs.2 q hq
      · rw [hq, ← Bool.not_eq_true]
        exact fun ht => hmem (h.mp ht)

/-! ## One event -/

theorem step_routed_iff (s : Runs × List UInt64) (e : RunEvent) (hm : Matched s) (hs : Routed s.1) :
    Routed (step s e).1 ↔ Timely s e := by
  cases e with
  | oneoff inner =>
    have hkeep : Routed (step s (.oneoff inner)).1 := by
      unfold step Runs.step
      dsimp only
      split <;> exact hs
    exact ⟨fun _ _ _ _ he => (by cases he), fun _ => hkeep⟩
  | scheduled msmId => exact ⟨fun _ _ _ _ he => (by cases he), fun _ => hs⟩
  | fails i => exact ⟨fun _ _ _ _ he => (by cases he), fun _ => hs⟩
  | yields i lts now =>
    unfold step Runs.step
    dsimp only
    cases hr : s.1.running[i]? with
    | none =>
      refine ⟨?_, fun _ => hs⟩
      rintro - j lts' now' he r hr'
      cases he
      cases hr.symm.trans hr'
    | some r =>
      dsimp only
      rw [submit_routed_iff s.1 hs, show s.1.handler.oneoffPending = s.2 from hm]
      constructor
      · rintro h j lts' now' he r' hr'
        cases he
        cases hr.symm.trans hr'
        exact h
      · intro h
        exact h i lts now rfl r hr

theorem step_matched (s : Runs × List UInt64) (e : RunEvent) (hm : Matched s) (he : Timely s e) :
    Matched (step s e) := by
  have hp : s.1.handler.oneoffPending = s.2 := hm
  unfold Matched step Runs.step waiting
  cases e with
  | oneoff inner =>
    dsimp only
    cases oneoffMsmId inner with
    | none => exact hm
    | some msmId =>
      dsimp only
      rw [ResultHandler.expectOneoff, hp]
  | scheduled msmId => exact hm
  | fails i => exact hm
  | yields i lts now =>
    dsimp only
    cases hr : s.1.running[i]? with
    | none => exact hm
    | some r =>
      have hiff := he i lts now rfl r hr
      obtain ⟨msmId, oneoff⟩ := r
      dsimp only
      rw [ResultHandler.submit]
      show (if msmId ∈ _ then _ else _ : ResultHandler MsmRun).oneoffPending = _
      rw [hp]
      cases oneoff with
      | true =>
        rw [if_pos (hiff.mp rfl)]
        rfl
      | false =>
        rw [if_neg fun hmem => absurd (hiff.mpr hmem) (by simp)]

/-! ## Runs -/

/-- In every state a run reaches the results are in the queues they belong to,
exactly if no result of a ONEOFF comes once 256 newer ones have been waiting,
and none of another run while a ONEOFF of its measurement waits. -/
theorem routed_iff (config : ResultHandlerConfig) (es : List RunEvent) :
    Always step (fun s => Routed s.1) (.start config, []) es ↔ AllSteps step Timely (.start config, []) es :=
  always_iff_allSteps (I := Matched) (fun s e hm _ he => step_matched s e hm he)
    (fun s e hm hs => step_routed_iff s e hm hs) rfl ⟨by simp [Runs.start, ResultHandler.new, ResultQueue.new],
      by simp [Runs.start, ResultHandler.new, ResultQueue.new]⟩

/-- A ONEOFF of a measurement whose scheduled run is under way: the scheduled
result comes first and is posted as the one-off's. -/
theorem scheduled_result_is_routed_as_oneoff :
    ¬ ∀ (config : ResultHandlerConfig) (es : List RunEvent),
      Always step (fun s => Routed s.1) (.start config, []) es := by
  intro h
  have := h {} [.scheduled 1001,
    .oneoff (.ping ⟨1001, "192.0.2.1", 4, 3, 48, 1000, none, ⟨0, 0, 0⟩⟩), .yields 0 0 0]
  revert this
  decide

end Starla.Proof.Results.Oneoff
