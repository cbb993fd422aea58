import Mathlib.Data.List.Flatten
import Mathlib.Data.List.GetD
import Mathlib.Order.Nat
import Mathlib.Tactic.Common
import Starla.Framework.Run
import Starla.Impl.Results.Queue

/-!
# The bounded queue keeps the newest results

The queue under any sequence of its operations (`QueueOp`), each requeue
putting back what an earlier drain took, or the part of it a caller keeps. The
world beside the queue is bookkeeping: results carry their place in the order
of submission, `out` is what the drains took and nothing settled yet, `lost`
what the capacity dropped.

* `KeepsNewest` : the queue is within its capacity, in order, and newer than
  everything else that was not uploaded.
* `Permitted` : the condition on a step.
* `enqueue_keepsNewest`, `drain_keepsNewest`, `requeue_keepsNewest_iff` : what
  one step keeps.
* `keepsNewest_iff` : a run keeps the newest results exactly if its steps are
  permitted.
-/

namespace Starla.Proof.Results

open Starla.Framework Starla.Impl.Results

variable {R : Type}

/-- A result under its place in the order of submission. -/
structure Numbered (R : Type) where
  seq : Nat
  result : R
deriving DecidableEq, Repr

/-- The places of a list of queued results. -/
def seqs (rs : List (QueuedResult (Numbered R))) : List Nat := rs.map fun r => r.result.seq

@[simp] theorem seqs_nil : seqs ([] : List (QueuedResult (Numbered R))) = [] := rfl

@[simp] theorem seqs_append (rs rs' : List (QueuedResult (Numbered R))) :
    seqs (rs ++ rs') = seqs rs ++ seqs rs' := List.map_append

@[simp] theorem seqs_length (rs : List (QueuedResult (Numbered R))) : (seqs rs).length = rs.length :=
  List.length_map _

theorem seqs_take (n : Nat) (rs : List (QueuedResult (Numbered R))) :
    seqs (rs.take n) = (seqs rs).take n := List.map_take

theorem seqs_drop (n : Nat) (rs : List (QueuedResult (Numbered R))) :
    seqs (rs.drop n) = (seqs rs).drop n := List.map_drop

theorem seqs_map {f : QueuedResult (Numbered R) → QueuedResult (Numbered R)}
    (hf : ∀ r, (f r).result = r.result) (rs : List (QueuedResult (Numbered R))) :
    seqs (rs.map f) = seqs rs := by
  simp [seqs, Function.comp_def, hf]

theorem seqs_sublist {rs rs' : List (QueuedResult (Numbered R))} (h : rs.Sublist rs') :
    (seqs rs).Sublist (seqs rs') := h.map _

/-- How a requeue counts the attempt. -/
inductive RequeueKind
  | failed
  | refused
deriving DecidableEq, Repr

/-- The queue's `requeue_failed` or `requeue_refused`. -/
def requeue (kind : RequeueKind) (q : ResultQueue R) (results : List (QueuedResult R)) (now : Int) :
    ResultQueue R :=
  match kind with
  | .failed => q.requeueFailed results now
  | .refused => q.requeueRefused results now

/-- An operation on the queue. A requeue names the drain it puts back by its
place among those not settled yet, and keeps the results `keep` selects, as
the upload keeps those with attempts left. `settle` is the end of a drain
that is not put back: it was uploaded. -/
inductive QueueOp (R : Type)
  | enqueue (result : R) (lts now : Int)
  | drainBatch (n : Nat)
  | drainAll
  | requeue (kind : RequeueKind) (i : Nat) (keep : QueuedResult (Numbered R) → Bool) (now : Int)
  | settle (i : Nat)
  | cleanupExpired (maxAgeSecs now : Int)
  | cleanupFailed (maxAttempts : UInt32)

/-- The queue and what became of the results submitted to it. -/
structure QueueWorld (R : Type) where
  queue : ResultQueue (Numbered R)
  /-- The place of the next result submitted. -/
  next : Nat
  /-- The drains nothing settled yet. -/
  out : List (List (QueuedResult (Numbered R)))
  /-- The places of the results the capacity dropped. -/
  lost : List Nat

namespace QueueWorld

def start (maxCapacity : Nat) : QueueWorld R := ⟨.new maxCapacity, 0, [], []⟩

/-- The places of the results in the queue, front first. -/
def held (w : QueueWorld R) : List Nat := seqs w.queue.items

/-- What `i`'s requeue puts back. -/
def back (w : QueueWorld R) (i : Nat) (keep : QueuedResult (Numbered R) → Bool) :
    List (QueuedResult (Numbered R)) := (w.out.getD i []).filter keep

/-- An operation that adds results to the queue: those that were there before
or came in, and are not there after, the capacity dropped. -/
def added (w : QueueWorld R) (incoming : List Nat) (queue : ResultQueue (Numbered R)) : QueueWorld R :=
  { w with queue, lost := w.lost ++ (w.held ++ incoming).filter (· ∉ seqs queue.items) }

def step (w : QueueWorld R) : QueueOp R → QueueWorld R
  | .enqueue result lts now =>
    { w.added [w.next] (w.queue.enqueueMeasured ⟨w.next, result⟩ lts now) with next := w.next + 1 }
  | .drainBatch n =>
    { w with queue := (w.queue.drainBatch n).2, out := w.out ++ [(w.queue.drainBatch n).1] }
  | .drainAll => { w with queue := w.queue.drainAll.2, out := w.out ++ [w.queue.drainAll.1] }
  | .requeue kind i keep now =>
    { w.added (seqs (w.back i keep)) (Results.requeue kind w.queue (w.back i keep) now) with
      out := w.out.eraseIdx i }
  | .settle i => { w with out := w.out.eraseIdx i }
  | .cleanupExpired maxAgeSecs now => { w with queue := (w.queue.cleanupExpired maxAgeSecs now).2 }
  | .cleanupFailed maxAttempts => { w with queue := (w.queue.cleanupFailed maxAttempts).2 }

/-- The results not uploaded that the queue does not hold: the capacity
dropped them or a drain took them. -/
def notHeld (lost : List Nat) (out : List (List (QueuedResult (Numbered R)))) : List Nat :=
  lost ++ seqs out.flatten

/-- The queue is within its capacity, in the order of submission, and newer
than every other result that was not uploaded. -/
structure KeepsNewest (w : QueueWorld R) : Prop where
  bounded : w.queue.items.length ≤ w.queue.maxCapacity
  fifo : w.held.Pairwise (· < ·)
  newest : ∀ x ∈ w.held, ∀ y ∈ notHeld w.lost w.out, y < x

/-- What a step needs: a queue of capacity 0 takes no result, and what a
requeue puts back fits beside what the queue holds and is newer than what was
lost and what other drains have taken. -/
def Permitted (w : QueueWorld R) : QueueOp R → Prop
  | .enqueue .. => 0 < w.queue.maxCapacity
  | .requeue _ i keep _ =>
    (w.back i keep).length + w.queue.items.length ≤ w.queue.maxCapacity ∧
      ∀ x ∈ seqs (w.back i keep), ∀ y ∈ notHeld w.lost (w.out.eraseIdx i), y < x
  | _ => True

/-- What holds in every permitted run beside `KeepsNewest`. -/
structure Inv (w : QueueWorld R) : Prop where
  out_fifo : ∀ b ∈ w.out, (seqs b).Pairwise (· < ·)
  lt_next : ∀ x ∈ w.held ++ notHeld w.lost w.out, x < w.next
  capacity : 0 < w.next → 0 < w.queue.maxCapacity

/-! ## What the operations do to the places -/

variable {w : QueueWorld R}

theorem seqs_requeue (kind : RequeueKind) (q : ResultQueue (Numbered R))
    (rs : List (QueuedResult (Numbered R))) (now : Int) :
    seqs (Results.requeue kind q rs now).items = (seqs rs ++ seqs q.items).take q.maxCapacity := by
  cases kind <;>
    simp only [Results.requeue, ResultQueue.requeueFailed, ResultQueue.requeueRefused,
      ResultQueue.pushFront, seqs_take, seqs_append] <;> rw [seqs_map] <;> exact fun _ => rfl

theorem seqs_enqueue (q : ResultQueue (Numbered R)) (r : Numbered R) (lts now : Int) :
    seqs (q.enqueueMeasured r lts now).items =
      (if q.items.length ≥ q.maxCapacity then (seqs q.items).tail else seqs q.items) ++ [r.seq] := by
  simp only [ResultQueue.enqueueMeasured, seqs_append]
  split <;> simp [seqs]

@[simp] theorem requeue_maxCapacity (kind : RequeueKind) (q : ResultQueue R)
    (rs : List (QueuedResult R)) (now : Int) :
    (Results.requeue kind q rs now).maxCapacity = q.maxCapacity := by
  cases kind <;> rfl

theorem mem_getD_of_mem_seqs {i : Nat} {keep : QueuedResult (Numbered R) → Bool} {x : Nat}
    (hx : x ∈ seqs (w.back i keep)) : x ∈ seqs w.out.flatten := by
  obtain ⟨r, hr, rfl⟩ := List.mem_map.mp hx
  refine List.mem_map_of_mem (List.mem_flatten.mpr ⟨w.out.getD i [], ?_, List.mem_of_mem_filter hr⟩)
  rcases Nat.lt_or_ge i w.out.length with hi | hi
  · rw [List.getD_eq_getElem _ _ hi]; exact List.getElem_mem hi
  · rw [back, List.getD_eq_default _ _ hi] at hr; simp at hr

/-- What a requeue puts back is in order. -/
theorem Inv.back_fifo (hI : Inv w) (i : Nat) (keep : QueuedResult (Numbered R) → Bool) :
    (seqs (w.back i keep)).Pairwise (· < ·) := by
  rw [back]
  rcases Nat.lt_or_ge i w.out.length with hi | hi
  · rw [List.getD_eq_getElem _ _ hi]
    exact (hI.out_fifo _ (List.getElem_mem hi)).sublist (seqs_sublist List.filter_sublist)
  · rw [List.getD_eq_default _ _ hi]; exact List.Pairwise.nil

theorem mem_notHeld_eraseIdx {lost : List Nat} {out : List (List (QueuedResult (Numbered R)))}
    {i y : Nat} (hy : y ∈ notHeld lost (out.eraseIdx i)) : y ∈ notHeld lost out := by
  rcases List.mem_append.mp hy with h | h
  · exact List.mem_append_left _ h
  · exact List.mem_append_right _
      ((seqs_sublist (List.Sublist.flatten (List.eraseIdx_sublist out i))).mem h)

theorem mem_dropped {y : Nat} {l kept : List Nat} : y ∈ l.filter (· ∉ kept) ↔ y ∈ l ∧ y ∉ kept := by
  simp

theorem mem_notHeld_lost {lost dropped : List Nat} {out : List (List (QueuedResult (Numbered R)))}
    {y : Nat} : y ∈ notHeld (lost ++ dropped) out ↔ y ∈ dropped ∨ y ∈ notHeld lost out := by
  simp only [notHeld, List.mem_append]; tauto

theorem mem_notHeld_out {lost : List Nat} {out : List (List (QueuedResult (Numbered R)))}
    {b : List (QueuedResult (Numbered R))} {y : Nat} :
    y ∈ notHeld lost (out ++ [b]) ↔ y ∈ seqs b ∨ y ∈ notHeld lost out := by
  simp only [notHeld, List.mem_append, List.flatten_append, List.flatten_singleton, seqs_append]; tauto

/-! ## Requeues -/

/-- What a requeue puts back is older than the queue, so the two are in order. -/
theorem back_held_fifo (hI : Inv w) (h : KeepsNewest w) (i : Nat)
    (keep : QueuedResult (Numbered R) → Bool) :
    (seqs (w.back i keep) ++ w.held).Pairwise (· < ·) :=
  List.pairwise_append.mpr ⟨hI.back_fifo i keep, h.fifo, fun _ hx y hy =>
    h.newest y hy _ (List.mem_append_right _ (mem_getD_of_mem_seqs hx))⟩

theorem held_requeue (kind : RequeueKind) (i : Nat) (keep : QueuedResult (Numbered R) → Bool)
    (now : Int) : (w.step (.requeue kind i keep now)).held =
      (seqs (w.back i keep) ++ w.held).take w.queue.maxCapacity :=
  seqs_requeue ..

/-- A list in order that a bound cuts loses a result newer than those it keeps. -/
theorem exists_cut {l : List Nat} {c : Nat} (hl : l.Pairwise (· < ·)) (hc : 0 < c) (h : c < l.length) :
    ∃ x ∈ l.take c, ∃ y ∈ l, y ∉ l.take c ∧ x < y := by
  refine ⟨l[0], ?_, l[c], List.getElem_mem h, fun hy => ?_, List.pairwise_iff_getElem.mp hl _ _ _ _ hc⟩
  · exact List.mem_take_iff_getElem.mpr ⟨0, by omega, rfl⟩
  · obtain ⟨j, hj, e⟩ := List.mem_take_iff_getElem.mp hy
    have := List.pairwise_iff_getElem.mp hl j c (by omega) h (by omega)
    omega

theorem requeue_keepsNewest (hI : Inv w) (h : KeepsNewest w) {kind : RequeueKind} {i : Nat}
    {keep : QueuedResult (Numbered R) → Bool} {now : Int}
    (hp : Permitted w (.requeue kind i keep now)) : KeepsNewest (w.step (.requeue kind i keep now)) := by
  obtain ⟨hfit, hnew⟩ := hp
  have hl : (seqs (w.back i keep) ++ w.held).length ≤ w.queue.maxCapacity := by
    rwa [List.length_append, held, seqs_length, seqs_length]
  have hheld : (w.step (.requeue kind i keep now)).held = seqs (w.back i keep) ++ w.held := by
    rw [held_requeue, List.take_of_length_le hl]
  refine ⟨?_, ?_, fun x hx y hy => ?_⟩
  · rw [← seqs_length]
    change (w.step _).held.length ≤ (Results.requeue ..).maxCapacity
    rwa [hheld, requeue_maxCapacity]
  · rw [hheld]; exact back_held_fifo hI h i keep
  · rw [hheld] at hx
    rcases mem_notHeld_lost.mp hy with hd | hy
    · exfalso
      obtain ⟨hd, hn⟩ := mem_dropped.mp hd
      change y ∉ (w.step (.requeue kind i keep now)).held at hn
      rw [hheld] at hn
      exact hn (by simpa [or_comm] using hd)
    · rcases List.mem_append.mp hx with hx | hx
      · exact hnew x hx y hy
      · exact h.newest x hx y (mem_notHeld_eraseIdx hy)

theorem permitted_of_requeue (hI : Inv w) (h : KeepsNewest w) {kind : RequeueKind} {i : Nat}
    {keep : QueuedResult (Numbered R) → Bool} {now : Int}
    (hs : KeepsNewest (w.step (.requeue kind i keep now))) :
    Permitted w (.requeue kind i keep now) := by
  have hlost : ∀ y ∈ w.held ++ seqs (w.back i keep), y ∉ (w.step (.requeue kind i keep now)).held →
      ∀ x ∈ (w.step (.requeue kind i keep now)).held, y < x := fun y hy hn x hx =>
    hs.newest x hx y (mem_notHeld_lost.mpr
      (Or.inl (mem_dropped.mpr ⟨hy, hn⟩)))
  have hfit : (seqs (w.back i keep) ++ w.held).length ≤ w.queue.maxCapacity := by
    by_contra hc
    have hpos : 0 < w.queue.maxCapacity := by
      refine hI.capacity ?_
      cases hb : seqs (w.back i keep) with
      | nil =>
        rw [hb, List.nil_append, held, seqs_length] at hc
        exact absurd h.bounded hc
      | cons x xs =>
        have hx : x ∈ seqs (w.back i keep) := by rw [hb]; exact List.mem_cons_self
        have := hI.lt_next x (List.mem_append_right _ (List.mem_append_right _ (mem_getD_of_mem_seqs hx)))
        omega
    obtain ⟨x, hx, y, hy, hyn, hxy⟩ := exists_cut (back_held_fifo hI h i keep) hpos (by omega)
    rw [← held_requeue kind i keep now] at hx hyn
    have := hlost y (by simpa [or_comm] using hy) hyn x hx
    omega
  refine ⟨by rwa [List.length_append, held, seqs_length, seqs_length] at hfit, fun x hx y hy => ?_⟩
  refine hs.newest x ?_ y (mem_notHeld_lost.mpr (Or.inr hy))
  rw [held_requeue, List.take_of_length_le hfit]
  exact List.mem_append_left _ hx

/-! ## The other operations -/

theorem held_enqueue (result : R) (lts now : Int) : (w.step (.enqueue result lts now)).held =
    (if w.queue.items.length ≥ w.queue.maxCapacity then w.held.tail else w.held) ++ [w.next] :=
  seqs_enqueue ..

/-- A queue that takes a result keeps the newest: at capacity the oldest goes. -/
theorem enqueue_keepsNewest (hI : Inv w) (h : KeepsNewest w) {result : R} {lts now : Int}
    (hp : 0 < w.queue.maxCapacity) : KeepsNewest (w.step (.enqueue result lts now)) := by
  have hsub : (if w.queue.items.length ≥ w.queue.maxCapacity then w.held.tail else w.held).Sublist
      w.held := by
    split
    · exact List.tail_sublist _
    · exact List.Sublist.refl _
  refine ⟨?_, ?_, fun x hx y hy => ?_⟩
  · have hb := h.bounded
    rw [← seqs_length] at hb ⊢
    change (w.step _).held.length ≤ w.queue.maxCapacity
    rw [held_enqueue, ← seqs_length]
    split <;> simp only [List.length_append, List.length_tail, List.length_singleton, held] <;> omega
  · rw [held_enqueue, List.pairwise_append]
    refine ⟨h.fifo.sublist hsub, List.pairwise_singleton _ _, fun x hx y hy => ?_⟩
    rw [List.mem_singleton.mp hy]
    exact hI.lt_next x (List.mem_append_left _ (hsub.mem hx))
  · have hlt : ∀ y ∈ w.held ++ notHeld w.lost w.out, y < w.next := hI.lt_next
    rcases mem_notHeld_lost.mp hy with hd | hy
    · -- what the capacity dropped is the front of the queue
      obtain ⟨hd, hn⟩ := mem_dropped.mp hd
      change y ∉ (w.step (.enqueue result lts now)).held at hn
      rw [held_enqueue] at hx hn
      split at hn
      · rename_i hfull
        rw [if_pos hfull] at hx
        cases hw : w.held with
        | nil => rw [hw] at hd hn; simp at hd hn; exact absurd hd hn
        | cons a l =>
          have hf := hw ▸ h.fifo
          rw [hw] at hx hd hn hlt
          simp only [List.tail_cons, List.mem_append, List.mem_cons, List.not_mem_nil, or_false,
            not_or, List.cons_append] at hx hd hn hlt
          have hya : y = a := by tauto
          subst hya
          rcases hx with hx | rfl
          · exact List.rel_of_pairwise_cons hf hx
          · exact hlt y (Or.inl rfl)
      · exact absurd hd hn
    · rw [held_enqueue] at hx
      rcases List.mem_append.mp hx with hx | hx
      · exact h.newest x (hsub.mem hx) y hy
      · rw [List.mem_singleton.mp hx]
        exact hlt y (List.mem_append_right _ hy)

theorem pos_of_enqueue {result : R} {lts now : Int}
    (hs : KeepsNewest (w.step (.enqueue result lts now))) : 0 < w.queue.maxCapacity := by
  have hb : (w.step (.enqueue result lts now)).held.length ≤ w.queue.maxCapacity :=
    (seqs_length _).le.trans hs.bounded
  rw [held_enqueue, List.length_append, List.length_singleton] at hb
  omega

/-- A drain takes the front, the oldest, and leaves the rest. -/
theorem drain_keepsNewest (h : KeepsNewest w) (n : Nat) :
    KeepsNewest { w with
      queue := { w.queue with items := w.queue.items.drop n }
      out := w.out ++ [w.queue.items.take n] } := by
  have hd : (seqs (w.queue.items.drop n)).Sublist w.held := seqs_sublist (List.drop_sublist _ _)
  refine ⟨(List.drop_sublist _ _).length_le.trans h.bounded, h.fifo.sublist hd, fun x hx y hy => ?_⟩
  rcases mem_notHeld_out.mp hy with hy | hy
  · rw [seqs_take] at hy
    simp only [held, seqs_drop] at hx
    exact (List.pairwise_append.mp ((List.take_append_drop n _).symm ▸ h.fifo)).2.2 y hy x hx
  · exact h.newest x (hd.mem hx) y hy

/-- A cleanup takes some results out of the queue. -/
theorem cleanup_keepsNewest (h : KeepsNewest w) (keep : QueuedResult (Numbered R) → Bool) :
    KeepsNewest { w with queue := { w.queue with items := w.queue.items.filter keep } } :=
  have hs : (seqs (w.queue.items.filter keep)).Sublist w.held := seqs_sublist List.filter_sublist
  ⟨List.filter_sublist.length_le.trans h.bounded, h.fifo.sublist hs, fun x hx => h.newest x (hs.mem hx)⟩

theorem settle_keepsNewest (h : KeepsNewest w) (i : Nat) :
    KeepsNewest { w with out := w.out.eraseIdx i } :=
  ⟨h.bounded, h.fifo, fun x hx y hy => h.newest x hx y (mem_notHeld_eraseIdx hy)⟩

/-! ## Runs -/

theorem drainAll_eq (w : QueueWorld R) : w.step .drainAll = w.step (.drainBatch w.queue.items.length) := by
  simp [step, ResultQueue.drainAll, ResultQueue.drainBatch]

/-- A step keeps the newest results exactly if it is permitted. -/
theorem step_keepsNewest_iff (hI : Inv w) (h : KeepsNewest w) (op : QueueOp R) :
    KeepsNewest (w.step op) ↔ Permitted w op := by
  cases op with
  | enqueue result lts now => exact ⟨pos_of_enqueue, enqueue_keepsNewest hI h⟩
  | drainBatch n => exact iff_of_true (drain_keepsNewest h _) trivial
  | drainAll => rw [drainAll_eq]; exact iff_of_true (drain_keepsNewest h _) trivial
  | requeue kind i keep now => exact ⟨permitted_of_requeue hI h, requeue_keepsNewest hI h⟩
  | settle i => exact iff_of_true (settle_keepsNewest h i) trivial
  | cleanupExpired maxAgeSecs now => exact iff_of_true (cleanup_keepsNewest h _) trivial
  | cleanupFailed maxAttempts => exact iff_of_true (cleanup_keepsNewest h _) trivial

theorem Inv.of_requeue (hI : Inv w) {kind : RequeueKind} {i : Nat}
    {keep : QueuedResult (Numbered R) → Bool} {now : Int} : Inv (w.step (.requeue kind i keep now)) := by
  have hb : ∀ x ∈ seqs (w.back i keep) ++ w.held, x < w.next := fun x hx => by
    rcases List.mem_append.mp hx with hx | hx
    · exact hI.lt_next x (List.mem_append_right _ (List.mem_append_right _ (mem_getD_of_mem_seqs hx)))
    · exact hI.lt_next x (List.mem_append_left _ hx)
  refine ⟨fun b hb => hI.out_fifo b (List.mem_of_mem_eraseIdx hb), fun x hx => ?_, ?_⟩
  · rcases List.mem_append.mp hx with hx | hx
    · rw [held_requeue] at hx
      exact hb x (List.mem_of_mem_take hx)
    · rcases mem_notHeld_lost.mp hx with hx | hx
      · exact hb x (by simpa [or_comm] using (mem_dropped.mp hx).1)
      · exact hI.lt_next x (List.mem_append_right _ (mem_notHeld_eraseIdx hx))
  · intro h
    change 0 < (Results.requeue ..).maxCapacity
    rw [requeue_maxCapacity]
    exact hI.capacity h

theorem Inv.of_enqueue (hI : Inv w) (hp : 0 < w.queue.maxCapacity) {result : R} {lts now : Int} :
    Inv (w.step (.enqueue result lts now)) := by
  have hb : ∀ x ∈ w.held ++ [w.next], x < w.next + 1 := fun x hx => by
    rcases List.mem_append.mp hx with hx | hx
    · exact Nat.lt_succ_of_lt (hI.lt_next x (List.mem_append_left _ hx))
    · rw [List.mem_singleton.mp hx]; exact Nat.lt_succ_self _
  refine ⟨hI.out_fifo, fun x hx => ?_, fun _ => hp⟩
  rcases List.mem_append.mp hx with hx | hx
  · rw [held_enqueue] at hx
    refine hb x ?_
    split at hx <;> simp only [List.mem_append] at hx ⊢
    · exact hx.imp_left List.mem_of_mem_tail
    · exact hx
  · rcases mem_notHeld_lost.mp hx with hx | hx
    · exact hb x (mem_dropped.mp hx).1
    · exact Nat.lt_succ_of_lt (hI.lt_next x (List.mem_append_right _ hx))

theorem Inv.of_drain (hI : Inv w) (h : KeepsNewest w) (n : Nat) :
    Inv { w with
      queue := { w.queue with items := w.queue.items.drop n }
      out := w.out ++ [w.queue.items.take n] } := by
  refine ⟨fun b hb => ?_, fun x hx => ?_, hI.capacity⟩
  · rcases List.mem_append.mp hb with hb | hb
    · exact hI.out_fifo b hb
    · rw [List.mem_singleton.mp hb]
      exact h.fifo.sublist (seqs_sublist (List.take_sublist _ _))
  · refine hI.lt_next x ?_
    rcases List.mem_append.mp hx with hx | hx
    · exact List.mem_append_left _ ((seqs_sublist (List.drop_sublist _ _)).mem hx)
    · rcases mem_notHeld_out.mp hx with hx | hx
      · exact List.mem_append_left _ ((seqs_sublist (List.take_sublist _ _)).mem hx)
      · exact List.mem_append_right _ hx

theorem Inv.of_cleanup (hI : Inv w) (keep : QueuedResult (Numbered R) → Bool) :
    Inv { w with queue := { w.queue with items := w.queue.items.filter keep } } :=
  ⟨hI.out_fifo, fun x hx => hI.lt_next x ((List.mem_append.mp hx).elim
    (fun hx => List.mem_append_left _ ((seqs_sublist List.filter_sublist).mem hx))
    (fun hx => List.mem_append_right _ hx)), hI.capacity⟩

theorem Inv.of_settle (hI : Inv w) (i : Nat) : Inv { w with out := w.out.eraseIdx i } :=
  ⟨fun b hb => hI.out_fifo b (List.mem_of_mem_eraseIdx hb), fun x hx => hI.lt_next x
    ((List.mem_append.mp hx).elim (fun hx => List.mem_append_left _ hx)
      (fun hx => List.mem_append_right _ (mem_notHeld_eraseIdx hx))), hI.capacity⟩

theorem step_inv (hI : Inv w) (h : KeepsNewest w) {op : QueueOp R} (hp : Permitted w op) :
    Inv (w.step op) := by
  cases op with
  | enqueue result lts now => exact hI.of_enqueue hp
  | drainBatch n => exact hI.of_drain h _
  | drainAll => rw [drainAll_eq]; exact hI.of_drain h _
  | requeue kind i keep now => exact hI.of_requeue
  | settle i => exact hI.of_settle i
  | cleanupExpired maxAgeSecs now => exact hI.of_cleanup _
  | cleanupFailed maxAttempts => exact hI.of_cleanup _

/-- In every run the queue keeps the newest results exactly if every step is
permitted. -/
theorem keepsNewest_iff (maxCapacity : Nat) (ops : List (QueueOp R)) :
    Always step KeepsNewest (start maxCapacity) ops ↔ AllSteps step Permitted (start maxCapacity) ops := by
  refine always_iff_allSteps (fun w op hI h hp => step_inv hI h hp)
    (fun w op hI h => step_keepsNewest_iff hI h op) ?_ ?_
  · exact ⟨by simp [start], by simp [start, held, notHeld, ResultQueue.new], by simp [start]⟩
  · exact ⟨by simp [start, ResultQueue.new], by simp [start, held, ResultQueue.new],
      by simp [start, held, ResultQueue.new]⟩

/-- Two results, a drain of both, a third result while they are out: a full
queue of two, put back, drops the third, the newest. -/
theorem requeue_drops_newest : ¬ ∀ (maxCapacity : Nat) (ops : List (QueueOp Unit)),
    Always step KeepsNewest (start maxCapacity) ops := by
  intro h
  have := (h 2 [.enqueue () (-1) 0, .enqueue () (-1) 0, .drainAll, .enqueue () (-1) 0,
    .requeue .refused 0 (fun _ => true) 0]).last.newest 0 (by decide) 2 (by decide)
  omega

end QueueWorld

end Starla.Proof.Results
