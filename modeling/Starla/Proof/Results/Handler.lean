import Mathlib.Algebra.Order.Group.Multiset
import Mathlib.Tactic.Abel
import Starla.Impl.Results.Handler
import Starla.Proof.Results.Queue

/-!
# No result is lost, duplicated or reordered

The handler under any sequence of submissions, uploads (one at a time, with
anything in between their start and their answer) and cleanups. The world
beside the handler is a ledger: each submission to the main queue under its
number and its clock reading, the posts the controller accepted, those that
failed otherwise than with a 429, and what was dropped, why.

* `Conserved` : the ledger balances, and each drop has its reason.
* `Fits` : what was submitted and neither delivered nor dropped is within the
  queue's capacity.
* `submit_inv`, `beginMain_inv`, `answer_inv`, `cleanup_inv` : one step.
* `conserved` : every run that fits conserves the results.
-/

namespace Starla.Proof.Results

open Starla.Framework Starla.Impl.Results

variable {R : Type}

instance [MeasurementResult R] : MeasurementResult (Numbered R) := ⟨fun r => MeasurementResult.msmId r.result⟩

@[simp] theorem msmId_numbered [MeasurementResult R] (n : Nat) (r : R) :
    MeasurementResult.msmId (⟨n, r⟩ : Numbered R) = MeasurementResult.msmId r := rfl

/-- A submission: the numbered result and the clock it was submitted at. -/
abbrev Stamp (R : Type) := Numbered R × Int

/-- The submissions a list of queued results came from. -/
def stamps (rs : List (QueuedResult (Numbered R))) : List (Stamp R) :=
  rs.map fun r => (r.result, r.queuedAt)


/-- The queue a post drains. -/
inductive Spool
  | main
  | oneoffs
deriving DecidableEq, Repr

inductive HandlerEvent (R : Type)
  | setEndpointPath
  | expectOneoff (msmId : UInt64)
  | submit (result : R) (lts now : Int)
  | beginUpload (spool : Spool)
  | answer (sent : Except PostError Unit) (now : Int)
  | cleanup (now : Int)

structure HandlerWorld (R : Type) where
  handler : ResultHandler (Numbered R)
  /-- The post under way and the results it carries. -/
  flight : Option (Spool × List (QueuedResult (Numbered R)))
  next : Nat
  /-- The submissions to the main queue. -/
  submitted : List (Stamp R)
  /-- The main posts answered with success, by what they carried. -/
  accepted : List (List (Stamp R))
  /-- The main posts that failed otherwise than with a 429, by the numbers they
  carried. -/
  failures : List (List Nat)
  /-- What cleanup dropped for its age, and when. -/
  aged : List (Stamp R × Int)
  /-- What was dropped for its attempts. -/
  exhausted : List (Stamp R)

namespace HandlerWorld

variable {w : HandlerWorld R}

def start (config : ResultHandlerConfig) : HandlerWorld R := ⟨.new config, none, 0, [], [], [], [], []⟩

/-- The results in the main post under way. -/
def inFlight (w : HandlerWorld R) : List (QueuedResult (Numbered R)) :=
  match w.flight with
  | some (.main, uploadable) => uploadable
  | _ => []

/-- How many main posts that carried number `n` failed otherwise than with a 429. -/
def failuresOf (w : HandlerWorld R) (n : Nat) : Nat := w.failures.countP (n ∈ ·)

variable [MeasurementResult R]

def submit (w : HandlerWorld R) (result : R) (lts now : Int) : HandlerWorld R :=
  { w with
    handler := w.handler.submit ⟨w.next, result⟩ lts now
    next := w.next + 1
    submitted :=
      if MeasurementResult.msmId result ∈ w.handler.oneoffPending then w.submitted
      else w.submitted ++ [(⟨w.next, result⟩, now)] }

omit [MeasurementResult R] in
def beginMain (w : HandlerWorld R) : HandlerWorld R :=
  match w.handler.beginUploadPending with
  | (none, handler) => { w with handler }
  | (some uploadable, handler) =>
    { w with
      handler
      flight := some (.main, uploadable)
      exhausted := w.exhausted ++
        stamps (ResultHandler.takeUploadable w.handler.queue w.handler.config.maxAttempts).1.2 }

def beginOneoffs (w : HandlerWorld R) : HandlerWorld R :=
  let begun := w.handler.beginUploadOneoffs
  { w with handler := begun.2, flight := begun.1.map (.oneoffs, ·) }

def answer (w : HandlerWorld R) (sent : Except PostError Unit) (now : Int) : HandlerWorld R :=
  match w.flight with
  | none => w
  | some (.oneoffs, uploadable) =>
    { w with handler := (w.handler.endUploadOneoffs uploadable sent now).2, flight := none }
  | some (.main, uploadable) =>
    let w := { w with handler := (w.handler.endUploadPending uploadable sent now).2, flight := none }
    match sent with
    | .ok () => { w with accepted := w.accepted ++ [stamps uploadable] }
    | .error (.rateLimited _) => w
    | .error .other => { w with failures := w.failures ++ [seqs uploadable] }

def cleanup (w : HandlerWorld R) (now : Int) : HandlerWorld R :=
  let young := (w.handler.queue.cleanupExpired w.handler.config.maxResultAgeSecs now).2
  let old := w.handler.queue.items.filter fun r => !(now - r.queuedAt < w.handler.config.maxResultAgeSecs)
  { w with
    handler := w.handler.runCleanup now
    aged := w.aged ++ (stamps old).map (·, now)
    exhausted := w.exhausted ++
      stamps (young.items.filter fun r => !(r.attempts < w.handler.config.maxAttempts)) }

def step (w : HandlerWorld R) : HandlerEvent R → HandlerWorld R
  | .setEndpointPath => { w with handler := w.handler.setEndpointPath }
  | .expectOneoff msmId => { w with handler := w.handler.expectOneoff msmId }
  | .submit result lts now => w.submit result lts now
  | .beginUpload spool =>
    -- the run loop makes one post at a time
    if w.flight.isSome then w
    else match spool with
      | .main => w.beginMain
      | .oneoffs => w.beginOneoffs
  | .answer sent now => w.answer sent now
  | .cleanup now => w.cleanup now

omit [MeasurementResult R]

/-- What was submitted and neither delivered nor dropped fits the capacity. -/
def Fits (w : HandlerWorld R) : Prop :=
  w.submitted.length ≤
    w.handler.queue.maxCapacity + (w.accepted.flatten.length + w.aged.length + w.exhausted.length)

/-- The ledger balances: each submission to the main queue is in the post under
way, or in the queue, or in one accepted post, or dropped, in one of these
places once; and each drop has its reason. -/
structure Conserved (w : HandlerWorld R) : Prop where
  balance : (stamps (w.inFlight ++ w.handler.queue.items) : Multiset (Stamp R)) + w.accepted.flatten +
    (w.aged.map Prod.fst + w.exhausted : Multiset (Stamp R)) = w.submitted
  distinct : w.submitted.Pairwise fun s s' => s.1.seq < s'.1.seq
  fifo : (seqs (w.inFlight ++ w.handler.queue.items)).Pairwise (· < ·)
  /-- A 429 takes no attempt, another failure takes one. -/
  attempts : ∀ r ∈ w.inFlight ++ w.handler.queue.items, r.attempts.toNat = w.failuresOf r.result.seq
  tooOld : ∀ d ∈ w.aged, d.2 - d.1.2 ≥ w.handler.config.maxResultAgeSecs
  tooManyAttempts : ∀ s ∈ w.exhausted,
    0 < w.failuresOf s.1.seq ∧ w.failuresOf s.1.seq = w.handler.config.maxAttempts.toNat

/-- What holds along a run beside `Conserved`. -/
structure Inv (w : HandlerWorld R) : Prop extends Conserved w where
  maxAttempts_pos : 0 < w.handler.config.maxAttempts.toNat
  lt_next : ∀ s ∈ w.submitted, s.1.seq < w.next
  failures_lt_next : ∀ b ∈ w.failures, ∀ n ∈ b, n < w.next
  attempts_le : ∀ r ∈ w.handler.queue.items, r.attempts.toNat ≤ w.handler.config.maxAttempts.toNat
  inFlight_lt : ∀ r ∈ w.inFlight, r.attempts.toNat < w.handler.config.maxAttempts.toNat

/-! ## The queue below its capacity -/

theorem enqueueMeasured_items {q : ResultQueue R} {r : R} {lts now : Int}
    (h : q.items.length < q.maxCapacity) :
    (q.enqueueMeasured r lts now).items = q.items ++ [⟨r, now, 0, none, lts⟩] := by
  simp [ResultQueue.enqueueMeasured, show ¬ q.items.length ≥ q.maxCapacity by omega]

theorem pushFront_items {q : ResultQueue R} {rs : List (QueuedResult R)}
    (h : rs.length + q.items.length ≤ q.maxCapacity) : (q.pushFront rs).items = rs ++ q.items :=
  List.take_of_length_le (by rwa [List.length_append])

@[simp] theorem stamps_append (rs rs' : List (QueuedResult (Numbered R))) :
    stamps (rs ++ rs') = stamps rs ++ stamps rs' := List.map_append

@[simp] theorem stamps_length (rs : List (QueuedResult (Numbered R))) :
    (stamps rs).length = rs.length := List.length_map _

theorem stamps_map {f : QueuedResult (Numbered R) → QueuedResult (Numbered R)}
    (hf : ∀ r, (f r).result = r.result ∧ (f r).queuedAt = r.queuedAt)
    (rs : List (QueuedResult (Numbered R))) : stamps (rs.map f) = stamps rs := by
  simp [stamps, Function.comp_def, hf]

/-- What a test keeps and what it does not are the whole. -/
theorem stamps_filter (p : QueuedResult (Numbered R) → Bool) (rs : List (QueuedResult (Numbered R))) :
    (stamps (rs.filter p) : Multiset (Stamp R)) + stamps (rs.filter fun r => !p r) = stamps rs := by
  rw [Multiset.coe_add, Multiset.coe_eq_coe, ← stamps_append]
  exact (List.filter_append_perm p rs).map _

/-- The results held and in flight are those submitted and not settled. -/
theorem Conserved.length_add (h : Conserved w) :
    w.inFlight.length + w.handler.queue.items.length +
      (w.accepted.flatten.length + w.aged.length + w.exhausted.length) = w.submitted.length := by
  have := congrArg Multiset.card h.balance
  simp only [Multiset.card_add, Multiset.coe_card, stamps_length, List.length_append,
    List.length_map] at this
  omega

theorem Inv.seq_lt_next (hI : Inv w) {r : QueuedResult (Numbered R)}
    (hr : r ∈ w.inFlight ++ w.handler.queue.items) : r.result.seq < w.next := by
  refine hI.lt_next (r.result, r.queuedAt) (Multiset.mem_coe.mp ?_)
  rw [← hI.balance, Multiset.mem_add, Multiset.mem_add]
  exact Or.inl (Or.inl (Multiset.mem_coe.mpr (List.mem_map_of_mem hr)))

/-- A number not yet given out is in no failed post. -/
theorem Inv.failuresOf_next (hI : Inv w) : w.failuresOf w.next = 0 := by
  refine List.countP_eq_zero.mpr fun b hb h => ?_
  exact absurd (hI.failures_lt_next b hb w.next (by simpa using h)) (Nat.lt_irrefl _)

/-- A queued result with no attempts left has been in as many failed posts as
are allowed. -/
theorem Inv.exhausted_of_ge (hI : Inv w) {r : QueuedResult (Numbered R)}
    (hr : r ∈ w.handler.queue.items) (hge : ¬ r.attempts < w.handler.config.maxAttempts) :
    0 < w.failuresOf r.result.seq ∧
      w.failuresOf r.result.seq = w.handler.config.maxAttempts.toNat := by
  rw [UInt32.lt_iff_toNat_lt] at hge
  have := hI.attempts r (List.mem_append_right _ hr)
  have := hI.attempts_le r hr
  have := hI.maxAttempts_pos
  omega

/-- What leaves the main queue and the main post alone keeps the invariant. -/
theorem Inv.frame (hI : Inv w) {handler : ResultHandler (Numbered R)}
    {flight : Option (Spool × List (QueuedResult (Numbered R)))}
    (hq : handler.queue = w.handler.queue) (hc : handler.config = w.handler.config)
    (hf : inFlight { w with handler, flight } = w.inFlight) : Inv { w with handler, flight } where
  balance := by rw [hf, hq]; exact hI.balance
  distinct := hI.distinct
  fifo := by rw [hf, hq]; exact hI.fifo
  attempts := by rw [hf, hq]; exact hI.attempts
  tooOld := by rw [hc]; exact hI.tooOld
  tooManyAttempts := by rw [hc]; exact hI.tooManyAttempts
  maxAttempts_pos := by rw [hc]; exact hI.maxAttempts_pos
  lt_next := hI.lt_next
  failures_lt_next := hI.failures_lt_next
  attempts_le := by rw [hq, hc]; exact hI.attempts_le
  inFlight_lt := by rw [hf, hc]; exact hI.inFlight_lt

/-! ## Submissions -/

section
variable [MeasurementResult R]

theorem submit_oneoff {result : R} (h : MeasurementResult.msmId result ∈ w.handler.oneoffPending)
    (lts now : Int) : w.submit result lts now = { w with
      handler := { w.handler with
        oneoffPending := w.handler.oneoffPending.erase (MeasurementResult.msmId result)
        oneoffQueue := w.handler.oneoffQueue.enqueueMeasured ⟨w.next, result⟩ lts now }
      next := w.next + 1 } := by
  simp only [submit, ResultHandler.submit, msmId_numbered, if_pos h]

theorem submit_main {result : R} (h : MeasurementResult.msmId result ∉ w.handler.oneoffPending)
    (lts now : Int) : w.submit result lts now = { w with
      handler := { w.handler with
        queue := w.handler.queue.enqueueMeasured ⟨w.next, result⟩ lts now }
      next := w.next + 1
      submitted := w.submitted ++ [(⟨w.next, result⟩, now)] } := by
  simp only [submit, ResultHandler.submit, msmId_numbered, if_neg h]

/-- A run that fits has room for what it submits. -/
theorem room_of_fits (hI : Inv w) {result : R} {lts now : Int}
    (h : MeasurementResult.msmId result ∉ w.handler.oneoffPending)
    (hfit : Fits (w.submit result lts now)) :
    w.handler.queue.items.length < w.handler.queue.maxCapacity := by
  have hl := hI.length_add
  rw [submit_main h] at hfit
  change (w.submitted ++ _).length ≤
    w.handler.queue.maxCapacity + (w.accepted.flatten.length + w.aged.length + w.exhausted.length) at hfit
  rw [List.length_append, List.length_singleton] at hfit
  omega

theorem submit_inv (hI : Inv w) {result : R} {lts now : Int} (hfit : Fits (w.submit result lts now)) :
    Inv (w.submit result lts now) := by
  by_cases hone : MeasurementResult.msmId result ∈ w.handler.oneoffPending
  · rw [submit_oneoff hone]
    exact {
      hI with
      lt_next := fun s hs => Nat.lt_succ_of_lt (hI.lt_next s hs)
      failures_lt_next := fun b hb n hn => Nat.lt_succ_of_lt (hI.failures_lt_next b hb n hn) }
  · have hq : (w.handler.queue.enqueueMeasured ⟨w.next, result⟩ lts now).items =
        w.handler.queue.items ++ [⟨⟨w.next, result⟩, now, 0, none, lts⟩] :=
      enqueueMeasured_items (room_of_fits hI hone hfit)
    rw [submit_main hone]
    have happ : w.inFlight ++ (w.handler.queue.enqueueMeasured ⟨w.next, result⟩ lts now).items =
        (w.inFlight ++ w.handler.queue.items) ++ [⟨⟨w.next, result⟩, now, 0, none, lts⟩] := by
      rw [hq, List.append_assoc]
    refine {
      balance := ?_
      distinct := ?_
      fifo := ?_
      attempts := ?_
      tooOld := hI.tooOld
      tooManyAttempts := hI.tooManyAttempts
      maxAttempts_pos := hI.maxAttempts_pos
      lt_next := ?_
      failures_lt_next := fun b hb n hn => Nat.lt_succ_of_lt (hI.failures_lt_next b hb n hn)
      attempts_le := ?_
      inFlight_lt := hI.inFlight_lt }
    · change (stamps (w.inFlight ++ (w.handler.queue.enqueueMeasured _ _ _).items) : Multiset (Stamp R)) +
        w.accepted.flatten + (w.aged.map Prod.fst + w.exhausted : Multiset (Stamp R)) =
          (w.submitted ++ [_] : List (Stamp R))
      rw [happ, stamps_append, ← Multiset.coe_add, ← Multiset.coe_add, ← hI.balance]
      simp only [stamps, List.map_cons, List.map_nil]
      abel
    · refine List.pairwise_append.mpr ⟨hI.distinct, List.pairwise_singleton _ _, fun s hs s' hs' => ?_⟩
      rw [List.mem_singleton.mp hs']
      exact hI.lt_next s hs
    · change (seqs (w.inFlight ++ (w.handler.queue.enqueueMeasured _ _ _).items)).Pairwise _
      rw [happ, seqs_append]
      refine List.pairwise_append.mpr ⟨hI.fifo, List.pairwise_singleton _ _, fun n hn m hm => ?_⟩
      obtain ⟨r, hr, rfl⟩ := List.mem_map.mp hn
      rw [List.mem_singleton.mp hm]
      exact hI.seq_lt_next hr
    · intro r hr
      change r ∈ w.inFlight ++ (w.handler.queue.enqueueMeasured _ _ _).items at hr
      rw [happ] at hr
      rcases List.mem_append.mp hr with hr | hr
      · exact hI.attempts r hr
      · rw [List.mem_singleton.mp hr]
        exact hI.failuresOf_next.symm
    · intro s hs
      rcases List.mem_append.mp hs with hs | hs
      · exact Nat.lt_succ_of_lt (hI.lt_next s hs)
      · rw [List.mem_singleton.mp hs]; exact Nat.lt_succ_self _
    · intro r hr
      change r ∈ (w.handler.queue.enqueueMeasured _ _ _).items at hr
      rw [hq] at hr
      rcases List.mem_append.mp hr with hr | hr
      · exact hI.attempts_le r hr
      · rw [List.mem_singleton.mp hr]; exact Nat.zero_le _

end

/-! ## The start of a main upload -/

theorem inFlight_of_none (h : w.flight = none) : w.inFlight = [] := by rw [inFlight, h]

theorem beginMain_of_endpoint (h : w.handler.hasEndpoint = true) : w.beginMain = { w with
    handler := { w.handler with queue := { w.handler.queue with items := [] } }
    flight := some (.main, w.handler.queue.items.filter fun r => r.attempts < w.handler.config.maxAttempts)
    exhausted := w.exhausted ++
      stamps (w.handler.queue.items.filter fun r => !(r.attempts < w.handler.config.maxAttempts)) } := by
  simp only [beginMain, ResultHandler.beginUploadPending, h, ResultHandler.takeUploadable,
    ResultQueue.drainAll, List.partition_eq_filter_filter]
  rfl

theorem beginMain_inv (hI : Inv w) (hf : w.flight = none) : Inv w.beginMain := by
  cases he : w.handler.hasEndpoint with
  | false =>
    have : w.beginMain = w := by simp [beginMain, ResultHandler.beginUploadPending, he]
    rwa [this]
  | true =>
    have hsub : ∀ {r}, r ∈ w.handler.queue.items → r ∈ w.inFlight ++ w.handler.queue.items :=
      fun hr => List.mem_append_right _ hr
    rw [beginMain_of_endpoint he]
    refine { hI with balance := ?_, fifo := ?_, attempts := ?_, tooManyAttempts := ?_,
                     attempts_le := fun r hr => absurd hr List.not_mem_nil, inFlight_lt := ?_ }
    · have hb := hI.balance
      rw [inFlight_of_none hf, List.nil_append, ← stamps_filter fun r =>
        decide (r.attempts < w.handler.config.maxAttempts)] at hb
      rw [← hb]
      simp only [inFlight, List.append_nil, ← Multiset.coe_add]
      abel
    · have hfifo := hI.fifo
      rw [inFlight_of_none hf, List.nil_append] at hfifo
      simp only [inFlight, List.append_nil]
      exact hfifo.sublist (seqs_sublist List.filter_sublist)
    · intro r hr
      simp only [inFlight, List.append_nil] at hr
      exact hI.attempts r (hsub (List.mem_of_mem_filter hr))
    · intro s hs
      rcases List.mem_append.mp hs with hs | hs
      · exact hI.tooManyAttempts s hs
      · obtain ⟨r, hr, rfl⟩ := List.mem_map.mp hs
        obtain ⟨hr, hge⟩ := List.mem_filter.mp hr
        exact hI.exhausted_of_ge hr (by simpa using hge)
    · intro r hr
      simpa [UInt32.lt_iff_toNat_lt] using (List.mem_filter.mp hr).2

theorem inFlight_oneoffs (w : HandlerWorld R) (handler : ResultHandler (Numbered R))
    (taken : Option (List (QueuedResult (Numbered R)))) :
    inFlight { w with handler, flight := taken.map (.oneoffs, ·) } = [] := by
  cases taken <;> rfl

theorem beginOneoffs_inv (hI : Inv w) (hf : w.flight = none) : Inv w.beginOneoffs := by
  have hsame : w.handler.beginUploadOneoffs.2.queue = w.handler.queue ∧
      w.handler.beginUploadOneoffs.2.config = w.handler.config := by
    unfold ResultHandler.beginUploadOneoffs
    split <;> exact ⟨rfl, rfl⟩
  exact hI.frame hsame.1 hsame.2 ((inFlight_oneoffs ..).trans (inFlight_of_none hf).symm)

/-! ## The answer to a main upload -/

/-- A result in flight is in no other place of the ledger. -/
theorem Conserved.inFlight_ne_exhausted (h : Conserved w) {r : QueuedResult (Numbered R)}
    (hr : r ∈ w.inFlight) {s : Stamp R} (hs : s ∈ w.exhausted) : s.1.seq ≠ r.result.seq := by
  have hnd : (w.submitted.map fun s => s.1.seq).Nodup :=
    List.pairwise_map.mpr (h.distinct.imp Nat.ne_of_lt)
  rw [← Multiset.coe_nodup, ← Multiset.map_coe, ← h.balance, Multiset.map_add, Multiset.nodup_add] at hnd
  have h1 : (r.result, r.queuedAt) ∈ (stamps (w.inFlight ++ w.handler.queue.items) : Multiset (Stamp R)) +
      w.accepted.flatten :=
    Multiset.mem_add.mpr (Or.inl (Multiset.mem_coe.mpr (List.mem_map_of_mem (List.mem_append_left _ hr))))
  have h2 : s ∈ (w.aged.map Prod.fst + w.exhausted : Multiset (Stamp R)) :=
    Multiset.mem_add.mpr (Or.inr (Multiset.mem_coe.mpr hs))
  intro e
  exact Multiset.disjoint_left.mp hnd.2.2 (Multiset.mem_map_of_mem (fun s => s.1.seq) h1)
    (e ▸ Multiset.mem_map_of_mem (fun s => s.1.seq) h2)

/-- What a requeue of `u` puts in the queue: `u`, each result changed by `f`,
before what the queue holds. -/
theorem requeue_inv (hI : Inv w) (hfit : Fits w) {u : List (QueuedResult (Numbered R))}
    (hf : w.flight = some (.main, u)) {f : QueuedResult (Numbered R) → QueuedResult (Numbered R)}
    (hres : ∀ r, (f r).result = r.result ∧ (f r).queuedAt = r.queuedAt) {failures : List (List Nat)}
    (hatt : ∀ r ∈ u, (f r).attempts.toNat = failures.countP (r.result.seq ∈ ·))
    (hle : ∀ r ∈ u, (f r).attempts.toNat ≤ w.handler.config.maxAttempts.toNat)
    (hsame : ∀ n, n ∉ seqs u → failures.countP (n ∈ ·) = w.failuresOf n)
    (hlt : ∀ b ∈ failures, ∀ n ∈ b, n < w.next) :
    Inv { w with
      handler := { w.handler with queue := w.handler.queue.pushFront (u.map f) }
      flight := none
      failures } := by
  have hfl : w.inFlight = u := by rw [inFlight, hf]
  have hq : (w.handler.queue.pushFront (u.map f)).items = u.map f ++ w.handler.queue.items := by
    refine pushFront_items ?_
    have := hI.length_add
    rw [hfl] at this
    rw [List.length_map]
    unfold Fits at hfit
    omega
  have hseqs : seqs (u.map f) = seqs u := seqs_map (fun r => (hres r).1) u
  have hfifo := hI.fifo
  rw [hfl, seqs_append] at hfifo
  refine { hI with balance := ?_, fifo := ?_, attempts := ?_, tooManyAttempts := ?_,
                   failures_lt_next := hlt, attempts_le := ?_,
                   inFlight_lt := fun r hr => absurd hr List.not_mem_nil }
  · have hb := hI.balance
    rw [hfl] at hb
    simp only [inFlight, List.nil_append, hq]
    rwa [stamps_append, stamps_map hres, ← stamps_append]
  · simp only [inFlight, List.nil_append, hq]
    rwa [seqs_append, hseqs]
  · intro r hr
    simp only [inFlight, List.nil_append, hq] at hr
    rcases List.mem_append.mp hr with hr | hr
    · obtain ⟨r', hr', rfl⟩ := List.mem_map.mp hr
      rw [(hres r').1]
      exact hatt r' hr'
    · rw [hI.attempts r (List.mem_append_right _ hr)]
      refine (hsame _ fun hm => ?_).symm
      exact Nat.lt_irrefl _ ((List.pairwise_append.mp hfifo).2.2 _ hm _ (List.mem_map_of_mem hr))
  · intro s hs
    have : s.1.seq ∉ seqs u := fun hm => by
      obtain ⟨r, hr, e⟩ := List.mem_map.mp hm
      exact hI.inFlight_ne_exhausted (hfl ▸ hr) hs e.symm
    change 0 < failures.countP _ ∧ failures.countP _ = _
    rw [hsame _ this]
    exact hI.tooManyAttempts s hs
  · intro r hr
    change r ∈ (w.handler.queue.pushFront (u.map f)).items at hr
    rw [hq] at hr
    rcases List.mem_append.mp hr with hr | hr
    · obtain ⟨r', hr', rfl⟩ := List.mem_map.mp hr
      exact hle r' hr'
    · exact hI.attempts_le r hr

theorem accept_inv (hI : Inv w) {u : List (QueuedResult (Numbered R))}
    (hf : w.flight = some (.main, u)) :
    Inv { w with flight := none, accepted := w.accepted ++ [stamps u] } := by
  have hfl : w.inFlight = u := by rw [inFlight, hf]
  refine { hI with balance := ?_, fifo := ?_, attempts := ?_,
                   inFlight_lt := fun r hr => absurd hr List.not_mem_nil }
  · have hb := hI.balance
    rw [hfl] at hb
    rw [← hb]
    simp only [inFlight, List.nil_append, List.flatten_append, List.flatten_singleton, stamps_append,
      ← Multiset.coe_add]
    abel
  · have hfifo := hI.fifo
    rw [seqs_append] at hfifo
    exact (List.pairwise_append.mp hfifo).2.1
  · exact fun r hr => hI.attempts r (List.mem_append_right _ hr)

theorem answer_inv (hI : Inv w) (hfit : Fits w) (sent : Except PostError Unit) (now : Int) :
    Inv (w.answer sent now) := by
  rcases hf : w.flight with - | ⟨- | -, u⟩
  · rwa [answer, hf]
  · have hfl : w.inFlight = u := by rw [inFlight, hf]
    rw [answer, hf]
    rcases sent with (ra | -) | -
    · exact requeue_inv (f := fun r => { r with lastAttemptAt := some now }) hI hfit hf
        (fun _ => ⟨rfl, rfl⟩)
        (fun r hr => hI.attempts r (List.mem_append_left _ (hfl ▸ hr)))
        (fun r hr => Nat.le_of_lt (hI.inFlight_lt r (hfl ▸ hr))) (fun _ _ => rfl) hI.failures_lt_next
    · have hsucc : ∀ r ∈ u, (r.attempts + 1).toNat = r.attempts.toNat + 1 := fun r hr => by
        have := hI.inFlight_lt r (hfl ▸ hr)
        have := w.handler.config.maxAttempts.toNat_lt
        rw [UInt32.toNat_add, UInt32.toNat_one, Nat.mod_eq_of_lt (by omega)]
      refine requeue_inv (f := fun r => { r with attempts := r.attempts + 1, lastAttemptAt := some now })
        hI hfit hf (fun _ => ⟨rfl, rfl⟩) (fun r hr => ?_) (fun r hr => ?_) (fun n hn => ?_)
        fun b hb n hn => ?_
      · have : r.result.seq ∈ seqs u := List.mem_map_of_mem hr
        change (r.attempts + 1).toNat = _
        rw [hsucc r hr, hI.attempts r (List.mem_append_left _ (hfl ▸ hr))]
        simp [List.countP_append, failuresOf, this]
      · change (r.attempts + 1).toNat ≤ _
        rw [hsucc r hr]
        exact hI.inFlight_lt r (hfl ▸ hr)
      · simp [List.countP_append, failuresOf, hn]
      · rcases List.mem_append.mp hb with hb | hb
        · exact hI.failures_lt_next b hb n hn
        · rw [List.mem_singleton.mp hb] at hn
          obtain ⟨r, hr, rfl⟩ := List.mem_map.mp hn
          exact hI.seq_lt_next (List.mem_append_left _ (hfl ▸ hr))
    · exact accept_inv hI hf
  · rw [answer, hf]
    refine hI.frame ?_ ?_ (by simp only [inFlight, hf])
    · cases sent <;> rfl
    · cases sent <;> rfl

/-! ## Cleanup -/

theorem cleanup_eq (w : HandlerWorld R) (now : Int) :
    let young := w.handler.queue.items.filter fun r => now - r.queuedAt < w.handler.config.maxResultAgeSecs
    w.cleanup now = { w with
      handler := { w.handler.runCleanup now with
        queue := { w.handler.queue with
          items := young.filter fun r => r.attempts < w.handler.config.maxAttempts } }
      aged := w.aged ++ (stamps (w.handler.queue.items.filter fun r =>
        !(now - r.queuedAt < w.handler.config.maxResultAgeSecs))).map (·, now)
      exhausted := w.exhausted ++ stamps (young.filter fun r =>
        !(r.attempts < w.handler.config.maxAttempts)) } := rfl

theorem cleanup_inv (hI : Inv w) (now : Int) : Inv (w.cleanup now) := by
  have hsub : ∀ {r}, r ∈ (w.cleanup now).handler.queue.items → r ∈ w.handler.queue.items :=
    fun hr => List.mem_of_mem_filter (List.mem_of_mem_filter hr)
  have hmem : ∀ {r}, r ∈ w.inFlight ++ (w.cleanup now).handler.queue.items →
      r ∈ w.inFlight ++ w.handler.queue.items := fun hr =>
    (List.mem_append.mp hr).elim (fun hr => List.mem_append_left _ hr)
      fun hr => List.mem_append_right _ (hsub hr)
  refine { hI with balance := ?_, fifo := ?_, attempts := fun r hr => hI.attempts r (hmem hr),
                   tooOld := ?_, tooManyAttempts := ?_, attempts_le := fun r hr => hI.attempts_le r (hsub hr) }
  · have h1 := stamps_filter (fun r => decide (now - r.queuedAt < w.handler.config.maxResultAgeSecs))
      w.handler.queue.items
    have h2 := stamps_filter (fun r => decide (r.attempts < w.handler.config.maxAttempts))
      (w.handler.queue.items.filter fun r => now - r.queuedAt < w.handler.config.maxResultAgeSecs)
    have hb := hI.balance
    rw [stamps_append, ← Multiset.coe_add, ← h1, ← h2] at hb
    change _ = (w.submitted : Multiset (Stamp R))
    rw [← hb, cleanup_eq]
    change (stamps (w.inFlight ++ _) : Multiset (Stamp R)) + w.accepted.flatten + _ = _
    simp only [stamps_append, List.map_append, List.map_map, Function.comp_def, List.map_id',
      ← Multiset.coe_add]
    abel
  · exact hI.fifo.sublist (seqs_sublist ((List.Sublist.refl _).append
      (List.filter_sublist.trans List.filter_sublist)))
  · intro d hd
    rcases List.mem_append.mp hd with hd | hd
    · exact hI.tooOld d hd
    · obtain ⟨s, hs, rfl⟩ := List.mem_map.mp hd
      obtain ⟨r, hr, rfl⟩ := List.mem_map.mp hs
      have := (List.mem_filter.mp hr).2
      simp only [Bool.not_eq_true', decide_eq_false_iff_not] at this
      exact Int.not_lt.mp this
  · intro s hs
    rcases List.mem_append.mp hs with hs | hs
    · exact hI.tooManyAttempts s hs
    · obtain ⟨r, hr, rfl⟩ := List.mem_map.mp hs
      obtain ⟨hr, hge⟩ := List.mem_filter.mp hr
      exact hI.exhausted_of_ge (List.mem_of_mem_filter hr) (by simpa using hge)

/-! ## Runs -/

theorem step_inv [MeasurementResult R] (hI : Inv w) (hfit : Fits w) {e : HandlerEvent R}
    (hfit' : Fits (w.step e)) : Inv (w.step e) := by
  cases e with
  | setEndpointPath => exact hI.frame rfl rfl rfl
  | expectOneoff msmId => exact hI.frame rfl rfl rfl
  | submit result lts now => exact submit_inv hI hfit'
  | beginUpload spool =>
    simp only [step]
    split
    · exact hI
    · have hf : w.flight = none := by simpa using ‹¬ w.flight.isSome = true›
      cases spool with
      | main => exact beginMain_inv hI hf
      | oneoffs => exact beginOneoffs_inv hI hf
  | answer sent now => exact answer_inv hI hfit sent now
  | cleanup now => exact cleanup_inv hI now

theorem start_inv {config : ResultHandlerConfig} (h : 0 < config.maxAttempts) :
    Inv (start config : HandlerWorld R) where
  balance := rfl
  distinct := List.Pairwise.nil
  fifo := List.Pairwise.nil
  attempts := fun _ h => absurd h List.not_mem_nil
  tooOld := fun _ h => absurd h List.not_mem_nil
  tooManyAttempts := fun _ h => absurd h List.not_mem_nil
  maxAttempts_pos := UInt32.lt_iff_toNat_lt.mp h
  lt_next := fun _ h => absurd h List.not_mem_nil
  failures_lt_next := fun _ h => absurd h List.not_mem_nil
  attempts_le := fun _ h => absurd h List.not_mem_nil
  inFlight_lt := fun _ h => absurd h List.not_mem_nil

/-- A run that fits the capacity loses, duplicates and reorders nothing. -/
theorem conserved [MeasurementResult R] (config : ResultHandlerConfig) (hmax : 0 < config.maxAttempts)
    (events : List (HandlerEvent R)) (hfit : Always step Fits (start config) events) :
    Always step Conserved (start config) events := by
  have h : Always step Inv (start config) events := always_of_always
    (fun _ _ hI hw hw' => step_inv hI hw hw') (start_inv hmax) hfit
  exact h.mono fun _ hI => hI.toConserved

instance : DecidablePred (Fits : HandlerWorld R → Prop) := fun _ => inferInstanceAs (Decidable (_ ≤ _))

/-- A queue of two, filled while a post is out that is refused once and then
fails for good; a one-off's result goes its own way. -/
def fullQueue : List (HandlerEvent UInt64) :=
  [.setEndpointPath, .expectOneoff 7, .submit 1 (-1) 0, .beginUpload .main, .submit 7 (-1) 1,
    .submit 2 (-1) 2, .answer (.error (.rateLimited none)) 3, .beginUpload .main,
    .answer (.error .other) 4, .cleanup 5]

theorem conserved_fullQueue :
    Always step Fits (start { maxAttempts := 1, maxQueueSize := 2 }) fullQueue ∧
      Always step Conserved (start { maxAttempts := 1, maxQueueSize := 2 }) fullQueue :=
  ⟨by decide, conserved _ (by decide) _ (by decide)⟩

end HandlerWorld

end Starla.Proof.Results
