import Mathlib.Data.List.Basic

/-!
# The result queue

`ResultQueue` of `starla-results/src/queue.rs`: a double-ended queue of
results waiting to be uploaded, bounded by a capacity. A clock read
(`SystemTime::now`) is the argument `now`, in seconds since 1970, so never
negative; `R` is `MeasurementResult`.
-/

namespace Starla.Impl.Results

variable {R : Type}

/-- A queued result with what the queue records of it. -/
structure QueuedResult (R : Type) where
  result : R
  /-- When it was queued. -/
  queuedAt : Int
  /-- Upload attempts so far. -/
  attempts : UInt32
  lastAttemptAt : Option Int
  /-- `lts` when it was measured. -/
  lts : Int
deriving DecidableEq, Repr

structure ResultQueue (R : Type) where
  /-- Front first. -/
  items : List (QueuedResult R)
  maxCapacity : Nat
deriving DecidableEq, Repr

structure QueueStats where
  count : Nat
  capacity : Nat
deriving DecidableEq, Repr

namespace ResultQueue

def new (maxCapacity : Nat) : ResultQueue R := ⟨[], maxCapacity⟩

/-- Adds a result with the `lts` it was measured at. At capacity the front
goes first: the test is made once, before the push. -/
def enqueueMeasured (q : ResultQueue R) (result : R) (lts now : Int) : ResultQueue R :=
  let items := if q.items.length ≥ q.maxCapacity then q.items.tail else q.items
  { q with items := items ++ [⟨result, now, 0, none, lts⟩] }

def enqueue (q : ResultQueue R) (result : R) (now : Int) : ResultQueue R :=
  q.enqueueMeasured result (-1) now

/-- Takes up to `n` results from the front. -/
def drainBatch (q : ResultQueue R) (n : Nat) : List (QueuedResult R) × ResultQueue R :=
  let count := min n q.items.length
  (q.items.take count, { q with items := q.items.drop count })

def drainAll (q : ResultQueue R) : List (QueuedResult R) × ResultQueue R :=
  (q.items, { q with items := [] })

/-- Pushes `results` at the front in their own order, then pops the back while
there are more than the capacity. -/
def pushFront (q : ResultQueue R) (results : List (QueuedResult R)) : ResultQueue R :=
  { q with items := (results ++ q.items).take q.maxCapacity }

/-- Puts failed results back, an attempt counted. -/
def requeueFailed (q : ResultQueue R) (results : List (QueuedResult R)) (now : Int) : ResultQueue R :=
  q.pushFront (results.map fun r => { r with attempts := r.attempts + 1, lastAttemptAt := some now })

/-- Puts results the controller refused (429) back, no attempt counted. -/
def requeueRefused (q : ResultQueue R) (results : List (QueuedResult R)) (now : Int) : ResultQueue R :=
  q.pushFront (results.map fun r => { r with lastAttemptAt := some now })

/-- Keeps the results younger than `maxAgeSecs`, and counts the others. -/
def cleanupExpired (q : ResultQueue R) (maxAgeSecs now : Int) : Nat × ResultQueue R :=
  let kept := q.items.filter fun r => now - r.queuedAt < maxAgeSecs
  (q.items.length - kept.length, { q with items := kept })

/-- Keeps the results with attempts left, and counts the others. -/
def cleanupFailed (q : ResultQueue R) (maxAttempts : UInt32) : Nat × ResultQueue R :=
  let kept := q.items.filter fun r => r.attempts < maxAttempts
  (q.items.length - kept.length, { q with items := kept })

def stats (q : ResultQueue R) : QueueStats := ⟨q.items.length, q.maxCapacity⟩

end ResultQueue

end Starla.Impl.Results
