import Starla.Impl.Results.Gate
import Starla.Impl.Results.Queue

/-!
# The result handler

`ResultHandler` of `starla-results/src/lib.rs`: the main queue and the
one-offs' queue, submissions, uploads and cleanup. An upload is split where it
awaits the controller's answer: `begin…` takes the results the post carries,
`end…` accounts for the answer. What is submitted in between finds the results
gone from the queue.
-/

namespace Starla.Impl.Results

/-- What the handler reads of a `MeasurementResult`. -/
class MeasurementResult (R : Type) where
  msmId : R → UInt64

/-- A result of which nothing but its measurement id is left. -/
instance : MeasurementResult UInt64 := ⟨id⟩

structure ResultHandlerConfig where
  uploadInterval : Duration := secs 60
  maxResultAgeSecs : Int := 3600
  maxAttempts : UInt32 := 5
  maxQueueSize : Nat := 10000
deriving DecidableEq, Repr

/-- How many one-offs may await their result at once. -/
def maxPendingOneoffs : Nat := 256

structure ResultHandler (R : Type) where
  queue : ResultQueue R
  oneoffQueue : ResultQueue R
  /-- Measurement ids of one-offs whose result has not come in yet. -/
  oneoffPending : List UInt64
  config : ResultHandlerConfig
  /-- The uploader has an endpoint path. -/
  hasEndpoint : Bool
deriving DecidableEq, Repr

namespace ResultHandler

variable {R : Type}

def new (config : ResultHandlerConfig) : ResultHandler R :=
  ⟨.new config.maxQueueSize, .new config.maxQueueSize, [], config, false⟩

/-- A path the uploader accepts starts with a slash, so it is an endpoint. -/
def setEndpointPath (h : ResultHandler R) : ResultHandler R := { h with hasEndpoint := true }

/-- The next result of measurement `msmId` is a one-off's. -/
def expectOneoff (h : ResultHandler R) (msmId : UInt64) : ResultHandler R :=
  let pending :=
    if h.oneoffPending.length ≥ maxPendingOneoffs then h.oneoffPending.tail else h.oneoffPending
  { h with oneoffPending := pending ++ [msmId] }

/-- Submits a result: to the one-offs' queue if one of its measurement is
expected, to the main queue otherwise. -/
def submit [MeasurementResult R] (h : ResultHandler R) (result : R) (lts now : Int) :
    ResultHandler R :=
  if MeasurementResult.msmId result ∈ h.oneoffPending then
    { h with
      oneoffPending := h.oneoffPending.erase (MeasurementResult.msmId result)
      oneoffQueue := h.oneoffQueue.enqueueMeasured result lts now }
  else { h with queue := h.queue.enqueueMeasured result lts now }

/-- Drains `q` for a post: the results with attempts left, and the others,
which are dropped. -/
def takeUploadable (q : ResultQueue R) (maxAttempts : UInt32) :
    (List (QueuedResult R) × List (QueuedResult R)) × ResultQueue R :=
  let (results, q) := q.drainAll
  (results.partition fun r => r.attempts < maxAttempts, q)

/-- Puts the results of a post that ended in an error back. -/
def putBack (q : ResultQueue R) (uploadable : List (QueuedResult R)) (e : PostError) (now : Int) :
    ResultQueue R :=
  match e with
  | .rateLimited _ => q.requeueRefused uploadable now
  | .other => q.requeueFailed uploadable now

/-- `upload_pending_to` up to its post: the results the post carries, or none
without an endpoint. A post with no results is still a post. -/
def beginUploadPending (h : ResultHandler R) : Option (List (QueuedResult R)) × ResultHandler R :=
  if !h.hasEndpoint then (none, h)
  else
    let ((uploadable, _), queue) := takeUploadable h.queue h.config.maxAttempts
    (some uploadable, { h with queue })

/-- `upload_pending_to` from the answer on. -/
def endUploadPending (h : ResultHandler R) (uploadable : List (QueuedResult R))
    (sent : Except PostError Unit) (now : Int) : Except PostError Nat × ResultHandler R :=
  match sent with
  | .ok () => (.ok uploadable.length, h)
  | .error e => (.error e, { h with queue := putBack h.queue uploadable e now })

/-- `upload_oneoffs` up to its post: nothing queued, nothing posted. -/
def beginUploadOneoffs (h : ResultHandler R) : Option (List (QueuedResult R)) × ResultHandler R :=
  if !h.hasEndpoint then (none, h)
  else
    let ((uploadable, _), oneoffQueue) := takeUploadable h.oneoffQueue h.config.maxAttempts
    (if uploadable.isEmpty then none else some uploadable, { h with oneoffQueue })

/-- `upload_oneoffs` from the answer on. -/
def endUploadOneoffs (h : ResultHandler R) (uploadable : List (QueuedResult R))
    (sent : Except PostError Unit) (now : Int) : Except PostError Nat × ResultHandler R :=
  match sent with
  | .ok () => (.ok uploadable.length, h)
  | .error e => (.error e, { h with oneoffQueue := putBack h.oneoffQueue uploadable e now })

def runCleanup (h : ResultHandler R) (now : Int) : ResultHandler R :=
  let queue := (h.queue.cleanupExpired h.config.maxResultAgeSecs now).2
  let queue := (queue.cleanupFailed h.config.maxAttempts).2
  let oneoffQueue := (h.oneoffQueue.cleanupExpired h.config.maxResultAgeSecs now).2
  let oneoffQueue := (oneoffQueue.cleanupFailed h.config.maxAttempts).2
  { h with queue, oneoffQueue }

end ResultHandler

end Starla.Impl.Results
