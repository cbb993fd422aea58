import Mathlib.Algebra.Group.Nat.Defs

/-!
# The upload gate

`UploadGate` and `rate_limit_hold` of `starla-results/src/lib.rs`. An
`Instant` is a number of nanoseconds since some origin and a `Duration` one of
nanoseconds. The failure counters are `u32`s that wrap, as they do in a
release build.
-/

namespace Starla.Impl.Results

abbrev Instant := Nat
abbrev Duration := Nat

/-- `Duration::from_secs`. -/
def secs (n : Nat) : Duration := n * 1000000000

/-- The error of a post: the uploader's `RateLimited` with its Retry-After, or
any other. -/
inductive PostError
  | rateLimited (retryAfter : Option UInt64)
  | other
deriving DecidableEq, Repr

def rateLimitFirstHold : Duration := secs 60
def rateLimitMaxHold : Duration := secs (30 * 60)
def retryAfterMaxHold : Duration := secs (60 * 60)
def timesyncInterval : Duration := secs 900
def oneoffRepostInterval : Duration := secs 60

/-- How long uploads are held after the `inARow`th 429 in a row: a minute,
doubled by each further one up to half an hour, or a longer Retry-After up to
an hour. -/
def rateLimitHold (inARow : UInt32) (retryAfter : Option UInt64) : Duration :=
  let doublings := min (inARow.toNat - 1) 16
  let backoff := min (rateLimitFirstHold * 2 ^ doublings) rateLimitMaxHold
  let asked := min (secs (retryAfter.getD 0).toNat) retryAfterMaxHold
  max backoff asked

structure UploadGate where
  consecutiveFailures : UInt32 := 0
  rateLimited : UInt32 := 0
  backoff : Duration := secs 1
  holdUntil : Option Instant := none
deriving DecidableEq, Repr

namespace UploadGate

def maxBackoff : Duration := secs 300

/-- Whether a post due at `tick` is held back. -/
def holds (g : UploadGate) (tick : Instant) : Bool := g.holdUntil.any (tick < ·)

/-- Accounts for a post started at `tick`. -/
def afterPost (g : UploadGate) (tick : Instant) : Except PostError Unit → UploadGate
  | .ok () => { g with consecutiveFailures := 0, rateLimited := 0, backoff := secs 1 }
  | .error e =>
    -- counted before the two kinds of error are told apart
    let g := { g with consecutiveFailures := g.consecutiveFailures + 1 }
    match e with
    | .rateLimited retryAfter =>
      let g := { g with rateLimited := g.rateLimited + 1 }
      { g with holdUntil := some (tick + rateLimitHold g.rateLimited retryAfter) }
    | .other =>
      if g.consecutiveFailures > 3 then
        { g with holdUntil := some (tick + g.backoff), backoff := min (g.backoff * 2) maxBackoff }
      else g

/-- Accounts for a one-off post: `Ok(0)` is no post at all. -/
def afterOneoffs (g : UploadGate) (tick : Instant) (sent : Except PostError Nat) : UploadGate :=
  match sent with
  | .ok 0 => g
  | sent => g.afterPost tick (sent.map fun _ => ())

end UploadGate

end Starla.Impl.Results
