import Starla.Impl.Measurements.Target

/-!
# evntp

`execute_ntp_query` of `starla-measurements/src/ntp/client.rs`, as far as what
it sends goes: whether a request is answered in time is an argument. Of an
answer, what its timestamps come to.
-/

namespace Starla.Impl.Measurements

open Starla.Framework

structure NtpConfig where
  target : IpAddr
  dstName : String
  timeoutMs : UInt64
  port : UInt16
  count : UInt32
  gapMs : UInt64
deriving DecidableEq, Repr

namespace Ntp

structure NtpIo where
  bind : IoResult Unit
  /-- whether the `i`th request is sent and answered in time -/
  answered : Nat → Bool

/-- The requests from the `i`th on, and which were answered. -/
def exchanges (dest : SocketAddr) (io : NtpIo) : (left i : Nat) → Logged Contact (List Bool)
  | 0, _ => pure []
  | left + 1, i => do
    Logged.emit (.packet dest)
    let samples ← exchanges dest io left (i + 1)
    pure (io.answered i :: samples)

def executeNtpQuery (config : NtpConfig) (io : NtpIo) : Logged Contact (IoResult (List Bool)) :=
  match io.bind with
  | .error e => pure (.error e)
  | .ok () => do
    let samples ← exchanges ⟨config.target, config.port⟩ io config.count.toNat 0
    pure (.ok samples)

/-! ## Times -/

/-- From the NTP epoch, 1900, to the Unix one, 1970, in seconds. -/
def NTP_OFFSET : UInt64 := 2208988800

/-- The NTP timestamp `now` nanoseconds after 1970. -/
def nowNtp (now : Nat) : UInt64 :=
  let secs := UInt64.ofNat (now / 1000000000) + NTP_OFFSET
  let frac := (UInt64.ofNat (now % 1000000000) <<< 32) / 1000000000
  secs <<< 32 ||| (frac &&& 0xFFFFFFFF)

/-- A difference of two timestamps. -/
def difference (a b : UInt64) : Int64 := (a - b).toInt64

/-- The delay and twice the offset, in fixed point: what `delay_and_offset`
converts to floating point. -/
def delayAndOffset (t1 t2 t3 t4 : UInt64) : Int64 × Int64 :=
  (difference t4 t1 - difference t3 t2, difference t2 t1 + difference t3 t4)

end Ntp

end Starla.Impl.Measurements
