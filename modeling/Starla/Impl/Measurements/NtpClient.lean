import Mathlib.Data.List.DropRight
import Starla.Framework.Bytes
import Starla.Framework.Formatting
import Starla.Framework.Text
import Starla.Impl.Measurements.Ntp

/-!
# evntp's exchanges

`starla-measurements/src/ntp/client.rs`, on what the socket brings: datagrams in
any order, with the clock's timestamp where one is read. Of timestamps and
fixed-point numbers the bits are kept, before they are converted to floating
point.
-/

namespace Starla.Impl.Measurements.NtpClient

open Starla.Framework Starla.Impl.Measurements.Ntp

/-- "RIPE". -/
def REF_ID_RIPE : List UInt8 := [0x52, 0x49, 0x50, 0x45]

def request (t1 : UInt64) : List UInt8 :=
  [0x23, 0, 0, 0] ++ beBytes 4 0 ++ beBytes 4 0 ++ REF_ID_RIPE ++ beBytes 8 0 ++ beBytes 8 0 ++ beBytes 8 0 ++
    beBytes 8 t1.toNat

structure Sample where
  originTs : UInt64
  receiveTs : UInt64
  transmitTs : UInt64
  finalTs : UInt64
  rtt : Int64
  /-- Twice the offset. -/
  offset : Int64
deriving DecidableEq, Repr

structure Header where
  stratum : UInt8
  leap : UInt8
  version : UInt8
  mode : UInt8
  poll : UInt8
  precision : Int8
  rootDelay : UInt32
  rootDispersion : UInt32
  refId : String
  refTs : UInt64
deriving DecidableEq, Repr

structure NtpResult where
  header : Option Header
  samples : List (Option Sample)
deriving DecidableEq, Repr

/-- What the socket brings to an exchange that waits. -/
inductive Received
  /-- `t4` is the clock where the datagram is read. -/
  | datagram (source : IpAddr) (bytes : List UInt8) (t4 : UInt64)
  | failed
  | deadline
deriving DecidableEq, Repr

/-- The number in `n` bytes from place `i`. -/
def field (bytes : List UInt8) (i n : Nat) : Nat := beNat ((bytes.drop i).take n)

def sampleOf (t1 : UInt64) (raw : List UInt8) (t4 : UInt64) : Sample :=
  let t2 := UInt64.ofNat (field raw 32 8)
  let t3 := UInt64.ofNat (field raw 40 8)
  let (rtt, offset) := delayAndOffset t1 t2 t3 t4
  { originTs := t1, receiveTs := t2, transmitTs := t3, finalTs := t4, rtt, offset }

def parseHeader (raw : List UInt8) : Header :=
  let first := UInt8.ofNat (field raw 0 1)
  let stratum := UInt8.ofNat (field raw 1 1)
  let refId := field raw 12 4
  { stratum
    leap := (first >>> 6) &&& 0x03
    version := (first >>> 3) &&& 0x07
    mode := first &&& 0x07
    poll := UInt8.ofNat (field raw 2 1)
    precision := (UInt8.ofNat (field raw 3 1)).toInt8
    rootDelay := UInt32.ofNat (field raw 4 4)
    rootDispersion := UInt32.ofNat (field raw 8 4)
    refId :=
      if stratum ≤ 1 then String.ofList ((decodeUtf8LossyFrom none (beBytes 4 refId)).rdropWhile (· == Char.ofNat 0))
      else hexText 8 refId
    refTs := UInt64.ofNat (field raw 16 8) }

/-- The request of timestamp `t1` is sent: the sample and the raw reply, if one
comes, and what the socket brings after. -/
def ntpExchange (target : IpAddr) (t1 : UInt64) : List Received → Option (Sample × List UInt8) × List Received
  | [] => (none, [])
  | .failed :: rest => (none, rest)
  | .deadline :: rest => (none, rest)
  | .datagram source bytes t4 :: rest =>
    -- the buffer holds 48 bytes
    let raw := bytes.take 48
    if source ≠ target ∨ raw.length < 48 then ntpExchange target t1 rest
    else if (raw.drop 24).take 8 ≠ beBytes 8 t1.toNat then ntpExchange target t1 rest
    else (some (sampleOf t1 raw t4, raw), rest)

/-- The requests from the `i`th on: what their timestamps are, and whether they
are sent. -/
def executeFrom (target : IpAddr) (t1 : Nat → UInt64) (sent : Nat → Bool) :
    (left i : Nat) → (header : Option Header) → List Received → NtpResult
  | 0, _, header, _ => ⟨header, []⟩
  | left + 1, i, header, received =>
    let (reply, received) := if sent i then ntpExchange target (t1 i) received else (none, received)
    let header := header.or (reply.map fun r => parseHeader r.2)
    let result := executeFrom target t1 sent left (i + 1) header received
    { result with samples := reply.map (·.1) :: result.samples }

def execute (config : NtpConfig) (t1 : Nat → UInt64) (sent : Nat → Bool) (received : List Received) : NtpResult :=
  executeFrom config.target t1 sent config.count.toNat 0 none received

end Starla.Impl.Measurements.NtpClient
