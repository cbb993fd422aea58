import Starla.Impl.Reports.Envelope
import Starla.Impl.Scheduler.Job

/-!
# evping's lines

`ping_cb`, `Report::body` and the results of `Ping`, of
`starla-measurements/src/ping/mod.rs`, over a run that has its line: the events
a backend gathered are an argument.
-/

namespace Starla.Impl.Reports

open Starla.Framework Starla.Impl.Measurements Starla.Impl.Scheduler

namespace Ping

def MIN_DATA_LEN : Nat := 32
def MAX_DATA_LEN : Nat := 4096 - 20 - 8

def dataLen (size : UInt16) : Nat := max MIN_DATA_LEN (min size.toNat MAX_DATA_LEN)

inductive Event
  /-- A request was sent, from this address. -/
  | sent (loc : Option IpAddr) (error : Option SystemText)
  | reply (dup : Bool) (rtt : Fixed 6) (ttl : Option UInt8) (size : Nat) (dst : Option IpAddr)
  | timeout

/-- What `ping_cb` has gathered. -/
structure Entries where
  entries : List String
  size : Nat
  ttl : UInt8
  gotReply : Bool
  loc : Option IpAddr
  rcvdTtl : UInt8
deriving DecidableEq, Repr

namespace Entries

def push (s : Entries) (entry : String) : Entries := { s with entries := s.entries ++ [entry] }

/-- The first entry sets the size and the TTL kept. -/
def first (s : Entries) (size : Nat) (ttl : UInt8) : Entries :=
  if s.entries.isEmpty then { s with size, ttl } else s

/-- A reply's entry, `s` as it is by then. -/
def replyEntry (s : Entries) (dup : Bool) (rtt : Fixed 6) (bytes : Nat) (dst : Option IpAddr) : String :=
  "\x7b " ++ ((if dup then "\"dup\":1, " else "") ++ ("\"rtt\":" ++ rtt.text) ++
    (if s.size ≠ bytes then ", \"size\":" ++ toString bytes else "") ++
    (if s.ttl ≠ s.rcvdTtl then ", \"ttl\":" ++ toString s.rcvdTtl.toNat else "") ++
    (match dst, s.loc with
      | some dst, some loc => if dst ≠ loc then ", \"src_addr\":\"" ++ dst.text ++ "\"" else ""
      | _, _ => "")) ++ " \x7d"

/-- The first reply that is not a duplicate gives the local address. -/
def gotReplyTo (s : Entries) (dup : Bool) (dst : Option IpAddr) : Entries :=
  if !s.gotReply && !dup then { s with loc := dst.or s.loc, gotReply := true } else s

def step (dataLen : Nat) (s : Entries) : Event → Entries
  | .sent loc error =>
    let s := { s with loc }
    match error with
    | some error => (s.first dataLen 0).push (errorEntry ("sendto failed: " ++ error.text))
    | none => s
  | .timeout => (s.first dataLen 255).push "\x7b \"x\":\"*\" \x7d"
  | .reply dup rtt ttl bytes dst =>
    let s := { s with rcvdTtl := ttl.getD s.rcvdTtl }
    let s := (s.first bytes s.rcvdTtl).gotReplyTo dup dst
    { s.push (s.replyEntry dup rtt bytes dst) with size := bytes, ttl := s.rcvdTtl }

end Entries

def pingCb (events : List Event) (dataLen : Nat) (loc : Option IpAddr) (rcvdTtl : UInt8) : Entries :=
  events.foldl (Entries.step dataLen) ⟨[], dataLen, 0, false, loc, rcvdTtl⟩

/-- What `report()` writes. -/
structure Report where
  msmId : UInt64
  time : Int
  dstName : DstName
  af : Nat
  dstAddr : Option IpAddr
  srcAddr : Option (Option IpAddr)
  ttl : Option UInt8
  size : Nat
  /-- The result array, brackets included. -/
  result : String
deriving DecidableEq, Repr

def Report.body (r : Report) (lts : LtsText) : String :=
  envelope (toString r.msmId.toNat) lts ++ "\"time\":" ++ toString r.time ++ ", " ++ r.dstName.fields ++
    ", \"af\":" ++ toString r.af ++
    (r.dstAddr.map fun dst => ", \"dst_addr\":\"" ++ dst.text ++ "\"" ++
      (r.srcAddr.map fun src => ", \"src_addr\":\"" ++ addrText src ++ "\"").getD "").getD "" ++
    ", \"proto\":\"ICMP\"" ++ (r.ttl.map fun ttl => ", \"ttl\":" ++ toString ttl.toNat).getD "" ++
    ", \"size\":" ++ toString r.size ++ ", \"result\": " ++ r.result

/-- What a line's runs leave for the next one. -/
structure Kept where
  size : Nat := 0
  cursize : Nat := 0
  loc : Option IpAddr := none
  rcvdTtl : UInt8 := 0
  busyForGood : Bool := false
deriving DecidableEq, Repr

/-- The call that failed before a run's first request. -/
inductive FailedCall
  | socket
  | connect
deriving DecidableEq, Repr

def FailedCall.text : FailedCall → String
  | socket => "socket failed: "
  | connect => "connect failed: "

inductive Outcome
  | ran (loc : Option IpAddr) (events : List Event)
  | failed (call : FailedCall) (error : SystemText)

/-- The ping of a job, its target looked up. -/
structure Config where
  msmId : UInt64
  target : IpAddr
  size : UInt16
  dstName : DstName
deriving DecidableEq, Repr

namespace Config

def af (c : Config) : Nat := if c.target.isIpv4 then 4 else 6

def isSent : Event → Bool
  | .sent .. => true
  | _ => false

/-- The report of a run's outcome, and what the run leaves. -/
def outcomeResult (c : Config) (time : Int) (kept : Kept) : Outcome → Report × Kept
  | .ran loc events =>
    let len := dataLen c.size
    let s := pingCb events len loc kept.rcvdTtl
    ({ msmId := c.msmId
       time
       dstName := c.dstName
       af := c.af
       dstAddr := some c.target
       srcAddr := some s.loc
       ttl := if s.gotReply then some s.ttl else none
       size := s.size
       result := "[ " ++ ", ".intercalate s.entries ++ " ]" },
      { kept with
        size := s.size
        cursize := if events.any isSent then len else c.size.toNat
        loc := s.loc
        rcvdTtl := s.rcvdTtl })
  | .failed call error =>
    ({ msmId := c.msmId
       time
       dstName := c.dstName
       af := c.af
       dstAddr := some c.target
       srcAddr := some kept.loc
       ttl := none
       size := kept.size
       result := "[ " ++ errorEntry (call.text ++ error.text) ++ " ]" },
      { kept with cursize := c.size.toNat })

/-- The report of a lookup that leads to no ping. -/
def dnsCbResult (c : Config) (time : Int) (kept : Kept) (dstAddr : Option IpAddr) (error : String) :
    Report × Kept :=
  ({ msmId := c.msmId
     time
     dstName := c.dstName
     af := c.af
     dstAddr
     srcAddr := none
     ttl := none
     size := c.size.toNat
     result := "[ " ++ errorEntry error ++ " ]" },
    { kept with size := c.size.toNat })

/-- An empty answer is not reported, and leaves the line busy. -/
def lookupFailed (c : Config) (time : Int) (kept : Kept) (error : LookupError) : Option Report × Kept :=
  if error = .noAddress then (none, { kept with size := kept.cursize, busyForGood := true })
  else
    let (report, kept) := c.dnsCbResult time kept none ("dns resolution failed: " ++ lookupErrorText error)
    (some report, kept)

def addressNotAllowed (c : Config) (time : Int) (kept : Kept) : Report × Kept :=
  c.dnsCbResult time kept (some c.target) "address not allowed"

end Config

/-- What a run meets. -/
structure Met where
  /-- `ATLAS_DISABLE_CHECK_ADDR`. -/
  var : Option String
  lookup : Lookup
  kept : Kept
  outcome : Outcome
  /-- When it is reported. -/
  time : Int

/-- The report of a job's run. -/
def report (msmId : UInt64) (spec : PingJobSpec) (met : Met) : Option Report :=
  let config (target : IpAddr) : Config := ⟨msmId, target, spec.size, ⟨spec.target, met.lookup.ttr⟩⟩
  match met.lookup.addr with
  | .ok addr =>
    if addressAllowed met.var addr then some ((config addr).outcomeResult met.time met.kept met.outcome).1
    else some ((config addr).addressNotAllowed met.time met.kept).1
  | .error error => ((config (familyOf spec.af)).lookupFailed met.time met.kept error).1

end Ping

end Starla.Impl.Reports
