import Starla.Impl.Reports.Http

/-!
# evntp's lines

`result_body` of `starla-measurements/src/ntp/mod.rs`, of the samples and the
server's header fields a run gathered.
-/

namespace Starla.Impl.Reports

open Starla.Framework

namespace Ntp

structure Sample where
  originTs : Fixed 9
  receiveTs : Fixed 9
  transmitTs : Fixed 9
  finalTs : Fixed 9
  rtt : Fixed 6
  offset : Fixed 6
deriving DecidableEq, Repr

/-- The header fields of the first reply. -/
structure Header where
  leap : UInt8
  version : UInt8
  mode : UInt8
  stratum : UInt8
  poll : UInt8
  /-- Two to the power of the field. -/
  precision : Scientific
  rootDelay : Shortest
  rootDispersion : Shortest
  refId : String
  refTs : Fixed 9
deriving DecidableEq, Repr

/-- What a run gathers, `none` for a request that was not answered. -/
structure NtpResult where
  header : Option Header
  samples : List (Option Sample)
deriving DecidableEq, Repr

def Sample.text (s : Sample) : String :=
  "\"origin-ts\":" ++ s.originTs.text ++ ", \"receive-ts\":" ++ s.receiveTs.text ++ ", \"transmit-ts\":" ++
    s.transmitTs.text ++ ", \"final-ts\":" ++ s.finalTs.text ++ ", \"rtt\":" ++ s.rtt.text ++ ", \"offset\":" ++
    s.offset.text

def sampleEntry (s : Option Sample) : String :=
  "\x7b " ++ ((s.map Sample.text).getD "\"x\":\"*\"") ++ " \x7d"

def liText (leap : UInt8) : String :=
  if leap = 0 then "no" else if leap = 1 then "61" else if leap = 2 then "59" else "unknown"

def modeText (mode : UInt8) : String :=
  if mode = 1 then "symmetric_active"
  else if mode = 2 then "symmetric_passive"
  else if mode = 3 then "client"
  else if mode = 4 then "server"
  else if mode = 5 then "broadcast" else "unknown"

def Header.text (h : Header) : String :=
  ", \"li\":\"" ++ liText h.leap ++ "\"" ++ ", \"version\":" ++ toString h.version.toNat ++ ", \"mode\":\"" ++
    modeText h.mode ++ "\"" ++ ", \"stratum\":" ++ toString h.stratum.toNat ++ ", \"poll\":" ++
    toString h.poll.toNat ++ ", \"precision\":" ++ h.precision.text ++ ", \"root-delay\":" ++ h.rootDelay.text ++
    ", \"root-dispersion\":" ++ h.rootDispersion.text ++ ", \"ref-id\":" ++ quoted h.refId ++ ", \"ref-ts\":" ++
    h.refTs.text

def resultBody (msmId : UInt64) (dstName : String) (target : IpAddr) (srcAddr : Option IpAddr) (timestamp : Int)
    (results : NtpResult) (lts : LtsText) : String :=
  envelope (toString msmId.toNat) lts ++ ("\"time\":" ++ toString timestamp) ++ ", \"dst_name\":" ++
    quoted dstName ++ ", \"dst_addr\":\"" ++ target.text ++ "\"" ++ ", \"src_addr\":\"" ++ addrText srcAddr ++
    "\"" ++ ", \"proto\":\"UDP\"" ++ ", \"af\": " ++ toString (if target.isIpv4 then 4 else 6 : Nat) ++
    (results.header.map Header.text).getD "" ++ ", \"result\": " ++
    ("[ " ++ ", ".intercalate (results.samples.map sampleEntry) ++ " ]")

end Ntp

end Starla.Impl.Reports
