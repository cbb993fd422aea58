import Starla.Impl.Measurements.Target

/-!
# evsslgetcert

`tls/mod.rs` and `tls/resolve.rs` of `starla-measurements`, as far as whom a
run connects to goes: the hello and the answer to it are not modelled here.
-/

namespace Starla.Impl.Measurements

open Starla.Framework

structure TlsConfig where
  target : String
  port : UInt16
  af : UInt8
  sni : Option String
  checkAddr : Bool
  timeoutMs : UInt64
deriving DecidableEq, Repr

def CONN_TO_MS : UInt64 := 5000

def TlsConfig.new (var : Option String) (target : String) (port : UInt16) (af : UInt8)
    (sni : Option String) : TlsConfig :=
  { target, port, af, sni, checkAddr := !checkAddrDisabled var, timeoutMs := CONN_TO_MS }

namespace Tls

/-- An IPv6 address as eight numbers. -/
def segments (a : BitVec 128) : List (BitVec 16) :=
  [112, 96, 80, 64, 48, 32, 16, 0].map fun i => a.extractLsb' i 16

/-- `atlas_check_addr`, as sslgetcert has it. -/
def addrAllowed : IpAddr → Bool
  | .v4 a => !hasPrefixOf [⟨0x7F000000, 8⟩, ⟨0x0A000000, 8⟩, ⟨0xAC100000, 12⟩, ⟨0xC0A80000, 16⟩,
      ⟨0xA9FE0000, 16⟩, ⟨0xE0000000, 4⟩] a
  | .v6 a =>
    let s := segments a
    !(s == [0, 0, 0, 0, 0, 0, 0, 1] || s.take 6 == [0, 0, 0, 0, 0, 0xFFFF] ||
      (s.headD 0 &&& 0xE000) == 0xE000)

/-- A literal of the family is not looked up. -/
def resolve (host : String) (af : UInt8) (answer : IoResult (List IpAddr)) : IoResult (List IpAddr) :=
  match parseIpAddr host.toList with
  | some ip => if af = 0 || (af == 4) == ip.isIpv4 then .ok [ip] else answer
  | none => answer

/-- How a run ended: with an answer, or what was gathered for an error report. -/
inductive Outcome
  | dnsError (error : String)
  | answered (dst : IpAddr)
  | report (dst : Option IpAddr) (result : String)
deriving DecidableEq, Repr

structure TlsIo where
  answer : IoResult (List IpAddr)
  connect : Nat → Connect

/-- The addresses in turn, the `i`th next, until one answers or is refused. -/
def connectTo (config : TlsConfig) (io : TlsIo) :
    List IpAddr → (i : Nat) → (dst : Option IpAddr) → (result : String) → Logged Contact Outcome
  | [], _, dst, result => pure (.report dst result)
  | ip :: addrs, i, _, result =>
    if config.checkAddr && !addrAllowed ip then
      -- no other address is tried
      pure (.report (some ip) (result ++ "\"error\": \"address not allowed\""))
    else do
      Logged.emit (.connection ⟨ip, config.port⟩)
      match io.connect i with
      | .connected => pure (.answered ip)
      | .failed e => connectTo config io addrs (i + 1) (some ip) s!"\"err\":\"connect: {e}\""
      | .timedOut => connectTo config io addrs (i + 1) (some ip) "\"err\":\"connect: timeout\""

def sslgetcert (config : TlsConfig) (io : TlsIo) : Logged Contact Outcome :=
  match resolve config.target config.af io.answer with
  | .error e => pure (.dnsError e)
  | .ok addrs => connectTo config io addrs 0 none ""

end Tls

end Starla.Impl.Measurements
