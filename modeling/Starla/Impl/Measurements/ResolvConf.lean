import Starla.Framework.Address
import Starla.Framework.Float64
import Starla.Framework.Lines

/-!
# resolv.conf

`ResolvConf::parse` of `starla-measurements/src/target.rs`. A duration is its
nanoseconds; `none` where the program panics. `interfaceIndex` is the index the
system has for an interface's name.
-/

namespace Starla.Impl.Measurements

open Starla.Framework

/-- A server's address, with the zone of a link-local one. -/
structure Nameserver where
  ip : IpAddr
  port : UInt16
  scope : UInt32
deriving DecidableEq, Repr

def nanosPerSec : ℕ := 10 ^ 9

structure ResolvConf where
  nameservers : List Nameserver := []
  search : List String := []
  ndots : ℕ := 1
  timeout : ℕ := 5 * nanosPerSec
  attempts : ℕ := 3
  randomizeCase : Bool := true
  maxTimeouts : ℕ := 3
  probeTimeout : ℕ := 10 * nanosPerSec
deriving DecidableEq, Repr

/-! ## Options -/

/-- A whole decimal number; nothing is 0. -/
def strtoint (val : List Char) : Option ℤ :=
  if val = [] then some 0 else parseSigned (2 ^ 63) (2 ^ 63 - 1) val

/-- 0.001 as the format has it. -/
def milli : ℚ := 1152921504606847 / 2 ^ 60

example : nearest (1 / 1000) = .finite milli := by decide +kernel

/-- Seconds, at least a millisecond. -/
def strtotimeval (val : List Char) : Option (Option ℕ) :=
  match (parseF64 val).filter (·.atLeast milli) with
  | some secs => (fromSecsF64 secs).map some
  | none => some none

namespace ResolvConf

def setOption (conf : ResolvConf) (name val : List Char) : Option ResolvConf :=
  match String.ofList name with
  | "ndots" =>
    match (strtoint val).filter (0 ≤ ·) with
    | some n => some { conf with ndots := n.toNat }
    | none => some conf
  | "timeout" => (strtotimeval val).map fun t => { conf with timeout := t.getD conf.timeout }
  | "attempts" =>
    match (strtoint val).filter fun n => 0 ≤ n ∧ n < 2 ^ 32 with
    | some n => some { conf with attempts := min n.toNat 255 }
    | none => some conf
  | "randomize-case" => some { conf with randomizeCase := strtoint val != some 0 }
  | "max-timeouts" =>
    match (strtoint val).filter (0 ≤ ·) with
    | some n => some { conf with maxTimeouts := max 1 (min n.toNat 255) }
    | none => some conf
  | "initial-probe-timeout" =>
    (strtotimeval val).map fun t =>
      { conf with probeTimeout := t.elim conf.probeTimeout fun t => min t (3600 * nanosPerSec) }
  | _ => some conf

/-- An option's name and value. -/
def optionOf (token : List Char) : List Char × List Char := (splitOnce ':' token).getD (token, [])

end ResolvConf

/-! ## Servers -/

/-- An IPv6 zone: the interface of that name, else a number. -/
def zoneIndex (interfaceIndex : String → Option UInt32) (zone : List Char) : Option UInt32 :=
  match interfaceIndex (String.ofList zone) with
  | some index => some index
  | none => if zone = [] then some 0 else (parseUnsigned (2 ^ 32 - 1) zone).map UInt32.ofNat

/-- An address and no more. -/
def parseIpv4 (cs : List Char) : Option (BitVec 32) :=
  match readIpv4Addr cs with
  | some (a, []) => some (BitVec.ofNat 32 a)
  | _ => none

def parseIpv6 (cs : List Char) : Option (BitVec 128) :=
  match readIpv6Addr cs with
  | some (a, []) => some (BitVec.ofNat 128 a)
  | _ => none

/-- A port's leading digits: 1 to 65535. -/
def parsePort (port : List Char) : Option UInt16 :=
  ((digitsUpTo (2 ^ 32 - 1) 10 (port.takeWhile Char.isDigit)).filter fun p => 1 ≤ p ∧ p ≤ 65535).map UInt16.ofNat

/-- The address, the port and whether it is IPv6: `[v6]:port`, `[v6]`, `v6`,
`v4:port` or `v4`. -/
def splitNameserver (s : List Char) : Option (List Char × Option (List Char) × Bool) :=
  match s with
  | '[' :: rest =>
    (splitOnce ']' rest).map fun (addr, after) => (addr, stripPrefix [':'] after, true)
  | s =>
    match splitOnce ':' s with
    | some (addr, after) => if ':' ∈ after then some (s, none, true) else some (addr, some after, false)
    | none => some (s, none, false)

def parseNameserver (interfaceIndex : String → Option UInt32) (s : List Char) : Option Nameserver := do
  let (addr, port, v6) ← splitNameserver s
  let port ← port.elim (some 53) parsePort
  if !v6 then
    let ip ← parseIpv4 addr
    return ⟨.v4 ip, port, 0⟩
  else
    match splitOnce '%' addr with
    | some (addr, zone) =>
      let ip ← parseIpv6 addr
      let scope ← zoneIndex interfaceIndex zone
      return ⟨.v6 ip, port, scope⟩
    | none =>
      let ip ← parseIpv6 addr
      return ⟨.v6 ip, port, 0⟩

/-! ## The file -/

/-- A domain without its leading dots. -/
def searchPostfix (domain : List Char) : String := String.ofList (domain.dropWhile (· = '.'))

namespace ResolvConf

/-- A server already listed is not added again. -/
def addNameserver (conf : ResolvConf) : Option Nameserver → ResolvConf
  | some addr => if addr ∈ conf.nameservers then conf else { conf with nameservers := conf.nameservers ++ [addr] }
  | none => conf

def readLine (interfaceIndex : String → Option UInt32) (conf : ResolvConf) (line : List Char) : Option ResolvConf :=
  match words isBlank line with
  | [] => some conf
  | keyword :: tokens =>
    match String.ofList keyword with
    | "nameserver" => some (conf.addNameserver (tokens.head?.bind (parseNameserver interfaceIndex)))
    | "domain" =>
      match tokens with
      | domain :: _ => some { conf with search := [searchPostfix domain] }
      | [] => some conf
    | "search" => some { conf with search := tokens.map searchPostfix }
    | "options" => tokens.foldlM (fun conf token => conf.setOption (optionOf token).1 (optionOf token).2) conf
    | _ => some conf

def localhost : Nameserver := ⟨.v4 0x7F000001, 53, 0⟩

/-- The domain of the host's name, as a search list. -/
def searchOfHostname (hostname : Option String) : List String :=
  match hostname.bind fun h => splitOnce '.' h.toList with
  | some (_, domain) => [searchPostfix domain]
  | none => []

/-- What stands in for servers and a search list that the file has not. -/
def complete (conf : ResolvConf) (hostname : Option String) : ResolvConf :=
  { conf with
    nameservers := if conf.nameservers = [] then [localhost] else conf.nameservers
    search := if conf.search = [] then searchOfHostname hostname else conf.search }

def parse (interfaceIndex : String → Option UInt32) (text : String) (hostname : Option String) :
    Option ResolvConf :=
  ((text.toList.splitOn '\n').foldlM (readLine interfaceIndex) {}).map (·.complete hostname)

end ResolvConf

end Starla.Impl.Measurements
