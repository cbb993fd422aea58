import Starla.Framework.Address
import Starla.Framework.Logged

/-!
# Targets

The address check of `starla-measurements/src/target.rs`, and the contacts a
measurement makes: the packets it hands to a socket and the connections it
opens. `ATLAS_DISABLE_CHECK_ADDR` is an argument, `none` where it is not set or
no Unicode. What the system answers a call is an argument too: its value, or
the text of its error.
-/

namespace Starla.Impl.Measurements

open Starla.Framework

structure SocketAddr where
  ip : IpAddr
  port : UInt16
deriving DecidableEq, Repr

/-- What leaves the probe for an address. -/
inductive Contact
  | packet (dst : SocketAddr)
  | connection (dst : SocketAddr)
deriving DecidableEq, Repr

def Contact.ip : Contact → IpAddr
  | packet dst => dst.ip
  | connection dst => dst.ip

abbrev IoResult := Except String

/-- How a `TcpStream::connect` under a timeout ends. -/
inductive Connect
  | connected
  | failed (error : String)
  | timedOut
deriving DecidableEq, Repr

/-- `-4`, `-6` or neither, of an address. -/
def ofFamily (af : UInt8) (addr : IpAddr) : Bool :=
  if af = 4 then addr.isIpv4 else if af = 6 then addr.isIpv6 else true

inductive LookupError
  | noName
  | fail
  | noAddress
deriving DecidableEq, Repr

/-- `ATLAS_DISABLE_CHECK_ADDR=yes`. -/
def checkAddrDisabled (var : Option String) : Bool := var == some "yes"

/-- Whether an address has one of the networks' prefixes, under its mask. -/
def hasPrefixOf {w : Nat} (bad : List (Block w)) (a : BitVec w) : Bool :=
  bad.any fun b => a &&& (BitVec.allOnes w <<< (w - b.len)) == b.base

def BAD_IPV4 : List (Block 32) :=
  [⟨0x7F000000, 8⟩, ⟨0x0A000000, 8⟩, ⟨0xAC100000, 12⟩, ⟨0xC0A80000, 16⟩, ⟨0xA9FE0000, 16⟩,
    ⟨0xE0000000, 4⟩]

def BAD_IPV6 : List (Block 128) := [⟨1, 128⟩, ⟨0xFFFF00000000, 96⟩, ⟨0xE000 <<< 112, 3⟩]

/-- `atlas_check_addr`'s prefixes. -/
def refused : IpAddr → Bool
  | .v4 a => hasPrefixOf BAD_IPV4 a
  | .v6 a => hasPrefixOf BAD_IPV6 a

def addressAllowed (var : Option String) (addr : IpAddr) : Bool :=
  checkAddrDisabled var || !refused addr

end Starla.Impl.Measurements
