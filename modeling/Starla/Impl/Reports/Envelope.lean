import Starla.Framework.JsonFormat
import Starla.Impl.Measurements.Target
import Starla.Impl.Results.Format

/-!
# What result lines share

The envelope of a result line, and `DstName::fields` and `LookupError`'s text of
`starla-measurements/src/target.rs`. A body is written with the text of each
lts it has left open: the placeholder or the marks the source writes
(`LtsText.written`), or what the upload puts there (`LtsText.filled`).
-/

namespace Starla.Impl.Reports

open Starla.Framework Starla.Framework.JsonText Starla.Impl.Measurements Starla.Impl.Results

def FIRMWARE_VERSION : Nat := 5130

/-- A text of the system's own, `strerror`'s or an interface's name: none has a
quote, a backslash or a control character. -/
structure SystemText where
  text : String
  plain : PlainText text

/-- How a body's lts fields are written: its own, and one that lies `back`
seconds back. -/
structure LtsText where
  own : String
  back : Nat → String

namespace LtsText

def mark : String := String.ofList [DNS_LTS_MARK]

def written : LtsText := ⟨"0", fun back => mark ++ toString back ++ mark⟩

def filled (lts : Int) : LtsText :=
  ⟨toString lts, fun back => toString (if lts < 0 then lts else max (lts - back) 0)⟩

end LtsText

/-- What every line but evtdig's starts with. -/
def envelope (id : String) (lts : LtsText) : String :=
  "\"id\":\"" ++ id ++ "\", \"fw\":" ++ toString FIRMWARE_VERSION ++ ", \"mver\": \"2.6.4\", \"lts\":" ++
    lts.own ++ ", "

/-- A target as the controller wrote it, and the time its lookup took. -/
structure DstName where
  name : String
  ttr : Option (Fixed 6)
deriving DecidableEq, Repr

def DstName.fields (d : DstName) : String :=
  "\"dst_name\":\"" ++ d.name ++ "\"" ++ (d.ttr.map fun ttr => ", \"ttr\":" ++ ttr.text).getD ""

def lookupErrorText : LookupError → String
  | .noName => "nodename nor servname provided, or not known"
  | .fail => "non-recoverable failure in name resolution"
  | .noAddress => "no address associated with nodename"

/-- What a target's lookup comes to. -/
structure Lookup where
  ttr : Option (Fixed 6)
  addr : Except LookupError IpAddr

/-- An address that carries only the family asked for. -/
def familyOf (af : UInt8) : IpAddr := if af = 4 then .v4 0 else .v6 0

/-- An entry of a result that says what failed. -/
def errorEntry (error : String) : String := "\x7b " ++ ("\"error\":\"" ++ error ++ "\"") ++ " \x7d"

/-- An address of a socket, empty where it has none. -/
def addrText (addr : Option IpAddr) : String := (addr.map IpAddr.text).getD ""

end Starla.Impl.Reports
