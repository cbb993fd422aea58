import Starla.Framework.Assoc
import Starla.Impl.Measurements.TlsReader

/-!
# The cipher a line remembers

`LAST_CIPHER` of `starla-measurements/src/tls/mod.rs` and what `Tls::execute`
does with it: a run starts with its line's cipher, its reader may read another,
and the run's end writes back what the reader has. A map in key order is one of
which the smallest key can be found.
-/

namespace Starla.Impl.Measurements

open Starla.Framework

namespace Tls

/-- A crontab line, as far as sslgetcert's state goes. -/
structure Line where
  msmId : UInt64
  target : String
  port : UInt16
  af : UInt8
  sni : Option String
deriving DecidableEq, Repr

/-- Field by field; without a name comes before with one. -/
def Line.before (a b : Line) : Bool :=
  if a.msmId ≠ b.msmId then a.msmId < b.msmId
  else if a.target ≠ b.target then a.target < b.target
  else if a.port ≠ b.port then a.port < b.port
  else if a.af ≠ b.af then a.af < b.af
  else match a.sni, b.sni with
    | none, some _ => true
    | some s, some t => s < t
    | _, none => false

abbrev CipherMap := Assoc Line UInt16

def MAX_LINES : Nat := 4096

namespace CipherMap

/-- `keys().next()`. -/
def firstKey (m : CipherMap) : Option Line :=
  m.keys.foldl (fun best k => match best with
    | none => some k
    | some b => if k.before b then some k else some b) none

/-- The cipher a run of a line starts with. -/
def last (m : CipherMap) (line : Line) : UInt16 := (m.lookup line).getD 0

/-- The entry that goes to make room for a line's. -/
def evicted (m : CipherMap) (line : Line) : Option Line :=
  if m.keys.length ≥ MAX_LINES ∧ line ∉ m then m.firstKey else none

/-- What the end of a run writes. -/
def store (m : CipherMap) (line : Line) (cipher : UInt16) : CipherMap :=
  let m := match m.evicted line with
    | some key => m.erase key
    | none => m
  m.insert line cipher

end CipherMap

/-- A run with its reader's `server_cipher`. -/
structure TlsRun where
  line : Line
  cipher : UInt16
  state : ReadState := .hello
  ended : Bool := false
deriving DecidableEq, Repr

structure TlsRuns where
  lastCipher : CipherMap := ∅
  runs : List TlsRun := []
  /-- The alerts reported in place of a ServerHello, with the cipher reported. -/
  alerts : List (Line × UInt16) := []
deriving DecidableEq

inductive TlsEvent
  | start (line : Line)
  /-- Run `i` reads a ServerHello. -/
  | serverHello (i : Nat) (cipher : UInt16)
  /-- Run `i` reads an alert where the ServerHello was expected. -/
  | alert (i : Nat)
  /-- Run `i` has its report, whatever it is. -/
  | finish (i : Nat)
deriving DecidableEq, Repr

namespace TlsRuns

/-- Run `i`, unless it has ended. -/
def running (s : TlsRuns) (i : Nat) : Option TlsRun := s.runs[i]?.filter (!·.ended)

def step (s : TlsRuns) : TlsEvent → TlsRuns
  | .start line => { s with runs := s.runs ++ [{ line, cipher := s.lastCipher.last line }] }
  | .serverHello i cipher =>
    match s.running i with
    | some r => if r.state = .hello then { s with runs := s.runs.set i { r with cipher, state := .certs } } else s
    | none => s
  | .alert i =>
    match s.running i with
    | some r =>
      if r.state = .hello then
        { s with runs := s.runs.set i { r with state := .done }, alerts := s.alerts ++ [(r.line, r.cipher)] }
      else s
    | none => s
  | .finish i =>
    match s.running i with
    | some r =>
      { s with
        lastCipher := s.lastCipher.store r.line r.cipher
        runs := s.runs.set i { r with ended := true } }
    | none => s

end TlsRuns

end Tls

end Starla.Impl.Measurements
