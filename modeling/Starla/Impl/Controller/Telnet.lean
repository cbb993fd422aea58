import Starla.Framework.Text

/-!
# Bytes to lines

`TelnetFilter` and `LineSplitter` of `starla-controller/src/telnet.rs`: what a
read's bytes come to, once the telnet commands are out of them.
-/

namespace Starla.Impl.Controller

open Starla.Framework

def IAC : UInt8 := 255
def WILL : UInt8 := 251
def WONT : UInt8 := 252
def DO : UInt8 := 253
def DONT : UInt8 := 254
def SB : UInt8 := 250
def SE : UInt8 := 240
def TELOPT_ECHO : UInt8 := 1
def TELOPT_SGA : UInt8 := 3
def TELOPT_NAWS : UInt8 := 31

/-! ## Telnet commands -/

inductive FilterState
  | normal
  | iac
  | iacOption
  | sb
  | sbIac
deriving DecidableEq, Repr

/-- One byte: what of it is data, and the state after it. -/
def FilterState.step : FilterState → UInt8 → List UInt8 × FilterState
  | .normal, b => if b = IAC then ([], .iac) else ([b], .normal)
  | .iac, b =>
    if b = IAC then ([IAC], .normal)
    else if b = WILL ∨ b = WONT ∨ b = DO ∨ b = DONT then ([], .iacOption)
    else if b = SB then ([], .sb)
    else ([], .normal)
  | .iacOption, _ => ([], .normal)
  | .sb, b => ([], if b = IAC then .sbIac else .sb)
  | .sbIac, b => ([], if b = SE then .normal else if b = IAC then .sbIac else .sb)

def FilterState.feed (s : FilterState) : List UInt8 → List UInt8 × FilterState
  | [] => ([], s)
  | b :: data =>
    let (out, s) := s.step b
    let (rest, s) := s.feed data
    (out ++ rest, s)

/-! ## Lines -/

structure LineSplitter where
  partialLine : List UInt8 := []
  /-- The last line ended at a carriage return. -/
  afterCr : Bool := false
deriving DecidableEq, Repr

def lineFeed : UInt8 := 10
def carriageReturn : UInt8 := 13

/-- One byte: the line it ends, if any, and what is kept. A line that holds a
NUL is skipped. -/
def LineSplitter.step (s : LineSplitter) (b : UInt8) : List String × LineSplitter :=
  if s.afterCr && (b == lineFeed || b == 0) then ([], { s with afterCr := false })
  else if b = lineFeed ∨ b = carriageReturn then
    (if s.partialLine.contains 0 then [] else [decodeUtf8Lossy s.partialLine],
      ⟨[], b == carriageReturn⟩)
  else ([], ⟨s.partialLine ++ [b], false⟩)

def LineSplitter.feed (s : LineSplitter) : List UInt8 → List String × LineSplitter
  | [] => ([], s)
  | b :: data =>
    let (out, s) := s.step b
    let (rest, s) := s.feed data
    (out ++ rest, s)

def LineSplitter.pending (s : LineSplitter) : Nat := s.partialLine.length

end Starla.Impl.Controller
