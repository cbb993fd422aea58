import Starla.Framework.Int64
import Starla.Framework.Text

/-!
# Result lines

`AtlasResult::to_result_line` and `dns_result_line` of
`starla-results/src/format.rs`, for a result that is a `FullLine`, as those of
all six kinds are: the line's body is its measurement's.
-/

namespace Starla.Impl.Results

open Starla.Framework

def FULL_LINE : String := "__FULLLINE__"

/-- The lts a full-line measurement writes in its own envelope. -/
def LTS_PLACEHOLDER : String := "\"lts\":0,"

/-- What an evtdig line has around the seconds each of its lts lies back. -/
def DNS_LTS_MARK : Char := '\x01'

/-- An `AtlasResult`, as far as a full line's goes. -/
structure AtlasResult where
  lts : Int
  result : String
deriving DecidableEq, Repr

/-- `from_measurement` of a `FullLine`, `with_lts`. -/
def AtlasResult.ofFullLine (body : String) (lts : Int) : AtlasResult := ⟨lts, FULL_LINE ++ body⟩

/-- `replacen` for the first place a text holds `p`. -/
def replaceFirst (p r : List Char) : List Char → List Char
  | [] => if p.isEmpty then r else []
  | c :: cs =>
    match stripPrefix p (c :: cs) with
    | some rest => r ++ rest
    | none => c :: replaceFirst p r cs

/-- The lts at a mark: the result's, less the mark's seconds. -/
def ltsAt (lts : Int) (part : List Char) : Int :=
  let back := (parseSigned (2 ^ 63) (2 ^ 63 - 1) part).getD 0
  if lts < 0 then lts else max (wrap64 (lts - back)) 0

/-- The parts between marks, every other one an lts. -/
def fillMarks (lts : Int) : (isLts : Bool) → List (List Char) → String
  | _, [] => ""
  | false, part :: parts => String.ofList part ++ fillMarks lts true parts
  | true, part :: parts => toString (ltsAt lts part) ++ fillMarks lts false parts

namespace AtlasResult

/-- The body of a full line. -/
def body (a : AtlasResult) : Option (List Char) := stripPrefix FULL_LINE.toList a.result.toList

def dnsResultLine (a : AtlasResult) : Option String :=
  a.body.bind fun body =>
    if DNS_LTS_MARK ∉ body then none
    else some ("RESULT \x7b " ++ fillMarks a.lts false (body.splitOn DNS_LTS_MARK) ++ " \x7d\n")

/-- The line of a full-line result. -/
def toResultLine (a : AtlasResult) : Option String :=
  match a.dnsResultLine with
  | some line => some line
  | none => a.body.map fun body =>
    "RESULT \x7b " ++
      String.ofList (replaceFirst LTS_PLACEHOLDER.toList ("\"lts\":" ++ toString a.lts ++ ",").toList body) ++
      " \x7d\n"

end AtlasResult

/-- The line uploaded for a measurement's body and the lts its result was
queued at. -/
def uploadedLine (body : String) (lts : Int) : String :=
  ((AtlasResult.ofFullLine body lts).toResultLine).getD ""

example : uploadedLine "\"id\":\"1\", \"lts\":0, \"time\":5" 7 =
    "RESULT \x7b \"id\":\"1\", \"lts\":7, \"time\":5 \x7d\n" := by decide

end Starla.Impl.Results
