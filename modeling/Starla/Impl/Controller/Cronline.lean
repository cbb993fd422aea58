import Mathlib.Data.List.DropRight
import Starla.Impl.Controller.Json

/-!
# CRONLINEs and the other commands

`CrontabLine::shell`, `tokenize_cronline`, `parse_cronline` and
`parse_command` of `starla-controller/src/telnet.rs`. `fromStr` is
`serde_json`'s reading of a line.
-/

namespace Starla.Impl.Controller

open Starla.Framework

/-! ## The command text -/

/-- What follows the five leading fields of a line, a comment cut off. -/
def shellChars (line : List Char) : List Char :=
  let rest := (line.takeWhile (· != '#')).dropWhile isBlank
  (afterFields isBlank 5 rest).rdropWhile isBlank

def CrontabLine.shell {C : Type} (l : CrontabLine C) : String := String.ofList (shellChars l.line.toList)

/-! ## The tokens -/

/-- The tokens from a place in the command on: a quote opens or closes, and
blanks outside quotes end the token so far. -/
def tokensFrom (inQuotes : Bool) (current : List Char) : List Char → List String
  | [] => flush current
  | c :: cs =>
    if c = '"' then tokensFrom (!inQuotes) current cs
    else if isBlank c && !inQuotes then flush current ++ tokensFrom inQuotes [] cs
    else tokensFrom inQuotes (current ++ [c]) cs
where
  flush (current : List Char) : List String :=
    if current.isEmpty then [] else [String.ofList current]

def tokenizeCronline (cmd : String) : List String := tokensFrom false [] cmd.toList

/-! ## CRONLINE -/

def MAX_INTERVAL : Nat := 2 * 366 * 24 * 3600

/-- The start time of the line, for the measurements. -/
def setStartTime (startTime : Int) : TelnetCommand → TelnetCommand
  | .ping s => .ping { s with schedule := { s.schedule with startTime } }
  | .traceroute s => .traceroute { s with schedule := { s.schedule with startTime } }
  | .dns s => .dns { s with schedule := { s.schedule with startTime } }
  | .http s => .http { s with schedule := { s.schedule with startTime } }
  | .tls s => .tls { s with schedule := { s.schedule with startTime } }
  | .ntp s => .ntp { s with schedule := { s.schedule with startTime } }
  | command => command

/-- The measurement command of a line whose header is read. -/
def parseMeasurement (cmd tool : String) (args : List String) (interval : Nat) (startTime endTime : Int)
    (spread : Nat) : TelnetCommand :=
  match tool with
  | "evping" => parseEvping args interval endTime spread
  | "evtraceroute" => parseEvtraceroute args interval endTime spread
  | "evtdig" => parseEvtdig args interval endTime spread
  | "evhttpget" => parseEvhttpget args interval endTime spread
  | "evsslgetcert" => parseEvsslgetcert args interval endTime spread
  | "evntp" => parseEvntp args interval endTime spread
  | "buddyinfo" => parseBuddyinfo args interval
  | "rptaddrs" => parseRptaddrs args interval
  | "httppost" => (parseHttppost args interval startTime endTime spread).getD (.ignored cmd)
  | "condmv" | "dfrm" | "conntrack" => .ignored cmd
  | _ => .unknown (.line cmd)

/-- The header's numbers: the interval, the start and end times, the spread. -/
structure CronHeader where
  interval : Nat
  startTime : Int
  endTime : Int
  spread : Nat
deriving DecidableEq, Repr

/-- Only UNIFORM reads the parameter. -/
def parseHeader (interval startTime endTime distribution parameter : String) : Option CronHeader := do
  let interval ← (parseNat (2 ^ 64 - 1) interval).filter (· ≤ MAX_INTERVAL)
  let startTime ← parseI64 startTime
  let endTime ← parseI64 endTime
  let spread ← if distribution == "UNIFORM" then parseNat (2 ^ 32 - 1) parameter else some 0
  return ⟨interval, startTime, endTime, spread⟩

def parseCronline (cmd : String) : TelnetCommand :=
  match tokenizeCronline cmd with
  | _ :: interval :: startTime :: endTime :: distribution :: parameter :: tool :: args =>
    match parseHeader interval startTime endTime distribution parameter with
    | some h => setStartTime h.startTime
        (parseMeasurement cmd tool args h.interval h.startTime h.endTime h.spread)
    | none => .unknown (.line cmd)
  | _ => .unknown (.line cmd)

/-! ## Any command -/

def splitWhitespace (s : String) : List String := (words isWhitespace s.toList).map String.ofList

/-- A ONEOFF's measurement, as a CRONLINE of interval 0. -/
def fakeCronline (measurement : List String) : String :=
  "CRONLINE 0 0 0 UNIFORM 0 " ++ " ".intercalate measurement

def parseTextCommand (cmd : String) : TelnetCommand :=
  match splitWhitespace cmd with
  | [] => .unknown (.line cmd)
  | word :: parts =>
    match toUppercase word, parts with
    | "STATUS", _ => .status
    | "STOP", msmId :: _ =>
      match parseU64 msmId with
      | some msmId => .stop msmId
      | none => .unknown (.line cmd)
    | "CRONLINE", _ => parseCronline cmd
    | "ONEOFF", _ :: part :: parts =>
      match parseCronline (fakeCronline (part :: parts)) with
      | .unknown text => .unknown text
      | measurement => .oneoff measurement
    | "CRONTAB", _ => .ignored cmd
    | _, _ => .unknown (.line cmd)

def parseCommand (fromStr : String → Option Json) (cmd : String) : TelnetCommand :=
  if cmd.toList.head? = some '{' then
    match fromStr cmd with
    | some spec => parseJsonCommand spec
    | none => parseTextCommand cmd
  else parseTextCommand cmd

def CMD_CRONLINE : String := "CRONLINE "

/-- The CRONLINE with this text, as a crontab takes it. -/
def cronline (fromStr : String → Option Json) (text : String) : CrontabLine TelnetCommand :=
  ⟨text, parseCommand fromStr (CMD_CRONLINE ++ text)⟩

end Starla.Impl.Controller
