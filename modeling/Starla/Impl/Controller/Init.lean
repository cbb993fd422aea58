import Starla.Framework.Lines

/-!
# INIT answers

`parse_init_response` of `starla-controller/src/ssh.rs`: what a registration
server or a controller answers to INIT.
-/

namespace Starla.Impl.Controller

open Starla.Framework

def parseUInt16 (s : String) : Option UInt16 := (parseUnsigned 65535 s.toList).map UInt16.ofNat

def parseUInt32 (s : String) : Option UInt32 := (parseUnsigned 4294967295 s.toList).map UInt32.ofNat

def parseUInt64 (s : String) : Option UInt64 :=
  (parseUnsigned 18446744073709551615 s.toList).map UInt64.ofNat

def parseInt64 (s : String) : Option Int64 :=
  (parseSigned 9223372036854775808 9223372036854775807 s.toList).map Int64.ofInt

structure ControllerInfo where
  host : String
  port : UInt16
  probeId : UInt32
  /-- `REREGISTER <secs>`: how long the assignment holds. -/
  reregSecs : Option UInt64
deriving DecidableEq, Repr

inductive InitResponse
  | controller (info : ControllerInfo)
  | controllerReady (remotePort : UInt16) (sessionId : String)
  | ok
  | wait (timeoutSecs : UInt32)
  | refused (reason : String)
deriving DecidableEq, Repr

def wordsOf (line : List Char) : List String := (words isWhitespace line).map String.ofList

/-! ## The lines after OK -/

/-- The registration server's fields read so far. -/
structure Assigned where
  controllerHost : Option String := none
  controllerPort : Option UInt16 := none
  probeId : UInt32 := 0
  reregSecs : Option UInt64 := none

def Assigned.read (f : Assigned) (line : List Char) : Assigned :=
  match wordsOf line with
  | "CONTROLLER" :: host :: port :: _ :: _ =>
    { f with controllerHost := some host, controllerPort := parseUInt16 port }
  | "REREGISTER" :: secs :: _ => { f with reregSecs := parseUInt64 secs }
  | "PROBE_ID" :: id :: _ => { f with probeId := (parseUInt32 id).getD f.probeId }
  | _ => f

/-- The controller's fields read so far. -/
structure Ready where
  remotePort : Option UInt16 := none
  sessionId : Option String := none

def Ready.read (f : Ready) (line : List Char) : Ready :=
  match wordsOf line with
  | "REMOTE_PORT" :: port :: _ => { f with remotePort := parseUInt16 port }
  | "SESSION_ID" :: id :: _ => { f with sessionId := some id }
  | _ => f

def parseOk (rest : List (List Char)) : InitResponse :=
  let assigned := rest.foldl Assigned.read {}
  match assigned.controllerHost, assigned.controllerPort with
  | some host, some port => .controller ⟨host, port, assigned.probeId, assigned.reregSecs⟩
  | _, _ =>
    let ready := rest.foldl Ready.read {}
    match ready.remotePort, ready.sessionId with
    | some port, some sid => .controllerReady port sid
    | _, _ => .ok

/-- The seconds a TIMEOUT line names. -/
def timeoutOf (line : List Char) : Option UInt32 :=
  match wordsOf line with
  | "TIMEOUT" :: secs :: _ => some ((parseUInt32 secs).getD 60)
  | _ => none

def parseInitResponse (output : String) : Except String InitResponse :=
  match lines output.toList with
  | [] => .error "Empty INIT response"
  | first :: rest =>
    match String.ofList (trim first) with
    | "OK" => .ok (parseOk rest)
    | "WAIT" => .ok (.wait ((rest.findSome? timeoutOf).getD 60))
    | "REFUSED" => .ok (.refused (String.ofList (trim (rest.head?.getD []))))
    | _ => .error ("Unknown INIT response: " ++ output)

end Starla.Impl.Controller
