import Starla.Impl.Controller.Init

/-!
# What is kept between runs

`RegState` and `ConKeep` of `starla-controller/src/registration.rs`: the
assignment a registration server made with the waits asked for, and the
controller session. Each is a file of settings.
-/

namespace Starla.Impl.Controller

open Starla.Framework

def MIN_WAIT_SECS : Int64 := 100
def MAX_WAIT_SECS : Int64 := 28 * 24 * 3600
def DEFAULT_WAIT_SECS : Int64 := 100

def clampWait (secs : Int64) : Int64 := max MIN_WAIT_SECS (min secs MAX_WAIT_SECS)

/-! ## The registration -/

structure RegState where
  controller : Option ControllerInfo := none
  /-- When the assignment runs out. -/
  reregAt : Option Int64 := none
  waitUntil : Option Int64 := none
  /-- A controller refused us: its reason. -/
  forced : Option String := none
deriving DecidableEq, Repr

inductive RegStep
  | cached (info : ControllerInfo)
  | waitUntil (t : Int64)
  | register (reason : String)
deriving DecidableEq, Repr

namespace RegState

/-- A forced registration first, then a pending wait, then the assignment's timer. -/
def nextStep (s : RegState) (now : Int64) : RegStep :=
  if s.forced.isSome then .register "FORCE_REG"
  else match s.waitUntil with
    | some t => if now < t then .waitUntil t else .register "WAIT_OVER"
    | none =>
      match s.controller, s.reregAt with
      | some c, some t => if now < t then .cached c else .register "REREG_TIMER_EXPIRED"
      | _, _ => .register "NEW"

def registered (_s : RegState) (info : ControllerInfo) (now : Int64) : RegState where
  reregAt := info.reregSecs.map fun s => now + clampWait s.toInt64
  controller := some info
  waitUntil := none
  forced := none

def toldToWait (s : RegState) (secs now : Int64) : RegState :=
  { s with waitUntil := some (now + clampWait secs), forced := none }

def refused (_s : RegState) (reason : String) : RegState where
  controller := none
  reregAt := none
  waitUntil := none
  forced := some reason

/-- The settings read so far: a controller is one with its host and port. -/
structure Settings where
  host : Option String := none
  port : Option UInt16 := none
  probeId : UInt32 := 0
  st : RegState := {}

def Settings.read (s : Settings) (kv : String × String) : Settings :=
  match kv.1 with
  | "CONTROLLER_1_HOST" => if kv.2 ≠ "" then { s with host := some kv.2 } else s
  | "CONTROLLER_1_PORT" => { s with port := parseUInt16 kv.2 }
  | "PROBE_ID" => { s with probeId := (parseUInt32 kv.2).getD 0 }
  | "REREG_TIMER" => { s with st.reregAt := parseInt64 kv.2 }
  | "REG_WAIT_UNTIL" => { s with st.waitUntil := parseInt64 kv.2 }
  | "FORCE_REG" => { s with st.forced := some kv.2 }
  | _ => s

def Settings.state (s : Settings) : RegState :=
  match s.host, s.port with
  | some host, some port => { s.st with controller := some ⟨host, port, s.probeId, none⟩ }
  | _, _ => s.st

def parse (text : String) : RegState := ((settings text).foldl Settings.read {}).state

def render (s : RegState) : String :=
  (match s.controller with
    | some c => settingLine "CONTROLLER_1_HOST" c.host ++
        (settingLine "CONTROLLER_1_PORT" (toString c.port) ++ settingLine "PROBE_ID" (toString c.probeId))
    | none => "") ++
  (settingLine? "REREG_TIMER" (s.reregAt.map toString) ++
  (settingLine? "REG_WAIT_UNTIL" (s.waitUntil.map toString) ++
  settingLine? "FORCE_REG" s.forced))

end RegState

/-! ## The controller session -/

structure ConKeep where
  remotePort : Option UInt16 := none
  sessionId : Option String := none
  waitUntil : Option Int64 := none
deriving DecidableEq, Repr

namespace ConKeep

/-- The session to reuse, once any wait is over. -/
def reusable (s : ConKeep) (now : Int64) : Option (UInt16 × String) :=
  if s.waitUntil.any (now < ·) then none
  else match s.remotePort, s.sessionId with
    | some port, some sid => some (port, sid)
    | _, _ => none

def waitingUntil (s : ConKeep) (now : Int64) : Option Int64 := s.waitUntil.filter (now < ·)

def setReady (_s : ConKeep) (remotePort : UInt16) (sessionId : String) : ConKeep :=
  ⟨some remotePort, some sessionId, none⟩

def setWait (s : ConKeep) (until_ : Int64) : ConKeep := { s with waitUntil := some until_ }

def clear (_s : ConKeep) : ConKeep := {}

def readSetting (s : ConKeep) (kv : String × String) : ConKeep :=
  match kv.1 with
  | "REMOTE_PORT" => { s with remotePort := parseUInt16 kv.2 }
  | "SESSION_ID" => { s with sessionId := some kv.2 }
  | "CON_WAIT_TIMER" => { s with waitUntil := parseInt64 kv.2 }
  | _ => s

def parse (text : String) : ConKeep := (settings text).foldl readSetting {}

def render (s : ConKeep) : String :=
  settingLine? "REMOTE_PORT" (s.remotePort.map toString) ++
  (settingLine? "SESSION_ID" s.sessionId ++
  settingLine? "CON_WAIT_TIMER" (s.waitUntil.map toString))

end ConKeep

/-! ## Registration answers over time -/

/-- The one that answered an INIT. -/
inductive Server
  | registration
  | controller
deriving DecidableEq, Repr

/-- What `register_and_connect` does to the registration. -/
inductive Transition
  | registered (info : ControllerInfo) (now : Int64)
  | toldToWait (secs now : Int64)
  | refused (reason : String)
deriving DecidableEq, Repr

/-- The transition an answer is applied with, if any. A registration server's
REFUSED is a wait of the default length. -/
def Server.transition (server : Server) (answer : Except String InitResponse) (now : Int64) :
    Option Transition :=
  match server, answer with
  | .registration, .ok (.controller info) => some (.registered info now)
  | .registration, .ok (.refused _) => some (.toldToWait DEFAULT_WAIT_SECS now)
  | .registration, .ok (.wait timeoutSecs) => some (.toldToWait timeoutSecs.toUInt64.toInt64 now)
  | .controller, .ok (.refused reason) => some (.refused reason)
  | _, _ => none

def RegState.apply (s : RegState) : Transition → RegState
  | .registered info now => s.registered info now
  | .toldToWait secs now => s.toldToWait secs now
  | .refused reason => s.refused reason

inductive RegEvent
  | answer (server : Server) (text : String) (now : Int64)
  | restart
deriving DecidableEq, Repr

def RegEvent.transition : RegEvent → Option Transition
  | .answer server text now => server.transition (parseInitResponse text) now
  | .restart => none

def RegState.step (s : RegState) (e : RegEvent) : RegState :=
  match e with
  | .answer .. => e.transition.elim s s.apply
  | .restart => .parse s.render

end Starla.Impl.Controller
