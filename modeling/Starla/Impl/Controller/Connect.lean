import Starla.Impl.Controller.Registration

/-!
# Registering and connecting

The loop `'register_and_connect` of `starla-probe/src/main.rs`, pass by pass:
register, connect to the controller assigned, get a session of it with INIT or
take the saved one, and keep it. What servers do is a parameter of each pass,
and so is the clock, which never goes back. Saving a file succeeds.
-/

namespace Starla.Impl.Controller

open Starla.Framework

def RegState.load (file : Option String) : RegState := (file.map RegState.parse).getD {}

def ConKeep.load (file : Option String) : ConKeep := (file.map ConKeep.parse).getD {}

/-- A controller, as it is connected to. -/
def ControllerInfo.addr (info : ControllerInfo) : String × UInt16 := (info.host, info.port)

inductive Phase
  /-- The registration loop. -/
  | registering (reg : RegState)
  | connecting (reg : RegState) (info : ControllerInfo)
  /-- The INIT loop, asleep until `wake`. -/
  | initing (reg : RegState) (info : ControllerInfo) (conKeep : ConKeep) (wake : Int64)
  /-- The connection loop, with a session for every KEEP. -/
  | keeping (info : ControllerInfo) (remotePort : UInt16) (sessionId : String)
deriving DecidableEq, Repr

/-- What the probe and its controllers did. -/
inductive Deed
  | assigned (info : ControllerInfo) (remotePort : UInt16) (sessionId : String)
  | askedToWait (info : ControllerInfo) (until_ : Int64)
  | initSent (info : ControllerInfo) (now : Int64)
  | keepOpened (info : ControllerInfo) (remotePort : UInt16) (sessionId : String)
deriving DecidableEq, Repr

structure RegisterAndConnect where
  phase : Phase := .registering {}
  regFile : Option String := none
  conKeepFile : Option String := none
  clock : Int64 := 0
  /-- The latest first. -/
  deeds : List Deed := []
deriving DecidableEq, Repr

/-- What a pass meets: a server that is not reached or lost, one that is
connected to, what one answers to INIT, or the probe's own restart. -/
inductive Met
  | lost
  | connected
  | answer (text : String)
  | restart
deriving DecidableEq, Repr

structure ConnectEvent where
  met : Met
  clock : Int64
deriving DecidableEq, Repr

namespace RegisterAndConnect

def did (p : RegisterAndConnect) (d : Deed) : RegisterAndConnect := { p with deeds := d :: p.deeds }

def saveReg (p : RegisterAndConnect) (reg : RegState) : RegisterAndConnect := { p with regFile := some reg.render }

def saveConKeep (p : RegisterAndConnect) (conKeep : ConKeep) : RegisterAndConnect := { p with conKeepFile := some conKeep.render }

/-- The top of the outer loop. -/
def top (p : RegisterAndConnect) : RegisterAndConnect := { p with phase := .registering (.load p.regFile) }

/-- A registration server's answer to INIT. -/
def registrationAnswer (p : RegisterAndConnect) (reg : RegState) (text : String) : RegisterAndConnect :=
  match parseInitResponse text with
  | .ok (.controller info) =>
    let reg := reg.registered info p.clock
    { p.saveReg reg with phase := .connecting reg info }
  | .ok (.refused _) =>
    let reg := reg.toldToWait DEFAULT_WAIT_SECS p.clock
    { p.saveReg reg with phase := .registering reg }
  | .ok (.wait timeoutSecs) =>
    let reg := reg.toldToWait timeoutSecs.toUInt64.toInt64 p.clock
    { p.saveReg reg with phase := .registering reg }
  | _ => p

/-- A pass of the registration loop. -/
def register (p : RegisterAndConnect) (reg : RegState) (met : Met) : RegisterAndConnect :=
  match reg.nextStep p.clock with
  | .cached info => { p with phase := .connecting reg info }
  | .waitUntil _ => p
  | .register _ =>
    match met with
    | .answer text => p.registrationAnswer reg text
    | _ => p

/-- A connection to the controller assigned: a wait it asked for is slept out
first, and a session it assigned is used again. -/
def connected (p : RegisterAndConnect) (reg : RegState) (info : ControllerInfo) : RegisterAndConnect :=
  let conKeep := ConKeep.load p.conKeepFile
  match conKeep.waitingUntil p.clock with
  | some _ => p.top
  | none =>
    match conKeep.reusable p.clock with
    | some (port, sid) => { p with phase := .keeping info port sid }
    | none => { p with phase := .initing reg info conKeep p.clock }

/-- A controller's answer to INIT. An INIT that fails has no answer to read. -/
def controllerAnswer (p : RegisterAndConnect) (reg : RegState) (info : ControllerInfo) (conKeep : ConKeep) (text : String) :
    RegisterAndConnect :=
  match parseInitResponse text with
  | .ok (.controllerReady remotePort sessionId) =>
    { (p.did (.assigned info remotePort sessionId)).saveConKeep (conKeep.setReady remotePort sessionId) with
      phase := .keeping info remotePort sessionId }
  | .ok (.wait timeoutSecs) =>
    let until_ := p.clock + timeoutSecs.toUInt64.toInt64
    let conKeep := conKeep.setWait until_
    { (p.did (.askedToWait info until_)).saveConKeep conKeep with phase := .initing reg info conKeep until_ }
  | .ok .ok => { p with phase := .initing reg info conKeep (p.clock + 30) }
  | .ok (.refused reason) => ((p.saveReg (reg.refused reason)).saveConKeep conKeep.clear).top
  | .ok (.controller _) => p.top
  | .error _ => p.top

/-- A pass of the loop the probe is in. -/
def pass (p : RegisterAndConnect) (met : Met) : RegisterAndConnect :=
  match met, p.phase with
  | .restart, _ => p.top
  | _, .registering reg => p.register reg met
  | .connected, .connecting reg info => p.connected reg info
  | .lost, .connecting .. => p.top
  | _, .connecting .. => p
  | _, .initing reg info conKeep wake =>
    if p.clock < wake then p
    else match met with
      | .lost => p.top
      | .answer text => (p.did (.initSent info p.clock)).controllerAnswer reg info conKeep text
      | _ => p
  | .connected, .keeping info remotePort sessionId => p.did (.keepOpened info remotePort sessionId)
  | _, .keeping .. => p

def tick (p : RegisterAndConnect) (clock : Int64) : RegisterAndConnect := { p with clock := if p.clock < clock then clock else p.clock }

def step (p : RegisterAndConnect) (e : ConnectEvent) : RegisterAndConnect := (p.tick e.clock).pass e.met

end RegisterAndConnect

end Starla.Impl.Controller
