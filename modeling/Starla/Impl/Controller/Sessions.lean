import Starla.Framework.Assoc
import Starla.Impl.Controller.Session

/-!
# Sessions that take over from each other

`ATLAS_SESSIONS`, `take_over` and `taken_over` of
`starla-controller/src/telnet.rs`: any number of connections, each over one
session-id cell. A cell is known to the table by its address, which another
cell may have once no connection holds the first. A watch channel is the
number of sends on it; it is closed once the table has dropped its sender.
-/

namespace Starla.Impl.Controller

open Starla.Framework

/-- A session-id cell, an `Arc`, at its address. -/
structure Cell where
  id : Nat
  address : Nat
deriving DecidableEq, Repr

/-- A channel's receiver, and the sends on the channel it has seen. -/
structure Receiver where
  channel : Nat
  seen : Nat
deriving DecidableEq, Repr

/-- A session with what it watches. Its receiver is dropped as it ends. -/
structure Connection where
  cell : Cell
  commandTx : Bool
  session : Session
  atlas : Option Receiver := none

def Connection.live (c : Connection) : Bool := c.session.ended.isNone

structure Sessions where
  /-- The sends on each channel made so far. -/
  channels : List Nat := []
  /-- The channel at each cell's address. -/
  atlasSessions : Assoc Nat Nat := ∅
  connections : List Connection := []
  /-- The connections that have authenticated, in order. -/
  logins : List Nat := []

namespace Sessions

def version (s : Sessions) (channel : Nat) : Nat := s.channels.getD channel 0

def receiverCount (s : Sessions) (channel : Nat) : Nat :=
  s.connections.countP fun c => c.live && c.atlas.any (·.channel == channel)

/-- `has_changed`, false where it fails: on a closed channel. -/
def hasChanged (s : Sessions) (rx : Receiver) : Bool :=
  s.atlasSessions.entries.any (fun e => e.2 == rx.channel) && s.version rx.channel != rx.seen

/-- Connection `i` has authenticated: it takes over from any older one of its
cell. Entries no session watches go first; the send comes before the
subscription, which has seen it. -/
def takeOver (s : Sessions) (key i : Nat) : Receiver × Sessions :=
  let table := s.atlasSessions.retain fun _ tx => if s.receiverCount tx > 0 then some tx else none
  let (tx, s) := match table.lookup key with
    | some tx => (tx, { s with atlasSessions := table })
    | none =>
      let tx := s.channels.length
      (tx, { s with channels := s.channels ++ [0], atlasSessions := table.insert key tx })
  let s := { s with channels := s.channels.modify tx (· + 1), logins := s.logins ++ [i] }
  (⟨tx, s.version tx⟩, s)

/-- What ends a session from outside. -/
inductive Hangup
  | endOfInput
  | readError
  | lineTooLong
deriving DecidableEq, Repr

def Hangup.ended : Hangup → SessionEnd
  | .endOfInput => .endOfInput
  | .readError => .readError
  | .lineTooLong => .lineTooLong

/-- What may come next: a new connection, a line of connection `i` with what
the cell holds and the channel takes while it is handled, a pass of its loop
that looks at its receiver, its end. -/
inductive Event
  | connect (cell : Cell) (commandTx : Bool) (probeId : UInt32) (hostname : String)
  | line (i : Nat) (text : String) (sessionId : Option String) (crontabSent commandSent : Bool)
  | poll (i : Nat)
  | hangup (i : Nat) (why : Hangup)

/-- A new connection holds its cell, so no other cell held by a connection has
the cell's address. -/
def connect (s : Sessions) (c : Connection) : Sessions :=
  if s.connections.any fun d => d.live && d.cell.address == c.cell.address && d.cell != c.cell then s
  else { s with connections := s.connections ++ [c] }

variable (fromStr : String → Option Json)

/-- A line of connection `i`, handled as one step. -/
def line (s : Sessions) (i : Nat) (c : Connection) (text : String) (sessionId : Option String)
    (crontabSent commandSent : Bool) : Sessions :=
  let session := c.session.handleLine fromStr c.commandTx text
    ⟨c.atlas.any s.hasChanged, sessionId, crontabSent, commandSent⟩
  if session.atlas && !c.session.atlas then
    let (rx, s) := s.takeOver c.cell.address i
    { s with connections := s.connections.set i { c with session, atlas := some rx } }
  else { s with connections := s.connections.set i { c with session } }

/-- A pass of connection `i`'s loop: its receiver's `changed`. -/
def poll (s : Sessions) (i : Nat) (c : Connection) : Sessions :=
  if c.atlas.any fun rx => s.version rx.channel != rx.seen then
    { s with
      connections := s.connections.set i { c with session := c.session.step fromStr c.commandTx .takenOver } }
  else s

def hangup (s : Sessions) (i : Nat) (c : Connection) (why : Hangup) : Sessions :=
  { s with connections := s.connections.set i { c with session := { c.session with ended := some why.ended } } }

/-- One event. Nothing happens to a session that has ended. -/
def step (s : Sessions) (e : Event) : Sessions :=
  let at' (i : Nat) (f : Connection → Sessions) : Sessions :=
    match s.connections[i]? with
    | some c => if c.live then f c else s
    | none => s
  match e with
  | .connect cell commandTx probeId hostname =>
    s.connect { cell, commandTx, session := .start probeId hostname }
  | .line i text sessionId crontabSent commandSent =>
    at' i fun c => s.line fromStr i c text sessionId crontabSent commandSent
  | .poll i => at' i fun c => s.poll fromStr i c
  | .hangup i why => at' i fun c => s.hangup i c why

end Sessions

end Starla.Impl.Controller
