import Starla.Impl.Controller.Cronline
import Starla.Impl.Controller.Telnet

/-!
# A controller session

`handle_connection` and `get_cmd` of `starla-controller/src/telnet.rs`. What
the rest of the program does while a line is handled is `Around`: whether a
newer session has taken over, the session-id cell, and whether the command
channel takes what is sent. The history keeps each line handled with what it
did.
-/

namespace Starla.Impl.Controller

open Starla.Framework

def ATLAS_LOGIN : String := "C_TO_P_TEST_V1"
def LOGIN_PREFIX : String := "Atlas probe, see http://atlas.ripe.net/\r\n\r\n"
def LOGIN_PROMPT : String := " login: "
def PASSWORD_PROMPT : String := "\r\nPassword: "

def CMD_CRONTAB : String := "CRONTAB "
def CMD_ONEOFF : String := "ONEOFF "
def CMD_REBOOT : String := "REBOOT"
def CMD_RELOAD : String := "RELOAD"

def RESULT_OK : String := "OK\r\n\r\n"
def BAD_PASSWORD : String := "BAD_PASSWORD\r\n\r\n"
def BAD_COMMAND : String := "BAD_COMMAND\r\n\r\n"
def NAME_TOO_LONG : String := "NAME_TOO_LONG\r\n\r\n"
def BAD_PATH : String := "BAD_PATH\r\n\r\n"
def BAD_REMOUNT : String := "BAD_REMOUNT\r\n\r\n"

def CRONTAB_MAX_LINES : Nat := 65534

def ATLAS_HOME : String := "/home/atlas"
def ATLAS_SPOOLDIR : String := "/var/spool/ripe-atlas"

/-- The longest line not yet ended. -/
def MAX_LINE_LEN : Nat := 256 * 1024

inductive ConnectionState
  | getLoginName
  | getPassword
  | getCmd
  | doCrontab
  | eomSeen
deriving DecidableEq, Repr

/-! ## Request paths -/

/-- The path rebased onto the spool directory, unless the reference answers
`BAD_PATH`. -/
def rebasedCronsPath (path : String) : Option String :=
  let under (base : String) : Option (List Char) :=
    (stripPrefix base.toList path.toList).filter fun rest => "/crons/".toList.isPrefixOf rest
  let rebased : Option String :=
    match under ATLAS_HOME, under ATLAS_SPOOLDIR with
    | some rest, _ => some (ATLAS_SPOOLDIR ++ String.ofList rest)
    | none, some _ => some path
    | none, none => none
  if hasInfix "/../".toList path.toList || "/..".toList.isSuffixOf path.toList then none else rebased

def crontabDirCheck (dir : String) : Except String Unit :=
  match rebasedCronsPath dir with
  | none => .error BAD_PATH
  | some rebased =>
    if rebased.utf8ByteSize + "/root.new".utf8ByteSize + 1 > 256 then .error NAME_TOO_LONG else .ok ()

/-- `isspace(3)` in the C locale. -/
def cIsspace (c : Char) : Bool :=
  c == ' ' || c == '\t' || c == '\n' || c == '\x0b' || c == '\x0c' || c == '\r'

def oneoffFileCheck (rest : String) : Except String Unit :=
  let name := String.ofList (rest.toList.takeWhile (! cIsspace ·))
  if name.utf8ByteSize + ".new".utf8ByteSize + 1 > 256 then .error NAME_TOO_LONG
  else match rebasedCronsPath name with
    | some _ => .ok ()
    | none => .error BAD_PATH

/-! ## A request line -/

def dropPrefix (p line : String) : Option String := (stripPrefix p.toList line.toList).map String.ofList

section
variable (fromStr : String → Option Json)

/-- The reply, the command for the probe and the next state. A CRONTAB line
gives the crontab it starts. -/
def getCmd (line : String) : Option String × Option TelnetCommand × ConnectionState :=
  match dropPrefix CMD_CRONTAB line, dropPrefix CMD_ONEOFF line with
  | some dir, _ =>
    match crontabDirCheck dir with
    | .ok () => (none, some (.crontab ⟨(rebasedCronsPath dir).getD dir, []⟩), .doCrontab)
    | .error reply => (some reply, none, .getCmd)
  | none, some rest =>
    match oneoffFileCheck rest with
    | .ok () => (none, some (parseCommand fromStr line), .getCmd)
    | .error reply => (some reply, none, .getCmd)
  | none, none =>
    if line = CMD_REBOOT then (none, none, .getCmd)
    else if line = CMD_RELOAD then (some BAD_REMOUNT, none, .getCmd)
    else if line = "" then (some RESULT_OK, none, .eomSeen)
    else
      let command := match parseCommand fromStr line with
        | .status => some .status
        | .stop msmId => some (.stop msmId)
        | .unknown _ => none
        | command => if line.toList.head? = some '{' then some command else none
      (some BAD_COMMAND, command, .getCmd)

/-! ## The session -/

structure Around where
  takenOver : Bool
  sessionId : Option String
  /-- The channel takes the crontab a line ends, and the line's own command. -/
  crontabSent : Bool
  commandSent : Bool

inductive Effect
  | reply (text : String)
  | forward (command : TelnetCommand)

/-- A line handled: the state it met, the session-id cell, and what it did. -/
structure Handled where
  state : ConnectionState
  text : String
  sessionId : Option String
  effects : List Effect

inductive SessionEnd
  | endOfInput
  | readError
  | takenOver
  | unknownLogin
  | channelClosed
  | lineTooLong
deriving DecidableEq, Repr

structure Session where
  /-- What was sent before the first read. -/
  greeting : List UInt8 × String
  state : ConnectionState
  lines : LineSplitter
  telnetFilter : FilterState
  /-- Set once authenticated. -/
  atlas : Bool
  crontab : Option (CrontabSpec TelnetCommand)
  history : List Handled
  ended : Option SessionEnd

def initialIacs : List UInt8 :=
  [IAC, DO, TELOPT_ECHO, IAC, DO, TELOPT_NAWS, IAC, WILL, TELOPT_ECHO, IAC, WILL, TELOPT_SGA]

def banner (probeId : UInt32) (hostname : String) : String :=
  LOGIN_PREFIX ++ "Probe " ++ toString probeId ++ " (" ++ hostname ++ ")" ++ LOGIN_PROMPT

/-- What handling a line comes to: the session's new state, what it did, and
whether it ends. -/
structure Outcome where
  state : ConnectionState
  atlas : Bool
  crontab : Option (CrontabSpec TelnetCommand)
  effects : List Effect
  ended : Option SessionEnd := none

namespace Session

def start (probeId : UInt32) (hostname : String) : Session :=
  ⟨(initialIacs, banner probeId hostname), .getLoginName, {}, .normal, false, none, [], none⟩

/-- A command handed to the probe: what comes of it, and whether the session
goes on. -/
def forward (commandTx : Bool) (command : TelnetCommand) (sent : Bool) : List Effect × Bool :=
  if !commandTx then ([], true) else if sent then ([.forward command], true) else ([], false)

variable (commandTx : Bool)

/-- A request line, after the crontab it ends. -/
def request (line : String) (a : Around) (atlas : Bool) (before : List Effect) : Outcome :=
  let (response, command, next) := getCmd fromStr line
  let effects := before ++ (response.map Effect.reply).toList
  match command with
  | some (.crontab started) => ⟨next, atlas, some started, effects, none⟩
  | some command =>
    let (sent, goesOn) := forward commandTx command a.commandSent
    ⟨next, atlas, none, effects ++ sent, if goesOn then none else some .channelClosed⟩
  | none => ⟨next, atlas, none, effects, none⟩

/-- A line that ends the crontab, if one is open, and is the next command. -/
def command (s : Session) (line : String) (a : Around) : Outcome :=
  match s.crontab with
  | none => request fromStr commandTx line a s.atlas []
  | some ended =>
    match forward commandTx (.crontab ended) a.crontabSent with
    | (sent, true) => request fromStr commandTx line a s.atlas sent
    | (sent, false) => ⟨s.state, s.atlas, none, sent, some .channelClosed⟩

def outcome (s : Session) (line : String) (a : Around) : Outcome :=
  match s.state with
  | .getLoginName =>
    if line = ATLAS_LOGIN then ⟨.getPassword, s.atlas, s.crontab, [.reply PASSWORD_PROMPT], none⟩
    else ⟨s.state, s.atlas, s.crontab, [.reply line], some .unknownLogin⟩
  | .getPassword =>
    if a.sessionId = some line then ⟨.getCmd, true, s.crontab, [], none⟩
    else ⟨s.state, s.atlas, s.crontab, [.reply BAD_PASSWORD], none⟩
  | .doCrontab =>
    match dropPrefix CMD_CRONLINE line with
    | some text =>
      let crontab := s.crontab.map fun crontab =>
        if crontab.lines.length < CRONTAB_MAX_LINES then
          { crontab with lines := crontab.lines ++ [⟨text, parseCommand fromStr line⟩] }
        else crontab
      ⟨s.state, s.atlas, crontab, [], none⟩
    | none => command fromStr commandTx s line a
  | .getCmd => command fromStr commandTx s line a
  | .eomSeen => ⟨s.state, s.atlas, s.crontab, [.reply BAD_COMMAND], none⟩

/-- One line of a read. -/
def handleLine (s : Session) (line : String) (a : Around) : Session :=
  if s.atlas && a.takenOver then { s with ended := some .takenOver }
  else
    let o := outcome fromStr commandTx s line a
    { s with
      state := o.state
      atlas := o.atlas
      crontab := o.crontab
      history := s.history ++ [⟨s.state, line, a.sessionId, o.effects⟩]
      ended := o.ended }

/-- The lines of a read, up to one that ends the session. -/
def handleLines (around : Nat → Around) (s : Session) : List (String × Nat) → Session
  | [] => s
  | (line, i) :: lines =>
    let s := handleLine fromStr commandTx s line (around i)
    if s.ended.isSome then s else handleLines around s lines

/-- One turn of the session's loop: a newer session takes over, or a read ends
(with no bytes at the end of the input). -/
inductive Turn
  | takenOver
  | readError
  | read (bytes : List UInt8) (around : Nat → Around)

def step (s : Session) (turn : Turn) : Session :=
  if s.ended.isSome then s
  else match turn with
    | .takenOver => if s.atlas then { s with ended := some .takenOver } else s
    | .readError => { s with ended := some .readError }
    | .read [] _ => { s with ended := some .endOfInput }
    | .read bytes around =>
      let (data, telnetFilter) := s.telnetFilter.feed bytes
      let (lines, splitter) := s.lines.feed data
      let s := handleLines fromStr commandTx around { s with telnetFilter, lines := splitter } lines.zipIdx
      if s.ended.isNone && s.lines.pending > MAX_LINE_LEN then { s with ended := some .lineTooLong } else s

end Session

end

end Starla.Impl.Controller
