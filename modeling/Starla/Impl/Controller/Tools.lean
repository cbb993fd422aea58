import Starla.Framework.Text
import Starla.Impl.Controller.Command

/-!
# The tools' command lines

The per-tool parsers of `starla-controller/src/telnet.rs`, evtdig's aside: what
they read from a CRONLINE's arguments. A refused line gives `unknown`; its
reason is only logged.
-/

namespace Starla.Impl.Controller

open Starla.Framework

/-- `str::parse` for an unsigned type. -/
def parseNat (max : Nat) (s : String) : Option Nat := parseUnsigned max s.toList

def parseU16 (s : String) : Option UInt16 := (parseNat (2 ^ 16 - 1) s).map UInt16.ofNat
def parseU32 (s : String) : Option UInt32 := (parseNat (2 ^ 32 - 1) s).map UInt32.ofNat
def parseU64 (s : String) : Option UInt64 := (parseNat (2 ^ 64 - 1) s).map UInt64.ofNat
def parseI64 (s : String) : Option Int := parseSigned (2 ^ 63) (2 ^ 63 - 1) s.toList

def isOption (arg : String) : Bool := arg.toList.head? == some '-'

/-- A tool's loop over its arguments: an argument `takesValue` accepts is set
with the next one, if there is one; any other is read by itself. -/
def walkArgs {σ : Type} (takesValue : String → Bool) (set : σ → String → Option String → σ)
    (read : σ → String → σ) (s : σ) : List String → σ
  | [] => s
  | arg :: args =>
    if takesValue arg then
      match args with
      | [] => set s arg none
      | value :: args => walkArgs takesValue set read (set s arg (some value)) args
    else walkArgs takesValue set read (read s arg) args

/-! ## evping -/

structure EvpingArgs where
  v4 : Bool := false
  count : UInt32 := 3
  size : UInt16 := 0
  packetInterval : UInt32 := 1000
  msmId : UInt64 := 0
  target : String := ""

def EvpingArgs.set (s : EvpingArgs) (arg : String) (value : Option String) : EvpingArgs :=
  let value := value.getD ""
  match arg with
  | "-c" => { s with count := (parseU32 value).getD 3 }
  | "-s" => { s with size := (parseU16 value).getD 0 }
  | "-A" => { s with msmId := (parseU64 value).getD 0 }
  | "-i" => { s with packetInterval := (parseU32 value).getD 1000 }
  | _ => s

def EvpingArgs.read (s : EvpingArgs) (arg : String) : EvpingArgs :=
  if arg == "-4" then { s with v4 := true }
  else if isOption arg then s
  else { s with target := arg }

def parseEvping (args : List String) (interval : Nat) (endTime : Int) (spread : Nat) : TelnetCommand :=
  let s := walkArgs (["-c", "-s", "-A", "-i", "-B", "-O", "-I", "-R", "-W"].contains ·)
    EvpingArgs.set EvpingArgs.read {} args
  if s.target == "" then .unknown (.args "evping" args)
  else .ping {
    msmId := s.msmId
    target := s.target
    af := if s.v4 then 4 else 6
    packets := s.count
    size := s.size
    packetInterval := s.packetInterval
    spread := some spread
    schedule := ⟨interval, 0, endTime⟩ }

/-! ## evhttpget -/

structure EvhttpgetArgs where
  af : UInt8 := 4
  msmId : UInt64 := 0
  url : String := ""
  maxBodySize : Option UInt32 := none
  storeHeaders : UInt32 := 0
  http10 : Bool := false
  timeoutMs : Option UInt32 := none

def EvhttpgetArgs.set (s : EvhttpgetArgs) (arg : String) : Option String → EvhttpgetArgs
  | none => s
  | some value =>
    match arg with
    | "-A" => { s with msmId := (parseU64 value).getD 0 }
    | "-M" | "--max-body" => { s with maxBodySize := parseU32 value }
    | "--store-headers" => { s with storeHeaders := (parseU32 value).getD 0 }
    | "--timeout" => { s with timeoutMs := parseU32 value }
    | _ => s

def EvhttpgetArgs.read (s : EvhttpgetArgs) (arg : String) : EvhttpgetArgs :=
  match arg with
  | "-4" => { s with af := 4 }
  | "-6" => { s with af := 6 }
  | "-0" => { s with http10 := true }
  | "-1" => { s with http10 := false }
  | _ => if isOption arg then s else { s with url := arg }

def parseEvhttpget (args : List String) (interval : Nat) (endTime : Int) (spread : Nat) : TelnetCommand :=
  let s := walkArgs (["-A", "-O", "-M", "--max-body", "--store-headers", "--timeout", "-I", "-R", "-W",
      "-b", "--host", "--post-file", "--post-header", "--post-footer", "--read-limit", "--store-body",
      "--user-agent", "--sni"].contains ·)
    EvhttpgetArgs.set EvhttpgetArgs.read {} args
  if s.url == "" then .unknown (.args "evhttpget" args)
  else .http {
    msmId := s.msmId
    url := s.url
    method := "GET"
    af := s.af
    headers := []
    body := none
    maxBodySize := s.maxBodySize
    storeHeaders := s.storeHeaders
    http10 := s.http10
    timeoutMs := s.timeoutMs
    spread := some spread
    schedule := ⟨interval, 0, endTime⟩ }

/-! ## evsslgetcert -/

structure EvsslgetcertArgs where
  af : UInt8 := 0
  port : UInt16 := 443
  msmId : UInt64 := 0
  hostname : Option String := none
  targets : List String := []

/-- The state is `none` once the line is refused. -/
def EvsslgetcertArgs.set (s : Option EvsslgetcertArgs) (arg : String) :
    Option String → Option EvsslgetcertArgs
  | none => none
  | some value => s.map fun s =>
    match arg with
    | "-p" => { s with port := (parseU16 value).getD 443 }
    | "-A" => { s with msmId := (parseU64 value).getD 0 }
    | "-h" => { s with hostname := some value }
    | _ => s

def EvsslgetcertArgs.read (s : Option EvsslgetcertArgs) (arg : String) : Option EvsslgetcertArgs :=
  match arg with
  | "-4" => s.map ({ · with af := 4 })
  | "-6" => s.map ({ · with af := 6 })
  | _ => if isOption arg then none else s.map fun s => { s with targets := s.targets ++ [arg] }

def parseEvsslgetcert (args : List String) (interval : Nat) (endTime : Int) (spread : Nat) :
    TelnetCommand :=
  let s := walkArgs (["-p", "-A", "-h", "-B", "-O", "-R", "-V", "-W", "-i"].contains ·)
    EvsslgetcertArgs.set EvsslgetcertArgs.read (some {}) args
  match s with
  | some ⟨af, port, msmId, hostname, [target]⟩ => .tls {
      msmId, target, port, af, hostname
      spread := some spread
      schedule := ⟨interval, 0, endTime⟩ }
  | _ => .unknown (.args "evsslgetcert" args)

/-! ## evntp -/

def NTP_TIMEOUT_DEFAULT_MS : UInt32 := 1000
def NTP_GAP_DEFAULT_MS : UInt32 := 4000
def NTP_GAP_MIN_MS : UInt32 := 2000
def NTP_GAP_MAX_MS : UInt32 := 60000

structure EvntpArgs where
  af : UInt8 := 4
  packets : UInt32 := 3
  timeoutMs : UInt32 := NTP_TIMEOUT_DEFAULT_MS
  gapMs : UInt32 := NTP_GAP_DEFAULT_MS
  msmId : UInt64 := 0
  target : String := ""

def EvntpArgs.set (s : EvntpArgs) (arg : String) : Option String → EvntpArgs
  | none => s
  | some value =>
    match arg with
    | "-c" => { s with packets := (parseU32 value).getD 3 }
    | "-w" => { s with timeoutMs := (parseU32 value).getD NTP_TIMEOUT_DEFAULT_MS }
    | "-g" => { s with gapMs := (parseU32 value).getD 0 }
    | "-A" => { s with msmId := (parseU64 value).getD 0 }
    | _ => s

def EvntpArgs.read (s : EvntpArgs) (arg : String) : EvntpArgs :=
  match arg with
  | "-4" => { s with af := 4 }
  | "-6" => { s with af := 6 }
  | _ => if isOption arg then s else { s with target := arg }

def parseEvntp (args : List String) (interval : Nat) (endTime : Int) (spread : Nat) : TelnetCommand :=
  let s := walkArgs (["-c", "-w", "-g", "-A", "-O", "-s", "-i", "-B"].contains ·)
    EvntpArgs.set EvntpArgs.read {} args
  if s.target == "" then .unknown (.args "evntp" args)
  else if ¬ (NTP_GAP_MIN_MS ≤ s.gapMs ∧ s.gapMs ≤ NTP_GAP_MAX_MS) then .unknown (.args "evntp" args)
  else .ntp {
    msmId := s.msmId
    target := s.target
    af := s.af
    packets := s.packets
    timeoutMs := s.timeoutMs
    gapMs := s.gapMs
    spread := some spread
    schedule := ⟨interval, 0, endTime⟩ }

/-! ## Host telemetry -/

def parseBuddyinfo (args : List String) (interval : Nat) : TelnetCommand :=
  .hostTelemetry ⟨.buddyinfo, interval, none, args.head?.bind parseU32⟩

def parseRptaddrs (args : List String) (interval : Nat) : TelnetCommand :=
  let msmId := walkArgs (["-A", "-c", "-O"].contains ·)
    (fun id arg value => if arg == "-A" then value.bind parseU32 else id) (fun id _ => id) none args
  .hostTelemetry ⟨.rptaddrs, interval, msmId, none⟩

/-! ## httppost -/

structure HttppostArgs where
  urls : List String := []
  postDir : Bool := false
  setTime : Option Int := none
  localTime : Bool := false

/-- An output redirection, and whether its file is the next argument. -/
def redirection (arg : String) : Option Bool :=
  ((stripPrefix ">>".toList arg.toList).or (stripPrefix ">".toList arg.toList)).map (·.isEmpty)

/-- An option, and the value behind its `=`. -/
def optionName (arg : String) : String × Option String :=
  match splitOnce '=' arg.toList with
  | some (name, value) =>
    if (stripPrefix "--".toList arg.toList).isSome then (String.ofList name, some (String.ofList value))
    else (arg, none)
  | none => (arg, none)

def HttppostArgs.set (s : HttppostArgs) (name value : String) : Option HttppostArgs :=
  match name with
  | "--post-dir" => some { s with postDir := true }
  | "--set-time" => (parseI64 value).map fun t => { s with setTime := some t }
  | _ => some s

def HttppostArgs.read (s : HttppostArgs) (name : String) : Option HttppostArgs :=
  match name with
  | "--delete-file" => some s
  | "--local-time" => some { s with localTime := true }
  | _ => if isOption name then none else some { s with urls := s.urls ++ [name] }

/-- The loop over the arguments; `none` where `parse_httppost` gives an error. -/
def httppostArgs (s : HttppostArgs) : List String → Option HttppostArgs
  | [] => some s
  | arg :: args =>
    match redirection arg with
    | some true =>
      match args with
      | [] => some s
      | _ :: args => httppostArgs s args
    | some false => httppostArgs s args
    | none =>
      let (name, inline) := optionName arg
      if ["-A", "-O", "--maxpostsize", "--post-header", "--post-footer", "--timeout", "--post-dir",
          "--set-time"].contains name then
        match inline, args with
        | some value, args => (s.set name value).bind fun s => httppostArgs s args
        | none, [] => none
        | none, value :: args => (s.set name value).bind fun s => httppostArgs s args
      else (s.read name).bind fun s => httppostArgs s args

def parseHttppost (args : List String) (interval : Nat) (startTime endTime : Int) (spread : Nat) :
    Option TelnetCommand :=
  if interval = 0 then none
  else match httppostArgs {} args with
    | some ⟨[url], postDir, setTime, localTime⟩ =>
      some (.httppost { interval, startTime, endTime, spread, url, postDir, setTime, localTime })
    | _ => none

/-! ## evtraceroute -/

structure EvtracerouteArgs where
  opts : TracerouteOptions := {}
  v4 : Bool := false
  v6 : Bool := false
  icmp : Bool := false
  tcp : Bool := false
  msmId : UInt64 := 0
  targets : List String := []

/-- An option that takes no value. -/
def EvtracerouteArgs.flag (s : EvtracerouteArgs) (c : Char) : Option EvtracerouteArgs :=
  match c with
  | '4' => some { s with v4 := true }
  | '6' => some { s with v6 := true }
  | 'I' => some { s with icmp := true }
  | 'T' => some { s with tcp := true }
  | 'F' => some { s with opts := { s.opts with dontFragment := true } }
  | 'U' | 'r' => some s
  | _ => none

/-- An option that takes a value; `none` where the line is refused. -/
def EvtracerouteArgs.set (s : EvtracerouteArgs) (c : Char) (value : String) : Option EvtracerouteArgs :=
  let num := (parseNat (2 ^ 31 - 1) value)
  match c with
  | 'a' => num.map fun n => { s with opts := { s.opts with parisMod := UInt8.ofNat n } }
  | 'b' => num.map fun n => { s with opts := { s.opts with parisBase := UInt8.ofNat n } }
  | 'c' => num.map fun n => { s with opts := { s.opts with count := UInt8.ofNat n } }
  | 'f' => num.map fun n => { s with opts := { s.opts with firstHop := UInt8.ofNat n } }
  | 'g' => num.map fun n => { s with opts := { s.opts with gapLimit := UInt8.ofNat n } }
  | 'm' => num.map fun n => { s with opts := { s.opts with maxHops := UInt8.ofNat n } }
  | 't' => num.map fun n => { s with opts := { s.opts with tos := UInt32.ofNat n } }
  | 'w' => num.map fun n => { s with opts := { s.opts with timeoutMs := UInt32.ofNat n } }
  | 'z' => num.map fun n => { s with opts := { s.opts with dupTimeoutMs := UInt32.ofNat n } }
  | 'S' => num.bind fun n =>
    if n > TracerouteOptions.MAX_SIZE then none
    else some { s with opts := { s.opts with size := UInt16.ofNat n } }
  | 'H' => num.map fun n => { s with opts := { s.opts with hbhOptSize := UInt16.ofNat n } }
  | 'D' => num.map fun n => { s with opts := { s.opts with destOptSize := UInt16.ofNat n } }
  | 'i' => some { s with opts := { s.opts with interface := some value } }
  | 'p' => (parseU16 value).map fun port => { s with opts := { s.opts with destPort := port } }
  | 'A' => (parseU64 value).map fun id => { s with msmId := id }
  | 'B' =>
    if value.toList.all Char.isDigit then some { s with opts := { s.opts with bundle := some value } }
    else none
  | _ => some s

/-- A bundle of options, with the argument after it: whether that was taken as
a value. -/
def EvtracerouteArgs.bundle (next : Option String) (s : EvtracerouteArgs) :
    List Char → Option (EvtracerouteArgs × Bool)
  | [] => some (s, false)
  | c :: cs =>
    if "abcfgimptwzABOSHDRW".toList.contains c then
      if cs.isEmpty then next.bind fun value => (s.set c value).map (·, true)
      else (s.set c (String.ofList cs)).map (·, false)
    else (s.flag c).bind fun s => s.bundle next cs

/-- The loop over the arguments. -/
def evtracerouteArgs (s : EvtracerouteArgs) : List String → Option EvtracerouteArgs
  | [] => some s
  | arg :: args =>
    if arg == "--" then some { s with targets := s.targets ++ args }
    else match arg.toList with
      | '-' :: c :: cs =>
        match args with
        | [] => (s.bundle none (c :: cs)).map (·.1)
        | next :: rest =>
          (s.bundle (some next) (c :: cs)).bind fun (s, taken) =>
            if taken then evtracerouteArgs s rest else evtracerouteArgs s (next :: rest)
      | _ => evtracerouteArgs { s with targets := s.targets ++ [arg] } args

def parseEvtraceroute (args : List String) (interval : Nat) (endTime : Int) (spread : Nat) :
    TelnetCommand :=
  match evtracerouteArgs {} args with
  | some ⟨opts, v4, v6, icmp, tcp, msmId, [target]⟩ =>
    if v4 && v6 then .unknown (.args "evtraceroute" args)
    else .traceroute {
      msmId, target
      af := if v6 then 6 else 4
      opts := { opts with protocol := if icmp then .ICMP else if tcp then .TCP else .UDP }
      spread := some spread
      schedule := ⟨interval, 0, endTime⟩ }
  | _ => .unknown (.args "evtraceroute" args)

end Starla.Impl.Controller
