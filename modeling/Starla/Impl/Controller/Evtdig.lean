import Starla.Impl.Controller.Tools

/-!
# evtdig's command line

`evtdig_getopt` and `parse_evtdig` of `starla-controller/src/telnet.rs`.
-/

namespace Starla.Impl.Controller

open Starla.Framework

/-- What one evtdig option sets. -/
inductive DigOpt
  | query (qtype : UInt16)
  | qtype
  | qclass
  | queryName
  | chaos (name : String)
  | v4
  | v6
  | both
  | atlas
  | bundle
  | clientSubnet
  | cookies
  | dnssecOk
  | edns0
  | ednsVersion
  | ednsFlags
  | ednsOption
  | ipv6DestOption
  | interface
  | nsid
  | port
  | outFile
  | rd
  | tcp
  | timeout
  | qbuf
  | noAbuf
  | tls
  | https
  | sniCertName
  | httpsPath
  | ttl
  | ad
  | cd
  | retry
  | resolv
  | prependProbeId
  | evdns
  | writeResponse
  | readResponse
  /-- In the option tables but not in the switch. -/
  | refused
deriving DecidableEq, Repr

/-- evtdig's long options: name, whether it takes an argument, what it sets. -/
def EVTDIG_LONGOPTS : List (String × Bool × DigOpt) :=
  [("a", true, .query 1), ("aaaa", true, .query 28), ("any", true, .query 255),
    ("afsdb", true, .query 18), ("apl", true, .query 42), ("axfr", true, .query 252),
    ("caa", true, .query 257), ("cert", true, .query 37), ("cname", true, .query 5),
    ("dlv", true, .query 32769), ("dname", true, .query 39), ("dnskey", true, .query 48),
    ("ds", true, .query 43), ("ipseckey", true, .query 45), ("key", true, .query 25),
    ("loc", true, .query 29), ("mx", true, .query 15), ("naptr", true, .query 35),
    ("ns", true, .query 2), ("nsec", true, .query 47), ("nsec3", true, .query 50),
    ("nsec3param", true, .query 51), ("ptr", true, .query 12), ("rrsig", true, .query 46),
    ("rp", true, .query 17), ("soa", true, .query 6), ("sig", true, .query 24),
    ("spf", true, .query 99), ("sshfp", true, .query 44), ("srv", true, .query 33),
    ("ta", true, .query 32768), ("tlsa", true, .query 52), ("tsig", true, .query 250),
    ("txt", true, .query 16), ("type", true, .qtype), ("class", true, .qclass),
    ("query", true, .queryName), ("hostname.bind", false, .chaos "hostname.bind."),
    ("id.server", false, .chaos "id.server."), ("version.bind", false, .chaos "version.bind."),
    ("version.server", false, .chaos "version.server."), ("c_output", false, .refused),
    ("ad", false, .ad), ("cd", false, .cd), ("client-subnet", false, .clientSubnet),
    ("cookies", false, .cookies), ("do", false, .dnssecOk), ("evdns", false, .evdns),
    ("noabuf", false, .noAbuf), ("nsid", false, .nsid), ("p_probe_id", false, .prependProbeId),
    ("qbuf", false, .qbuf), ("resolv", false, .resolv), ("tls", false, .tls),
    ("https", false, .https), ("sni-cert-name", true, .sniCertName),
    ("https-path", true, .httpsPath), ("ttl", false, .ttl), ("edns0", true, .edns0),
    ("edns-flags", true, .ednsFlags), ("edns-option", true, .ednsOption),
    ("edns-version", true, .ednsVersion), ("ipv6-dest-option", true, .ipv6DestOption),
    ("out-file", true, .outFile), ("port", true, .port), ("retry", true, .retry),
    ("timeout", true, .timeout), ("write-response", true, .writeResponse),
    ("read-response", true, .readResponse)]

/-- evtdig's short options: whether one takes an argument, what it sets. -/
def evtdigShortopt : Char → Option (Bool × DigOpt)
  | '4' => some (false, .v4)
  | '6' => some (false, .v6)
  | 'a' => some (false, .both)
  | 'd' => some (false, .dnssecOk)
  | 'D' => some (true, .refused)
  | 'e' => some (true, .edns0)
  | 't' => some (false, .tcp)
  | 'b' => some (false, .chaos "version.bind.")
  | 'h' => some (false, .chaos "hostname.bind.")
  | 'i' => some (false, .chaos "id.server.")
  | 'n' => some (false, .nsid)
  | 'q' | '?' => some (false, .refused)
  | 'O' => some (true, .outFile)
  | 'R' => some (false, .rd)
  | 'r' => some (false, .chaos "version.server.")
  | 's' => some (true, .query 6)
  | 'A' => some (true, .atlas)
  | 'B' => some (true, .bundle)
  | 'I' => some (true, .interface)
  | _ => none

/-- A long option by its name, or by a prefix of that one name only. -/
def evtdigLongopt (arg : String) (name : List Char) : Except String (Bool × DigOpt) :=
  match EVTDIG_LONGOPTS.find? (·.1.toList == name),
      EVTDIG_LONGOPTS.filter (name.isPrefixOf ·.1.toList) with
  | some o, _ => .ok o.2
  | none, [o] => .ok o.2
  | none, _ :: _ :: _ => .error ("ambiguous option " ++ arg)
  | none, [] => .error ("unknown option " ++ arg)

/-- A bundle of short options, with the argument after it: the settings, and
whether that argument was taken as a value. -/
def evtdigBundle (next : Option String) : List Char → Except String (List (DigOpt × String) × Bool)
  | [] => .ok ([], false)
  | c :: cs =>
    match evtdigShortopt c with
    | none => .error ("unknown option -" ++ c.toString)
    | some (false, opt) => (evtdigBundle next cs).map fun (opts, taken) => ((opt, "") :: opts, taken)
    | some (true, opt) =>
      if cs.isEmpty then
        match next with
        | some value => .ok ([(opt, value)], true)
        | none => .error ("-" ++ c.toString ++ " needs an argument")
      else .ok ([(opt, String.ofList cs)], false)

/-- A long option, with the argument after it. -/
def evtdigLong (next : Option String) (arg : String) (long : List Char) :
    Except String ((DigOpt × String) × Bool) :=
  let (name, inline) := match splitOnce '=' long with
    | some (name, value) => (name, some (String.ofList value))
    | none => (long, none)
  match evtdigLongopt arg name with
  | .error e => .error e
  | .ok (hasArg, opt) =>
    match hasArg, inline, next with
    | true, some value, _ => .ok ((opt, value), false)
    | true, none, some value => .ok ((opt, value), true)
    | true, none, none => .error (arg ++ " needs an argument")
    | false, some _, _ => .error (arg ++ " takes no argument")
    | false, none, _ => .ok ((opt, ""), false)

/-- The loop of `evtdigGetopt`, with the settings and operands so far. -/
def evtdigGetoptFrom (opts : List (DigOpt × String)) (operands : List String) :
    List String → Except String (List (DigOpt × String) × List String)
  | [] => .ok (opts, operands)
  | arg :: args =>
    if arg == "--" then .ok (opts, operands ++ args)
    else match arg.toList with
      | '-' :: '-' :: long =>
        match evtdigLong args.head? arg long, args with
        | .error e, _ => .error e
        | .ok (o, true), _ :: args => evtdigGetoptFrom (opts ++ [o]) operands args
        | .ok (o, _), args => evtdigGetoptFrom (opts ++ [o]) operands args
      | '-' :: c :: cs =>
        match evtdigBundle args.head? (c :: cs), args with
        | .error e, _ => .error e
        | .ok (os, true), _ :: args => evtdigGetoptFrom (opts ++ os) operands args
        | .ok (os, _), args => evtdigGetoptFrom (opts ++ os) operands args
      | _ => evtdigGetoptFrom opts (operands ++ [arg]) args

/-- `getopt_long()` over evtdig's arguments. -/
def evtdigGetopt (args : List String) : Except String (List (DigOpt × String) × List String) :=
  evtdigGetoptFrom [] [] args

/-- `strtoul()` as far as it reads: leading digits, 0 if none. -/
def strtoul (s : String) (base : Nat) : Nat :=
  let s := s.toList.dropWhile isWhitespace
  let (s, radix) : List Char × Nat :=
    if base = 0 then
      match s with
      | '0' :: 'x' :: rest | '0' :: 'X' :: rest => (rest, 16)
      | '0' :: _ => (s, 8)
      | _ => (s, 10)
    else (s, base)
  (digitsUpTo (2 ^ 64 - 1) radix (s.takeWhile fun c => (digitValue radix c).isSome)).getD 0

/-! ## The specification -/

structure EvtdigArgs where
  spec : DnsSpec
  v4 : Bool := false
  v6 : Bool := false
  query : Option String := none

/-- What an option's setting does; `none` where the line is refused. -/
def EvtdigArgs.set (s : EvtdigArgs) (o : DigOpt × String) : Option EvtdigArgs :=
  let spec := s.spec
  let value := o.2
  let num := strtoul value
  match o.1 with
  | .query qtype => some { s with spec := { spec with qtype, qclass := 1 }, query := some value }
  | .qtype => some { s with spec := { spec with
      qtype := UInt16.ofNat (num 10)
      qclass := if spec.qclass = 0 then 1 else spec.qclass } }
  | .qclass => some { s with spec := { spec with qclass := UInt16.ofNat (num 10) } }
  | .queryName => some { s with query := some value }
  | .chaos name => some { s with query := some name }
  | .v4 => some { s with v4 := true }
  | .v6 => some { s with v6 := true }
  | .both => some { s with v4 := true, v6 := true }
  | .atlas =>
    if value.toList.all Char.isDigit then
      some { s with spec := { spec with msmId := (parseU64 value).getD 0 } }
    else none
  | .bundle =>
    if value.toList.all Char.isDigit then
      some { s with spec := { spec with bundle := some ((parseU64 value).getD 0) } }
    else none
  | .clientSubnet => some { s with spec := { spec with clientSubnet := true } }
  | .cookies => some { s with spec := { spec with cookies := true } }
  | .dnssecOk => some { s with spec := { spec with dnssec := true } }
  | .edns0 => some { s with spec := { spec with edns0 := UInt32.ofNat (num 10) } }
  | .ednsVersion => some { s with spec := { spec with ednsVersion := UInt8.ofNat (num 10) } }
  | .ednsFlags => some { s with spec := { spec with ednsFlags := UInt16.ofNat (num 0) } }
  | .ednsOption => some { s with spec := { spec with ednsOption := UInt16.ofNat (num 0) } }
  | .nsid => some { s with spec := { spec with nsid := true } }
  | .port => some { s with spec := { spec with port := UInt16.ofNat (num 10) } }
  | .rd => some { s with spec := { spec with rd := true } }
  | .tcp => some { s with spec := { spec with protocol := "TCP" } }
  | .timeout => some { s with spec := { spec with timeoutMs := UInt32.ofNat (num 10) } }
  | .qbuf => some { s with spec := { spec with qbuf := true } }
  | .noAbuf => some { s with spec := { spec with abuf := false } }
  | .ad => some { s with spec := { spec with ad := true } }
  | .cd => some { s with spec := { spec with cd := true } }
  | .retry => some { s with spec := { spec with retry := UInt32.ofNat (num 10) } }
  | .resolv => some { s with spec := { spec with resolv := true }, v4 := true, v6 := true }
  | .prependProbeId => some { s with spec := { spec with prependProbeId := true } }
  | .ttl => some { s with spec := { spec with ttl := true } }
  | .interface => some { s with spec := { spec with interface := some value } }
  | .tls | .https | .refused => none
  | .ipv6DestOption | .outFile | .sniCertName | .httpsPath | .writeResponse | .readResponse | .evdns =>
    some s

/-- What `argProcess()` makes of the settings and the operands. -/
def EvtdigArgs.finish (s : EvtdigArgs) (operands : List String) : Option DnsSpec := do
  let spec ←
    if s.spec.resolv then some s.spec
    else match operands with
      | [server] => some { s.spec with target := server }
      | _ => none
  let query ← s.query
  if query.toList.getLast? = some '.' then
    some { spec with
      queryArgument := query
      af := if s.v4 && s.v6 then 0 else if s.v6 then 6 else 4 }
  else none

def parseEvtdig (args : List String) (interval : Nat) (endTime : Int) (spread : Nat) : TelnetCommand :=
  match evtdigGetopt args with
  | .error _ => .unknown (.args "evtdig" args)
  | .ok (opts, operands) =>
    let spec : DnsSpec := { spread := some spread, schedule := ⟨interval, 0, endTime⟩ }
    match (opts.foldlM EvtdigArgs.set { spec }).bind (·.finish operands) with
    | some spec => .dns spec
    | none => .unknown (.args "evtdig" args)

end Starla.Impl.Controller
