import Starla.Impl.Controller.Evtdig

/-!
# Measurements as JSON objects

`parse_json_command` of `starla-controller/src/telnet.rs`, over the value
`serde_json` reads from the line.
-/

namespace Starla.Impl.Controller

open Starla.Framework

/-- A JSON value; what a number holds that is not whole is not read. -/
inductive Json
  | null
  | bool (b : Bool)
  | nat (n : UInt64)
  | negative (n : Int)
  | float
  | string (s : String)
  | array (items : List Json)
  | object (members : List (String × Json))

namespace Json

def get (j : Json) (key : String) : Option Json :=
  match j with
  | .object members => (members.find? (·.1 == key)).map (·.2)
  | _ => none

def asStr : Json → Option String
  | .string s => some s
  | _ => none

def asU64 : Json → Option Nat
  | .nat n => some n.toNat
  | _ => none

def asI64 : Json → Option Int
  | .nat n => if n.toNat < 2 ^ 63 then some n.toNat else none
  | .negative n => some n
  | _ => none

def asBool : Json → Option Bool
  | .bool b => some b
  | _ => none

def asArray : Json → Option (List Json)
  | .array items => some items
  | _ => none

def num (j : Json) (key : String) (default : Nat) : Nat := ((j.get key).bind asU64).getD default

def text (j : Json) (key default : String) : String := ((j.get key).bind asStr).getD default

def flag (j : Json) (key : String) (default : Bool) : Bool := ((j.get key).bind asBool).getD default

end Json

/-- `to_lowercase` and `to_uppercase`, for a comparison with ASCII text. -/
def toLowercase (s : String) : String := String.ofList (s.toList.map lowerAscii)

def toUppercase (s : String) : String := String.ofList (s.toList.flatMap upperAscii)

def parseSchedule (spec : Json) : ScheduleSpec where
  interval := spec.num "interval" 0
  startTime := ((spec.get "start_time").bind Json.asI64).getD 0
  stopTime := ((spec.get "stop_time").bind Json.asI64).getD 0

/-- A type or class by name (evtdig's long option names) or number. -/
def dnsCode (spec : Json) (key : String) (default : UInt16) : UInt16 :=
  let name := toLowercase (spec.text key "")
  match parseU16 name with
  | some code => code
  | none =>
    match name with
    | "" => default
    | "in" => 1
    | "ch" => 3
    | "hs" => 4
    | _ => (EVTDIG_LONGOPTS.findSome? fun (n, _, o) => match o with
        | .query t => if n == name then some t else none
        | _ => none).getD default

def jsonTracerouteOptions (spec : Json) : TracerouteOptions :=
  let defaults : TracerouteOptions := {}
  { defaults with
    protocol := match (spec.get "protocol").bind Json.asStr with
      | some p =>
        if toLowercaseAscii p == "icmp" then .ICMP else if toLowercaseAscii p == "tcp" then .TCP else .UDP
      | none => .UDP
    parisMod := UInt8.ofNat (spec.num "paris" defaults.parisMod.toNat)
    firstHop := UInt8.ofNat (spec.num "first_hop" defaults.firstHop.toNat)
    maxHops := UInt8.ofNat (spec.num "max_hops" defaults.maxHops.toNat)
    size := UInt16.ofNat (spec.num "size" defaults.size.toNat) }
where
  /-- For `eq_ignore_ascii_case`. -/
  toLowercaseAscii (s : String) : String := String.ofList (s.toList.map Char.toLower)

def parseJsonCommand (spec : Json) : TelnetCommand :=
  let msmType := toLowercase (spec.text "type" "")
  let msmId := UInt64.ofNat (spec.num "msm_id" 0)
  let target := (((spec.get "target").or (spec.get "dst_name")).bind Json.asStr).getD ""
  let af := UInt8.ofNat (spec.num "af" 4)
  let spread := ((spec.get "spread").bind Json.asU64).map (· % 2 ^ 32)
  let schedule := parseSchedule spec
  match msmType with
  | "ping" => .ping {
      msmId, target, af
      packets := UInt32.ofNat (spec.num "packets" 3)
      size := UInt16.ofNat (spec.num "size" 64)
      packetInterval := UInt32.ofNat (spec.num "packet_interval" 1000)
      spread, schedule }
  | "traceroute" => .traceroute { msmId, target, af, opts := jsonTracerouteOptions spec, spread, schedule }
  | "dns" =>
    let queryArgument := spec.text "query_argument" "."
    .dns {
      msmId, target, af
      protocol := toUppercase (spec.text "protocol" "UDP")
      qtype := dnsCode spec "query_type" 1
      qclass := dnsCode spec "query_class" 1
      queryArgument :=
        if queryArgument.toList.getLast? = some '.' then queryArgument else queryArgument ++ "."
      dnssec := spec.flag "use_dnssec" false
      rd := spec.flag "recursion_desired" true
      spread, schedule }
  | "http" | "https" => .http {
      msmId
      url := (((spec.get "url").or (spec.get "target")).bind Json.asStr).getD ""
      method := spec.text "method" "GET"
      af
      headers := (((spec.get "headers").bind Json.asArray).map fun items =>
        items.filterMap Json.asStr).getD []
      body := (spec.get "body").bind Json.asStr
      maxBodySize := ((spec.get "max_body_size").bind Json.asU64).map UInt32.ofNat
      storeHeaders := 0
      http10 := false
      timeoutMs := none
      spread, schedule }
  | "sslcert" | "tls" => .tls {
      msmId, target
      port := UInt16.ofNat (spec.num "port" 443)
      af
      hostname := ((spec.get "hostname").bind Json.asStr).or (some target)
      spread, schedule }
  | "ntp" => .ntp {
      msmId, target, af
      packets := UInt32.ofNat (spec.num "packets" 3)
      timeoutMs := NTP_TIMEOUT_DEFAULT_MS
      gapMs := NTP_GAP_DEFAULT_MS
      spread, schedule }
  | _ => .unknown (.msmType msmType)

end Starla.Impl.Controller
