import Mathlib.Data.List.Defs
import Starla.Impl.Measurements.Tls
import Starla.Impl.Reports.Envelope
import Starla.Impl.Scheduler.Job

/-!
# evsslgetcert's lines

`report_body`, `head_body` and their suffixes, of
`starla-measurements/src/tls/mod.rs`, and `pem_json` of its `cert.rs`. Whom a
run connects to is `Tls.sslgetcert`'s; what the reader of `cert.rs` makes of
the answer is an argument.
-/

namespace Starla.Impl.Reports

open Starla.Framework Starla.Impl.Measurements Starla.Impl.Scheduler

namespace Tls

/-- What both reports start with. -/
structure Envelope where
  atlas : Option UInt64
  dstName : String
  dstPort : UInt16
  ttr : Option (Fixed 6)
deriving DecidableEq, Repr

def afOf (ip : IpAddr) : Nat := if ip.isIpv4 then 4 else 6

/-- The error report, up to the target's name. -/
def reportHead (env : Envelope) (gstart : Int) (lts : LtsText) : String :=
  (env.atlas.map fun id => envelope (toString id.toNat) lts ++ ("\"time\":" ++ toString gstart ++ ", ")).getD ""

/-- The error report after the port, up to its result. -/
def reportTail (env : Envelope) (dst : Option IpAddr) : String :=
  (env.ttr.map fun ttr => "\"ttr\":" ++ ttr.text ++ ", ").getD "" ++
    (dst.map fun dst => "\"dst_addr\":\"" ++ dst.text ++ "\"" ++ ", \"af\": " ++ toString (afOf dst) ++ ", ").getD ""

def reportBody (env : Envelope) (gstart : Int) (dst : Option IpAddr) (result : String) (lts : LtsText) : String :=
  reportHead env gstart lts ++ "\"dst_name\":\"" ++ env.dstName ++ "\"" ++ ", \"dst_port\":\"" ++
    toString env.dstPort.toNat ++ "\"" ++ ", " ++ reportTail env dst ++ result

/-- What the report of an answer has after the envelope. -/
structure Head where
  version : UInt8 × UInt8
  dst : IpAddr
  src : Option IpAddr
  ttc : Fixed 6
  rt : Fixed 6
  cipher : UInt16
deriving DecidableEq, Repr

def methodVer (version : UInt8 × UInt8) : String × String :=
  if version = (3, 3) then ("TLS", "1.2")
  else if version = (3, 2) then ("TLS", "1.1")
  else if version = (3, 1) then ("TLS", "1.0")
  else if version = (3, 0) then ("SSL", "3.0")
  else ("(unknown)", toString version.1.toInt8.toInt ++ "." ++ toString version.2.toInt8.toInt)

/-- The report of an answer, up to the target's name. -/
def headHead (env : Envelope) (now : Int) (lts : LtsText) : String :=
  (env.atlas.map fun id => envelope (toString id.toNat) lts).getD "" ++ ("\"time\":" ++ toString now)

/-- The report of an answer, after the port. -/
def headTail (env : Envelope) (h : Head) : String :=
  (env.ttr.map fun ttr => ", \"ttr\":" ++ ttr.text).getD "" ++ ", \"method\":\"" ++ (methodVer h.version).1 ++ "\"" ++
    ", \"ver\":\"" ++ (methodVer h.version).2 ++ "\"" ++ ", \"dst_addr\":\"" ++ h.dst.text ++ "\"" ++
    ", \"af\": " ++ toString (afOf h.dst) ++ ", \"src_addr\":\"" ++ addrText h.src ++ "\"" ++ ", \"ttc\": " ++
    h.ttc.text ++ ", \"rt\": " ++ h.rt.text ++ ", \"server_cipher\": \"" ++ ("0x" ++ hexText 4 h.cipher.toNat) ++
    "\""

def headBody (env : Envelope) (now : Int) (h : Head) (lts : LtsText) : String :=
  headHead env now lts ++ ", \"dst_name\":\"" ++ env.dstName ++ "\"" ++ ", \"dst_port\":\"" ++
    toString env.dstPort.toNat ++ "\"" ++ headTail env h

def alertSuffix (level description : UInt8) : String :=
  ", \"alert\": " ++ ("\x7b " ++ ("\"level\": " ++ toString level.toNat ++ ", \"description\": " ++
    toString description.toNat) ++ " \x7d")

/-- A certificate's text, its newlines escaped. -/
def pemText (der : List UInt8) : String :=
  "-----BEGIN CERTIFICATE-----\\n" ++
    String.join (((base64 der).toChunks 64).map fun line => String.ofList line ++ "\\n") ++
    "-----END CERTIFICATE-----"

def certsSuffix (certs : List (List UInt8)) : String :=
  ", \"cert\":" ++ ("[ " ++ ", ".intercalate (certs.map fun der => "\"" ++ pemText der ++ "\"") ++ " ]")

/-- What is wrong with an answer. -/
inductive AnswerError
  | badType
  | shortProtocolVersion
  | shortRandom
  | shortSessionIdLen
  | badSessionIdLen
  | shortSessionId
  | shortCipherSuite
  | badLen
  | badCertData
deriving DecidableEq, Repr

def AnswerError.text : AnswerError → String
  | badType => "bad type"
  | shortProtocolVersion => "Server Hello too short (ProtocolVersion)"
  | shortRandom => "Server Hello too short (Random)"
  | shortSessionIdLen => "Server Hello too short (SessionID len)"
  | badSessionIdLen => "Server Hello bad SessionID len"
  | shortSessionId => "Server Hello too short (SessionID)"
  | shortCipherSuite => "Server Hello too short (CipherSuite)"
  | badLen => "bad len"
  | badCertData => "bad amount of cert data"

/-- How reading the answer ends. -/
inductive Event
  | alert (level description : UInt8)
  | certs (certs : List (List UInt8))
  | err (error : AnswerError)
  | timeout (readingCertificates : Bool)
deriving DecidableEq, Repr

/-- The answer of the address that took the connection. -/
structure Answer where
  version : UInt8 × UInt8
  src : Option IpAddr
  ttc : Fixed 6
  rt : Fixed 6
  cipher : UInt16
  event : Event
  /-- When it is reported. -/
  now : Int
deriving DecidableEq, Repr

/-- How the lookup ends: with an error, or with addresses. -/
inductive Resolved
  | noName
  | fail
  | found (first : IpAddr) (rest : List IpAddr)
deriving DecidableEq, Repr

def EAI_NONAME : String := "nodename nor servname provided, or not known"
def EAI_FAIL : String := "non-recoverable failure in name resolution"

def Resolved.answer : Resolved → IoResult (List IpAddr)
  | noName => .error EAI_NONAME
  | fail => .error EAI_FAIL
  | found first rest => .ok (first :: rest)

/-- How a connection attempt ends. -/
inductive Connected
  | connected
  | failed (error : SystemText)
  | timedOut

def Connected.connect : Connected → Connect
  | connected => .connected
  | failed error => .failed error.text
  | timedOut => .timedOut

/-- What a run meets. -/
structure Met where
  /-- `ATLAS_DISABLE_CHECK_ADDR`. -/
  var : Option String
  resolved : Resolved
  ttr : Fixed 6
  connect : Nat → Connected
  answer : Answer
  gstart : Int

def timeoutResult (a : Answer) (readingCertificates : Bool) : String :=
  "\"src_addr\":\"" ++ addrText a.src ++ "\"" ++ ", \"ttc\": " ++ a.ttc.text ++ ", \"err\":\"" ++
    (if readingCertificates then "timeout reading certificates" else "timeout reading hello") ++ "\""

/-- The report of the address that answered. -/
def answerBody (env : Envelope) (met : Met) (dst : IpAddr) (lts : LtsText) : String :=
  let a := met.answer
  let head : Head := ⟨a.version, dst, a.src, a.ttc, a.rt, a.cipher⟩
  match a.event with
  | .alert level description => headBody env a.now head lts ++ alertSuffix level description
  | .certs certs => headBody env a.now head lts ++ certsSuffix certs
  | .err error => reportBody env met.gstart (some dst) ("\"err\":\"" ++ error.text ++ "\"") lts
  | .timeout readingCertificates =>
    reportBody env met.gstart (some dst) (timeoutResult a readingCertificates) lts

def config (met : Met) (spec : TlsJobSpec) : TlsConfig :=
  TlsConfig.new met.var spec.target spec.port spec.af spec.hostname

def outcome (spec : TlsJobSpec) (met : Met) : Measurements.Tls.Outcome :=
  (Measurements.Tls.sslgetcert (config met spec)
    ⟨met.resolved.answer, fun i => (met.connect i).connect⟩).value

def env (msmId : UInt64) (spec : TlsJobSpec) (met : Met) : Envelope where
  -- a line without `-A` has no id
  atlas := if msmId = 0 then none else some msmId
  dstName := spec.target
  dstPort := spec.port
  ttr := if (parseIpAddr spec.target.toList).isSome then none else some met.ttr

/-- The line of a job's run. -/
def line (msmId : UInt64) (spec : TlsJobSpec) (met : Met) (lts : LtsText) : String :=
  let env := env msmId spec met
  match outcome spec met with
  | .dnsError error => reportBody env met.gstart none ("\"dnserr\":\"" ++ error ++ "\"") lts
  | .answered dst => answerBody env met dst lts
  | .report dst result => reportBody env met.gstart dst result lts

end Tls

end Starla.Impl.Reports
