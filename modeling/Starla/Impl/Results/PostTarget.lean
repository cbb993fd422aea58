import Starla.Framework.HttpRequest
import Starla.Impl.Controller.Connect

/-!
# What a post asks

`PostTarget`, `request_head` and the endpoint of `starla-results/src/uploader.rs`,
with the path that `starla-probe/src/main.rs` makes of a session. The clock a
`Unix-Date` comes from is an argument.
-/

namespace Starla.Impl.Results

open Starla.Framework

structure PostTarget where
  /-- The URL's, without port or brackets. -/
  host : String
  /-- The URL's path and query. -/
  path : String
  /-- How far the clock may be from the answer's Date; never 0. -/
  setTime : Option Int64
  localTime : Bool
deriving DecidableEq, Repr

def TUNNEL_PORT : Nat := 8080

/-- The digits of a `u16` left to read, and why they are not one. -/
def parsePortFrom (n : Nat) : List Char → Except String Nat
  | [] => .ok n
  | c :: cs =>
    match digitValue 10 c with
    | none => .error "invalid digit found in string"
    | some d =>
      if n * 10 + d > 65535 then .error "number too large to fit in target type"
      else parsePortFrom (n * 10 + d) cs

def parsePort : List Char → Except String Nat
  | [] => .error "cannot parse integer from empty string"
  | ['+'] => .error "invalid digit found in string"
  | '+' :: cs => parsePortFrom 0 cs
  | cs => parsePortFrom 0 cs

/-- An authority's host, and its port where it has one. -/
def hostOf (url : String) : List Char → Except String (List Char × Option (List Char))
  | '[' :: v6 =>
    match splitOnce ']' v6 with
    | none | some ([], _) => .error s!"malformed IPv6 literal in url '{url}'"
    | some (host, after) => .ok (host, stripPrefix [':'] after)
  | hostport =>
    match splitOnce ':' hostport with
    | some (host, port) => .ok (host, some port)
    | none => .ok (hostport, none)

/-- Whether a text has an end of line in it. -/
def hasLineEnd (cs : List Char) : Bool := cs.any fun c => c == '\r' || c == '\n'

/-- A target without an end of line in it. -/
def checked (host path : List Char) (setTime : Option Int64) (localTime : Bool) : Except String PostTarget :=
  if hasLineEnd path || hasLineEnd host then .error "url contains invalid characters"
  else .ok {
    host := String.ofList host
    path := String.ofList path
    setTime := setTime.filter (· ≠ 0)
    localTime }

def PostTarget.fromUrl (url : String) (setTime : Option Int64) (localTime : Bool) : Except String PostTarget :=
  let cs := url.toList
  if (cs.take 7).map Char.toLower ≠ "http://".toList then .error s!"bad prefix in url '{url}'"
  else
    let rest := cs.drop 7
    let hostport := rest.takeWhile (· ≠ '/')
    let path := if '/' ∈ rest then rest.dropWhile (· ≠ '/') else ['/']
    match hostOf url hostport with
    | .error e => .error e
    | .ok (host, port) =>
      if host.isEmpty then .error s!"missing host part in url '{url}'"
      else
        match parsePort (port.getD ['8', '0']) with
        | .error e => .error e
        | .ok port =>
          if port ≠ TUNNEL_PORT then .error s!"url '{url}' is not the tunnel's port {TUNNEL_PORT}"
          else checked host path setTime localTime

/-! ## The session's endpoint -/

/-- The path `main` makes of a session. -/
def endpointPath (probeId : UInt32) (sessionId : String) : String := s!"/?PROBE_ID={probeId}&SESSION_ID={sessionId}"

/-- The endpoint path, empty until a controller is connected to. -/
structure ResultUploader where
  endpointPath : String := ""
deriving DecidableEq, Repr

def SET_TIME_TOLERANCE_SECS : Int64 := 2

namespace ResultUploader

def setEndpointPath (path : String) : Except String ResultUploader :=
  if path.toList.head? ≠ some '/' then .error s!"endpoint path must start with '/', got: {path}"
  else if hasLineEnd path.toList then .error "endpoint path contains invalid characters"
  else .ok { endpointPath := path }

def hasEndpoint (u : ResultUploader) : Bool := !u.endpointPath.isEmpty

def defaultTarget (u : ResultUploader) (src : Option String) : PostTarget where
  host := "127.0.0.1"
  path :=
    match src with
    | none => u.endpointPath
    | some src => u.endpointPath ++ (if '?' ∈ u.endpointPath.toList then "&" else "?") ++ "SRC=" ++ src
  setTime := some SET_TIME_TOLERANCE_SECS
  localTime := false

/-- The posts of Starla's own. -/
inductive OwnPost
  | batch
  | timesync
  | oneoff
deriving DecidableEq, Repr

/-- Where `upload_batch`, `post_timesync` and `post_oneoff` post. -/
def targetOf (u : ResultUploader) : OwnPost → PostTarget
  | .batch => u.defaultTarget none
  | .timesync => u.defaultTarget (some "timesync")
  | .oneoff => { u.defaultTarget (some "oneoff") with setTime := none }

end ResultUploader

/-! ## The request -/

def requestHead (target : PostTarget) (localTime : Option Int64) (contentLength : Nat) : String :=
  let head := s!"POST {target.path} HTTP/1.1\r\nHost: {target.host}\r\nConnection: close\r\n" ++
    "User-Agent: httppost for atlas.ripe.net\r\nContent-Type: application/x-www-form-urlencoded\r\n"
  let head := match localTime with
    | some t => head ++ s!"Unix-Date: {t}\r\n"
    | none => head
  head ++ s!"Content-Length: {contentLength}\r\n\r\n"

/-- What a post writes to its stream. -/
def requestBytes (target : PostTarget) (now : Int64) (body : List UInt8) : List UInt8 :=
  utf8Bytes (requestHead target (if target.localTime then some now else none) body.length) ++ body

end Starla.Impl.Results
