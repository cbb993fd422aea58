import Starla.Impl.Measurements.Target

/-!
# evhttpget

`http/mod.rs` and `http/raw.rs` of `starla-measurements`, from the URL to the
connection: the response is not modelled here. A URL that is not plain HTTP
goes to the HTTPS client; the addresses that connects to are an argument.
-/

namespace Starla.Impl.Measurements

open Starla.Framework

structure HttpConfig where
  url : String
  method : String
  headers : Option (List (String × String))
  body : Option String
  timeoutMs : UInt64
  af : UInt8
  storeHeaders : UInt32
  http10 : Bool
deriving DecidableEq, Repr

namespace Http

structure HttpUrl where
  hostport : String
  host : String
  port : UInt16
  path : String
deriving DecidableEq, Repr

/-- ASCII letters alone change case. -/
def asciiLower (c : Char) : Char := if c.isUpper then c.toLower else c

/-- The text before and after the last `sep`. -/
def rsplitOnce (sep : Char) (cs : List Char) : Option (List Char × List Char) :=
  (splitOnce sep cs.reverse).map fun s => (s.2.reverse, s.1.reverse)

def parsePort (cs : List Char) : Option UInt16 := (parseUnsigned 65535 cs).map UInt16.ofNat

/-- The host and port of an authority. -/
def parseHostport (url : String) (hostport : List Char) : IoResult (List Char × UInt16) :=
  match hostport with
  | '[' :: inner =>
    match splitOnce ']' inner with
    | none => .error s!"unterminated [ in url '{url}'"
    | some (host, rest) =>
      match rest with
      | [] => .ok (host, 80)
      | rest =>
        match (stripPrefix [':'] rest).bind parsePort with
        | some port => .ok (host, port)
        | none => .error s!"bad port in url '{url}'"
  | _ =>
    match rsplitOnce ':' hostport with
    | some (host, port) =>
      match parsePort port with
      | some port => .ok (host, port)
      | none => .error s!"bad port in url '{url}'"
    | none => .ok (hostport, 80)

def parseHttpUrl (url : String) : IoResult HttpUrl :=
  let cs := url.toList
  if (cs.take 7).map asciiLower != "http://".toList then .error s!"not an http:// URL: {url}"
  else
    let rest := cs.drop 7
    let hostport := rest.takeWhile (· != '/')
    let path := rest.dropWhile (· != '/')
    if hostport.isEmpty then .error s!"missing host part in url '{url}'"
    else
      match parseHostport url hostport with
      | .error e => .error e
      | .ok (host, port) => .ok {
          hostport := String.ofList hostport
          host := String.ofList host
          port
          path := if path.isEmpty then "/" else String.ofList path }

/-- What a fetch reports of where it went, and why no connection was made. -/
structure RawHttpOutcome where
  af : UInt8
  dstAddr : Option IpAddr
  err : Option String
deriving DecidableEq, Repr

structure HttpIo where
  /-- the host's lookup: the system resolver's answer, or its error or timeout -/
  answer : IoResult (List IpAddr)
  connect : Connect
  /-- the HTTPS client's connections for a configuration, and how it ended -/
  client : HttpConfig → List SocketAddr × IoResult RawHttpOutcome

/-- Where a URL's host is reached. -/
def destination (url : HttpUrl) (af : UInt8) (io : HttpIo) : IoResult SocketAddr :=
  match parseIpAddr url.host.toList with
  | some ip =>
    if (af = 4 && ip.isIpv6) || (af = 6 && ip.isIpv4) then
      .error s!"no IPv{af} address for {url.host}"
    else .ok ⟨ip, url.port⟩
  | none =>
    match io.answer with
    | .error e => .error e
    | .ok addrs =>
      match addrs.find? (ofFamily af) with
      | some ip => .ok ⟨ip, url.port⟩
      | none => .error s!"no IPv{af} address for {url.host}"

def fetch (url : HttpUrl) (af : UInt8) (io : HttpIo) : Logged Contact (IoResult RawHttpOutcome) :=
  match destination url af io with
  | .error e => pure (.error e)
  | .ok dst => do
    Logged.emit (.connection dst)
    pure (.ok {
      af := if dst.ip.isIpv4 then 4 else 6
      dstAddr := some dst.ip
      err := match io.connect with
        | .connected => none
        | .failed e => some s!"connect: {e}"
        | .timedOut => some "connect: timeout" })

/-- A fetch through the HTTPS client. -/
def fetchTls (config : HttpConfig) (io : HttpIo) : Logged Contact (IoResult RawHttpOutcome) :=
  ⟨(io.client config).1.map .connection, (io.client config).2⟩

def execute (config : HttpConfig) (io : HttpIo) : Logged Contact (IoResult RawHttpOutcome) :=
  match parseHttpUrl config.url with
  | .ok url => do
    match ← fetch url config.af io with
    | .ok out => pure (.ok out)
    | .error e => pure (.ok { af := config.af, dstAddr := none, err := some e })
  | .error _ => fetchTls config io

end Http

end Starla.Impl.Measurements
