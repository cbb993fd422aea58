import Starla.Framework.HttpRequest
import Starla.Impl.Measurements.Http

/-!
# evhttpget's request

`request` of `http/raw.rs` of `starla-measurements`.
-/

namespace Starla.Impl.Measurements.Http

open Starla.Framework

def USER_AGENT : String := "httpget for atlas.ripe.net"

def request (url : HttpUrl) (http10 : Bool) : String :=
  let minor := if http10 then "0" else "1"
  s!"GET {url.path} HTTP/1.{minor}\r\nHost: {url.hostport}\r\nConnection: close\r\nUser-Agent: {USER_AGENT}\r\n\r\n"

end Starla.Impl.Measurements.Http
