import Starla.Impl.Measurements.TlsReader
import Starla.Impl.Reports.Tls

/-!
# Reading an answer for its line

The loop of `sslgetcert` after its ClientHello is sent, in
`starla-measurements/src/tls/mod.rs`: what the socket gives is fed to the reader
until it comes to something, or the deadline passes.
-/

namespace Starla.Impl.Reports

open Starla.Framework Starla.Impl.Measurements

namespace Tls

def AnswerError.all : List AnswerError :=
  [.badType, .shortProtocolVersion, .shortRandom, .shortSessionIdLen, .badSessionIdLen, .shortSessionId,
    .shortCipherSuite, .badLen, .badCertData]

def AnswerError.ofText (text : String) : Option AnswerError := AnswerError.all.find? (·.text = text)

/-- What the reader came to. One that waits does so to the deadline. -/
def Event.ofReader : Measurements.Tls.Event × Measurements.Tls.Reader → Option Event
  | (.wait, r) => some (.timeout (r.state = .certs))
  | (.alert level description, _) => some (.alert level description)
  | (.certs ders, _) => some (.certs ders)
  | (.err text, _) => (AnswerError.ofText text).map .err

/-- The answer that was read, `last` the cipher of an earlier run of the line. -/
def Answer.read (last : UInt16) (src : Option IpAddr) (ttc rt : Fixed 6) (now : Int) (feeds : List (List UInt8)) :
    Option Answer :=
  let out := Measurements.Tls.Reader.feeds { serverCipher := last } feeds
  (Event.ofReader out).map fun event =>
    ⟨(out.2.recvMajor, out.2.recvMinor), src, ttc, rt, out.2.serverCipher, event, now⟩

end Tls

end Starla.Impl.Reports
