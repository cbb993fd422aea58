import Starla.Impl.Reports.Envelope

/-!
# evhttpget's lines

`result_body` of `starla-measurements/src/http/mod.rs` and `quoted` of its
`raw.rs`. What a fetch came to is an argument: its texts are the server's and
the system's as they are.
-/

namespace Starla.Impl.Reports

open Starla.Framework

/-! ## Quoting -/

/-- What `quoted` writes for a byte. -/
def quotedByte (b : UInt8) : List Char :=
  if b = 0x22 ∨ b = 0x5C then ['\\', Char.ofNat b.toNat]
  else if 0x20 ≤ b ∧ b ≤ 0x7E then [Char.ofNat b.toNat]
  else '\\' :: 'u' :: (hexText 4 b.toNat).toList

def quotedText (s : String) : String := String.ofList (s.toUTF8.data.toList.flatMap quotedByte)

def quoted (s : String) : String := "\"" ++ quotedText s ++ "\""

namespace Http

/-- The version a response names; the HTTPS client knows six. -/
inductive Version
  | parsed (major minor : UInt8)
  | http09
  | http10
  | http11
  | http2
  | http3
  | unknown
deriving DecidableEq, Repr

def Version.text : Version → String
  | parsed major minor => toString major.toNat ++ "." ++ toString minor.toNat
  | http09 => "0.9"
  | http10 => "1.0"
  | http11 => "1.1"
  | http2 => "2"
  | http3 => "3"
  | unknown => "unknown"

/-- A response read to its end. -/
structure Response where
  rt : Fixed 6
  res : UInt16
  ver : Version
  hsize : Nat
  bsize : Nat
deriving DecidableEq, Repr

/-- What a fetch came to. -/
structure RawHttpOutcome where
  ttr : Option (Fixed 6)
  af : UInt8
  dstAddr : Option IpAddr
  srcAddr : Option IpAddr
  header : Option (List String)
  err : Option String
  done : Option Response
deriving DecidableEq, Repr

def Response.fields (r : Response) : String :=
  ", \"rt\":" ++ r.rt.text ++ ", \"res\":" ++ toString r.res.toNat ++ ", \"ver\":\"" ++ r.ver.text ++ "\"" ++
    ", \"hsize\":" ++ toString r.hsize ++ ", \"bsize\":" ++ toString r.bsize

/-- The one entry of the result, between its braces. -/
def entry (out : RawHttpOutcome) : String :=
  (out.header.map fun lines => "\"header\": " ++ ("[" ++ spaced true (lines.map quoted) ++ " ]") ++ ", ").getD "" ++
    (out.err.map fun err => "\"err\":" ++ quoted err ++ ", ").getD "" ++
    ("\"method\":\"GET\"" ++ ", \"af\": " ++ toString out.af.toNat) ++
    (out.dstAddr.map fun dst => ", \"dst_addr\":\"" ++ dst.text ++ "\"").getD "" ++
    (out.srcAddr.map fun src => ", \"src_addr\":\"" ++ src.text ++ "\"").getD "" ++
    (out.done.map Response.fields).getD ""

def resultBody (msmId : UInt64) (gstart : Int) (out : RawHttpOutcome) (lts : LtsText) : String :=
  envelope (toString msmId.toNat) lts ++ ("\"time\":" ++ toString gstart ++ ", ") ++
    (out.ttr.map fun ttr => "\"ttr\":" ++ ttr.text ++ ", ").getD "" ++
    ("\"result\":" ++ ("[ " ++ ("\x7b " ++ entry out ++ " \x7d") ++ " ]"))

end Http

end Starla.Impl.Reports
