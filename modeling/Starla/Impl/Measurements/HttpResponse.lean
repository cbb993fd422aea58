import Starla.Framework.Lines
import Starla.Framework.Search
import Starla.Impl.Measurements.Http

/-!
# evhttpget's response

`http/raw.rs` of `starla-measurements`, from the connection to what is reported
of the response: the loop that reads it, the test the loop stops at, and the
parser. A loop over lines is given one more turn than there are bytes.
-/

namespace Starla.Impl.Measurements

open Starla.Framework

namespace Http

def MAX_RESPONSE_BYTES : Nat := 1048576

/-- The most that one read returns. -/
def CHUNK : Nat := 8192

def USIZE_MAX : Nat := 2 ^ 64 - 1

def CRLF : List UInt8 := [13, 10]

def eqIgnoreAsciiCase (a b : List Char) : Bool := a.map asciiLower == b.map asciiLower

/-- The headers are read, and the body is complete by Content-Length or by a
chunked body's end. -/
def responseComplete (buf : List UInt8) : Bool :=
  match findSub (CRLF ++ CRLF) buf with
  | none => false
  | some (head, body) =>
    let headers := (decodeUtf8LossyFrom none head).map asciiLower
    match ((lines headers).findSome? (stripPrefix "content-length:".toList)).bind
        fun v => parseUnsigned USIZE_MAX (trim v) with
    | some len => len ≤ body.length
    | none =>
      if (lines headers).any fun l =>
          (stripPrefix "transfer-encoding:".toList (l.dropWhile isWhitespace)).isSome &&
            hasInfix "chunked".toList l then
        (48 :: CRLF ++ CRLF).isSuffixOf body
      else false

/-- The response as far as it is read. No bytes are the connection's end. -/
def readLoop (buf : List UInt8) : (reads : List (List UInt8)) → List UInt8
  | [] => buf
  | chunk :: reads =>
    if chunk.isEmpty ∨ MAX_RESPONSE_BYTES ≤ buf.length then buf
    else if responseComplete (buf ++ chunk) then buf ++ chunk
    else readLoop (buf ++ chunk) reads

structure ParsedResponse where
  res : UInt16
  ver : String
  hsize : Nat
  bsize : Nat
  header : Option (List String)
deriving DecidableEq, Repr

/-- A line without its end, and what follows it. -/
def splitLine (bs : List UInt8) : Option (List UInt8 × List UInt8) := findSub [10] bs

/-- A line's text, its length with its end, and what follows it. -/
def nextLine (raw : List UInt8) : Option (List Char × Nat × List UInt8) :=
  (splitLine raw).map fun s =>
    (decodeUtf8LossyFrom none (if s.1.getLast? = some 13 then s.1.dropLast else s.1), s.1.length + 1, s.2)

/-- The status code and the version. -/
def statusLine (status : List Char) : Except String (UInt16 × String) :=
  let bad : Except String (UInt16 × String) := .error s!"bad status line: {String.ofList status}"
  if ¬eqIgnoreAsciiCase (status.take 5) "HTTP/".toList then bad
  else match splitOnce ' ' (status.drop 5) with
    | none => bad
    | some (ver, code) =>
      match (splitOnce '.' ver).bind fun s =>
          (parseUnsigned 255 s.1).bind fun major => (parseUnsigned 255 s.2).map (major, ·) with
      | none => bad
      | some (major, minor) =>
        let digits := (code.dropWhile isWhitespace).take 3
        match if digits.length < 3 then none else parseUnsigned 65535 digits with
        | none => bad
        | some res => .ok (UInt16.ofNat res, s!"{major}.{minor}")

structure Headers where
  lines : List String := []
  hsize : Nat := 0
  contentLength : Option Nat := none
  chunked : Bool := false
deriving DecidableEq, Repr

def Headers.add (h : Headers) (line : List Char) (len : Nat) : Headers :=
  let h := { h with lines := h.lines ++ [String.ofList line], hsize := h.hsize + len }
  match splitOnce ':' line with
  | none => h
  | some (name, value) =>
    if eqIgnoreAsciiCase (trim name) "Content-Length".toList then
      { h with contentLength := parseUnsigned USIZE_MAX (trim value) }
    else if eqIgnoreAsciiCase (trim name) "Transfer-Encoding".toList &&
        (stripPrefix "chunked".toList ((trim value).map asciiLower)).isSome then
      { h with chunked := true }
    else h

/-- The header lines up to an empty one, and the body. -/
def headerLoop : (turns : Nat) → (raw : List UInt8) → Headers → Except String (Headers × List UInt8)
  | 0, _, _ => .error "bad header line: truncated"
  | turns + 1, raw, h =>
    match nextLine raw with
    | none => .error "bad header line: truncated"
    | some (line, len, rest) => if line.isEmpty then .ok (h, rest) else headerLoop turns rest (h.add line len)

def fromHex : List Char → Option Nat
  | '+' :: cs => digitsUpTo USIZE_MAX 16 cs
  | cs => digitsUpTo USIZE_MAX 16 cs

def chunkSize (line : List UInt8) : Option Nat :=
  fromHex ((trim (decodeUtf8LossyFrom none line)).takeWhile (· != ';'))

/-- The chunk's own line end. -/
def stripEol (body : List UInt8) : List UInt8 :=
  ((stripPrefix CRLF body).or (stripPrefix [10] body)).getD body

def dechunkedLen : (turns : Nat) → (body : List UInt8) → Nat
  | 0, _ => 0
  | turns + 1, body =>
    match splitLine body with
    | none => 0
    | some (line, rest) =>
      match chunkSize line with
      | none => 0
      | some 0 => 0
      | some size => min size rest.length + dechunkedLen turns (stripEol (rest.drop (min size rest.length)))

def Headers.bodySize (h : Headers) (body : List UInt8) : Nat :=
  if h.chunked then dechunkedLen (body.length + 1) body
  else match h.contentLength with
    | some n => min n body.length
    | none => body.length

/-- What fits of a text in so many bytes. -/
def takeUtf8 : (bytes : Nat) → List Char → List Char
  | _, [] => []
  | bytes, c :: cs => if c.utf8Size ≤ bytes then c :: takeUtf8 (bytes - c.utf8Size) cs else []

def storedHeaders (lines : List String) (max : Nat) : Option (List String) :=
  if max = 0 then none
  else
    let (out, tot) := lines.foldl (fun (out, tot) line =>
      if tot + line.utf8ByteSize < max then (out ++ [line], tot + line.utf8ByteSize)
      else if tot ≤ max then
        (out ++ [String.ofList (takeUtf8 (max - tot) line.toList) ++ "[...]"], tot + line.utf8ByteSize + 1)
      else (out, tot)) ([], 0)
    some (if tot ≤ max then out ++ [""] else out)

def parseResponse (raw : List UInt8) (storeHeaders : Nat) : Except String ParsedResponse :=
  match nextLine raw with
  | none => .error "bad status line: no line"
  | some (status, _, rest) =>
    match statusLine status with
    | .error e => .error e
    | .ok (res, ver) =>
      match headerLoop (rest.length + 1) rest {} with
      | .error e => .error e
      | .ok (h, body) => .ok {
          res, ver
          hsize := h.hsize
          bsize := h.bodySize body
          header := storedHeaders h.lines storeHeaders }

/-- What is reported of a response that comes in reads. -/
def fetched (reads : List (List UInt8)) (storeHeaders : Nat) : Except String ParsedResponse :=
  parseResponse (readLoop [] reads) storeHeaders

end Http

end Starla.Impl.Measurements
