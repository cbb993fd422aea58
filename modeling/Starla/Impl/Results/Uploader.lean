import Starla.Framework.Lines
import Starla.Framework.Search
import Starla.Impl.Results.Gate

/-!
# Posting a batch

`ResultUploader::post` of `starla-results/src/uploader.rs`, from the transport
to the judgement of the answer. What the transport does is an argument
(`PostIo`). `timeout` is how the configured timeout prints.
-/

namespace Starla.Impl.Results

open Starla.Framework

/-- The error of a post: refused, or any other with its text. -/
inductive UploadError
  | rateLimited (retryAfter : Option UInt64)
  | other (message : String)
deriving DecidableEq, Repr

/-- What the handler makes of it. -/
def UploadError.kind : UploadError → PostError
  | .rateLimited retryAfter => .rateLimited retryAfter
  | .other _ => .other

/-! ## The transport -/

/-- How a call under the timeout ends. -/
inductive Timed (α : Type)
  | done (a : α)
  | failed (error : String)
  | timedOut
deriving DecidableEq, Repr

/-- How the reading ends, once the reads that returned bytes are over. -/
inductive ReadEnd
  | closed
  | failed (error : String)
  | timedOut
deriving DecidableEq, Repr

/-- What the transport does in a post: how it opens, whether the request is
written, what each read returns and how the reading ends. -/
structure PostIo where
  opened : Timed Unit
  written : Except String Unit
  reads : List (List UInt8)
  ends : ReadEnd

def RESPONSE_LIMIT : ℕ := 4096

/-- The response as far as it is read. No bytes are the connection's end. -/
def readResponse (timeout : String) (ends : ReadEnd) (response : List UInt8) :
    List (List UInt8) → Except UploadError (List UInt8)
  | [] =>
    match ends with
    | .closed => .ok response
    | .failed e => if response.isEmpty then .error (.other e) else .ok response
    | .timedOut =>
      if response.isEmpty then .error (.other ("Response timed out after " ++ timeout)) else .ok response
  | chunk :: reads =>
    if chunk.isEmpty then .ok response
    else if (response ++ chunk).length > RESPONSE_LIMIT then .ok (response ++ chunk)
    else readResponse timeout ends (response ++ chunk) reads

/-! ## The answer -/

/-- The number of a status line. -/
def statusCode (statusLine : List Char) : Option ℕ :=
  match words isWhitespace statusLine with
  | _ :: code :: _ => parseUnsigned 65535 code
  | _ => none

def retryAfterOf (response : List Char) : Option UInt64 := do
  let line ← (lines response).find? fun l => (stripPrefix "retry-after:".toList (l.map lowerAscii)).isSome
  let (_, value) ← splitOnce ':' line
  let secs ← parseUnsigned (2 ^ 64 - 1) (trim (value.takeWhile (· ≠ ':')))
  return UInt64.ofNat secs

def HEADER_END : List Char := ['\r', '\n', '\r', '\n']

/-- A 200 without a header's end is a success. -/
def judgeResponse (response : List Char) : Except UploadError Unit :=
  match lines response with
  | [] => .error (.other "Empty response from controller")
  | statusLine :: _ =>
    match statusCode statusLine with
    | some 429 => .error (.rateLimited (retryAfterOf response))
    | some 200 =>
      match findSub HEADER_END response with
      | some (_, body) =>
        if trim body = ['O', 'K'] then .ok ()
        else .error (.other ("Upload rejected: " ++ String.ofList (trim body)))
      | none => .ok ()
    | _ => .error (.other ("Upload failed: " ++ String.ofList statusLine))

def post (timeout : String) (io : PostIo) : Except UploadError Unit :=
  match io.opened with
  | .timedOut => .error (.other ("Transport open timed out after " ++ timeout))
  | .failed e => .error (.other e)
  | .done () =>
    match io.written with
    | .error e => .error (.other e)
    | .ok () => do
      let response ← readResponse timeout io.ends [] io.reads
      judgeResponse (decodeUtf8LossyFrom none response)

end Starla.Impl.Results
