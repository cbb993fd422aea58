import Mathlib.Init

/-!
# Reading a TLS server's answer

`Reader` of `starla-measurements/src/tls/cert.rs`: records are taken off the
stream, their payloads gathered in a message buffer, and the messages read
from it. A loop that takes in records is given one more turn than there are
bytes not yet taken in, of which each record has five.
-/

namespace Starla.Impl.Measurements

namespace Tls

def MSG_ALERT : UInt8 := 21
def MSG_HANDSHAKE : UInt8 := 22
def HS_SERVER_HELLO : UInt8 := 2
def HS_CERTIFICATE : UInt8 := 11

inductive Event
  | wait
  | alert (level description : UInt8)
  | certs (certs : List (List UInt8))
  | err (text : String)
deriving DecidableEq, Repr

inductive ReadState
  | hello
  | certs
  | done
deriving DecidableEq, Repr

structure Reader where
  /-- Received, and not yet in `inbuf`. -/
  pending : List UInt8 := []
  inbuf : List UInt8 := []
  inOff : Nat := 0
  msg : List UInt8 := []
  msgOff : Nat := 0
  /-- The version of the last record header seen. -/
  recvMajor : UInt8 := 0
  recvMinor : UInt8 := 0
  serverCipher : UInt16 := 0
  state : ReadState := .hello
deriving DecidableEq, Repr

/-- The caps on what is buffered. -/
def MAX_PENDING : Nat := 1048576
def MAX_MSG : Nat := 1048576

def u16 (a b : UInt8) : Nat := a.toNat * 256 + b.toNat

def u24 (a b c : UInt8) : Nat := a.toNat * 65536 + b.toNat * 256 + c.toNat

/-- The fields of a ServerHello message of `totlen` bytes, as far as its cipher
suite. -/
def serverHelloCipher (p : List UInt8) (totlen : Nat) : Except String UInt16 :=
  if 4 + 2 > totlen then .error "Server Hello too short (ProtocolVersion)"
  else if 6 + 32 > totlen then .error "Server Hello too short (Random)"
  else if 38 + 1 > totlen then .error "Server Hello too short (SessionID len)"
  else
    let seslen := (p.getD 38 0).toNat
    if seslen > 32 then .error "Server Hello bad SessionID len"
    else if 39 + seslen > totlen then .error "Server Hello too short (SessionID)"
    else if 39 + seslen + 2 > totlen then .error "Server Hello too short (CipherSuite)"
    else .ok (UInt16.ofNat (u16 (p.getD (39 + seslen) 0) (p.getD (40 + seslen) 0)))

/-- The certificates from offset `o` of a list that ends at `stop`, in a message
of `len` bytes of which `body` is the start. Each takes three bytes or more, so
that `stop` turns are enough. -/
def certList (body : List UInt8) (len stop : Nat) : (turns : Nat) → (o : Nat) → (certs : List (List UInt8)) →
    Except String (List (List UInt8))
  | 0, _, _ => .error "bad len"
  | turns + 1, o, certs =>
    if o < stop then
      if o + 3 > len then .error "bad len"
      else
        let slen := u24 (body.getD o 0) (body.getD (o + 1) 0) (body.getD (o + 2) 0)
        if o + 3 + slen > len then .error "bad len"
        else certList body len stop turns (o + 3 + slen) (certs ++ [(body.drop (o + 3)).take slen])
    else if o ≠ stop ∨ o ≠ len then .error "bad amount of cert data"
    else .ok certs

/-- The certificates of a Certificate message. What the buffer holds past the
message is read as its list's length where the message is too short for one. -/
def certificates (body : List UInt8) (len : Nat) : Except String (List (List UInt8)) :=
  let stop := 3 + u24 (body.getD 0 0) (body.getD 1 0) (body.getD 2 0)
  certList body len stop (stop + 1) 3 []

namespace Reader

/-- Bytes the socket returned. -/
def feed (r : Reader) (data : List UInt8) : Reader :=
  { r with pending := r.pending ++ data.take (MAX_PENDING - r.pending.length) }

/-- What is in `inbuf` and not taken from it. -/
def buffered (r : Reader) : List UInt8 := r.inbuf.drop r.inOff

/-- The bytes not yet taken in. -/
def unread (r : Reader) : List UInt8 := r.buffered ++ r.pending

def bufRead (r : Reader) : Option Reader :=
  if r.pending.isEmpty then none
  else some { r with inbuf := r.buffered ++ r.pending, inOff := 0, pending := [] }

/-- One look at `inbuf`: too little for a record, a record that does not fit in
the message buffer, or one that is taken. -/
inductive Framed
  | short
  | refused
  | record (typ : UInt8)

def frame (r : Reader) : Framed × Reader :=
  match r.buffered with
  | typ :: major :: minor :: l1 :: l0 :: rest =>
    let r := { r with recvMajor := major, recvMinor := minor }
    let len := u16 l1 l0
    if rest.length < len then (.short, r)
    else
      let r := if r.msgOff = r.msg.length then { r with msg := [], msgOff := 0 } else r
      if r.msg.length + len > MAX_MSG then (.refused, r)
      else (.record typ, { r with msg := r.msg ++ rest.take len, inOff := r.inOff + 5 + len })
  | _ => (.short, r)

/-- The next record's payload goes to the message buffer. The second time
`inbuf` is too short, nothing more is pending. -/
def msgbufRead (r : Reader) : Option UInt8 × Reader :=
  match r.frame with
  | (.record typ, r) => (some typ, r)
  | (.refused, r) => (none, r)
  | (.short, r) =>
    match r.bufRead with
    | none => (none, r)
    | some r =>
      match r.frame with
      | (.record typ, r) => (some typ, r)
      | (_, r) => (none, r)

/-- The message bytes not yet read. -/
def message (r : Reader) : List UInt8 := r.msg.drop r.msgOff

def eatAlert : (turns : Nat) → Reader → Event × Reader
  | 0, r => (.wait, r)
  | turns + 1, r =>
    match r.message with
    | level :: description :: _ => (.alert level description, { r with msgOff := r.msgOff + 2 })
    | _ =>
      match r.msgbufRead with
      | (none, r) => (.wait, r)
      | (some typ, r) => if typ = MSG_ALERT then eatAlert turns r else (.wait, r)

/-- Nothing is put out where the ServerHello was read. -/
def eatServerHello : (turns : Nat) → Reader → Option Event × Reader
  | 0, r => (some .wait, r)
  | turns + 1, r =>
    match r.message with
    | typ :: l2 :: l1 :: l0 :: _ =>
      if typ ≠ HS_SERVER_HELLO then (some (.err "bad type"), r)
      else
        let totlen := 4 + u24 l2 l1 l0
        if r.message.length < totlen then
          match r.msgbufRead with
          | (none, r) => (some .wait, r)
          | (some typ, r) => if typ = MSG_HANDSHAKE then eatServerHello turns r else (some (.err "bad type"), r)
        else match serverHelloCipher r.message totlen with
          | .error text => (some (.err text), r)
          | .ok cipher => (none, { r with serverCipher := cipher, msgOff := r.msgOff + totlen })
    | _ =>
      match r.msgbufRead with
      | (none, r) => (some .wait, r)
      | (some typ, r) =>
        if typ = MSG_ALERT then
          let (event, r) := eatAlert (r.unread.length + 1) r
          (some event, r)
        else if typ = MSG_HANDSHAKE then eatServerHello turns r
        else (some (.err "bad type"), r)

def eatCertificate : (turns : Nat) → Reader → Event × Reader
  | 0, r => (.wait, r)
  | turns + 1, r =>
    match r.message with
    | typ :: l2 :: l1 :: l0 :: body =>
      if typ ≠ HS_CERTIFICATE then (.err "bad type", r)
      else
        let len := u24 l2 l1 l0
        if body.length < len then
          match r.msgbufRead with
          | (none, r) => (.wait, r)
          | (some typ, r) => if typ = MSG_HANDSHAKE then eatCertificate turns r else (.err "bad type", r)
        else match certificates body len with
          | .error text => (.err text, r)
          | .ok certs => (.certs certs, { r with msgOff := r.msgOff + 4 + len })
    | _ =>
      match r.msgbufRead with
      | (none, r) => (.wait, r)
      | (some typ, r) => if typ = MSG_HANDSHAKE then eatCertificate turns r else (.err "bad type", r)

/-- The Certificate message is what remains to be read. -/
def readCertificate (r : Reader) : Event × Reader :=
  let (event, r) := eatCertificate (r.unread.length + 1) r
  (event, if event = .wait then r else { r with state := .done })

def readcb (r : Reader) : Event × Reader :=
  match r.state with
  | .hello =>
    match eatServerHello (r.unread.length + 1) r with
    | (none, r) => readCertificate { r with state := .certs }
    | (some .wait, r) => (.wait, r)
    | (some event, r) => (event, { r with state := .done })
  | .certs => readCertificate r
  | .done => (.wait, r)

/-- Feeds, each followed by a poll, until one gives an event. -/
def feeds (r : Reader) : List (List UInt8) → Event × Reader
  | [] => (.wait, r)
  | data :: rest =>
    match (r.feed data).readcb with
    | (.wait, r) => feeds r rest
    | (event, r) => (event, r)

end Reader

end Tls

end Starla.Impl.Measurements
