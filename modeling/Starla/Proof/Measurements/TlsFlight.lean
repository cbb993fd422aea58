import Starla.Framework.Pull
import Starla.Impl.Measurements.TlsReader

/-!
# The flight a TLS server answers with

What the reader is for: records are complete or not, the payloads of those taken
are one message text, and each record is judged by what has been read of it.

* `Core.settle` : what the message bytes amount to.
* `flight` : the reader of records, which looks at the header of the next.
* `settle_pull` : a reader that waits needs more than it has.
-/

namespace Starla.Proof.Measurements.Tls

open Starla.Framework Starla.Impl.Measurements.Tls

structure Record where
  typ : UInt8
  major : UInt8
  minor : UInt8
  payload : List UInt8
deriving DecidableEq, Repr

/-- The record at the front of a stream. -/
def nextRecord : List UInt8 → Option (Record × List UInt8)
  | typ :: major :: minor :: l1 :: l0 :: rest =>
    if rest.length < u16 l1 l0 then none
    else some (⟨typ, major, minor, rest.take (u16 l1 l0)⟩, rest.drop (u16 l1 l0))
  | _ => none

theorem nextRecord_shorter {u rest : List UInt8} {r : Record} (h : nextRecord u = some (r, rest)) :
    rest.length < u.length := by
  unfold nextRecord at h
  split at h
  · split at h
    · cases h
    · cases h
      simp
      omega
  · cases h

theorem nextRecord_append {u rest : List UInt8} {r : Record} (v : List UInt8)
    (h : nextRecord u = some (r, rest)) : nextRecord (u ++ v) = some (r, rest ++ v) := by
  unfold nextRecord at h
  split at h
  · split at h
    · cases h
    · rename_i hlen
      cases h
      simp only [nextRecord, List.cons_append, List.length_append]
      rw [if_neg (by omega), List.take_append_of_le_length (by omega),
        List.drop_append_of_le_length (by omega)]
  · cases h

def framing : Framing UInt8 Record where
  next := nextRecord
  shorter := nextRecord_shorter
  append := nextRecord_append

/-- The complete records of a stream. -/
def records (u : List UInt8) : List Record := (framing.split u).1

/-- What has been read of the flight. -/
structure Core where
  message : List UInt8 := []
  major : UInt8 := 0
  minor : UInt8 := 0
  cipher : UInt16 := 0
  state : ReadState := .hello
deriving DecidableEq, Repr

/-- What message bytes amount to. -/
inductive Parsed (α : Type)
  | short
  | bad (text : String)
  | ok (a : α)

/-- A ServerHello's cipher, and its length. -/
def parseHello (message : List UInt8) : Parsed (UInt16 × Nat) :=
  match message with
  | typ :: l2 :: l1 :: l0 :: _ =>
    if typ ≠ HS_SERVER_HELLO then .bad "bad type"
    else if message.length < 4 + u24 l2 l1 l0 then .short
    else match serverHelloCipher message (4 + u24 l2 l1 l0) with
      | .error text => .bad text
      | .ok cipher => .ok (cipher, 4 + u24 l2 l1 l0)
  | _ => .short

def parseCertificate (message : List UInt8) : Parsed (List (List UInt8)) :=
  match message with
  | typ :: l2 :: l1 :: l0 :: body =>
    if typ ≠ HS_CERTIFICATE then .bad "bad type"
    else if body.length < u24 l2 l1 l0 then .short
    else match certificates body (u24 l2 l1 l0) with
      | .error text => .bad text
      | .ok certs => .ok certs
  | _ => .short

namespace Core

def settleCerts (c : Core) : Core × Option Event :=
  match parseCertificate c.message with
  | .short => (c, none)
  | .bad text => (c, some (.err text))
  | .ok certs => (c, some (.certs certs))

def settle (c : Core) : Core × Option Event :=
  match c.state with
  | .hello =>
    match parseHello c.message with
    | .short => (c, none)
    | .bad text => (c, some (.err text))
    | .ok (cipher, len) => settleCerts { c with message := c.message.drop len, cipher := cipher, state := .certs }
  | .certs => c.settleCerts
  | .done => (c, none)

def add (c : Core) (r : Record) : Core :=
  { c with message := c.message ++ r.payload, major := r.major, minor := r.minor }

def alert (c : Core) : Core × Option Event :=
  match c.message with
  | level :: description :: _ => (c, some (.alert level description))
  | _ => (c, none)

/-- An alert is one only while no message has begun. -/
def take (c : Core) (r : Record) : Core × Option Event :=
  if r.typ = MSG_HANDSHAKE then (c.add r).settle
  else if r.typ = MSG_ALERT ∧ c.state = .hello ∧ c.message.length < 4 then (c.add r).alert
  else (c.add r, some (.err "bad type"))

/-- The header of a record that is not complete. -/
def look (c : Core) : List UInt8 → Core
  | _ :: major :: minor :: _ :: _ :: _ => { c with major := major, minor := minor }
  | _ => c

theorem look_eq (c : Core) (u : List UInt8) :
    c.look u = { c with major := (c.look u).major, minor := (c.look u).minor } := by
  unfold look
  split <;> rfl

end Core

def flight : Puller UInt8 Record Core Event where
  toFraming := framing
  take := Core.take
  look := Core.look
  take_look c u r := by
    rw [Core.look_eq]
    rfl
  look_look c u v := by
    unfold Core.look
    rcases u with _ | ⟨_, _ | ⟨_, _ | ⟨_, _ | ⟨_, _ | ⟨_, u⟩⟩⟩⟩⟩ <;> rfl

theorem records_of_next {u rest : List UInt8} {r : Record} (h : framing.next u = some (r, rest)) :
    records u = r :: records rest := by
  rw [records, framing.split_of_some h]
  rfl

theorem records_of_next_none {u : List UInt8} (h : framing.next u = none) : records u = [] := by
  rw [records, framing.split_of_none h]

/-! ## A reader that waits -/

theorem parseHello_of_short {message : List UInt8} (h : message.length < 4) : parseHello message = .short := by
  rcases message with _ | ⟨_, _ | ⟨_, _ | ⟨_, _ | ⟨_, message⟩⟩⟩⟩
  any_goals rfl
  simp only [List.length_cons] at h
  omega

theorem length_of_parseHello {message : List UInt8} {cipher : UInt16} {len : Nat}
    (h : parseHello message = .ok (cipher, len)) : len ≤ message.length := by
  unfold parseHello at h
  split at h
  · split at h
    · cases h
    · split at h
      · cases h
      · split at h
        · cases h
        · cases h
          omega
  · cases h

namespace Core

variable {c c' : Core} {r : Record} {rs : List Record} {e : Event}

theorem settleCerts_of_short (h : parseCertificate c.message = .short) : c.settleCerts = (c, none) := by
  rw [settleCerts, h]

theorem settleCerts_of_bad {text : String} (h : parseCertificate c.message = .bad text) :
    c.settleCerts = (c, some (.err text)) := by
  rw [settleCerts, h]

theorem settleCerts_of_ok {certs : List (List UInt8)} (h : parseCertificate c.message = .ok certs) :
    c.settleCerts = (c, some (.certs certs)) := by
  rw [settleCerts, h]

theorem settle_of_certs (hc : c.state = .certs) : c.settle = c.settleCerts := by
  rw [settle, hc]

theorem settle_of_short (hc : c.state = .hello) (h : parseHello c.message = .short) :
    c.settle = (c, none) := by
  rw [settle, hc]
  dsimp only
  rw [h]

theorem settle_of_bad {text : String} (hc : c.state = .hello) (h : parseHello c.message = .bad text) :
    c.settle = (c, some (.err text)) := by
  rw [settle, hc]
  dsimp only
  rw [h]

theorem settle_of_hello {cipher : UInt16} {len : Nat} (hc : c.state = .hello)
    (h : parseHello c.message = .ok (cipher, len)) :
    c.settle = settleCerts { c with message := c.message.drop len, cipher := cipher, state := .certs } := by
  rw [settle, hc]
  dsimp only
  rw [h]

theorem settleCerts_eq_self (h : c.settleCerts = (c', none)) : c' = c := by
  unfold settleCerts at h
  split at h <;> cases h
  rfl

/-- What does not settle anything stays as it is. -/
theorem settle_settled (h : c.settle = (c', none)) : c'.settle = (c', none) := by
  cases hstate : c.state with
  | hello =>
    rw [settle, hstate] at h
    dsimp only at h
    split at h
    · rename_i hp
      cases h
      exact settle_of_short hstate hp
    · cases h
    · have hc := settleCerts_eq_self h
      rw [← hc] at h
      rw [settle, hc]
      dsimp only
      rw [← hc]
      exact h
  | certs =>
    rw [settle, hstate] at h
    have hc := settleCerts_eq_self h
    subst hc
    rw [settle, hstate]
    exact h
  | done =>
    rw [settle, hstate] at h
    cases h
    rw [settle, hstate]

/-- The version says nothing about the messages. -/
theorem settle_version (c : Core) (major minor : UInt8) :
    settle { c with major := major, minor := minor } =
      ({ c.settle.1 with major := major, minor := minor }, c.settle.2) := by
  obtain ⟨message, _, _, cipher, state⟩ := c
  unfold settle settleCerts
  cases state with
  | hello =>
    dsimp only
    cases parseHello message with
    | short => rfl
    | bad text => rfl
    | ok p =>
      dsimp only
      cases parseCertificate (message.drop p.2) <;> rfl
  | certs =>
    dsimp only
    cases parseCertificate message <;> rfl
  | done => rfl

theorem settle_look (u : List UInt8) (h : c.settle = (c, none)) : (c.look u).settle = (c.look u, none) := by
  rw [look_eq, settle_version, h]

theorem settle_of_take (h : c.take r = (c', none)) : c'.settle = (c', none) := by
  unfold take at h
  split at h
  · exact settle_settled h
  · split at h
    · rename_i halert
      unfold alert at h
      split at h
      · cases h
      · rename_i hshort
        cases h
        have hlen : (c.add r).message.length < 4 := by
          rcases hm : (c.add r).message with _ | ⟨a, _ | ⟨b, rest⟩⟩
          · simp
          · simp
          · exact absurd hm (hshort a b rest)
        exact settle_of_short halert.2.1 (parseHello_of_short hlen)
    · cases h

/-- What a reader comes to, from what it has and what there is to read. -/
def reads (c : Core) (u : List UInt8) : Core × Option Event :=
  match c.settle with
  | (c, some e) => (c, some e)
  | (c, none) => flight.drain c u

variable {u rest : List UInt8}

theorem reads_of_settled (h : c.settle = (c', none)) : c.reads u = flight.drain c' u := by
  rw [reads, h]

theorem reads_of_event (h : c.settle = (c', some e)) : c.reads u = (c', some e) := by
  rw [reads, h]

theorem reads_of_next_none (h : c.settle = (c, none)) (hu : framing.next u = none) :
    c.reads u = (c.look u, none) := by
  rw [reads_of_settled h, flight.drain_of_next_none hu]
  rfl

/-- A record is taken, and the reader goes on. -/
theorem reads_of_next (h : c.settle = (c, none)) (hu : framing.next u = some (r, rest)) :
    c.reads u = match c.take r with
      | (c', some e) => (c', some e)
      | (c', none) => c'.reads rest := by
  rw [reads_of_settled h]
  rcases ht : c.take r with ⟨c', _ | e⟩
  · rw [flight.drain_of_next_take hu ht]
    exact (reads_of_settled (settle_of_take ht)).symm
  · exact flight.drain_of_next_event hu ht

theorem reads_handshake (h : c.settle = (c, none)) (hu : framing.next u = some (r, rest))
    (ht : r.typ = MSG_HANDSHAKE) : c.reads u = (c.add r).reads rest := by
  rw [reads_of_next h hu, take, if_pos ht]
  rcases hs : (c.add r).settle with ⟨c', _ | e⟩
  · rw [reads_of_settled hs]
    exact reads_of_settled (settle_settled hs)
  · exact (reads_of_event hs).symm

theorem reads_bad (h : c.settle = (c, none)) (hu : framing.next u = some (r, rest))
    (ht : r.typ ≠ MSG_HANDSHAKE) (ha : ¬(r.typ = MSG_ALERT ∧ c.state = .hello ∧ c.message.length < 4)) :
    c.reads u = (c.add r, some (.err "bad type")) := by
  rw [reads_of_next h hu, take, if_neg ht, if_neg ha]

theorem reads_alert (h : c.settle = (c, none)) (hu : framing.next u = some (r, rest))
    (ht : r.typ = MSG_ALERT) (hstate : c.state = .hello) (hlen : c.message.length < 4) :
    c.reads u = match (c.add r).alert with
      | (c', some e) => (c', some e)
      | (c', none) => c'.reads rest := by
  rw [reads_of_next h hu, take, if_neg (by rw [ht]; decide), if_pos ⟨ht, hstate, hlen⟩]

end Core

end Starla.Proof.Measurements.Tls
