import Mathlib.Algebra.GroupWithZero.Nat
import Starla.Proof.Measurements.TlsFlight

/-!
# The TLS reader reads the flight

The reader's two buffers are one stream and one message text. A poll takes what
the flight's reader takes, but for an alert cut short: within a poll the record
after it has to be an alert, in the next poll it does not.

* `readcb_ends` : one poll.
* `feeds_ends` : any feeds.
* `feeds_split` : the feeds make no difference.
-/

namespace Starla.Proof.Measurements.Tls

open Starla.Framework Starla.Impl.Measurements.Tls

/-- What the result line shows of the reader is what has been read. -/
structure Shows (r : Reader) (c : Core) : Prop where
  major : r.recvMajor = c.major
  minor : r.recvMinor = c.minor
  cipher : r.serverCipher = c.cipher

/-- The reader has read `c` and has `u` to read. -/
structure Sim (r : Reader) (c : Core) (u : List UInt8) : Prop extends Shows r c where
  message : r.message = c.message
  state : r.state = c.state
  unread : r.unread = u
  off : r.msgOff ≤ r.msg.length

/-- The payload there is in a stream's records. -/
def load (u : List UInt8) : Nat := ((records u).map (·.payload.length)).sum

theorem load_of_next {u rest : List UInt8} {rec : Record} (h : framing.next u = some (rec, rest)) :
    load u = rec.payload.length + load rest := by
  rw [load, records_of_next h]
  rfl

theorem length_of_next {u rest : List UInt8} {rec : Record} (h : framing.next u = some (rec, rest)) :
    u.length = 5 + rec.payload.length + rest.length := by
  simp only [framing, nextRecord] at h
  split at h
  · split_ifs at h with hlen
    cases h
    simp only [List.length_cons, List.length_take, List.length_drop]
    omega
  · cases h

/-! ## Taking a record -/

theorem frame_of_next_none {r : Reader} {c : Core} {u : List UInt8} (h : Sim r c u)
    (hb : framing.next r.buffered = none) :
    ∃ r', r.frame = (.short, r') ∧ Sim r' (c.look r.buffered) u ∧ r'.buffered = r.buffered ∧
      r'.pending = r.pending ∧ r'.msg = r.msg := by
  unfold Reader.frame
  rcases hbuf : r.buffered with _ | ⟨a, _ | ⟨b, _ | ⟨d, _ | ⟨l1, _ | ⟨l0, rest⟩⟩⟩⟩⟩
  all_goals dsimp only
  any_goals exact ⟨r, rfl, h, hbuf, rfl, rfl⟩
  have hlen : rest.length < u16 l1 l0 := by
    by_contra hlen
    rw [hbuf] at hb
    simp only [framing, nextRecord, if_neg hlen] at hb
    cases hb
  rw [if_pos hlen]
  exact ⟨_, rfl, ⟨⟨rfl, rfl, h.cipher⟩, h.message, h.state, h.unread, h.off⟩, hbuf, rfl, rfl⟩

/-- The message buffer is emptied once it has been read. -/
theorem sim_fresh {r : Reader} {c : Core} {u : List UInt8} (h : Sim r c u) :
    ∃ r', (if r.msgOff = r.msg.length then { r with msg := [], msgOff := 0 } else r) = r' ∧ Sim r' c u ∧
      r'.buffered = r.buffered ∧ r'.inbuf = r.inbuf ∧ r'.inOff = r.inOff ∧ r'.pending = r.pending ∧
      r'.msg.length ≤ r.msg.length := by
  by_cases hoff : r.msgOff = r.msg.length
  · have hmessage : c.message = [] := by
      rw [← h.message, Reader.message, hoff, List.drop_length]
    refine ⟨_, if_pos hoff, ⟨⟨h.major, h.minor, h.cipher⟩, ?_, h.state, h.unread, Nat.le_refl _⟩, rfl, rfl, rfl, rfl, Nat.zero_le _⟩
    rw [hmessage]
    rfl
  · exact ⟨r, if_neg hoff, h, rfl, rfl, rfl, rfl, Nat.le_refl _⟩

theorem frame_of_next {r : Reader} {c : Core} {u rest : List UInt8} {rec : Record} (h : Sim r c u)
    (hb : framing.next r.buffered = some (rec, rest)) (hroom : r.msg.length + rec.payload.length ≤ MAX_MSG) :
    ∃ r', r.frame = (.record rec.typ, r') ∧ Sim r' (c.add rec) (rest ++ r.pending) ∧
      r'.msg.length ≤ r.msg.length + rec.payload.length := by
  unfold Reader.frame
  rcases hbuf : r.buffered with _ | ⟨a, _ | ⟨b, _ | ⟨d, _ | ⟨l1, _ | ⟨l0, tail⟩⟩⟩⟩⟩
  all_goals rw [hbuf] at hb
  any_goals cases hb
  simp only [framing, nextRecord] at hb
  split_ifs at hb with hlen
  cases hb
  have hpayload : (tail.take (u16 l1 l0)).length = u16 l1 l0 := List.length_take_of_le (by omega)
  dsimp only at hroom ⊢
  rw [hpayload] at hroom ⊢
  have h' : Sim { r with recvMajor := b, recvMinor := d } { c with major := b, minor := d } u :=
    ⟨⟨rfl, rfl, h.cipher⟩, h.message, h.state, h.unread, h.off⟩
  obtain ⟨r₁, he, h₁, hbuf₁, hinbuf, hoff, hpending, hle⟩ := sim_fresh h'
  rw [if_neg hlen, he]
  dsimp only at hle
  rw [if_neg (by omega)]
  refine ⟨_, rfl, ⟨⟨h₁.major, h₁.minor, h₁.cipher⟩, ?_, h₁.state, ?_, ?_⟩, ?_⟩
  · show (r₁.msg ++ _).drop r₁.msgOff = c.message ++ _
    rw [List.drop_append_of_le_length h₁.off]
    exact congrArg (· ++ _) h₁.message
  · show r₁.inbuf.drop (r₁.inOff + 5 + u16 l1 l0) ++ r₁.pending = _
    rw [hpending, Nat.add_assoc, ← List.drop_drop]
    show r₁.buffered.drop (5 + u16 l1 l0) ++ _ = _
    rw [hbuf₁]
    show r.buffered.drop (5 + u16 l1 l0) ++ _ = _
    rw [hbuf, ← List.drop_drop]
    rfl
  · show r₁.msgOff ≤ (r₁.msg ++ _).length
    rw [List.length_append]
    exact Nat.le_add_right_of_le h₁.off
  · show (r₁.msg ++ _).length ≤ _
    rw [List.length_append, hpayload]
    omega

theorem bufRead_of_pending {r : Reader} {c : Core} {u : List UInt8} (h : Sim r c u) (hp : r.pending ≠ []) :
    ∃ r', r.bufRead = some r' ∧ Sim r' c u ∧ r'.buffered = u ∧ r'.pending = [] ∧ r'.msg = r.msg := by
  unfold Reader.bufRead
  rw [if_neg (by simpa using hp)]
  refine ⟨_, rfl, ⟨⟨h.major, h.minor, h.cipher⟩, h.message, h.state, ?_, h.off⟩, h.unread, rfl, rfl⟩
  exact (List.append_nil _).trans h.unread

/-- Too little for a record: the header is seen, and nothing is left pending. -/
theorem msgbufRead_of_next_none {r : Reader} {c : Core} {u : List UInt8} (h : Sim r c u)
    (hu : framing.next u = none) :
    ∃ r', r.msgbufRead = (none, r') ∧ Sim r' (c.look u) u ∧ r'.pending = [] ∧ r'.msg = r.msg := by
  have hunread : r.buffered ++ r.pending = u := h.unread
  have hb : framing.next r.buffered = none := by
    rcases hn : framing.next r.buffered with _ | ⟨rec, rest⟩
    · rfl
    · have := framing.append r.pending hn
      rw [hunread, hu] at this
      cases this
  obtain ⟨r₁, hf, h₁, hbuf, hpending, hmsg⟩ := frame_of_next_none h hb
  unfold Reader.msgbufRead
  rw [hf]
  dsimp only
  by_cases hp : r.pending = []
  · have hnone : r₁.bufRead = none := by
      rw [Reader.bufRead, hpending, hp]
      rfl
    rw [hp, List.append_nil] at hunread
    rw [hnone]
    exact ⟨r₁, rfl, hunread ▸ h₁, hpending.trans hp, hmsg⟩
  · obtain ⟨r₂, hr, h₂, hbuf₂, hpending₂, hmsg₂⟩ := bufRead_of_pending h₁ (hpending ▸ hp)
    obtain ⟨r₃, hf₃, h₃, -, hpending₃, hmsg₃⟩ := frame_of_next_none h₂ (hbuf₂ ▸ hu)
    rw [hr]
    dsimp only
    rw [hf₃]
    have hlook : (c.look r.buffered).look u = c.look u := by
      rw [← hunread]
      exact flight.look_look c r.buffered r.pending
    rw [hbuf₂, hlook] at h₃
    exact ⟨r₃, rfl, h₃, hpending₃.trans hpending₂, hmsg₃.trans (hmsg₂.trans hmsg)⟩

theorem msgbufRead_of_next {r : Reader} {c : Core} {u rest : List UInt8} {rec : Record} (h : Sim r c u)
    (hu : framing.next u = some (rec, rest)) (hroom : r.msg.length + rec.payload.length ≤ MAX_MSG) :
    ∃ r', r.msgbufRead = (some rec.typ, r') ∧ Sim r' (c.add rec) rest ∧
      r'.msg.length ≤ r.msg.length + rec.payload.length := by
  have hunread : r.buffered ++ r.pending = u := h.unread
  unfold Reader.msgbufRead
  rcases hn : framing.next r.buffered with _ | ⟨rec', rest'⟩
  · obtain ⟨r₁, hf, h₁, -, hpending, hmsg⟩ := frame_of_next_none h hn
    have hp : r₁.pending ≠ [] := by
      intro hp
      rw [← hpending, hp, List.append_nil] at hunread
      rw [hunread, hu] at hn
      cases hn
    obtain ⟨r₂, hr, h₂, hbuf₂, hpending₂, hmsg₂⟩ := bufRead_of_pending h₁ hp
    obtain ⟨r₃, hf₃, h₃, hle⟩ :=
      frame_of_next h₂ (hbuf₂ ▸ hu) (by rw [hmsg₂, hmsg]; exact hroom)
    rw [hf]
    dsimp only
    rw [hr]
    dsimp only
    rw [hf₃]
    have hadd : (c.look r.buffered).add rec = c.add rec := by
      rw [Core.look_eq]
      rfl
    rw [hadd, hpending₂, List.append_nil] at h₃
    exact ⟨r₃, rfl, h₃, by rw [hmsg₂, hmsg] at hle; exact hle⟩
  · have := framing.append r.pending hn
    rw [hunread, hu] at this
    cases this
    obtain ⟨r₁, hf, h₁, hle⟩ := frame_of_next h hn hroom
    rw [hf]
    exact ⟨r₁, rfl, h₁, hle⟩

/-! ## The loops -/

/-- What a poll ends in: a wait with `u` left to read and room for `room` more
bytes, or an event. -/
inductive Ends (room : Nat) (u : List UInt8) : Event × Reader → Core × Option Event → Prop
  | wait {r : Reader} {c : Core} (h : Sim r c u) (hp : r.pending = []) (hroom : r.msg.length + room ≤ MAX_MSG) :
      Ends room u (.wait, r) (c, none)
  | event {r : Reader} {c : Core} {e : Event} (he : e ≠ .wait) (h : Shows r c) : Ends room u (e, r) (c, some e)

/-- What a stream leaves to read. -/
def left (u : List UInt8) : List UInt8 := (framing.split u).2

theorem left_of_next_none {u : List UInt8} (h : framing.next u = none) : left u = u := by
  rw [left, framing.split_of_none h]

theorem left_of_next {u rest : List UInt8} {rec : Record} (h : framing.next u = some (rec, rest)) :
    left u = left rest := by
  rw [left, framing.split_of_some h]
  rfl

theorem ends_of_next_none {r : Reader} {c : Core} {u : List UInt8} {room : Nat} (h : Sim r c u)
    (hc : c.settle = (c, none)) (hu : framing.next u = none) (hroom : r.msg.length + load u + room ≤ MAX_MSG) :
    ∃ r', r.msgbufRead = (none, r') ∧ Ends room (left u) (.wait, r') (c.reads u) := by
  obtain ⟨r', hr, h', hp, hmsg⟩ := msgbufRead_of_next_none h hu
  rw [Core.reads_of_next_none hc hu, left_of_next_none hu]
  exact ⟨r', hr, .wait h' hp (by rw [hmsg]; omega)⟩

theorem eatCertificate_succ (r : Reader) (turns : Nat) :
    ∃ off, r.eatCertificate (turns + 1) =
      match parseCertificate r.message with
      | .short =>
        match r.msgbufRead with
        | (none, r) => (.wait, r)
        | (some typ, r) => if typ = MSG_HANDSHAKE then r.eatCertificate turns else (.err "bad type", r)
      | .bad text => (.err text, r)
      | .ok certs => (.certs certs, { r with msgOff := off }) := by
  rw [Reader.eatCertificate]
  unfold parseCertificate
  rcases r.message with _ | ⟨typ, _ | ⟨l2, _ | ⟨l1, _ | ⟨l0, body⟩⟩⟩⟩
  any_goals exact ⟨0, rfl⟩
  refine ⟨r.msgOff + 4 + u24 l2 l1 l0, ?_⟩
  dsimp only
  split_ifs
  · rfl
  · rfl
  · cases certificates body (u24 l2 l1 l0) <;> rfl

theorem eatCertificate_ends {r : Reader} {c : Core} {u : List UInt8} {turns room : Nat} (h : Sim r c u)
    (hstate : c.state = .certs) (hturns : u.length < turns) (hroom : r.msg.length + load u + room ≤ MAX_MSG) :
    Ends room (left u) (r.eatCertificate turns) (c.reads u) := by
  induction turns generalizing r c u with
  | zero => omega
  | succ turns ih =>
    obtain ⟨off, he⟩ := eatCertificate_succ r turns
    rw [he, h.message]
    have hsettle : c.settle = c.settleCerts := Core.settle_of_certs hstate
    rcases hp : parseCertificate c.message with _ | text | certs
    · have hc : c.settle = (c, none) := hsettle.trans (Core.settleCerts_of_short hp)
      rcases hu : framing.next u with _ | ⟨rec, rest⟩
      · obtain ⟨r', hr, hends⟩ := ends_of_next_none h hc hu hroom
        rw [hr]
        exact hends
      · have hlt : rest.length < u.length := framing.shorter hu
        rw [load_of_next hu] at hroom
        obtain ⟨r', hr, h', hle⟩ := msgbufRead_of_next h hu (by omega)
        rw [hr, left_of_next hu]
        show Ends room (left rest) (if rec.typ = MSG_HANDSHAKE then _ else _) _
        split_ifs with htyp
        · rw [Core.reads_handshake hc hu htyp]
          exact ih h' hstate (by omega) (by omega)
        · rw [Core.reads_bad hc hu htyp (by rw [hstate]; simp)]
          exact .event Event.noConfusion h'.toShows
    · have hc : c.settle = (c, some (.err text)) := hsettle.trans (Core.settleCerts_of_bad hp)
      rw [Core.reads_of_event hc]
      exact .event Event.noConfusion h.toShows
    · have hc : c.settle = (c, some (.certs certs)) := hsettle.trans (Core.settleCerts_of_ok hp)
      rw [Core.reads_of_event hc]
      exact .event Event.noConfusion ⟨h.major, h.minor, h.cipher⟩

/-- A poll's last part: an event ends the reading. -/
theorem readCertificate_ends {r : Reader} {c : Core} {u : List UInt8} {room : Nat} (h : Sim r c u)
    (hstate : c.state = .certs) (hroom : r.msg.length + load u + room ≤ MAX_MSG) :
    Ends room (left u) r.readCertificate (c.reads u) := by
  have hturns : u.length < r.unread.length + 1 := by
    rw [h.unread]
    omega
  have hends := eatCertificate_ends h hstate hturns hroom
  rw [Reader.readCertificate]
  generalize r.eatCertificate (r.unread.length + 1) = p at hends ⊢
  generalize c.reads u = d at hends ⊢
  cases hends with
  | wait h hp hroom => exact .wait h hp hroom
  | event he h =>
    dsimp only
    rw [if_neg he]
    exact .event he ⟨h.major, h.minor, h.cipher⟩

/-! ## Alerts -/

/-- An alert record leaves the reader, which has read `n` bytes of no message
yet, fewer than two, and a record of another type follows. -/
def cutAlert (n : Nat) : List Record → Bool
  | [] => false
  | r :: rs =>
    if r.typ = MSG_ALERT then
      n + r.payload.length < 2 && (rs.head?.any (·.typ != MSG_ALERT) || cutAlert (n + r.payload.length) rs)
    else r.typ == MSG_HANDSHAKE && n + r.payload.length < 4 && cutAlert (n + r.payload.length) rs

/-- No alert is cut short in the records to come. -/
def Uncut (c : Core) (rs : List Record) : Prop :=
  c.state = .hello → c.message.length < 4 → cutAlert c.message.length rs = false

theorem length_add (c : Core) (r : Record) :
    (c.add r).message.length = c.message.length + r.payload.length :=
  List.length_append

theorem cutAlert_alert {n : Nat} {r : Record} {rs : List Record} (hcut : cutAlert n (r :: rs) = false)
    (htyp : r.typ = MSG_ALERT) (hlen : n + r.payload.length < 2) :
    rs.head?.any (·.typ != MSG_ALERT) = false ∧ cutAlert (n + r.payload.length) rs = false := by
  rw [cutAlert, if_pos htyp] at hcut
  simpa [hlen] using hcut

theorem cutAlert_handshake {n : Nat} {r : Record} {rs : List Record} (hcut : cutAlert n (r :: rs) = false)
    (htyp : r.typ = MSG_HANDSHAKE) (hlen : n + r.payload.length < 4) :
    cutAlert (n + r.payload.length) rs = false := by
  rw [cutAlert, if_neg (by rw [htyp]; decide)] at hcut
  simpa [htyp, hlen] using hcut

theorem eatAlert_ends {r : Reader} {c : Core} {u : List UInt8} {turns room : Nat} (h : Sim r c u)
    (hstate : c.state = .hello) (hturns : u.length < turns) (hroom : r.msg.length + load u + room ≤ MAX_MSG)
    (hcut : c.message.length < 2 →
      (records u).head?.any (·.typ != MSG_ALERT) = false ∧ cutAlert c.message.length (records u) = false) :
    Ends room (left u) (r.eatAlert turns)
      (match c.alert with
        | (c', some e) => (c', some e)
        | (c', none) => c'.reads u) := by
  induction turns generalizing r c u with
  | zero => omega
  | succ turns ih =>
    rw [Reader.eatAlert, h.message, Core.alert]
    by_cases hlen : c.message.length < 2
    · have hc : c.settle = (c, none) := Core.settle_of_short hstate (parseHello_of_short (by omega))
      obtain ⟨hhead, hcut⟩ := hcut hlen
      have hends : Ends room (left u)
          (match r.msgbufRead with
            | (none, r) => (.wait, r)
            | (some typ, r) => if typ = MSG_ALERT then r.eatAlert turns else (.wait, r)) (c.reads u) := by
        rcases hu : framing.next u with _ | ⟨rec, rest⟩
        · obtain ⟨r', hr, hends⟩ := ends_of_next_none h hc hu hroom
          rw [hr]
          exact hends
        · have hlt : rest.length < u.length := framing.shorter hu
          rw [load_of_next hu] at hroom
          rw [records_of_next hu] at hhead hcut
          obtain ⟨r', hr, h', hle⟩ := msgbufRead_of_next h hu (by omega)
          have htyp : rec.typ = MSG_ALERT := by simpa using hhead
          rw [hr, left_of_next hu, Core.reads_alert hc hu htyp hstate (by omega)]
          dsimp only
          rw [if_pos htyp]
          refine ih h' hstate (by omega) (by omega) fun hlen' => ?_
          rw [length_add] at hlen' ⊢
          exact cutAlert_alert hcut htyp hlen'
      rcases hm : c.message with _ | ⟨a, _ | ⟨b, rest⟩⟩
      · exact hends
      · exact hends
      · rw [hm] at hlen
        simp only [List.length_cons] at hlen
        omega
    · rcases hm : c.message with _ | ⟨a, _ | ⟨b, rest⟩⟩
      · rw [hm] at hlen
        simp at hlen
      · rw [hm] at hlen
        simp at hlen
      · exact .event Event.noConfusion ⟨h.major, h.minor, h.cipher⟩

theorem eatServerHello_succ (r : Reader) (turns : Nat) :
    r.eatServerHello (turns + 1) =
      match parseHello r.message with
      | .short =>
        match r.msgbufRead with
        | (none, r') => (some .wait, r')
        | (some typ, r') =>
          if typ = MSG_ALERT ∧ r.message.length < 4 then
            (some (r'.eatAlert (r'.unread.length + 1)).1, (r'.eatAlert (r'.unread.length + 1)).2)
          else if typ = MSG_HANDSHAKE then r'.eatServerHello turns
          else (some (.err "bad type"), r')
      | .bad text => (some (.err text), r)
      | .ok (cipher, len) => (none, { r with serverCipher := cipher, msgOff := r.msgOff + len }) := by
  rw [Reader.eatServerHello]
  unfold parseHello
  rcases r.message with _ | ⟨typ, _ | ⟨l2, _ | ⟨l1, _ | ⟨l0, body⟩⟩⟩⟩
  iterate 4
    · simp only [List.length_cons, List.length_nil, Nat.reduceAdd, Nat.reduceLT, and_true]
      try rfl
  have hlen : ¬(typ :: l2 :: l1 :: l0 :: body).length < 4 := by simp
  simp only [hlen, and_false, if_false]
  split_ifs
  · rfl
  · rfl
  · cases serverHelloCipher (typ :: l2 :: l1 :: l0 :: body) (4 + u24 l2 l1 l0) <;> rfl

/-- How a poll goes on after the ServerHello. -/
def thenCertificate : Option Event × Reader → Event × Reader
  | (none, r) => Reader.readCertificate { r with state := .certs }
  | (some e, r) => (e, r)

/-- What is left to say of a handshake record or of one that is refused. -/
theorem uncut_add {c : Core} {r : Record} {rs : List Record} (h : Uncut c (r :: rs))
    (hlen : (c.add r).message.length < 4 → c.message.length < 4) (htyp : r.typ = MSG_HANDSHAKE) :
    Uncut (c.add r) rs := by
  intro hstate hlen'
  have hcut := h hstate (hlen hlen')
  rw [length_add] at hlen' ⊢
  exact cutAlert_handshake hcut htyp hlen'

theorem eatServerHello_ends {r : Reader} {c : Core} {u : List UInt8} {turns room : Nat} (h : Sim r c u)
    (hstate : c.state = .hello) (hturns : u.length < turns) (hroom : r.msg.length + load u + room ≤ MAX_MSG)
    (hcut : Uncut c (records u)) :
    Ends room (left u) (thenCertificate (r.eatServerHello turns)) (c.reads u) := by
  induction turns generalizing r c u with
  | zero => omega
  | succ turns ih =>
    rw [eatServerHello_succ, h.message]
    rcases hp : parseHello c.message with _ | text | ⟨cipher, len⟩
    · have hc : c.settle = (c, none) := Core.settle_of_short hstate hp
      dsimp only
      rcases hu : framing.next u with _ | ⟨rec, rest⟩
      · obtain ⟨r', hr, hends⟩ := ends_of_next_none h hc hu hroom
        rw [hr]
        exact hends
      · have hlt : rest.length < u.length := framing.shorter hu
        rw [load_of_next hu] at hroom
        rw [records_of_next hu] at hcut
        obtain ⟨r', hr, h', hle⟩ := msgbufRead_of_next h hu (by omega)
        rw [hr, left_of_next hu]
        dsimp only
        split_ifs with halert htyp
        · rw [Core.reads_alert hc hu halert.1 hstate halert.2]
          refine eatAlert_ends h' hstate (by rw [h'.unread]; omega) (by omega) fun hlen => ?_
          rw [length_add] at hlen ⊢
          exact cutAlert_alert (hcut hstate halert.2) halert.1 hlen
        · rw [Core.reads_handshake hc hu htyp]
          refine ih h' hstate (by omega) (by omega) (uncut_add hcut (fun hlen => ?_) htyp)
          rw [length_add] at hlen
          omega
        · rw [Core.reads_bad hc hu htyp fun ha => halert ⟨ha.1, ha.2.2⟩]
          exact .event Event.noConfusion h'.toShows
    · have hc : c.settle = (c, some (.err text)) := Core.settle_of_bad hstate hp
      rw [Core.reads_of_event hc]
      exact .event Event.noConfusion h.toShows
    · have hlen := length_of_parseHello hp
      have hmessage : r.msg.drop r.msgOff = c.message := h.message
      have h' : Sim { r with serverCipher := cipher, msgOff := r.msgOff + len, state := .certs }
          { c with message := c.message.drop len, cipher := cipher, state := .certs } u := by
        refine ⟨⟨h.major, h.minor, rfl⟩, ?_, rfl, h.unread, ?_⟩
        · show r.msg.drop (r.msgOff + len) = _
          rw [← List.drop_drop, hmessage]
        · show r.msgOff + len ≤ r.msg.length
          have := h.off
          rw [← hmessage, List.length_drop] at hlen
          omega
      have hreads : c.reads u =
          Core.reads { c with message := c.message.drop len, cipher := cipher, state := .certs } u := by
        rw [Core.reads, Core.settle_of_hello hstate hp]
        rfl
      rw [hreads]
      exact readCertificate_ends h' rfl hroom

/-- One poll, of a reader that has waited so far. -/
theorem readcb_ends {r : Reader} {c : Core} {u : List UInt8} {room : Nat} (h : Sim r c u)
    (hc : c.state ≠ .done) (hroom : r.msg.length + load u + room ≤ MAX_MSG) (hcut : Uncut c (records u)) :
    Ends room (left u) r.readcb (c.reads u) := by
  rw [Reader.readcb, h.state]
  cases hstate : c.state with
  | hello =>
    have hturns : u.length < r.unread.length + 1 := by
      rw [h.unread]
      omega
    have hends := eatServerHello_ends h hstate hturns hroom hcut
    dsimp only
    generalize c.reads u = d at hends ⊢
    rcases he : r.eatServerHello (r.unread.length + 1) with ⟨_ | e, r'⟩
    · rw [he] at hends
      exact hends
    · rw [he] at hends
      change Ends room (left u) (e, r') d at hends
      cases hends with
      | wait h hp hroom => exact .wait h hp hroom
      | event he h =>
        cases e with
        | wait => exact absurd rfl he
        | alert level description => exact .event he ⟨h.major, h.minor, h.cipher⟩
        | certs certs => exact .event he ⟨h.major, h.minor, h.cipher⟩
        | err text => exact .event he ⟨h.major, h.minor, h.cipher⟩
  | certs => exact readCertificate_ends h hstate hroom
  | done => exact absurd hstate hc

/-! ## Feeds -/

theorem cutAlert_of_append {n : Nat} {rs rs' : List Record} (h : cutAlert n (rs ++ rs') = false) :
    cutAlert n rs = false := by
  induction rs generalizing n with
  | nil => rfl
  | cons r rs ih =>
    rw [List.cons_append, cutAlert] at h
    rw [cutAlert]
    split_ifs at h ⊢
    · by_cases hlen : n + r.payload.length < 2
      · simp only [hlen, decide_true, Bool.true_and, Bool.or_eq_false_iff] at h ⊢
        refine ⟨?_, ih h.2⟩
        cases rs with
        | nil => rfl
        | cons r' rs => exact h.1
      · simp [hlen]
    · simp only [Bool.and_eq_false_iff] at h ⊢
      exact h.imp_right ih

theorem Uncut.of_append {c : Core} {rs rs' : List Record} (h : Uncut c (rs ++ rs')) : Uncut c rs :=
  fun hstate hlen => cutAlert_of_append (h hstate hlen)

/-- Message bytes are read, or the reader is where they left it. -/
theorem settle_cases {c c' : Core} (h : c.settle = (c', none)) : c' = c ∨ c'.state = .certs := by
  unfold Core.settle at h
  split at h
  · split at h
    · cases h
      exact .inl rfl
    · cases h
    · rw [Core.settleCerts_eq_self h]
      exact .inr rfl
  · exact .inl (Core.settleCerts_eq_self h)
  · cases h
    exact .inl rfl

theorem take_cases {c c' : Core} {r : Record} (h : c.take r = (c', none)) :
    (c' = c.add r ∧ (r.typ = MSG_HANDSHAKE ∨ r.typ = MSG_ALERT ∧ (c.add r).message.length < 2)) ∨
      c'.state = .certs := by
  unfold Core.take at h
  split_ifs at h with htyp halert
  · exact (settle_cases h).imp_left fun hc => ⟨hc, .inl htyp⟩
  · unfold Core.alert at h
    split at h
    · cases h
    · rename_i hshort
      cases h
      refine .inl ⟨rfl, .inr ⟨halert.1, ?_⟩⟩
      rcases hm : (c.add r).message with _ | ⟨a, _ | ⟨b, rest⟩⟩
      · simp
      · simp
      · exact absurd hm (hshort a b rest)
  · cases h

theorem Uncut.take {c c' : Core} {r : Record} {rs : List Record} (h : Uncut c (r :: rs))
    (ht : c.take r = (c', none)) : Uncut c' rs := by
  rcases take_cases ht with ⟨rfl, htyp | ⟨htyp, hlen⟩⟩ | hstate
  · refine uncut_add h (fun hlen => ?_) htyp
    rw [length_add] at hlen
    omega
  · intro hstate _
    rw [length_add] at hlen ⊢
    exact (cutAlert_alert (h hstate (by omega)) htyp hlen).2
  · intro hhello
    rw [hstate] at hhello
    cases hhello

/-- A reader that waits for the rest of what it has seen. -/
structure Waits (c : Core) (u : List UInt8) : Prop where
  settle : c.settle = (c, none)
  state : c.state ≠ .done
  look : c.look u = c

theorem state_take {c c' : Core} {r : Record} (hc : c.state ≠ .done) (h : c.take r = (c', none)) :
    c'.state ≠ .done := by
  rcases take_cases h with ⟨rfl, -⟩ | hstate
  · exact hc
  · rw [hstate]
    exact ReadState.noConfusion

theorem pull_waits {c c' : Core} {rs rs' : List Record} (hsettle : c.settle = (c, none)) (hc : c.state ≠ .done)
    (hcut : Uncut c (rs ++ rs')) (h : flight.pull c rs = (c', none)) :
    c'.settle = (c', none) ∧ c'.state ≠ .done ∧ Uncut c' rs' := by
  induction rs generalizing c with
  | nil =>
    cases h
    exact ⟨hsettle, hc, hcut⟩
  | cons r rs ih =>
    rcases ht : flight.take c r with ⟨t, _ | e⟩
    · rw [flight.pull_cons_of_none ht] at h
      exact ih (Core.settle_of_take ht) (state_take hc ht) (hcut.take ht) h
    · rw [flight.pull_cons_of_event ht] at h
      cases h

theorem drain_waits {c c' : Core} {u : List UInt8} {rs' : List Record} (hsettle : c.settle = (c, none))
    (hc : c.state ≠ .done) (hcut : Uncut c (records u ++ rs')) (h : flight.drain c u = (c', none)) :
    Waits c' (left u) ∧ Uncut c' rs' := by
  rcases hp : flight.pull c (records u) with ⟨t, _ | e⟩
  · obtain ⟨ht, hstate, hcut'⟩ := pull_waits hsettle hc hcut hp
    rw [flight.drain_of_none hp] at h
    cases h
    have hlook := Core.look_eq t (left u)
    refine ⟨⟨Core.settle_look _ ht, ?_, ?_⟩, ?_⟩
    · show (t.look (left u)).state ≠ _
      rw [hlook]
      exact hstate
    · have := flight.look_look t (left u) []
      rwa [List.append_nil] at this
    · show Uncut (t.look (left u)) rs'
      rw [hlook]
      exact hcut'
  · rw [flight.drain_of_event hp] at h
    cases h

theorem records_append (u v : List UInt8) : records (u ++ v) = records u ++ records (left u ++ v) := by
  rw [records, framing.split_append]
  rfl

theorem load_append (u v : List UInt8) : load (u ++ v) = load u + load (left u ++ v) := by
  rw [load, records_append, List.map_append, List.sum_append]
  rfl

theorem feed_sim {r : Reader} {c : Core} {u : List UInt8} (h : Sim r c u) (hp : r.pending = [])
    {data : List UInt8} (hdata : data.length ≤ MAX_PENDING) : Sim (r.feed data) c (u ++ data) := by
  refine ⟨⟨h.major, h.minor, h.cipher⟩, h.message, h.state, ?_, h.off⟩
  have hunread : r.buffered ++ r.pending = u := h.unread
  show r.buffered ++ (r.pending ++ data.take (MAX_PENDING - r.pending.length)) = u ++ data
  rw [← hunread, hp, List.take_of_length_le (by simpa using hdata)]
  simp

/-- Feeds that fit in what may be pending, polled one by one, read what there is
to read in them. -/
theorem feeds_ends {r : Reader} {c : Core} {u : List UInt8} {feeds : List (List UInt8)} (h : Sim r c u)
    (hp : r.pending = []) (hc : Waits c u) (hu : framing.next u = none)
    (hfeeds : ∀ data ∈ feeds, data.length ≤ MAX_PENDING)
    (hroom : r.msg.length + load (u ++ feeds.flatten) ≤ MAX_MSG) (hcut : Uncut c (records (u ++ feeds.flatten))) :
    Ends 0 (left (u ++ feeds.flatten)) (r.feeds feeds) (flight.drain c (u ++ feeds.flatten)) := by
  induction feeds generalizing r c u with
  | nil =>
    rw [List.flatten_nil, List.append_nil] at hroom ⊢
    rw [flight.drain_of_next_none hu, left_of_next_none hu]
    have hlook : flight.look c u = c := hc.look
    rw [hlook]
    exact .wait h hp (by omega)
  | cons data feeds ih =>
    rw [List.flatten_cons, ← List.append_assoc] at hroom hcut ⊢
    rw [load_append] at hroom
    rw [records_append] at hcut
    have hdata : r.msg.length + load (u ++ data) + load (left (u ++ data) ++ feeds.flatten) ≤ MAX_MSG := by
      omega
    have hends := readcb_ends (feed_sim h hp (hfeeds data List.mem_cons_self)) hc.state hdata hcut.of_append
    rw [Core.reads_of_settled hc.settle] at hends
    rw [Reader.feeds]
    rcases hd : flight.drain c (u ++ data) with ⟨c', _ | e⟩
    · rw [hd] at hends
      generalize (r.feed data).readcb = p at hends ⊢
      cases hends with
      | wait h' hp' hroom' =>
        obtain ⟨hc', hcut'⟩ := drain_waits hc.settle hc.state hcut hd
        have hleft : left (u ++ data ++ feeds.flatten) = left (left (u ++ data) ++ feeds.flatten) := by
          rw [left, framing.split_append]
          rfl
        rw [flight.drain_append_of_none hd, hleft]
        exact ih h' hp' hc' (framing.next_split _) (fun d hd => hfeeds d (List.mem_cons_of_mem _ hd)) hroom' hcut'
    · rw [hd] at hends
      generalize (r.feed data).readcb = p at hends ⊢
      rw [flight.drain_append_of_event hd]
      cases hends with
      | event he h' =>
        cases e with
        | wait => exact absurd rfl he
        | alert level description => exact .event he h'
        | certs certs => exact .event he h'
        | err text => exact .event he h'

/-- What is reported of a reading. -/
def shown (p : Event × Reader) : Event × UInt8 × UInt8 × UInt16 :=
  (p.1, p.2.recvMajor, p.2.recvMinor, p.2.serverCipher)

theorem Ends.shown_eq {room : Nat} {u : List UInt8} {p : Event × Reader} {d : Core × Option Event}
    (h : Ends room u p d) : shown p = (d.2.getD .wait, d.1.major, d.1.minor, d.1.cipher) := by
  cases h with
  | wait h => rw [shown, h.major, h.minor, h.cipher]; rfl
  | event _ h => rw [shown, h.major, h.minor, h.cipher]; rfl

theorem load_le (u : List UInt8) : load u ≤ u.length := by
  induction hn : u.length using Nat.strongRecOn generalizing u with
  | ind n ih =>
    rcases h : framing.next u with _ | ⟨r, rest⟩
    · rw [load, records_of_next_none h]
      exact Nat.zero_le _
    · have hr := ih rest.length (hn ▸ framing.shorter h) rest rfl
      have hlen := length_of_next h
      rw [load_of_next h]
      omega

theorem sim_init (last : UInt16) : Sim { serverCipher := last } { cipher := last } [] :=
  ⟨⟨rfl, rfl, rfl⟩, rfl, rfl, rfl, Nat.le_refl _⟩

theorem waits_init (last : UInt16) : Waits { cipher := last } [] := ⟨rfl, ReadState.noConfusion, rfl⟩

/-- A stream's feeds are read as the records in it are, whatever cipher an
earlier run left. -/
theorem feeds_shown (last : UInt16) {feeds : List (List UInt8)} (hfeeds : ∀ data ∈ feeds, data.length ≤ MAX_PENDING)
    (hroom : load feeds.flatten ≤ MAX_MSG) (hcut : cutAlert 0 (records feeds.flatten) = false) :
    shown (Reader.feeds { serverCipher := last } feeds) =
      ((flight.drain { cipher := last } feeds.flatten).2.getD .wait,
        (flight.drain { cipher := last } feeds.flatten).1.major,
        (flight.drain { cipher := last } feeds.flatten).1.minor,
        (flight.drain { cipher := last } feeds.flatten).1.cipher) := by
  have hends := feeds_ends (sim_init last) rfl (waits_init last) rfl hfeeds (by simpa using hroom) fun _ _ => hcut
  exact hends.shown_eq

theorem length_le_of_mem_feeds {feeds : List (List UInt8)} {data : List UInt8} (h : data ∈ feeds) :
    data.length ≤ feeds.flatten.length :=
  (List.sublist_flatten_of_mem h).length_le

/-- How a stream of at most 1 MiB is cut into feeds makes no difference, where
no alert is cut short. -/
theorem feeds_split (feeds : List (List UInt8)) (hlen : feeds.flatten.length ≤ MAX_PENDING)
    (hcut : cutAlert 0 (records feeds.flatten) = false) :
    shown (Reader.feeds {} feeds) = shown (Reader.feeds {} [feeds.flatten]) := by
  have hroom : load feeds.flatten ≤ MAX_MSG := Nat.le_trans (load_le _) hlen
  have hflatten : [feeds.flatten].flatten = feeds.flatten := List.append_nil _
  have hone : ∀ data ∈ [feeds.flatten], data.length ≤ MAX_PENDING := by
    intro data h
    rw [List.mem_singleton.mp h]
    exact hlen
  rw [feeds_shown 0 (fun data h => Nat.le_trans (length_le_of_mem_feeds h) hlen) hroom hcut,
    feeds_shown 0 hone (by rwa [hflatten]) (by rwa [hflatten]), hflatten]

theorem feeds_split_alert :
    shown (Reader.feeds {} [[21, 3, 3, 0, 2, 2], [70]]) = shown (Reader.feeds {} [[21, 3, 3, 0, 2, 2, 70]]) :=
  feeds_split [[21, 3, 3, 0, 2, 2], [70]] (by decide) (by decide)

/-- An alert record without an alert, and one of another type: the second is an
error in a poll of its own, and is waited on in the same poll. -/
theorem feeds_split_cutAlert :
    shown (Reader.feeds {} [[21, 3, 3, 0, 0], [23, 3, 3, 0, 0]]) ≠
      shown (Reader.feeds {} [[21, 3, 3, 0, 0, 23, 3, 3, 0, 0]]) := by
  decide

end Starla.Proof.Measurements.Tls
