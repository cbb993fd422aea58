import Starla.Proof.Measurements.TlsReader

/-!
# A server's certificates arrive

The handshake messages of a server, its ServerHello and its Certificate message
first, are cut into records and the records into feeds.

* `settle_short` : nothing comes of less than the two messages.
* `settle_full` : the certificates come of both.
* `feeds_certs` : the certificates come of any records and any feeds.
-/

namespace Starla.Proof.Measurements.Tls

open Starla.Framework Starla.Impl.Measurements.Tls

def u16Bytes (n : Nat) : List UInt8 := [UInt8.ofNat (n / 256), UInt8.ofNat n]

def u24Bytes (n : Nat) : List UInt8 := [UInt8.ofNat (n / 65536), UInt8.ofNat (n / 256), UInt8.ofNat n]

theorem u16_bytes {n : Nat} (h : n < 65536) : u16 (UInt8.ofNat (n / 256)) (UInt8.ofNat n) = n := by
  simp only [u16, UInt8.toNat_ofNat']
  omega

theorem u24_bytes {n : Nat} (h : n < 16777216) :
    u24 (UInt8.ofNat (n / 65536)) (UInt8.ofNat (n / 256)) (UInt8.ofNat n) = n := by
  simp only [u24, UInt8.toNat_ofNat']
  omega

/-! ## Messages -/

def message (typ : UInt8) (body : List UInt8) : List UInt8 := typ :: u24Bytes body.length ++ body

structure ServerHello where
  major : UInt8
  minor : UInt8
  random : List UInt8
  sessionId : List UInt8
  cipher : UInt16
  /-- Compression and extensions. -/
  rest : List UInt8
  length_random : random.length = 32
  length_sessionId : sessionId.length ≤ 32

def ServerHello.body (h : ServerHello) : List UInt8 :=
  h.major :: h.minor :: h.random ++ UInt8.ofNat h.sessionId.length :: h.sessionId ++
    u16Bytes h.cipher.toNat ++ h.rest

def ServerHello.encode (h : ServerHello) : List UInt8 := message HS_SERVER_HELLO h.body

def entries (certs : List (List UInt8)) : List UInt8 := certs.flatMap fun c => u24Bytes c.length ++ c

def certificate (certs : List (List UInt8)) : List UInt8 :=
  message HS_CERTIFICATE (u24Bytes (entries certs).length ++ entries certs)

/-- A handshake record. -/
structure Fragment where
  major : UInt8
  minor : UInt8
  payload : List UInt8
  length_payload : payload.length < 65536

def Fragment.record (f : Fragment) : Record := ⟨MSG_HANDSHAKE, f.major, f.minor, f.payload⟩

def Fragment.encode (f : Fragment) : List UInt8 :=
  MSG_HANDSHAKE :: f.major :: f.minor :: u16Bytes f.payload.length ++ f.payload

/-! ## Records -/

theorem next_encode (f : Fragment) (rest : List UInt8) :
    framing.next (f.encode ++ rest) = some (f.record, rest) := by
  show (if (f.payload ++ rest).length < u16 _ _ then none
    else some (Record.mk _ _ _ ((f.payload ++ rest).take (u16 _ _)), (f.payload ++ rest).drop (u16 _ _))) = _
  rw [u16_bytes f.length_payload, if_neg (by simp), List.take_left', List.drop_left']
  · rfl
  · rfl
  · rfl

theorem records_encode (fs : List Fragment) : records (fs.flatMap (·.encode)) = fs.map (·.record) := by
  induction fs with
  | nil => rfl
  | cons f fs ih => rw [List.flatMap_cons, records_of_next (next_encode f _), ih, List.map_cons]

theorem load_encode (fs : List Fragment) :
    load (fs.flatMap (·.encode)) = (fs.flatMap (·.payload)).length := by
  rw [load, records_encode, List.map_map, List.length_flatMap]
  rfl

theorem cutAlert_handshakes (fs : List Fragment) (n : Nat) : cutAlert n (fs.map (·.record)) = false := by
  induction fs generalizing n with
  | nil => rfl
  | cons f fs ih =>
    have htyp : ¬f.record.typ = MSG_ALERT := by
      show ¬MSG_HANDSHAKE = MSG_ALERT
      decide
    rw [List.map_cons, cutAlert, if_neg htyp, ih, Bool.and_false]

/-! ## What messages amount to -/

theorem length_message (typ : UInt8) (body : List UInt8) : (message typ body).length = 4 + body.length := by
  rw [message, List.cons_append, List.length_cons, List.length_append]
  show 3 + body.length + 1 = _
  omega

/-- A message that has begun has no header yet, or not all of its body. -/
theorem header_of_prefix {typ : UInt8} {body more p tail : List UInt8} (hp : p ++ tail = message typ body ++ more)
    (hbody : body.length < 16777216) (hlt : p.length < (message typ body).length) :
    p.length < 4 ∨ ∃ l2 l1 l0 rest, p = typ :: l2 :: l1 :: l0 :: rest ∧ rest.length < u24 l2 l1 l0 := by
  rw [length_message] at hlt
  rcases p with _ | ⟨t, _ | ⟨l2, _ | ⟨l1, _ | ⟨l0, rest⟩⟩⟩⟩
  · exact .inl (show 0 < 4 by decide)
  · exact .inl (show 1 < 4 by decide)
  · exact .inl (show 2 < 4 by decide)
  · exact .inl (show 3 < 4 by decide)
  refine .inr ⟨l2, l1, l0, rest, ?_, ?_⟩
  · injection hp with ht
    rw [ht]
  · simp only [message, u24Bytes, List.cons_append, List.nil_append, List.cons.injEq] at hp
    obtain ⟨-, rfl, rfl, rfl, -⟩ := hp
    rw [u24_bytes hbody]
    simp only [List.length_cons] at hlt
    omega

theorem parseHello_of_append {body more p tail : List UInt8}
    (hp : p ++ tail = message HS_SERVER_HELLO body ++ more) (hbody : body.length < 16777216)
    (hlt : p.length < (message HS_SERVER_HELLO body).length) : parseHello p = .short := by
  rcases header_of_prefix hp hbody hlt with hlen | ⟨l2, l1, l0, rest, rfl, hlen⟩
  · exact parseHello_of_short hlen
  · unfold parseHello
    dsimp only
    rw [if_neg (by simp), if_pos (by simp only [List.length_cons]; omega)]

theorem parseCertificate_of_prefix {body more p tail : List UInt8}
    (hp : p ++ tail = message HS_CERTIFICATE body ++ more) (hbody : body.length < 16777216)
    (hlt : p.length < (message HS_CERTIFICATE body).length) : parseCertificate p = .short := by
  rcases header_of_prefix hp hbody hlt with hlen | ⟨l2, l1, l0, rest, rfl, hlen⟩
  · rcases p with _ | ⟨_, _ | ⟨_, _ | ⟨_, _ | ⟨_, p⟩⟩⟩⟩
    any_goals rfl
    simp only [List.length_cons] at hlen
    omega
  · unfold parseCertificate
    dsimp only
    rw [if_neg (by simp), if_pos hlen]

theorem getD_of_drop {l b : List UInt8} {n : Nat} (h : l.drop n = b) (i : Nat) : l.getD (n + i) 0 = b.getD i 0 := by
  rw [← h, List.getD_eq_getElem?_getD, List.getD_eq_getElem?_getD, List.getElem?_drop]

theorem length_body (h : ServerHello) : h.body.length = 37 + h.sessionId.length + h.rest.length := by
  simp only [ServerHello.body, u16Bytes, List.length_cons, List.length_append, List.length_nil, h.length_random]
  omega

/-- The message is read as far as its cipher. -/
theorem serverHelloCipher_encode (h : ServerHello) (more : List UInt8) :
    serverHelloCipher (h.encode ++ more) (4 + h.body.length) = .ok h.cipher := by
  have hid := h.length_sessionId
  have hbody := length_body h
  have hsplit : h.encode ++ more =
      (HS_SERVER_HELLO :: u24Bytes h.body.length ++ h.major :: h.minor :: h.random) ++
        (UInt8.ofNat h.sessionId.length :: h.sessionId ++ (u16Bytes h.cipher.toNat ++ (h.rest ++ more))) := by
    rw [ServerHello.encode, message]
    simp only [ServerHello.body, List.append_assoc, List.cons_append]
  have hhead : (HS_SERVER_HELLO :: u24Bytes h.body.length ++ h.major :: h.minor :: h.random).length = 38 := by
    simp only [u24Bytes, List.length_cons, List.length_append, List.length_nil, h.length_random]
  have hdrop : (h.encode ++ more).drop 38 =
      UInt8.ofNat h.sessionId.length :: h.sessionId ++ (u16Bytes h.cipher.toNat ++ (h.rest ++ more)) := by
    rw [hsplit, List.drop_left' hhead]
  have hlen : ((h.encode ++ more).getD 38 0).toNat = h.sessionId.length := by
    rw [getD_of_drop hdrop 0]
    show (UInt8.ofNat _).toNat = _
    rw [UInt8.toNat_ofNat']
    omega
  have hcipher : (h.encode ++ more).drop (39 + h.sessionId.length) =
      u16Bytes h.cipher.toNat ++ (h.rest ++ more) := by
    rw [show 39 + h.sessionId.length = 38 + (h.sessionId.length + 1) by omega, ← List.drop_drop, hdrop]
    exact List.drop_left' rfl
  have hlt := h.cipher.toNat_lt
  rw [serverHelloCipher, if_neg (by omega), if_neg (by omega), if_neg (by omega), hlen]
  dsimp only
  have hhigh := getD_of_drop hcipher 0
  have hlow := getD_of_drop hcipher 1
  rw [Nat.add_zero] at hhigh
  rw [show 39 + h.sessionId.length + 1 = 40 + h.sessionId.length by omega] at hlow
  rw [if_neg (by omega), if_neg (by omega), if_neg (by omega), hhigh, hlow]
  show Except.ok (UInt16.ofNat (u16 (UInt8.ofNat _) (UInt8.ofNat _))) = _
  rw [u16_bytes (by omega), UInt16.ofNat_toNat]

theorem parseHello_cons {l2 l1 l0 : UInt8} {rest : List UInt8} {n : Nat} (hlen : u24 l2 l1 l0 = n)
    (hle : n ≤ rest.length) :
    parseHello (HS_SERVER_HELLO :: l2 :: l1 :: l0 :: rest) =
      match serverHelloCipher (HS_SERVER_HELLO :: l2 :: l1 :: l0 :: rest) (4 + n) with
      | .error text => .bad text
      | .ok cipher => .ok (cipher, 4 + n) := by
  subst hlen
  unfold parseHello
  refine (if_neg (by simp)).trans ?_
  exact if_neg (by simp only [List.length_cons]; omega)

theorem parseCertificate_cons {l2 l1 l0 : UInt8} {body : List UInt8} {n : Nat} (hlen : u24 l2 l1 l0 = n)
    (hle : n ≤ body.length) :
    parseCertificate (HS_CERTIFICATE :: l2 :: l1 :: l0 :: body) =
      match certificates body n with
      | .error text => .bad text
      | .ok certs => .ok certs := by
  subst hlen
  unfold parseCertificate
  refine (if_neg (by simp)).trans ?_
  exact if_neg (by omega)

theorem parseHello_encode (h : ServerHello) (hbody : h.body.length < 16777216) (more : List UInt8) :
    parseHello (h.encode ++ more) = .ok (h.cipher, h.encode.length) := by
  have hcipher := serverHelloCipher_encode h more
  have hlen : h.encode.length = 4 + h.body.length := length_message _ _
  rw [hlen]
  refine (parseHello_cons (u24_bytes hbody) (by simp)).trans ?_
  exact congrArg (match · with
    | .error text => Parsed.bad text
    | .ok cipher => .ok (cipher, 4 + h.body.length)) hcipher

/-- One turn for each entry, and one at the list's end. -/
theorem certList_entries {certs acc : List (List UInt8)} {body more : List UInt8} {o stop turns : Nat}
    (hbody : body.drop o = entries certs ++ more) (hstop : o + (entries certs).length = stop)
    (hlen : (entries certs).length < 16777216) (hturns : certs.length < turns) :
    certList body stop stop turns o acc = .ok (acc ++ certs) := by
  induction certs generalizing o acc turns with
  | nil =>
    obtain ⟨turns, rfl⟩ : ∃ n, turns = n + 1 := ⟨turns - 1, by omega⟩
    have ho : o = stop := by simpa [entries] using hstop
    rw [certList, ho, if_neg (by omega), if_neg (by simp), List.append_nil]
  | cons cert certs ih =>
    obtain ⟨turns, rfl⟩ : ∃ n, turns = n + 1 := ⟨turns - 1, by omega⟩
    have hentries : entries (cert :: certs) = u24Bytes cert.length ++ (cert ++ entries certs) := by
      rw [entries, List.flatMap_cons, List.append_assoc]
      rfl
    have hlength : (entries (cert :: certs)).length = 3 + (cert.length + (entries certs).length) := by
      rw [hentries, List.length_append, List.length_append]
      rfl
    rw [hentries, List.append_assoc, List.append_assoc] at hbody
    have hslen : u24 (body.getD o 0) (body.getD (o + 1) 0) (body.getD (o + 2) 0) = cert.length := by
      rw [← u24_bytes (n := cert.length) (by omega)]
      congr 1
      · exact getD_of_drop hbody 0
      · exact getD_of_drop hbody 1
      · exact getD_of_drop hbody 2
    have hdrop : body.drop (o + 3) = cert ++ (entries certs ++ more) := by
      rw [← List.drop_drop, hbody]
      rfl
    have hrest : body.drop (o + 3 + cert.length) = entries certs ++ more := by
      rw [← List.drop_drop, hdrop]
      exact List.drop_left' rfl
    rw [certList, if_pos (by omega), if_neg (by omega), hslen]
    dsimp only
    rw [if_neg (by omega), hdrop, List.take_left' rfl, ih hrest (by omega) (by omega) (by
      rw [List.length_cons] at hturns
      omega), List.append_assoc]
    rfl

theorem length_le_entries (certs : List (List UInt8)) : certs.length ≤ (entries certs).length := by
  induction certs with
  | nil => exact Nat.le_refl _
  | cons cert certs ih =>
    rw [entries, List.flatMap_cons, List.length_append, List.length_append, List.length_cons]
    have hlen : (u24Bytes cert.length).length = 3 := rfl
    rw [entries] at ih
    omega

theorem certificates_encode (certs : List (List UInt8)) (hlen : 3 + (entries certs).length < 16777216)
    (more : List UInt8) :
    certificates (u24Bytes (entries certs).length ++ (entries certs ++ more)) (3 + (entries certs).length) =
      .ok certs := by
  have hle := length_le_entries certs
  have hn : u24 ((u24Bytes (entries certs).length ++ (entries certs ++ more)).getD 0 0)
      ((u24Bytes (entries certs).length ++ (entries certs ++ more)).getD 1 0)
      ((u24Bytes (entries certs).length ++ (entries certs ++ more)).getD 2 0) = (entries certs).length :=
    u24_bytes (by omega)
  rw [certificates, hn]
  have hbody : (u24Bytes (entries certs).length ++ (entries certs ++ more)).drop 3 = entries certs ++ more := rfl
  exact certList_entries hbody rfl (by omega) (by omega)

theorem parseCertificate_encode (certs : List (List UInt8)) (hlen : 3 + (entries certs).length < 16777216)
    (more : List UInt8) : parseCertificate (certificate certs ++ more) = .ok certs := by
  have hcerts := certificates_encode certs hlen more
  have hbody : (u24Bytes (entries certs).length ++ entries certs).length = 3 + (entries certs).length :=
    List.length_append
  rw [certificate, message, hbody, List.append_assoc, List.append_assoc]
  refine (parseCertificate_cons (u24_bytes hlen) ?_).trans ?_
  · show 3 + (entries certs).length ≤ (u24Bytes _ ++ (entries certs ++ more)).length
    rw [← List.append_assoc, List.length_append, hbody]
    exact Nat.le_add_right _ _
  · exact congrArg (match · with
      | .error text => Parsed.bad text
      | .ok certs => .ok certs) hcerts

/-! ## The reader -/

variable {h : ServerHello} {certs : List (List UInt8)} {more p tail : List UInt8} {major minor : UInt8}

/-- What has been read of the messages' first bytes. -/
def begun (p : List UInt8) (major minor : UInt8) : Core := { message := p, major := major, minor := minor }

theorem settle_begun (hbody : h.body.length < 16777216) :
    (begun (h.encode ++ p) major minor).settle =
      Core.settleCerts { begun p major minor with cipher := h.cipher, state := .certs } := by
  rw [Core.settle_of_hello rfl (parseHello_encode h hbody p)]
  show Core.settleCerts ⟨(h.encode ++ p).drop h.encode.length, major, minor, h.cipher, .certs⟩ =
    Core.settleCerts ⟨p, major, minor, h.cipher, .certs⟩
  rw [List.drop_left]

/-- Nothing comes of less than the two messages. -/
theorem settle_short (major minor : UInt8) (hbody : h.body.length < 16777216)
    (hcerts : 3 + (entries certs).length < 16777216)
    (hp : p ++ tail = h.encode ++ (certificate certs ++ more))
    (hlt : p.length < (h.encode ++ certificate certs).length) :
    ∃ c, (begun p major minor).settle = (c, none) := by
  by_cases hhello : p.length < h.encode.length
  · exact ⟨_, Core.settle_of_short rfl (parseHello_of_append hp hbody hhello)⟩
  · obtain ⟨q, rfl⟩ : ∃ q, p = h.encode ++ q := by
      have hprefix := List.prefix_of_prefix_length_le (List.prefix_append h.encode _)
        (hp ▸ List.prefix_append p tail) (by omega)
      exact ⟨_, hprefix.choose_spec.symm⟩
    rw [List.append_assoc] at hp
    rw [List.length_append, List.length_append] at hlt
    have hlist : (u24Bytes (entries certs).length ++ entries certs).length < 16777216 := by
      rw [List.length_append]
      exact hcerts
    have hshort : parseCertificate q = .short :=
      parseCertificate_of_prefix (List.append_cancel_left hp) hlist (by rw [certificate] at hlt; omega)
    rw [settle_begun hbody]
    exact ⟨_, Core.settleCerts_of_short hshort⟩

/-- The certificates come of both. -/
theorem settle_full (more : List UInt8) (major minor : UInt8) (hbody : h.body.length < 16777216)
    (hcerts : 3 + (entries certs).length < 16777216) :
    ∃ c, (begun (h.encode ++ (certificate certs ++ more)) major minor).settle = (c, some (.certs certs)) ∧
      c.cipher = h.cipher := by
  rw [settle_begun hbody]
  exact ⟨_, Core.settleCerts_of_ok (parseCertificate_encode certs hcerts more), rfl⟩

theorem serverHelloCipher_append {m : List UInt8} {totlen : Nat} (hlen : totlen ≤ m.length) (v : List UInt8) :
    serverHelloCipher (m ++ v) totlen = serverHelloCipher m totlen := by
  have hget : ∀ i < totlen, (m ++ v).getD i 0 = m.getD i 0 := by
    intro i hi
    rw [List.getD_eq_getElem?_getD, List.getD_eq_getElem?_getD, List.getElem?_append_left (by omega)]
  unfold serverHelloCipher
  split_ifs with h₁ h₂ h₃
  · rfl
  · rfl
  · rfl
  · rw [hget 38 (by omega)]
    dsimp only
    split_ifs
    · rfl
    · rfl
    · rfl
    · rw [hget _ (by omega), hget _ (by omega)]

/-- What was read of a message that is complete stays so. -/
theorem parseHello_append {m v : List UInt8} {cipher : UInt16} {len : Nat} (h : parseHello m = .ok (cipher, len)) :
    parseHello (m ++ v) = .ok (cipher, len) := by
  unfold parseHello at h
  split at h
  · rename_i typ l2 l1 l0 rest
    split_ifs at h with htyp hlen
    split at h
    · cases h
    · rename_i hcipher
      cases h
      rw [ne_eq, not_not] at htyp
      rw [htyp] at hcipher hlen ⊢
      rw [List.cons_append, List.cons_append, List.cons_append, List.cons_append,
        parseHello_cons rfl (by simp only [List.length_cons, List.length_append] at hlen ⊢; omega)]
      have happend := serverHelloCipher_append (Nat.not_lt.mp hlen) v
      rw [hcipher] at happend
      exact congrArg (match · with
        | .error text => Parsed.bad text
        | .ok cipher => .ok (cipher, 4 + u24 l2 l1 l0)) happend
  · cases h

/-- What is settled before a record is settled with it. -/
theorem settle_add {c c' : Core} (hc : c.settle = (c', none)) (r : Record) :
    (c'.add r).settle = (c.add r).settle := by
  rcases hstate : c.state with _ | _ | _
  · rcases hp : parseHello c.message with _ | text | ⟨cipher, len⟩
    · rw [Core.settle_of_short hstate hp] at hc
      cases hc
      rfl
    · rw [Core.settle_of_bad hstate hp] at hc
      cases hc
    · have hlen := length_of_parseHello hp
      rw [Core.settle_of_hello hstate hp] at hc
      rw [Core.settleCerts_eq_self hc,
        Core.settle_of_hello (c := c.add r) hstate (parseHello_append (v := r.payload) hp)]
      show Core.settleCerts ⟨c.message.drop len ++ r.payload, r.major, r.minor, cipher, .certs⟩ =
        Core.settleCerts ⟨(c.message ++ r.payload).drop len, r.major, r.minor, cipher, .certs⟩
      rw [List.drop_append_of_le_length hlen]
  · rw [Core.settle_of_certs hstate] at hc
    rw [Core.settleCerts_eq_self hc]
  · rw [Core.settle, hstate] at hc
    cases hc
    rfl

/-- The certificates come of any records. -/
theorem pull_fragments (hbody : h.body.length < 16777216) (hcerts : 3 + (entries certs).length < 16777216)
    {fs : List Fragment} {c : Core} (hc : (begun p major minor).settle = (c, none))
    (hp : p ++ fs.flatMap (·.payload) = h.encode ++ (certificate certs ++ more))
    (hlt : p.length < (h.encode ++ certificate certs).length) :
    ∃ c', flight.pull c (fs.map (·.record)) = (c', some (.certs certs)) ∧ c'.cipher = h.cipher := by
  induction fs generalizing p c major minor with
  | nil =>
    have hlen := congrArg List.length hp
    simp only [List.flatMap_nil, List.append_nil, List.length_append] at hlen hlt
    omega
  | cons f fs ih =>
    rw [List.flatMap_cons, ← List.append_assoc] at hp
    have htake : flight.take c f.record = (begun (p ++ f.payload) f.major f.minor).settle :=
      settle_add hc f.record
    by_cases hlt' : (p ++ f.payload).length < (h.encode ++ certificate certs).length
    · obtain ⟨c', hc'⟩ := settle_short f.major f.minor hbody hcerts hp hlt'
      rw [List.map_cons, flight.pull_cons_of_none (htake.trans hc')]
      exact ih hc' hp hlt'
    · obtain ⟨q, hq⟩ : ∃ q, p ++ f.payload = h.encode ++ (certificate certs ++ q) := by
        rw [← List.append_assoc] at hp
        have hprefix := List.prefix_of_prefix_length_le (List.prefix_append (h.encode ++ certificate certs) more)
          (hp ▸ List.prefix_append (p ++ f.payload) _) (by omega)
        exact ⟨_, by rw [← List.append_assoc]; exact hprefix.choose_spec.symm⟩
      obtain ⟨c', hc', hcipher⟩ := settle_full q f.major f.minor hbody hcerts
      rw [← hq] at hc'
      rw [List.map_cons, flight.pull_cons_of_event (htake.trans hc')]
      exact ⟨c', rfl, hcipher⟩

/-! ## An earlier run's cipher -/

variable {last : UInt16}

/-- What has been read of the messages' first bytes, on a line that an earlier
run has left its cipher. -/
def begunAfter (last : UInt16) (p : List UInt8) (major minor : UInt8) : Core :=
  { begun p major minor with cipher := last }

theorem take_begunAfter (last : UInt16) (p : List UInt8) (major minor : UInt8) (f : Fragment) :
    flight.take (begunAfter last p major minor) f.record = (begunAfter last (p ++ f.payload) f.major f.minor).settle :=
  rfl

/-- The earlier cipher goes with the ServerHello. -/
theorem take_begunAfter_of_hello (hbody : h.body.length < 16777216) {f : Fragment} {q : List UInt8}
    (hq : p ++ f.payload = h.encode ++ q) :
    flight.take (begunAfter last p major minor) f.record = flight.take (begun p major minor) f.record := by
  have hparse : parseHello (p ++ f.payload) = .ok (h.cipher, h.encode.length) := by
    rw [hq]
    exact parseHello_encode h hbody q
  have hafter := Core.settle_of_hello (c := begunAfter last (p ++ f.payload) f.major f.minor) rfl hparse
  have hfirst := Core.settle_of_hello (c := begun (p ++ f.payload) f.major f.minor) rfl hparse
  exact hafter.trans hfirst.symm

theorem pull_begunAfter (hbody : h.body.length < 16777216) (hcerts : 3 + (entries certs).length < 16777216)
    {fs : List Fragment} (hshort : p.length < h.encode.length)
    (hp : p ++ fs.flatMap (·.payload) = h.encode ++ (certificate certs ++ more)) :
    ∃ c, flight.pull (begunAfter last p major minor) (fs.map (·.record)) = (c, some (.certs certs)) ∧
      c.cipher = h.cipher := by
  induction fs generalizing p major minor with
  | nil =>
    have hlen := congrArg List.length hp
    simp only [List.flatMap_nil, List.append_nil, List.length_append] at hlen
    omega
  | cons f fs ih =>
    have hp' := hp
    rw [List.flatMap_cons, ← List.append_assoc] at hp'
    by_cases hlt : (p ++ f.payload).length < h.encode.length
    · have hsettle : (begunAfter last (p ++ f.payload) f.major f.minor).settle =
          (begunAfter last (p ++ f.payload) f.major f.minor, none) :=
        Core.settle_of_short rfl (parseHello_of_append hp' hbody hlt)
      rw [List.map_cons, flight.pull_cons_of_none ((take_begunAfter ..).trans hsettle)]
      exact ih hlt hp'
    · have hbegun : (begun p major minor).settle = (begun p major minor, none) := by
        rw [List.flatMap_cons] at hp
        exact Core.settle_of_short rfl (parseHello_of_append hp hbody hshort)
      obtain ⟨q, hq⟩ : ∃ q, p ++ f.payload = h.encode ++ q := by
        have hprefix := List.prefix_of_prefix_length_le (List.prefix_append h.encode _)
          (hp' ▸ List.prefix_append (p ++ f.payload) _) (by omega)
        exact ⟨_, hprefix.choose_spec.symm⟩
      have htake : flight.take (begunAfter last p major minor) f.record =
          flight.take (begun p major minor) f.record := take_begunAfter_of_hello hbody hq
      have hlong : p.length < (h.encode ++ certificate certs).length := by
        rw [List.length_append]
        omega
      obtain ⟨c, hpull, hcipher⟩ := pull_fragments hbody hcerts hbegun hp hlong
      refine ⟨c, ?_, hcipher⟩
      rw [← hpull, List.map_cons]
      rcases hfirst : flight.take (begun p major minor) f.record with ⟨c', _ | e⟩
      · rw [flight.pull_cons_of_none (htake.trans hfirst), flight.pull_cons_of_none hfirst]
      · rw [flight.pull_cons_of_event (htake.trans hfirst), flight.pull_cons_of_event hfirst]

/-! ## Feeds -/

/-- Fewer feeds wait, or bring what more of them bring. -/
theorem feeds_take (r : Reader) (feeds : List (List UInt8)) (n : Nat) :
    (r.feeds (feeds.take n)).1 = .wait ∨ (r.feeds (feeds.take n)).1 = (r.feeds feeds).1 := by
  induction feeds generalizing r n with
  | nil => exact .inl (by rw [List.take_nil]; rfl)
  | cons data feeds ih =>
    cases n with
    | zero => exact .inl rfl
    | succ n =>
      rw [List.take_succ_cons, Reader.feeds, Reader.feeds]
      rcases (r.feed data).readcb with ⟨_ | _ | _ | _, r'⟩
      · exact ih r' n
      · exact .inr rfl
      · exact .inr rfl
      · exact .inr rfl

/-- The certificates of a server are what the feeds come to, whatever cipher an
earlier run left, and the cipher kept is its ServerHello's. -/
theorem feeds_certificates (last : UInt16) {fs : List Fragment} {feeds : List (List UInt8)}
    (hmessages : fs.flatMap (·.payload) = h.encode ++ certificate certs ++ more)
    (hlimit : (fs.flatMap (·.payload)).length ≤ MAX_MSG) (hstream : feeds.flatten = fs.flatMap (·.encode))
    (hfeeds : ∀ data ∈ feeds, data.length ≤ MAX_PENDING) :
    (Reader.feeds { serverCipher := last } feeds).1 = .certs certs ∧
      (Reader.feeds { serverCipher := last } feeds).2.serverCipher = h.cipher := by
  have hlen := congrArg List.length hmessages
  have hmax : (fs.flatMap (·.payload)).length ≤ 1048576 := hlimit
  simp only [ServerHello.encode, certificate, List.length_append, length_message] at hlen
  have hbody : h.body.length < 16777216 := by omega
  have hcerts : 3 + (entries certs).length < 16777216 := by
    have hlist : (u24Bytes (entries certs).length).length = 3 := rfl
    omega
  rw [List.append_assoc] at hmessages
  have hpos : ([] : List UInt8).length < h.encode.length := by
    rw [ServerHello.encode, length_message, List.length_nil]
    omega
  obtain ⟨c, hpull, hcipher⟩ := @pull_begunAfter h certs more [] 0 0 last hbody hcerts fs hpos hmessages
  have hdrain : flight.drain { cipher := last } feeds.flatten = (c, some (.certs certs)) := by
    rw [hstream]
    refine flight.drain_of_event ?_
    rw [← hpull, ← records_encode]
    rfl
  have hshown := feeds_shown last hfeeds (by rw [hstream, load_encode]; exact hlimit)
    (by rw [hstream, records_encode]; exact cutAlert_handshakes fs 0)
  rw [hdrain] at hshown
  have hkept : (Reader.feeds { serverCipher := last } feeds).2.serverCipher = c.cipher := congrArg (·.2.2.2) hshown
  exact ⟨congrArg (·.1) hshown, hkept.trans hcipher⟩

/-- The certificates of a server arrive, in order, and the cipher of its
ServerHello, whatever records its messages are cut into and whatever feeds these
are; no feed brings anything else. -/
theorem feeds_certs (h : ServerHello) (certs : List (List UInt8)) (more : List UInt8) (fs : List Fragment)
    (feeds : List (List UInt8)) (hmessages : fs.flatMap (·.payload) = h.encode ++ certificate certs ++ more)
    (hlimit : (fs.flatMap (·.payload)).length ≤ MAX_MSG) (hstream : feeds.flatten = fs.flatMap (·.encode))
    (hfeeds : ∀ data ∈ feeds, data.length ≤ MAX_PENDING) :
    (Reader.feeds {} feeds).1 = .certs certs ∧ (Reader.feeds {} feeds).2.serverCipher = h.cipher ∧
      ∀ n, (Reader.feeds {} (feeds.take n)).1 = .wait ∨ (Reader.feeds {} (feeds.take n)).1 = .certs certs := by
  obtain ⟨hevent, hcipher⟩ := feeds_certificates 0 hmessages hlimit hstream hfeeds
  refine ⟨hevent, hcipher, fun n => ?_⟩
  rw [← hevent]
  exact feeds_take _ _ _

/-- A ServerHello without session and extensions, and a certificate of two
bytes, cut within the ServerHello's random. -/
def plainHello : ServerHello := ⟨3, 3, List.replicate 32 7, [], 0xc02b, [0], rfl, by decide⟩

def plainMessages : List UInt8 := plainHello.encode ++ certificate [[1, 2]] ++ []

def plainFragments : List Fragment :=
  [⟨3, 3, plainMessages.take 30, by decide⟩, ⟨3, 3, [], by decide⟩, ⟨3, 1, plainMessages.drop 30, by decide⟩]

def plainFeeds : List (List UInt8) := (plainFragments.flatMap (·.encode)).map ([·])

/-- Three records, the second empty, byte by byte. -/
theorem feeds_certs_bytes :
    (Reader.feeds {} plainFeeds).1 = .certs [[1, 2]] ∧
      (Reader.feeds {} plainFeeds).2.serverCipher = plainHello.cipher ∧
      ∀ n, (Reader.feeds {} (plainFeeds.take n)).1 = .wait ∨
        (Reader.feeds {} (plainFeeds.take n)).1 = .certs [[1, 2]] :=
  feeds_certs plainHello [[1, 2]] [] plainFragments plainFeeds (by decide) (by decide) (by decide) (by decide)

end Starla.Proof.Measurements.Tls
