import Starla.Impl.Measurements.Icmp

/-!
# An echo comes back as it was sent

What `echo_request` builds, with its type made a reply's, is read by
`echo_reply` as the request's own sequence number and send time, bare or
behind an IPv4 header of any length (`echoReply_echoRequest`). Any other
datagram is read without leaving its bytes, and rejected unless it is long
enough for the stamp and carries the cookie and the identifier
(`echoReply_cases`).
-/

namespace Starla.Proof.Measurements.Icmp

open Starla.Framework Starla.Framework.Checked Starla.Impl.Measurements Starla.Impl.Measurements.Icmp

/-! ## The stamp -/

/-- The data of a request: its stamp, then zeros. -/
def stamped (stamp : Stamp) (n : Nat) : List UInt8 :=
  beBytes 8 stamp.cookie.toNat ++ (beBytes 8 stamp.sent ++ List.replicate n 0)

theorem length_stamped (stamp : Stamp) (n : Nat) : (stamped stamp n).length = n + 16 := by
  simp [stamped]
  omega

theorem write_zeros {stamp : Stamp} {n : Nat} (h : stamp.sent < 2 ^ 64) :
    stamp.write (List.replicate (n + 16) 0) = .ok (stamped stamp n) := by
  have hsplit : List.replicate (n + 16) (0 : UInt8) =
      List.replicate 8 0 ++ (List.replicate 8 0 ++ List.replicate n 0) := by
    rw [← List.replicate_add, ← List.replicate_add]
    congr 1
    omega
  have hfirst : splice (List.replicate (n + 16) 0) 0 (beBytes 8 stamp.cookie.toNat) =
      beBytes 8 stamp.cookie.toNat ++ (List.replicate 8 0 ++ List.replicate n 0) := by
    rw [hsplit]
    exact @splice_append [] (List.replicate 8 0) _ 0 rfl (by simp) _
  have hsecond : splice (beBytes 8 stamp.cookie.toNat ++ (List.replicate 8 0 ++ List.replicate n 0)) 8
      (beBytes 8 stamp.sent) = stamped stamp n := splice_append (by simp) (by simp) _
  rw [Stamp.write, check_eq (by simp), ok_bind, hfirst, Nat.min_eq_left (by omega)]
  dsimp only
  rw [check_eq (by simp; omega), ok_bind, hsecond]
  rfl

theorem read_stamped {stamp : Stamp} (n : Nat) (h : stamp.sent < 2 ^ 64) : Stamp.read (stamped stamp n) = .ok stamp := by
  have hlen := length_stamped stamp n
  have hcookie : ((stamped stamp n).take 8).drop 0 = beBytes 8 stamp.cookie.toNat := List.take_left' (by simp)
  have hnanos : ((stamped stamp n).take 16).drop 8 = beBytes 8 stamp.sent := by
    rw [List.drop_take, stamped, List.drop_left' (by simp)]
    exact List.take_left' (by simp)
  have hc : UInt64.ofNat (stamp.cookie.toNat % 256 ^ 8) = stamp.cookie := by
    have hlt : stamp.cookie.toNat < 256 ^ 8 := stamp.cookie.toNat_lt
    rw [Nat.mod_eq_of_lt hlt, UInt64.ofNat_toNat]
  have hs : stamp.sent % 256 ^ 8 = stamp.sent := Nat.mod_eq_of_lt h
  rw [Stamp.read, getRange_eq (by decide) (by omega), ok_bind, getRange_eq (by decide) (by omega), ok_bind, hcookie,
    hnanos, beNat_beBytes, beNat_beBytes, hc, hs]
  rfl

/-! ## Packets -/

/-- An echo packet by its fields. -/
def message (type : UInt8) (c id seq : UInt16) (payload : List UInt8) : List UInt8 :=
  [type, 0] ++ (beBytes 2 c.toNat ++ (beBytes 2 id.toNat ++ (beBytes 2 seq.toNat ++ payload)))

theorem length_message (type : UInt8) (c id seq : UInt16) (payload : List UInt8) :
    (message type c id seq payload).length = payload.length + 8 := by
  simp [message]
  omega

/-- Another type or checksum is written over the field alone. -/
theorem splice_type (type type' : UInt8) (c id seq : UInt16) (payload : List UInt8) :
    splice (message type c id seq payload) 0 [type'] = message type' c id seq payload := rfl

theorem splice_checksum (type : UInt8) (c c' id seq : UInt16) (payload : List UInt8) :
    splice (message type c id seq payload) 2 (beBytes 2 c'.toNat) = message type c' id seq payload :=
  splice_append (a := [type, 0]) rfl (by simp) _

theorem buildEchoRequest_eq (type : UInt8) (id seq : UInt16) (payload : List UInt8) :
    buildEchoRequest type (List.replicate (8 + payload.length) 0) id seq payload =
      .ok (message type 0 id seq payload) := by
  have hzeros : List.replicate (8 + payload.length) (0 : UInt8) =
      0 :: 0 :: 0 :: 0 :: 0 :: 0 :: 0 :: 0 :: List.replicate payload.length 0 := by
    rw [List.replicate_add]
    rfl
  have hpayload : splice (message type 0 id seq (List.replicate payload.length 0)) 8 payload =
      message type 0 id seq payload := by
    have h := @splice_append
      ([type, 0] ++ (beBytes 2 (UInt16.toNat 0) ++ (beBytes 2 id.toNat ++ beBytes 2 seq.toNat)))
      (List.replicate payload.length 0) payload 8 (by simp) (by simp) []
    simpa only [message, List.append_assoc, List.append_nil] using h
  rw [buildEchoRequest, hzeros, refuseIf, if_neg (by simp), ok_bind]
  show (check (8 + payload.length ≤ (message type 0 id seq (List.replicate payload.length 0)).length) >>= fun _ =>
    pure (splice (message type 0 id seq (List.replicate payload.length 0)) 8 payload)) = _
  rw [check_eq (by rw [length_message, List.length_replicate]; omega), ok_bind, hpayload]
  rfl

/-- The type of a request, and of the reply to it. -/
def requestType (v4 : Bool) : UInt8 := if v4 then 8 else 128
def replyType (v4 : Bool) : UInt8 := if v4 then 0 else 129

theorem echoRequest_eq (checksum : List UInt8 → UInt16) (v4 : Bool) (id seq size : UInt16) {stamp : Stamp}
    (h : stamp.sent < 2 ^ 64) :
    ∃ n c, n + 16 = Impl.Reports.Ping.dataLen size ∧
      echoRequest checksum v4 id seq size stamp = .ok (message (requestType v4) c id seq (stamped stamp n)) := by
  obtain ⟨n, hn⟩ : ∃ n, Impl.Reports.Ping.dataLen size = n + 16 := by
    refine ⟨Impl.Reports.Ping.dataLen size - 16, ?_⟩
    unfold Impl.Reports.Ping.dataLen Impl.Reports.Ping.MIN_DATA_LEN
    omega
  refine ⟨n, ?_⟩
  rw [echoRequest, hn, write_zeros h, ok_bind, ICMP_HEADER_LEN]
  cases v4 with
  | false => exact ⟨0, rfl, buildEchoRequest_eq 128 id seq _⟩
  | true =>
    refine ⟨checksum (message 8 0 id seq (stamped stamp n)), rfl, ?_⟩
    rw [if_pos rfl, buildIcmpv4EchoRequest, buildEchoRequest_eq, ok_bind, refuseIf,
      if_neg (by rw [length_message]; omega), ok_bind, splice_checksum]
    rfl

/-! ## Reading -/

/-- An IPv4 header of any length. -/
structure IsIpv4Header (header : List UInt8) : Prop where
  version : (header.getD 0 0) >>> 4 = 4
  ihl : header.length = ((header.getD 0 0) &&& 0x0f).toNat * 4
  least : 20 ≤ header.length

instance (header : List UInt8) : Decidable (IsIpv4Header header) :=
  decidable_of_iff ((header.getD 0 0) >>> 4 = 4 ∧ header.length = ((header.getD 0 0) &&& 0x0f).toNat * 4 ∧
    20 ≤ header.length) ⟨fun h => ⟨h.1, h.2.1, h.2.2⟩, fun h => ⟨h.version, h.ihl, h.least⟩⟩

/-- What `strip_ipv4_header` reads off a header. -/
def headerOf (header : List UInt8) : Ipv4Header :=
  ⟨header.getD 8 0, BitVec.ofNat 32 (beNat ((header.drop 16).take 4))⟩

theorem strip_header {header : List UInt8} (h : IsIpv4Header header) (m : List UInt8) :
    stripIpv4Header true (header ++ m) = .ok (m, some (headerOf header)) := by
  obtain ⟨first, rest, rfl⟩ : ∃ first rest, header = first :: rest := by
    cases header with
    | nil => exact absurd h.least (by decide)
    | cons first rest => exact ⟨first, rest, rfl⟩
  have hver : first >>> 4 = 4 := h.version
  have hihl : (first :: rest).length = (first &&& 0x0f).toNat * 4 := h.ihl
  have hleast := h.least
  have happ : (first :: rest ++ m).length = (first :: rest).length + m.length := List.length_append
  have hin (i : Nat) (hi : i < 20) : (first :: rest ++ m).getD i 0 = (first :: rest).getD i 0 := by
    rw [List.getD_eq_getElem?_getD, List.getElem?_append_left (by omega), List.getD_eq_getElem?_getD]
  have hdst : ((first :: rest ++ m).take 20).drop 16 = ((first :: rest).drop 16).take 4 := by
    rw [List.take_append_of_le_length hleast, List.drop_take]
  have hcond : (true = true ∧ ((first :: rest ++ m).head?.any fun b : UInt8 => b >>> 4 = 4) = true) :=
    ⟨rfl, by simp [hver]⟩
  have hfirst : (first :: rest ++ m).getD 0 0 = first := rfl
  rw [stripIpv4Header, if_pos hcond, index_eq 0 (by omega), ok_bind, hfirst]
  dsimp only
  rw [← hihl, if_pos ⟨hleast, by omega⟩, slice_eq (by decide) (by omega), ok_bind, index_eq 0 (by omega), ok_bind,
    sliceFrom_eq (by omega), ok_bind, hdst, hin 8 (by decide), List.drop_left]
  rfl

theorem strip_bare {v4 : Bool} {datagram : List UInt8} (h : v4 = true → (datagram.getD 0 0) >>> 4 ≠ 4) :
    stripIpv4Header v4 datagram = .ok (datagram, none) := by
  rw [stripIpv4Header, if_neg]
  · rfl
  · rintro ⟨hv, hfirst⟩
    cases datagram with
    | nil => exact absurd hfirst (by decide)
    | cons first rest => exact h hv (by simpa using hfirst)

/-- A datagram is a message, behind an IPv4 header where it has one. -/
theorem strip_cases (v4 : Bool) (datagram : List UInt8) : ∃ front m header,
    stripIpv4Header v4 datagram = .ok (m, header) ∧ datagram = front ++ m ∧
      (front = [] ∨ v4 = true ∧ IsIpv4Header front) := by
  by_cases hheader : v4 = true ∧ ∃ k, IsIpv4Header (datagram.take k)
  · obtain ⟨rfl, k, hk⟩ := hheader
    refine ⟨datagram.take k, datagram.drop k, some (headerOf (datagram.take k)), ?_, (List.take_append_drop k datagram).symm, .inr ⟨rfl, hk⟩⟩
    have h := strip_header hk (datagram.drop k)
    rwa [List.take_append_drop] at h
  refine ⟨[], datagram, none, ?_, rfl, .inl rfl⟩
  by_cases hbare : v4 = true → (datagram.getD 0 0) >>> 4 ≠ 4
  · exact strip_bare hbare
  obtain ⟨hv, hver⟩ := Classical.not_imp.mp hbare
  have hver := not_not.mp hver
  cases datagram with
  | nil => exact absurd hver (by decide)
  | cons first rest =>
    have hcond : v4 = true ∧ ((first :: rest).head?.any fun b : UInt8 => b >>> 4 = 4) = true :=
      ⟨hv, by simpa using hver⟩
    have hshort : ¬((first &&& 0x0f).toNat * 4 ≥ 20 ∧ (first :: rest).length ≥ (first &&& 0x0f).toNat * 4) := by
      rintro ⟨hge, hlen⟩
      refine hheader ⟨hv, (first &&& 0x0f).toNat * 4, ?_⟩
      have htake : ((first :: rest).take ((first &&& 0x0f).toNat * 4)).length = (first &&& 0x0f).toNat * 4 := by
        rw [List.length_take, Nat.min_eq_left hlen]
      have hget : ((first :: rest).take ((first &&& 0x0f).toNat * 4)).getD 0 0 = first := by
        rw [List.getD_eq_getElem?_getD, List.getElem?_take_of_lt (by omega)]
        rfl
      exact ⟨by rw [hget]; exact hver, by rw [hget, htake], by rw [htake]; exact hge⟩
    rw [stripIpv4Header, if_pos hcond, index_eq 0 (by simp), ok_bind]
    exact if_neg hshort

/-- The identifier, the sequence number and the cookie of a message. -/
def idOf (m : List UInt8) : UInt16 := UInt16.ofNat (beNat ((m.drop 4).take 2))
def seqOf (m : List UInt8) : UInt16 := UInt16.ofNat (beNat ((m.drop 6).take 2))
def cookieOf (m : List UInt8) : UInt64 := UInt64.ofNat (beNat ((m.drop 8).take 8))

theorem echoReplyPacket_eq {m : List UInt8} (h : 8 ≤ m.length) :
    echoReplyPacket m = .ok (.echoReply (idOf m) (seqOf m)) := by
  rw [echoReplyPacket, refuseIf, if_neg (by omega), ok_bind, slice_eq (by decide) (by omega), ok_bind,
    slice_eq (by decide) h, ok_bind, List.drop_take, List.drop_take]
  rfl

theorem echoReplyPacket_short {m : List UInt8} (h : m.length < 8) : echoReplyPacket m = .error .absent := by
  rw [echoReplyPacket, refuseIf, if_pos h]
  rfl

/-- What either family's parser makes of a message. -/
def parse (v4 : Bool) (m : List UInt8) : Checked (UInt16 × UInt16) :=
  if v4 then parseIcmpv4EchoReply m else parseIcmpv6EchoReply m

/-- An error's quoted packet is not looked at, but it is there. -/
theorem quoted_absent (m : List UInt8) (f : List UInt8 → IcmpResponse) (hf : ∀ inner, onlyEchoReply (f inner) = .error .absent) :
    ((do refuseIf (m.length < 8); let inner ← sliceFrom m 8; return f inner) >>= onlyEchoReply) = .error .absent := by
  rw [refuseIf]
  by_cases h : m.length < 8
  · rw [if_pos h]
    rfl
  · rw [if_neg h, ok_bind, sliceFrom_eq (Nat.le_of_not_lt h)]
    exact hf _

theorem quoted_absent' (m : List UInt8) (f : List UInt8 → IcmpResponse) (hf : ∀ inner, onlyEchoReply (f inner) = .error .absent) :
    ((do let inner ← getRange m 8 m.length; return f inner) >>= onlyEchoReply) = .error .absent := by
  by_cases h : m.length < 8
  · rw [getRange, if_neg (by omega)]
    rfl
  · rw [getRange_eq (Nat.le_of_not_lt h) (Nat.le_refl _)]
    exact hf _

theorem parse_eq (v4 : Bool) (m : List UInt8) : parse v4 m =
    if m.length < 8 ∨ m.getD 0 0 ≠ replyType v4 then .error .absent else .ok (idOf m, seqOf m) := by
  have hecho : (echoReplyPacket m >>= onlyEchoReply) =
      if m.length < 8 then .error .absent else .ok (idOf m, seqOf m) := by
    by_cases h : m.length < 8
    · rw [echoReplyPacket_short h, if_pos h]
      rfl
    · rw [echoReplyPacket_eq (Nat.le_of_not_lt h), if_neg h]
      rfl
  by_cases hmin : m.length < 4
  · have hshort : m.length < 8 := by omega
    cases v4 with
    | true =>
      show parseIcmpv4EchoReply m = _
      rw [parseIcmpv4EchoReply, parseIcmpv4Packet, refuseIf, if_pos hmin, if_pos (Or.inl hshort)]
      rfl
    | false =>
      show parseIcmpv6EchoReply m = _
      rw [parseIcmpv6EchoReply, parseIcmpv6Packet, refuseIf, if_pos hmin, if_pos (Or.inl hshort)]
      rfl
  cases v4 with
  | true =>
    show parseIcmpv4EchoReply m = _
    rw [parseIcmpv4EchoReply, parseIcmpv4Packet, refuseIf, if_neg hmin, ok_bind, index_eq 0 (by omega), ok_bind, replyType,
      if_pos rfl]
    by_cases h : m.getD 0 0 = 0
    · rw [if_pos h, hecho]
      simp only [h, ne_eq, not_true_eq_false, or_false]
    rw [if_neg h, if_pos (Or.inr h)]
    by_cases h : m.getD 0 0 = 11
    · rw [if_pos h]
      exact quoted_absent m _ fun _ => rfl
    rw [if_neg h]
    by_cases h : m.getD 0 0 = 3
    · rw [if_pos h]
      exact quoted_absent m _ fun _ => rfl
    · rw [if_neg h]
      rfl
  | false =>
    show parseIcmpv6EchoReply m = _
    rw [parseIcmpv6EchoReply, parseIcmpv6Packet, refuseIf, if_neg hmin, ok_bind, index_eq 0 (by omega), ok_bind, replyType,
      if_neg Bool.false_ne_true]
    by_cases h : m.getD 0 0 = 129
    · rw [if_pos h, hecho]
      simp only [h, ne_eq, not_true_eq_false, or_false]
    rw [if_neg h, if_pos (Or.inr h)]
    by_cases h : m.getD 0 0 = 1
    · rw [if_pos h]
      exact quoted_absent' m _ fun _ => rfl
    rw [if_neg h]
    by_cases h : m.getD 0 0 = 3
    · rw [if_pos h]
      exact quoted_absent' m _ fun _ => rfl
    · rw [if_neg h]
      rfl

theorem read_eq (data : List UInt8) : Stamp.read data =
    if data.length < 16 then .error .absent
    else .ok ⟨UInt64.ofNat (beNat (data.take 8)), beNat ((data.drop 8).take 8)⟩ := by
  rw [Stamp.read]
  by_cases h8 : data.length < 8
  · rw [getRange_absent h8, if_pos (by omega)]
    rfl
  rw [getRange_eq (by decide) (by omega), ok_bind]
  by_cases h16 : data.length < 16
  · rw [getRange_absent h16, if_pos h16]
    rfl
  · have hnanos : (data.take 16).drop 8 = (data.drop 8).take 8 := List.drop_take ..
    rw [getRange_eq (by decide) (by omega), ok_bind, if_neg h16, hnanos]
    rfl

/-- Of any datagram, the message in it: read only if it is an echo reply with
the cookie, the identifier where that is looked at, and a whole stamp. -/
theorem echoReply_eq {ρ : Type} (ms : Nat → ρ) {v4 : Bool} (identifier : Option UInt16) (cookie : UInt64)
    {datagram m : List UInt8} {header : Option Ipv4Header} (recv : RecvMeta) (now : Nat)
    (hstrip : stripIpv4Header v4 datagram = .ok (m, header)) :
    echoReply ms v4 identifier cookie datagram recv now =
      if m.length < 24 ∨ m.getD 0 0 ≠ replyType v4 ∨ identifier.any (· ≠ idOf m) ∨ cookieOf m ≠ cookie then
        .error .absent
      else .ok {
        seq := seqOf m
        rtt := ms (now - beNat ((m.drop 16).take 8))
        ttl := (header.map Ipv4Header.ttl).or recv.ttl
        size := if header.isSome then datagram.length - 28 else m.length - 8
        dst := (header.map fun h => IpAddr.v4 h.dst).or recv.dst } := by
  rw [echoReply, hstrip, ok_bind]
  show (parse v4 m >>= _) = _
  rw [parse_eq]
  by_cases htype : m.length < 8 ∨ m.getD 0 0 ≠ replyType v4
  · have hbad : m.length < 24 ∨ m.getD 0 0 ≠ replyType v4 ∨ (identifier.any (· ≠ idOf m) = true) ∨
        cookieOf m ≠ cookie := htype.imp (fun h => by omega) .inl
    rw [if_pos htype, if_pos hbad]
    rfl
  obtain ⟨hlen, htype'⟩ := not_or.mp htype
  rw [if_neg htype, ok_bind]
  dsimp only
  rw [refuseIf]
  by_cases hid : identifier.any (· ≠ idOf m) = true
  · rw [if_pos hid, if_pos (Or.inr (Or.inr (Or.inl hid)))]
    rfl
  have hdata : (m.take m.length).drop ICMP_HEADER_LEN = m.drop 8 := by rw [List.take_length, ICMP_HEADER_LEN]
  rw [if_neg hid, ok_bind, getRange_eq (by rw [ICMP_HEADER_LEN]; omega) (Nat.le_refl _), ok_bind, hdata, read_eq,
    List.length_drop, List.drop_drop]
  by_cases hshort : m.length < 24
  · rw [if_pos (show m.length - 8 < 16 by omega), if_pos (Or.inl hshort)]
    rfl
  rw [if_neg (show ¬m.length - 8 < 16 by omega), ok_bind, refuseIf]
  show ((if cookieOf m ≠ cookie then (Except.error Stop.absent : Checked Unit) else .ok ()) >>= _) = _
  by_cases hcookie : cookieOf m ≠ cookie
  · rw [if_pos hcookie, if_pos (Or.inr (Or.inr (Or.inr hcookie)))]
    rfl
  have hgood : ¬(m.length < 24 ∨ m.getD 0 0 ≠ replyType v4 ∨ (identifier.any (· ≠ idOf m) = true) ∨
      cookieOf m ≠ cookie) := by
    rintro (h | h | h | h)
    · exact hshort h
    · exact htype' h
    · exact hid h
    · exact hcookie h
  rw [if_neg hcookie, ok_bind, if_neg hgood]
  cases header with
  | none =>
    rw [echoSize, check_eq (by rw [ICMP_HEADER_LEN]; omega)]
    rfl
  | some header => rfl

/-! ## There and back -/

/-- A request turned into a reply: another type, any checksum. -/
def asReply (v4 : Bool) (c : UInt16) (packet : List UInt8) : List UInt8 :=
  splice (splice packet 0 [replyType v4]) 2 (beBytes 2 c.toNat)

theorem asReply_message (v4 : Bool) (type : UInt8) (c c' id seq : UInt16) (payload : List UInt8) :
    asReply v4 c' (message type c id seq payload) = message (replyType v4) c' id seq payload := by
  rw [asReply, splice_type, splice_checksum]

/-- The fields of a message are read where they were written. -/
theorem fields_message (type : UInt8) (c id seq : UInt16) {stamp : Stamp} (n : Nat) (h : stamp.sent < 2 ^ 64) :
    let m := message type c id seq (stamped stamp n)
    m.length = n + 24 ∧ m.getD 0 0 = type ∧ idOf m = id ∧ seqOf m = seq ∧ cookieOf m = stamp.cookie ∧
      beNat ((m.drop 16).take 8) = stamp.sent := by
  have hid : id.toNat % 256 ^ 2 = id.toNat := Nat.mod_eq_of_lt id.toNat_lt
  have hseq : seq.toNat % 256 ^ 2 = seq.toNat := Nat.mod_eq_of_lt seq.toNat_lt
  have hcookie : stamp.cookie.toNat % 256 ^ 8 = stamp.cookie.toNat := Nat.mod_eq_of_lt stamp.cookie.toNat_lt
  have hsent : stamp.sent % 256 ^ 8 = stamp.sent := Nat.mod_eq_of_lt h
  have hdrop (a b : List UInt8) {i : Nat} (hi : a.length = i) : (a ++ b).drop i = b := List.drop_left' hi
  have htake (a b : List UInt8) {i : Nat} (hi : a.length = i) : (a ++ b).take i = a := List.take_left' hi
  refine ⟨by rw [length_message, length_stamped], rfl, ?_, ?_, ?_, ?_⟩
  · have h4 : (message type c id seq (stamped stamp n)).drop 4 =
        beBytes 2 id.toNat ++ (beBytes 2 seq.toNat ++ stamped stamp n) := rfl
    rw [idOf, h4, htake _ _ (by simp), beNat_beBytes, hid, UInt16.ofNat_toNat]
  · have h6 : (message type c id seq (stamped stamp n)).drop 6 = beBytes 2 seq.toNat ++ stamped stamp n := rfl
    rw [seqOf, h6, htake _ _ (by simp), beNat_beBytes, hseq, UInt16.ofNat_toNat]
  · have h8 : (message type c id seq (stamped stamp n)).drop 8 = stamped stamp n := rfl
    rw [cookieOf, h8, stamped, htake _ _ (by simp), beNat_beBytes, hcookie, UInt64.ofNat_toNat]
  · have h16 : (message type c id seq (stamped stamp n)).drop 16 = (stamped stamp n).drop 8 := rfl
    rw [h16, stamped, hdrop _ _ (by simp), htake _ _ (by simp), beNat_beBytes, hsent]

/-- A request comes back, bare or behind an IPv4 header, as what it was sent
as. -/
theorem echoReply_echoRequest {ρ : Type} (ms : Nat → ρ) (checksum : List UInt8 → UInt16) (v4 : Bool)
    (id seq size : UInt16) {stamp : Stamp} (h : stamp.sent < 2 ^ 64) :
    ∃ packet, echoRequest checksum v4 id seq size stamp = .ok packet ∧
      packet.length = Impl.Reports.Ping.dataLen size + 8 ∧
      ∀ (c : UInt16) (identifier : Option UInt16) (recv : RecvMeta) (now : Nat), identifier.all (· = id) →
        echoReply ms v4 identifier stamp.cookie (asReply v4 c packet) recv now =
          .ok ⟨seq, ms (now - stamp.sent), recv.ttl, Impl.Reports.Ping.dataLen size, recv.dst⟩ ∧
        ∀ header, v4 = true → IsIpv4Header header →
          echoReply ms v4 identifier stamp.cookie (header ++ asReply v4 c packet) recv now =
            .ok ⟨seq, ms (now - stamp.sent), some (headerOf header).ttl,
              Impl.Reports.Ping.dataLen size + (header.length - 20), some (.v4 (headerOf header).dst)⟩ := by
  obtain ⟨n, c₀, hn, hpacket⟩ := echoRequest_eq checksum v4 id seq size h
  refine ⟨_, hpacket, by rw [length_message, length_stamped, hn], fun c identifier recv now hid => ?_⟩
  obtain ⟨hlen, htype, hidOf, hseqOf, hcookie, hsent⟩ := fields_message (replyType v4) c id seq n h
  rw [asReply_message]
  generalize hm : message (replyType v4) c id seq (stamped stamp n) = m at *
  have hgood : ¬(m.length < 24 ∨ m.getD 0 0 ≠ replyType v4 ∨ (identifier.any (· ≠ idOf m) = true) ∨
      cookieOf m ≠ stamp.cookie) := by
    rintro (hbad | hbad | hbad | hbad)
    · omega
    · exact hbad htype
    · cases identifier with
      | none => exact absurd hbad (by simp)
      | some i =>
        rw [hidOf] at hbad
        simp_all
    · exact hbad hcookie
  constructor
  · have hbare : stripIpv4Header v4 m = .ok (m, none) := by
      refine strip_bare fun hv => ?_
      rw [htype, hv]
      decide
    rw [echoReply_eq ms identifier stamp.cookie recv now hbare, if_neg hgood, hseqOf, hsent]
    simp [← hn, hlen]
  · rintro header rfl hheader
    rw [echoReply_eq ms identifier stamp.cookie recv now (strip_header hheader m), if_neg hgood, hseqOf, hsent]
    have hleast := hheader.least
    have hsize : header.length + m.length - 28 = Impl.Reports.Ping.dataLen size + (header.length - 20) := by omega
    simp [hsize]

/-- Whatever a datagram is, reading it stays inside it; and it is rejected
unless the message in it has the cookie, the identifier where that is checked,
and a whole stamp. -/
theorem echoReply_rejects {ρ : Type} (ms : Nat → ρ) (v4 : Bool) (identifier : Option UInt16) (cookie : UInt64)
    (datagram : List UInt8) (recv : RecvMeta) (now : Nat) :
    ∃ front m header, stripIpv4Header v4 datagram = .ok (m, header) ∧
      datagram = front ++ m ∧ (front = [] ∨ v4 = true ∧ IsIpv4Header front) ∧
      echoReply ms v4 identifier cookie datagram recv now ≠ .error .panics ∧
      (m.length < 24 ∨ identifier.any (· ≠ idOf m) ∨ cookieOf m ≠ cookie →
        echoReply ms v4 identifier cookie datagram recv now = .error .absent) := by
  obtain ⟨front, m, header, hstrip, hsplit, hfront⟩ := strip_cases v4 datagram
  refine ⟨front, m, header, hstrip, hsplit, hfront, ?_, fun hbad => ?_⟩
  · rw [echoReply_eq ms identifier cookie recv now hstrip]
    split
    · exact fun h => nomatch h
    · exact fun h => nomatch h
  · rw [echoReply_eq ms identifier cookie recv now hstrip, if_pos]
    rcases hbad with h | h | h
    · exact .inl h
    · exact .inr (.inr (.inl h))
    · exact .inr (.inr (.inr h))

/-- Requests come back as they were sent, and nothing else is taken for one. -/
theorem echo_round_trip {ρ : Type} (ms : Nat → ρ) (checksum : List UInt8 → UInt16) (v4 : Bool) :
    (∀ (id seq size : UInt16) (cookie : UInt64) (sent : Nat), sent < 2 ^ 64 →
      ∃ packet, echoRequest checksum v4 id seq size ⟨cookie, sent⟩ = .ok packet ∧
        packet.length = Impl.Reports.Ping.dataLen size + 8 ∧
        ∀ (c : UInt16) (identifier : Option UInt16) (recv : RecvMeta) (now : Nat), identifier.all (· = id) →
          echoReply ms v4 identifier cookie (asReply v4 c packet) recv now =
            .ok ⟨seq, ms (now - sent), recv.ttl, Impl.Reports.Ping.dataLen size, recv.dst⟩ ∧
          ∀ header, v4 = true → IsIpv4Header header →
            echoReply ms v4 identifier cookie (header ++ asReply v4 c packet) recv now =
              .ok ⟨seq, ms (now - sent), some (headerOf header).ttl,
                Impl.Reports.Ping.dataLen size + (header.length - 20), some (.v4 (headerOf header).dst)⟩) ∧
    ∀ (identifier : Option UInt16) (cookie : UInt64) (datagram : List UInt8) (recv : RecvMeta) (now : Nat),
      ∃ front m header, stripIpv4Header v4 datagram = .ok (m, header) ∧
        datagram = front ++ m ∧ (front = [] ∨ v4 = true ∧ IsIpv4Header front) ∧
        echoReply ms v4 identifier cookie datagram recv now ≠ .error .panics ∧
        (m.length < 24 ∨ identifier.any (· ≠ idOf m) ∨ cookieOf m ≠ cookie →
          echoReply ms v4 identifier cookie datagram recv now = .error .absent) :=
  ⟨fun id seq size cookie sent h => @echoReply_echoRequest _ ms checksum v4 id seq size ⟨cookie, sent⟩ h,
    echoReply_rejects ms v4⟩

theorem echo_round_trip_options :
    ∃ packet, echoRequest (fun _ => 0) true 7 1 32 ⟨5, 0⟩ = .ok packet ∧
      echoReply (fun nanos => nanos) true (some 7) 5 ((0x46 :: List.replicate 23 0) ++ asReply true 0 packet)
        ⟨none, none⟩ 30 = .ok ⟨1, 30, some 0, 36, some (.v4 0)⟩ := by
  obtain ⟨packet, hpacket, -, hread⟩ :=
    (echo_round_trip (fun nanos => nanos) (fun _ => 0) true).1 7 1 32 5 0 (by decide)
  exact ⟨packet, hpacket, (hread 0 (some 7) ⟨none, none⟩ 30 (by decide)).2 (0x46 :: List.replicate 23 0) rfl
    (by decide)⟩

end Starla.Proof.Measurements.Icmp
