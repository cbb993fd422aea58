import Starla.Impl.Measurements.Wsacmsg
import Mathlib.Data.List.Forall2

/-!
# The walk over the control messages

Whatever the bytes are, the walk ends without an overflow and without leaving
them, and what it reads off a run of `cmsg`'s messages is the last hop limit
and the last destination among them: what follows the messages is not read, and
the last one may lack its padding (`recvMeta_walk`).

* `recvMetaFrom_eq` : one turn of the walk, in bytes that a slice can have.
* `cmsg_eq` : a message as its header, its data and its padding.
-/

namespace Starla.Proof.Measurements.Wsacmsg

open Starla.Framework Starla.Framework.Checked Starla.Impl.Measurements.Icmp Starla.Impl.Measurements.Wsacmsg

/-! ## The target -/

variable (t : Target)

theorem data_eq : t.DATA = t.HEADER := by
  obtain ⟨is64, e⟩ := t
  cases is64 <;> simp [Target.DATA, Target.HEADER, Target.align, Target.ALIGN]

theorem header_eq : t.HEADER = t.ALIGN + 8 := rfl

theorem align_bounds (len : Nat) : len ≤ t.align len ∧ t.align len < len + t.ALIGN := by
  obtain ⟨is64, e⟩ := t
  cases is64 <;> simp [Target.align, Target.ALIGN] <;> omega

/-- What a slice can hold leaves room for the alignment. -/
theorem room : t.ISIZE_MAX + 2 * t.ALIGN ≤ 2 ^ t.BITS := by
  obtain ⟨is64, e⟩ := t
  cases is64 <;> simp [Target.ISIZE_MAX, Target.BITS, Target.ALIGN]

theorem alignment_pos : 0 < t.ALIGN := by
  unfold Target.ALIGN
  split <;> decide

theorem fitsAlign_eq {len : Nat} (h : len ≤ t.ISIZE_MAX) : t.fitsAlign len = .ok () := by
  have hroom := room t
  have hpos := alignment_pos t
  exact fits_eq (by omega)

/-! ## One turn -/

/-- The length that a header claims. -/
def claimed (rest : List UInt8) : Nat := t.endian.number (rest.take t.ALIGN)

def levelOf (rest : List UInt8) : Int32 := int32Of t ((rest.drop t.ALIGN).take 4)

def kindOf (rest : List UInt8) : Int32 := int32Of t ((rest.drop (t.ALIGN + 4)).take 4)

/-- The data of the message at the start of `rest`. -/
def dataOf (rest : List UInt8) : List UInt8 := (rest.take (claimed t rest)).drop t.HEADER

/-- No message starts here: its header is not all there, or claims less than a
header, or more than is there. -/
def Ends (rest : List UInt8) : Prop :=
  rest.length < t.HEADER ∨ claimed t rest < t.HEADER ∨ rest.length < claimed t rest

instance (rest : List UInt8) : Decidable (Ends t rest) := by
  unfold Ends
  infer_instance

theorem get_header (control : List UInt8) (at' : Nat) :
    ((getFrom control at').bind fun rest => getTo rest t.HEADER) =
      if at' + t.HEADER ≤ control.length then some ((control.drop at').take t.HEADER) else none := by
  have hpos := header_eq t
  unfold getFrom getTo
  by_cases h : at' ≤ control.length
  · rw [if_pos h, Option.bind_some, List.length_drop]
    congr 1
    exact propext (by omega)
  · rw [if_neg h, if_neg (by omega), Option.bind_none]

theorem get_data {control : List UInt8} {at' len : Nat} (h : at' + t.HEADER ≤ control.length) (hlen : t.DATA ≤ len) :
    ((getFrom control (at' + t.DATA)).bind fun rest => getTo rest (len - t.DATA)) =
      if len ≤ (control.drop at').length then some (((control.drop at').take len).drop t.HEADER) else none := by
  have hdata := data_eq t
  rw [getFrom, if_pos (by omega), Option.bind_some, getTo, List.length_drop, List.length_drop, List.drop_take,
    List.drop_drop, hdata]
  congr 1
  exact propext (by omega)

/-- The parts of a header that is all there. -/
theorem header_parts {control : List UInt8} {at' : Nat} (h : at' + t.HEADER ≤ control.length) :
    sliceTo ((control.drop at').take t.HEADER) t.ALIGN = .ok ((control.drop at').take t.ALIGN) ∧
      slice ((control.drop at').take t.HEADER) t.ALIGN (t.ALIGN + 4) =
        .ok (((control.drop at').drop t.ALIGN).take 4) ∧
      sliceFrom ((control.drop at').take t.HEADER) (t.ALIGN + 4) =
        .ok (((control.drop at').drop (t.ALIGN + 4)).take 4) := by
  have hheader := header_eq t
  have hlen : ((control.drop at').take t.HEADER).length = t.HEADER := by
    rw [List.length_take, List.length_drop]
    omega
  refine ⟨?_, ?_, ?_⟩
  · rw [sliceTo_eq (by omega), List.take_take, Nat.min_eq_left (by omega)]
  · rw [slice_eq (by omega) (by omega), List.take_take, Nat.min_eq_left (by omega), List.drop_take]
    congr 2
    omega
  · rw [sliceFrom_eq (by omega), List.drop_take]
    congr 2
    omega

theorem recvMetaFrom_eq {control : List UInt8} (hc : control.length ≤ t.ISIZE_MAX) (at' : Nat) (recv : RecvMeta) :
    recvMetaFrom t control at' recv =
      if Ends t (control.drop at') then .ok recv
      else recvMetaFrom t control (at' + t.align (claimed t (control.drop at')))
        (readMessage t recv (levelOf t (control.drop at')) (kindOf t (control.drop at'))
          (dataOf t (control.drop at'))) := by
  have hdata := data_eq t
  have hheader := header_eq t
  have hroom := room t
  have hpos := alignment_pos t
  rw [recvMetaFrom]
  split
  · rename_i hget
    rw [get_header, ite_eq_right_iff] at hget
    have hshort : (control.drop at').length < t.HEADER := by
      rw [List.length_drop]
      by_contra hle
      exact absurd (hget (by omega)) (Option.some_ne_none _)
    have hends : Ends t (control.drop at') := Or.inl hshort
    rw [if_pos hends]
  · rename_i header hget
    rw [get_header] at hget
    have hle : at' + t.HEADER ≤ control.length := by
      by_contra hle
      rw [if_neg hle] at hget
      cases hget
    rw [if_pos hle] at hget
    cases hget
    obtain ⟨hlen, hlevel, hkind⟩ := header_parts t hle
    have harray : arrayOf t.ALIGN ((control.drop at').take t.ALIGN) = (control.drop at').take t.ALIGN := by
      apply if_pos
      rw [List.length_take, List.length_drop]
      omega
    have hsize : (control.drop at').length = control.length - at' := List.length_drop
    have hclaimed : t.endian.number ((control.drop at').take t.ALIGN) = claimed t (control.drop at') := rfl
    rw [hlen, ok_bind, hlevel, ok_bind, hkind, ok_bind, harray, hclaimed]
    dsimp only
    by_cases hclaim : t.DATA ≤ claimed t (control.drop at')
    · rw [dif_pos hclaim, fits_eq (by omega), ok_bind, get_data t hle hclaim]
      by_cases hthere : claimed t (control.drop at') ≤ (control.drop at').length
      · have hends : ¬Ends t (control.drop at') := by
          unfold Ends
          omega
        have hbounds := align_bounds t (claimed t (control.drop at'))
        rw [if_pos hthere, if_neg hends]
        dsimp only
        rw [fitsAlign_eq t (by omega), ok_bind, fits_eq (by omega), ok_bind]
        rfl
      · have hends : Ends t (control.drop at') := by
          unfold Ends
          omega
        rw [if_neg hthere, if_pos hends]
        rfl
    · have hends : Ends t (control.drop at') := by
        unfold Ends
        omega
      rw [dif_neg hclaim, if_pos hends]
      rfl

/-- Whatever the bytes are, the walk ends. -/
theorem recvMetaFrom_returns {control : List UInt8} (hc : control.length ≤ t.ISIZE_MAX) (at' : Nat) (recv : RecvMeta) :
    ∃ recv', recvMetaFrom t control at' recv = .ok recv' := by
  induction hn : control.length - at' using Nat.strong_induction_on generalizing at' recv with
  | _ n ih =>
    rw [recvMetaFrom_eq t hc]
    by_cases hends : Ends t (control.drop at')
    · exact ⟨recv, if_pos hends⟩
    · rw [if_neg hends]
      have hbounds := align_bounds t (claimed t (control.drop at'))
      have hheader := header_eq t
      unfold Ends at hends
      rw [List.length_drop] at hends
      exact ih _ (by omega) _ _ rfl

/-! ## The messages -/

structure Message where
  level : Int32
  kind : Int32
  data : List UInt8
deriving DecidableEq, Repr

namespace Message

/-- `cmsg_len`. -/
def len (m : Message) : Nat := t.HEADER + m.data.length

def header (m : Message) : List UInt8 :=
  t.endian.bytes t.ALIGN (m.len t) ++ (t.endian.bytes 4 m.level.toUInt32.toNat ++
    t.endian.bytes 4 m.kind.toUInt32.toNat)

def padding (m : Message) : List UInt8 := List.replicate (t.align (m.len t) - m.len t) 0

def packed (m : Message) : List UInt8 := m.header t ++ (m.data ++ m.padding t)

/-- What it says, over what is known. -/
def read (recv : RecvMeta) (m : Message) : RecvMeta := readMessage t recv m.level m.kind m.data

theorem length_header (m : Message) : (m.header t).length = t.HEADER := by
  have hheader := header_eq t
  simp only [header, List.length_append, Endian.length_bytes]
  omega

theorem length_packed (m : Message) : (m.packed t).length = t.align (m.len t) := by
  have hbounds := align_bounds t (m.len t)
  simp only [packed, List.length_append, length_header, padding, List.length_replicate]
  unfold len at hbounds ⊢
  omega

end Message

theorem copyFromSlice_append {a old new : List UInt8} {lo hi : Nat} (h : a.length = lo)
    (h' : old.length = new.length) (hhi : hi = lo + new.length) (b : List UInt8) :
    copyFromSlice (a ++ (old ++ b)) lo hi new = .ok (a ++ (new ++ b)) := by
  have hpart : ((a ++ (old ++ b)).take hi).drop lo = old := by
    rw [← List.append_assoc, List.take_left' (by rw [List.length_append]; omega), List.drop_left' h]
  have hhi' : hi ≤ (a ++ (old ++ b)).length := by
    simp only [List.length_append]
    omega
  rw [copyFromSlice, slice_eq (by omega) hhi', ok_bind, hpart, check_eq h', ok_bind, splice_append h h']
  rfl

theorem cmsg_eq {m : Message} (h : t.align (m.len t) ≤ t.ISIZE_MAX) :
    cmsg t m.level m.kind m.data = .ok (m.packed t) := by
  have hdata := data_eq t
  have hheader := header_eq t
  have hroom := room t
  have hpos := alignment_pos t
  have hbounds := align_bounds t (m.len t)
  have hlen : t.DATA + m.data.length = m.len t := by rw [hdata, Message.len]
  have hzeros : List.replicate (t.align (m.len t)) (0 : UInt8) =
      [] ++ (List.replicate t.ALIGN 0 ++ (List.replicate 4 0 ++ (List.replicate 4 0 ++
        (List.replicate m.data.length 0 ++ m.padding t)))) := by
    simp only [Message.padding, ← List.replicate_add, List.nil_append]
    congr 1
    unfold Message.len at hbounds ⊢
    omega
  rw [cmsg, hlen, fits_eq (by omega), ok_bind]
  dsimp only
  rw [fitsAlign_eq t (by omega), ok_bind, check_eq h, ok_bind, hzeros,
    copyFromSlice_append List.length_nil (by simp) (by simp), ok_bind, List.nil_append,
    copyFromSlice_append (by simp) (by simp) (by simp), ok_bind, ← List.append_assoc,
    copyFromSlice_append (by simp) (by simp) (by simp; omega), ok_bind, ← List.append_assoc,
    copyFromSlice_append (by simp; omega) (by simp) hlen.symm]
  simp only [Message.packed, Message.header, List.append_assoc]

/-- What `cmsg` returns, where it returns. -/
theorem cmsg_ok {m : Message} {p : List UInt8} (h : cmsg t m.level m.kind m.data = .ok p) :
    t.align (m.len t) ≤ t.ISIZE_MAX ∧ p = m.packed t := by
  have hroom : t.align (m.len t) ≤ t.ISIZE_MAX := by
    by_contra hno
    have hlen : t.DATA + m.data.length = m.len t := by rw [data_eq, Message.len]
    rw [cmsg, hlen, fits, check] at h
    split_ifs at h with hfits
    · dsimp only at h
      rw [ok_bind, Target.fitsAlign, fits, check] at h
      split_ifs at h with hfits'
      · rw [ok_bind, check, if_neg hno] at h
        cases h
      · cases h
    · cases h
  rw [cmsg_eq t hroom] at h
  exact ⟨hroom, by cases h; rfl⟩

/-! ## The walk over messages -/

/-- Every number up to a `usize` comes back from its bytes. -/
theorem number_usize {n : Nat} (h : n ≤ t.ISIZE_MAX) : t.endian.number (t.endian.bytes t.ALIGN n) = n := by
  have hroom := room t
  have hpos := alignment_pos t
  have hbits : 256 ^ t.ALIGN = 2 ^ t.BITS := by rw [Target.BITS, Nat.pow_mul]
  rw [Endian.number_bytes, hbits, Nat.mod_eq_of_lt (by omega)]

theorem int32Of_bytes (n : Int32) : int32Of t (t.endian.bytes 4 n.toUInt32.toNat) = n := by
  have harray : arrayOf 4 (t.endian.bytes 4 n.toUInt32.toNat) = t.endian.bytes 4 n.toUInt32.toNat :=
    if_pos (by simp)
  have hlt : n.toUInt32.toNat < 256 ^ 4 := n.toUInt32.toNat_lt
  rw [int32Of, harray, Endian.number_bytes, Nat.mod_eq_of_lt hlt, UInt32.ofNat_toNat]
  rfl

namespace Message

variable {t} {m : Message} (tail : List UInt8)

theorem claimed_eq (h : m.len t ≤ t.ISIZE_MAX) : claimed t (m.header t ++ (m.data ++ tail)) = m.len t := by
  rw [claimed, header, List.append_assoc, List.take_left' (by simp), number_usize t h]

theorem levelOf_eq : levelOf t (m.header t ++ (m.data ++ tail)) = m.level := by
  rw [levelOf, header, List.append_assoc, List.drop_left' (by simp), List.append_assoc, List.take_left' (by simp),
    int32Of_bytes]

theorem kindOf_eq : kindOf t (m.header t ++ (m.data ++ tail)) = m.kind := by
  have hsplit : m.header t ++ (m.data ++ tail) = (t.endian.bytes t.ALIGN (m.len t) ++
      t.endian.bytes 4 m.level.toUInt32.toNat) ++ (t.endian.bytes 4 m.kind.toUInt32.toNat ++ (m.data ++ tail)) := by
    simp only [header, List.append_assoc]
  rw [kindOf, hsplit, List.drop_left' (by simp), List.take_left' (by simp), int32Of_bytes]

theorem dataOf_eq (h : m.len t ≤ t.ISIZE_MAX) : dataOf t (m.header t ++ (m.data ++ tail)) = m.data := by
  rw [dataOf, claimed_eq tail h, ← List.append_assoc, List.take_left' (by simp [length_header, len]),
    List.drop_left' (length_header t m)]

theorem not_ends (h : m.len t ≤ t.ISIZE_MAX) : ¬Ends t (m.header t ++ (m.data ++ tail)) := by
  have hlen := length_header t m
  have hclaimed := claimed_eq tail h
  simp only [Ends, hclaimed, List.length_append, hlen, len]
  omega

end Message

/-- A message is read, and the walk is at the next one. -/
theorem recvMetaFrom_message {pre tail : List UInt8} {m : Message}
    (hc : (pre ++ (m.header t ++ (m.data ++ tail))).length ≤ t.ISIZE_MAX) (recv : RecvMeta) :
    recvMetaFrom t (pre ++ (m.header t ++ (m.data ++ tail))) pre.length recv =
      recvMetaFrom t (pre ++ (m.header t ++ (m.data ++ tail))) (pre.length + t.align (m.len t)) (m.read t recv) := by
  have hlen : m.len t ≤ t.ISIZE_MAX := by
    have hheader := Message.length_header t m
    simp only [List.length_append] at hc
    unfold Message.len
    omega
  have hdrop : (pre ++ (m.header t ++ (m.data ++ tail))).drop pre.length = m.header t ++ (m.data ++ tail) :=
    List.drop_left
  rw [recvMetaFrom_eq t hc, hdrop, if_neg (Message.not_ends tail hlen), Message.claimed_eq tail hlen,
    Message.levelOf_eq, Message.kindOf_eq, Message.dataOf_eq tail hlen, Message.read]

/-- The messages are read in order. -/
theorem recvMetaFrom_messages (ms : List Message) (pre tail : List UInt8) (recv : RecvMeta)
    (hc : (pre ++ ((ms.map (Message.packed t)).flatten ++ tail)).length ≤ t.ISIZE_MAX) :
    recvMetaFrom t (pre ++ ((ms.map (Message.packed t)).flatten ++ tail)) pre.length recv =
      recvMetaFrom t (pre ++ ((ms.map (Message.packed t)).flatten ++ tail))
        (pre.length + (ms.map (Message.packed t)).flatten.length) (ms.foldl (Message.read t) recv) := by
  induction ms generalizing pre recv with
  | nil => rfl
  | cons m ms ih =>
    have hnext : pre ++ (((m :: ms).map (Message.packed t)).flatten ++ tail) =
        (pre ++ m.packed t) ++ ((ms.map (Message.packed t)).flatten ++ tail) := by
      simp only [List.map_cons, List.flatten_cons, List.append_assoc]
    have hhere : pre ++ (((m :: ms).map (Message.packed t)).flatten ++ tail) =
        pre ++ (m.header t ++ (m.data ++ (m.padding t ++ ((ms.map (Message.packed t)).flatten ++ tail)))) := by
      simp only [List.map_cons, List.flatten_cons, List.append_assoc, Message.packed]
    have hpos : pre.length + t.align (m.len t) = (pre ++ m.packed t).length := by
      rw [List.length_append, Message.length_packed]
    have hend : pre.length + ((m :: ms).map (Message.packed t)).flatten.length =
        (pre ++ m.packed t).length + (ms.map (Message.packed t)).flatten.length := by
      simp only [List.map_cons, List.flatten_cons, List.length_append]
      omega
    have hrest := ih (pre ++ m.packed t) (m.read t recv) (by rw [← hnext]; exact hc)
    rw [← hnext] at hrest
    rw [hhere] at hc hrest ⊢
    rw [recvMetaFrom_message t hc, hpos, hrest, hend, List.foldl_cons]

/-- The messages, then what no message is in. -/
theorem recvMeta_messages {ms : List Message} {rest : List UInt8} (hrest : Ends t rest)
    (hc : ((ms.map (Message.packed t)).flatten ++ rest).length ≤ t.ISIZE_MAX) :
    recvMeta t ((ms.map (Message.packed t)).flatten ++ rest) = .ok (ms.foldl (Message.read t) ⟨none, none⟩) := by
  have hwalk := recvMetaFrom_messages t ms [] rest ⟨none, none⟩ hc
  rw [List.length_nil, Nat.zero_add, List.nil_append] at hwalk
  refine hwalk.trans ?_
  rw [recvMetaFrom_eq t hc, List.drop_left, if_pos hrest]

/-- The last message may lack its padding, or part of it. -/
theorem recvMeta_unpadded {ms : List Message} {m : Message} {n : Nat} (hn : m.len t ≤ n)
    (hc : ((ms.map (Message.packed t)).flatten ++ (m.packed t).take n).length ≤ t.ISIZE_MAX) :
    recvMeta t ((ms.map (Message.packed t)).flatten ++ (m.packed t).take n) =
      .ok ((ms ++ [m]).foldl (Message.read t) ⟨none, none⟩) := by
  obtain ⟨pad, hpad⟩ : ∃ pad, (m.packed t).take n = m.header t ++ (m.data ++ pad) := by
    have hlen : (m.header t ++ m.data).length = m.len t := by
      rw [List.length_append, Message.length_header, Message.len]
    refine ⟨(m.padding t).take (n - m.len t), ?_⟩
    rw [Message.packed, ← List.append_assoc, List.take_append, List.take_of_length_le (by omega), hlen,
      List.append_assoc]
  have hwalk := recvMetaFrom_messages t ms [] ((m.packed t).take n) ⟨none, none⟩ hc
  have hshort : ((m.packed t).take n).length ≤ t.align (m.len t) := by
    rw [List.length_take, Message.length_packed]
    exact Nat.min_le_right _ _
  have hends : Ends t (((ms.map (Message.packed t)).flatten ++ (m.packed t).take n).drop
      ((ms.map (Message.packed t)).flatten.length + t.align (m.len t))) := by
    rw [← List.drop_drop, List.drop_left, List.drop_of_length_le hshort]
    exact Or.inl (by rw [header_eq]; simp)
  rw [List.length_nil, Nat.zero_add, List.nil_append] at hwalk
  rw [recvMeta, List.foldl_append]
  refine hwalk.trans ?_
  rw [hpad] at hc hends ⊢
  rw [recvMetaFrom_message t hc, recvMetaFrom_eq t hc, if_pos hends]
  rfl

/-! ## What the messages say -/

def HasHopLimit (m : Message) : Prop := m.level = IPPROTO_IPV6 ∧ m.kind = IPV6_HOPLIMIT ∧ 4 ≤ m.data.length

def HasPktinfo (m : Message) : Prop := m.level = IPPROTO_IPV6 ∧ m.kind = IPV6_PKTINFO ∧ 16 ≤ m.data.length

instance : DecidablePred HasHopLimit := fun m =>
  inferInstanceAs (Decidable (m.level = IPPROTO_IPV6 ∧ m.kind = IPV6_HOPLIMIT ∧ 4 ≤ m.data.length))

instance : DecidablePred HasPktinfo := fun m =>
  inferInstanceAs (Decidable (m.level = IPPROTO_IPV6 ∧ m.kind = IPV6_PKTINFO ∧ 16 ≤ m.data.length))

def hopLimit (m : Message) : Option UInt8 := uint8Of (int32Of t (m.data.take 4))

def destination (m : Message) : IpAddr := .v6 (BitVec.ofNat 128 (beNat (m.data.take 16)))

/-- The last hop limit, where it is one. -/
def ttlOf (ms : List Message) : Option UInt8 := (ms.filter HasHopLimit).getLast?.bind (hopLimit t)

/-- The last destination. -/
def dstOf (ms : List Message) : Option IpAddr := (ms.filter HasPktinfo).getLast?.map destination

/-- What one message changes. -/
theorem read_eq (recv : RecvMeta) (m : Message) :
    m.read t recv = ⟨if HasHopLimit m then hopLimit t m else recv.ttl,
      if HasPktinfo m then some (destination m) else recv.dst⟩ := by
  have hkinds : IPV6_PKTINFO ≠ IPV6_HOPLIMIT := by decide
  unfold Message.read readMessage HasHopLimit HasPktinfo getTo
  by_cases hl : m.level = IPPROTO_IPV6
  · by_cases hh : m.kind = IPV6_HOPLIMIT
    · by_cases h4 : 4 ≤ m.data.length <;> simp [hl, hh, h4, hkinds.symm, hopLimit]
    · by_cases hp : m.kind = IPV6_PKTINFO
      · by_cases h16 : 16 ≤ m.data.length <;> simp [hl, hp, h16, hkinds, destination, arrayOf]
      · simp [hh, hp]
  · simp [hl]

theorem foldl_read (ms : List Message) : ms.foldl (Message.read t) ⟨none, none⟩ = ⟨ttlOf t ms, dstOf ms⟩ := by
  induction ms using List.reverseRecOn with
  | nil => rfl
  | append_singleton ms m ih =>
    have httl : ttlOf t (ms ++ [m]) = if HasHopLimit m then hopLimit t m else ttlOf t ms := by
      rw [ttlOf, List.filter_append, List.filter_singleton]
      split_ifs with h <;> simp [h, ttlOf]
    have hdst : dstOf (ms ++ [m]) = if HasPktinfo m then some (destination m) else dstOf ms := by
      rw [dstOf, List.filter_append, List.filter_singleton]
      split_ifs with h <;> simp [h, dstOf]
    rw [List.foldl_append, ih, httl, hdst]
    exact read_eq t ⟨ttlOf t ms, dstOf ms⟩ m

/-- Messages that `cmsg` returned, one after the other. -/
def Laid (ms : List Message) (parts : List (List UInt8)) : Prop :=
  List.Forall₂ (fun m part => cmsg t m.level m.kind m.data = .ok part) ms parts

theorem parts_eq {ms : List Message} {parts : List (List UInt8)} (h : Laid t ms parts) :
    parts = ms.map (Message.packed t) := by
  induction h with
  | nil => rfl
  | cons hpart _ ih => rw [List.map_cons, ← ih, (cmsg_ok t hpart).2]

/-- In bytes that a slice can have: messages that `cmsg` laid out, and what no
message is in, say the last hop limit and the last destination; so do messages
of which the last has no more padding than it happens to have; and there are no
bytes on which the walk does not end, or that it leaves, or where it overflows. -/
theorem recvMeta_walk (t : Target) :
    (∀ (ms : List Message) (parts : List (List UInt8)) (rest : List UInt8), Laid t ms parts → Ends t rest →
      (parts.flatten ++ rest).length ≤ t.ISIZE_MAX →
        recvMeta t (parts.flatten ++ rest) = .ok ⟨ttlOf t ms, dstOf ms⟩) ∧
    (∀ (ms : List Message) (parts : List (List UInt8)) (m : Message) (part : List UInt8) (n : Nat),
      Laid t ms parts → cmsg t m.level m.kind m.data = .ok part → t.DATA + m.data.length ≤ n →
      (parts.flatten ++ part.take n).length ≤ t.ISIZE_MAX →
        recvMeta t (parts.flatten ++ part.take n) = .ok ⟨ttlOf t (ms ++ [m]), dstOf (ms ++ [m])⟩) ∧
    ∀ control : List UInt8, control.length ≤ t.ISIZE_MAX → ∃ recv, recvMeta t control = .ok recv := by
  refine ⟨?_, ?_, ?_⟩
  · intro ms parts rest hparts hrest hc
    rw [parts_eq t hparts] at hc ⊢
    rw [recvMeta_messages t hrest hc, foldl_read]
  · intro ms parts m part n hparts hpart hn hc
    rw [data_eq] at hn
    rw [parts_eq t hparts, (cmsg_ok t hpart).2] at hc ⊢
    rw [recvMeta_unpadded t hn hc, foldl_read]
  · intro control hc
    exact recvMetaFrom_returns t hc 0 ⟨none, none⟩

/-- A hop limit of 57 with the four bytes that pad it, a destination, and a header cut short. -/
theorem recvMeta_walk_two :
    recvMeta ⟨true, .little⟩
      ([20, 0, 0, 0, 0, 0, 0, 0, 41, 0, 0, 0, 21, 0, 0, 0, 57, 0, 0, 0, 0, 0, 0, 0] ++
        [32, 0, 0, 0, 0, 0, 0, 0, 41, 0, 0, 0, 19, 0, 0, 0, 32, 1, 4, 24, 0, 1, 0, 0, 0, 0, 0, 0, 0, 0, 0, 51] ++
        [20, 0, 0]) =
      .ok ⟨some 57, some (.v6 0x20010418000100000000000000000033)⟩ :=
  (recvMeta_walk ⟨true, .little⟩).1
    [⟨41, 21, [57, 0, 0, 0]⟩, ⟨41, 19, [32, 1, 4, 24, 0, 1, 0, 0, 0, 0, 0, 0, 0, 0, 0, 51]⟩]
    [[20, 0, 0, 0, 0, 0, 0, 0, 41, 0, 0, 0, 21, 0, 0, 0, 57, 0, 0, 0, 0, 0, 0, 0],
      [32, 0, 0, 0, 0, 0, 0, 0, 41, 0, 0, 0, 19, 0, 0, 0, 32, 1, 4, 24, 0, 1, 0, 0, 0, 0, 0, 0, 0, 0, 0, 51]]
    [20, 0, 0] (.cons rfl (.cons rfl .nil)) (by decide) (by decide)

end Starla.Proof.Measurements.Wsacmsg
