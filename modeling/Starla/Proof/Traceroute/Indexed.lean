import Starla.Impl.Traceroute.Indexed
import Starla.Proof.Traceroute.Wire

/-!
# Reading a reply never stops the program

For a packet of at most 65535 bytes every index and slice of the reading of
replies is in range and none of its sums overflows (`parseReply_computes`):
the length checks before them guard all of them.

* `computes_be16`, `computes_readV6Info` : the fields; one past the end is no
  value.
* `mpls_eq`, `icmpMulti_eq`, `hdropts_eq` : the loops over what the packet
  says its own lengths are. Each goes on from an offset that is still inside.
-/

namespace Starla.Proof.Traceroute.Indexed

open Starla.Framework Starla.Framework.Checked Starla.Impl.Controller Starla.Impl.Measurements
  Starla.Impl.Traceroute

/-! ## Checksums -/

theorem sum16_eq (data : List UInt8) (acc : Nat) (h : acc + data.length * 65535 < 2 ^ 32) :
    Indexed.sum16 data acc = .ok (sum16 data acc) := by
  fun_induction sum16 data acc with
  | case1 a b data acc ih =>
    have ha := a.toNat_lt
    have hb := b.toNat_lt
    rw [List.length_cons, List.length_cons] at h
    rw [Indexed.sum16, fits_eq (by omega), ok_bind]
    exact ih (by omega)
  | case2 b acc =>
    have hb := b.toNat_lt
    rw [List.length_singleton, Nat.one_mul] at h
    rw [Indexed.sum16, fits_eq (by omega), ok_bind]
    rfl
  | case3 acc => rfl

theorem foldNot_eq {acc : Nat} (h : acc < 2 ^ 32) : Indexed.foldNot acc = .ok (foldNot acc) := by
  rw [Indexed.foldNot, fits_eq (by omega), ok_bind, fits_eq (by omega), ok_bind]
  rfl

theorem inCksum_eq {data : List UInt8} (h : data.length ≤ 65535) :
    Indexed.inCksum data = .ok (inCksum data) := by
  have hle := sum16_le data
  rw [Indexed.inCksum, sum16_eq data 0 (by omega), ok_bind, foldNot_eq (by omega)]
  rfl

/-! ## Fields -/

theorem computes_be16 (b : List UInt8) {i : Nat} (h : i < 2 ^ 32) : Computes (Indexed.be16 b i) (be16 b i) := by
  rw [Indexed.be16, be16]
  refine Computes.step (fits_eq (by omega)) ?_
  by_cases hi : i + 2 ≤ b.length
  · rw [if_pos hi, getRange_eq (by omega) hi, List.drop_take, Nat.add_sub_cancel_left]
    rfl
  · rw [if_neg hi, getRange_absent (by omega)]
    rfl

theorem computes_be32 (b : List UInt8) {i : Nat} (h : i < 2 ^ 32) : Computes (Indexed.be32 b i) (be32 b i) := by
  rw [Indexed.be32, be32]
  refine Computes.step (fits_eq (by omega)) ?_
  by_cases hi : i + 4 ≤ b.length
  · rw [if_pos hi, getRange_eq (by omega) hi, List.drop_take, Nat.add_sub_cancel_left]
    rfl
  · rw [if_neg hi, getRange_absent (by omega)]
    rfl

theorem carriesIdString_eq (data : List UInt8) :
    Indexed.carriesIdString data = .ok (carriesIdString data) := by
  rw [Indexed.carriesIdString, sliceTo_eq (Nat.min_le_left ..), ok_bind, sliceTo_eq (Nat.min_le_right ..)]
  rfl

theorem durationNew_eq {sec nsec : Nat} (h : sec < 2 ^ 63) (h' : nsec < 1000000000) :
    Indexed.durationNew sec nsec = .ok (sec * 1000000000 + nsec) := by
  rw [Indexed.durationNew, Nat.div_eq_of_lt h', fits_eq (by omega)]
  rfl

theorem take_two (b : List UInt8) {i : Nat} (h : i + 2 ≤ b.length) :
    (b.drop i).take 2 = [b.getD i 0, b.getD (i + 1) 0] := by
  have hdrop : b.drop i = b.getD i 0 :: b.getD (i + 1) 0 :: b.drop (i + 2) := by
    rw [List.drop_eq_getElem_cons (show i < b.length by omega),
      List.drop_eq_getElem_cons (show i + 1 < b.length by omega)]
    simp [List.getD_eq_getElem?_getD, show i < b.length by omega, show i + 1 < b.length by omega]
  rw [hdrop]
  rfl

theorem take_four (b : List UInt8) {i : Nat} (h : i + 4 ≤ b.length) :
    (b.drop i).take 4 = [b.getD i 0, b.getD (i + 1) 0, b.getD (i + 2) 0, b.getD (i + 3) 0] := by
  have hsplit : (b.drop i).take 4 = (b.drop i).take 2 ++ (b.drop (i + 2)).take 2 := by
    rw [← List.drop_drop, ← List.take_add]
  rw [hsplit, take_two b (by omega), take_two b (show i + 2 + 2 ≤ b.length by omega)]
  rfl

theorem slice_take (b : List UInt8) {lo hi n : Nat} (h : hi ≤ n) :
    ((b.take n).take hi).drop lo = (b.drop lo).take (hi - lo) := by
  rw [List.take_take, Nat.min_eq_left h, List.drop_take]

/-- Read by index and slice, the fields of what has them all. -/
theorem readV6Info_eq {b : List UInt8} (h : V6INFO_LEN ≤ b.length) :
    Indexed.readV6Info b = Checked.ofOption (V6Info.read b) := by
  have hl : (b.take 32).length = 32 := by
    rw [List.length_take]
    exact Nat.min_eq_left h
  have hfuzz : [(b.take 32).getD 0 0, (b.take 32).getD 1 0] = b.take 2 := by
    rw [← take_two (b.take 32) (i := 0) (by omega), List.drop_zero, List.take_take]
    rfl
  rw [V6Info.read, if_neg (Nat.not_lt_of_le h), Indexed.readV6Info, getRange_eq (Nat.zero_le _) h, ok_bind,
    List.drop_zero, V6INFO_LEN, slice_eq (by decide) (by omega), ok_bind, slice_eq (by decide) (by omega), ok_bind,
    slice_take b (by decide), slice_take b (by decide)]
  have hrest (tv : Duration) : (do
      let fuzz0 ← index (b.take 32) 0
      let fuzz1 ← index (b.take 32) 1
      let pid ← slice (b.take 32) 4 8
      let id ← slice (b.take 32) 8 12
      let seq ← slice (b.take 32) 12 16
      pure (⟨UInt16.ofNat (beNat [fuzz0, fuzz1]), UInt32.ofNat (beNat pid), UInt32.ofNat (beNat id),
        UInt32.ofNat (beNat seq), tv⟩ : V6Info)) =
      (.ok ⟨UInt16.ofNat (beNat (b.take 2)), UInt32.ofNat (beNat ((b.drop 4).take 4)),
        UInt32.ofNat (beNat ((b.drop 8).take 4)), UInt32.ofNat (beNat ((b.drop 12).take 4)), tv⟩ : Checked V6Info) := by
    rw [index_eq 0 (by omega), ok_bind, index_eq 0 (by omega), ok_bind, hfuzz, slice_eq (by decide) (by omega),
      ok_bind, slice_eq (by decide) (by omega), ok_bind, slice_eq (by decide) (by omega), ok_bind,
      slice_take b (by decide), slice_take b (by decide), slice_take b (by decide)]
    rfl
  by_cases htv : beNat ((b.drop 16).take 8).reverse < 2 ^ 63 ∧ beNat ((b.drop 24).take 8).reverse < 1000000000
  · simp only [Nat.reduceSub, if_pos htv, durationNew_eq htv.1 htv.2, ok_bind, hrest]
    rfl
  · simp only [Nat.reduceSub, if_neg htv, hrest]
    rfl

theorem computes_readV6Info (b : List UInt8) : Computes (Indexed.readV6Info b) (V6Info.read b) := by
  by_cases h : V6INFO_LEN ≤ b.length
  · exact readV6Info_eq h
  · rw [V6Info.read, if_pos (Nat.lt_of_not_le h), Indexed.readV6Info, getRange_absent (Nat.lt_of_not_le h)]
    rfl

/-! ## Loops over what a packet says -/

theorem mplsEntries_short {first : Bool} {p : List UInt8} (h : p.length < 4) : mplsEntries first p = "" := by
  unfold mplsEntries
  split
  · simp only [List.length_cons] at h
    omega
  · rfl

theorem mplsEntries_eq (out : String) (p : List UInt8) (o : Nat) (h : p.length ≤ 65535) (ho : o ≤ p.length) :
    Indexed.mplsEntries out p o = .ok (out ++ mplsEntries (o = 0) (p.drop o)) := by
  rw [Indexed.mplsEntries, fits_eq (by omega), ok_bind]
  by_cases hmore : o + 4 ≤ p.length
  · have hdrop : p.drop o = (p.drop o).take 4 ++ p.drop (o + 4) := by
      rw [← List.drop_drop, List.take_append_drop]
    rw [dif_pos hmore, index_eq 0 (by omega), ok_bind, index_eq 0 (by omega), ok_bind, index_eq 0 (by omega), ok_bind,
      index_eq 0 (by omega), ok_bind, mplsEntries_eq _ p (o + 4) h (by omega), hdrop, take_four p hmore]
    simp only [List.cons_append, List.nil_append, mplsEntries, decide_eq_true_eq, String.append_assoc]
    rfl
  · rw [dif_neg hmore, mplsEntries_short (by rw [List.length_drop]; omega), String.append_empty]
    rfl
termination_by p.length - o

theorem mpls_eq (out : String) {p : List UInt8} (h : p.length ≤ 65535) :
    Indexed.mpls out p = .ok (out ++ mpls p) := by
  rw [Indexed.mpls, mplsEntries_eq _ p 0 h (Nat.zero_le _), ok_bind, mpls, List.drop_zero]
  simp only [decide_true, String.append_assoc]
  rfl

theorem beNat_pair_lt (a b : UInt8) : beNat [a, b] < 65536 := by
  have ha := a.toNat_lt
  have hb := b.toNat_lt
  simp only [beNat, List.foldl_cons, List.foldl_nil]
  omega

theorem objectLabels_eq (out : String) {p : List UInt8} (cls ctype : UInt8) {lo hi : Nat} (h : p.length ≤ 65535)
    (hlo : lo ≤ hi) (hhi : hi ≤ p.length) :
    Indexed.objectLabels out p cls ctype lo hi =
      .ok (out ++ if cls = 1 ∧ ctype = 1 then mpls ((p.drop lo).take (hi - lo)) else "") := by
  rw [Indexed.objectLabels]
  by_cases hc : cls = 1 ∧ ctype = 1
  · have hl : ((p.drop lo).take (hi - lo)).length ≤ 65535 := by
      rw [List.length_take, List.length_drop]
      omega
    rw [if_pos hc, if_pos hc, slice_eq hlo hhi, List.drop_take]
    exact mpls_eq out hl
  · rw [if_neg hc, if_neg hc, String.append_empty]
    rfl

theorem icmpObjects_eq (out : String) (p : List UInt8) (o : Nat) (h : p.length ≤ 65535) (ho : o ≤ p.length)
    (h4 : 4 ≤ o) : Indexed.icmpObjects out p o = .ok (out ++ icmpObjects (o = 4) (p.drop o)) := by
  rw [Indexed.icmpObjects, fits_eq (by omega), ok_bind, icmpObjects, List.length_drop]
  by_cases hmore : o + 4 < p.length
  · have hbyte (i : Nat) : byteAt (p.drop o) i = p.getD (o + i) 0 := by
      rw [byteAt, List.getD_eq_getElem?_getD, List.getElem?_drop, List.getD_eq_getElem?_getD]
    have hfull : ¬p.length - o ≤ 4 := by omega
    rw [dif_pos hmore, if_neg hfull, index_eq 0 (by omega), ok_bind, index_eq 0 (by omega), ok_bind,
      index_eq 0 (by omega), ok_bind, index_eq 0 (by omega), ok_bind, ← take_two p (by omega)]
    simp only [hbyte, decide_eq_true_eq]
    generalize hlen : beNat ((p.drop o).take 2) = len
    have hbig : len < 65536 := by
      rw [← hlen, take_two p (by omega)]
      exact beNat_pair_lt ..
    by_cases hshort : len < 4
    · rw [dif_pos hshort, if_pos (Or.inl hshort), String.append_assoc]
      rfl
    rw [dif_neg hshort, fits_eq (by omega), ok_bind]
    by_cases hlong : o + len > p.length
    · have hwrong : len < 4 ∨ len > p.length - o := .inr (by omega)
      rw [dif_pos hlong, if_pos hwrong, String.append_assoc]
      rfl
    have hright : ¬(len < 4 ∨ len > p.length - o) := by omega
    have hlabels : ((p.drop o).take len).drop 4 = (p.drop (o + 4)).take (o + len - (o + 4)) := by
      rw [List.drop_take, List.drop_drop, show o + len - (o + 4) = len - 4 by omega]
    rw [dif_neg hlong, if_neg hright, objectLabels_eq _ _ _ h (by omega) (by omega), ok_bind,
      icmpObjects_eq _ p (o + len) h (by omega) (by omega), hlabels, List.drop_drop,
      show decide (o + len = 4) = false from decide_eq_false (by omega)]
    simp only [String.append_assoc]
  · rw [dif_neg hmore, if_pos (by omega), String.append_empty]
    rfl
termination_by p.length - o

theorem icmpMulti_eq {p : List UInt8} (pre : Bool) (h : p.length ≤ 65535) :
    Indexed.icmpMulti p pre = .ok (icmpMulti p pre) := by
  rw [Indexed.icmpMulti, icmpMulti]
  by_cases hshort : p.length < 4
  · rw [if_pos hshort, if_pos (Or.inl hshort)]
    rfl
  rw [if_neg hshort, inCksum_eq h, ok_bind]
  by_cases hsum : inCksum p ≠ 0
  · rw [if_pos hsum, if_pos (Or.inr hsum)]
    rfl
  · have hgood : ¬(p.length < 4 ∨ inCksum p ≠ 0) := fun hor => hor.elim hshort hsum
    rw [if_neg hsum, if_neg hgood, index_eq 0 (by omega), ok_bind, icmpObjects_eq _ p 4 h (by omega) (by omega),
      ok_bind]
    simp only [decide_true, byteAt, String.append_assoc]
    rfl

theorem hdroptEntries_eq (out : String) (opts : List UInt8) (s : Nat) (h : opts.length ≤ 65535) :
    Indexed.hdroptEntries out opts s = .ok (out ++ hdroptEntries (s = 0) (opts.drop s)) := by
  rw [Indexed.hdroptEntries]
  by_cases hmore : s < opts.length
  · have hdrop : opts.drop s = opts.getD s 0 :: opts.drop (s + 1) := by
      rw [List.drop_eq_getElem_cons hmore, List.getD_eq_getElem?_getD, List.getElem?_eq_getElem hmore]
      rfl
    have hbyte : byteAt (opts.drop (s + 1)) 0 = byteAt opts (s + 1) := by
      rw [byteAt, List.getD_eq_getElem?_getD, List.getElem?_drop, byteAt, List.getD_eq_getElem?_getD]
    have hl : (opts.getD s 0 :: opts.drop (s + 1)).length = opts.length - s := by
      rw [← hdrop, List.length_drop]
    rw [dif_pos hmore, index_eq 0 hmore, ok_bind, hdrop, hdroptEntries, hbyte, hl]
    by_cases hmss : opts.getD s 0 = 2
    · rw [if_pos hmss, if_pos hmss, fits_eq (by omega), ok_bind]
      have hlen := (byteAt opts (s + 1)).toNat_lt
      generalize (byteAt opts (s + 1)).toNat = len at hlen ⊢
      by_cases hshort : len < 4
      · rw [dif_pos hshort, if_pos (Or.inl hshort), String.append_empty]
        rfl
      rw [dif_neg hshort, fits_eq (by omega), ok_bind]
      by_cases hlong : s + len > opts.length
      · have hwrong : len < 4 ∨ len > opts.length - s := .inr (by omega)
        rw [dif_pos hlong, if_pos hwrong, String.append_empty]
        rfl
      have hright : ¬(len < 4 ∨ len > opts.length - s) := by omega
      have hnext : (opts.drop (s + 1)).drop (len - 1) = opts.drop (s + len) := by
        rw [List.drop_drop, show s + 1 + (len - 1) = s + len by omega]
      rw [dif_neg hlong, if_neg hright, index_eq 0 (by omega), ok_bind, index_eq 0 (by omega), ok_bind,
        ← take_two opts (by omega), List.drop_drop, hnext, hdroptEntries_eq _ opts (s + len) h,
        show decide (s + len = 0) = false from decide_eq_false (by omega)]
      by_cases hs : s = 0
      · subst hs
        simp [String.append_assoc]
      · simp [hs, String.append_assoc]
    · rw [if_neg hmss, if_neg hmss]
      by_cases hs : s = 0
      · subst hs
        rfl
      · simp only [if_pos hs, decide_eq_false hs, Bool.false_eq_true, if_false]
        rfl
  · rw [dif_neg hmore, List.drop_of_length_le (by omega), hdroptEntries, String.append_empty]
    rfl
termination_by opts.length - s

theorem hdropts_eq {opts : List UInt8} (h : opts.length ≤ 65535) :
    Indexed.hdropts opts = .ok (hdropts opts) := by
  rw [Indexed.hdropts, hdroptEntries_eq _ opts 0 h, ok_bind, List.drop_zero]
  simp only [decide_true]
  rfl

/-- The extensions of `buf`, where its message quotes from `start` on. -/
theorem icmpExt_eq {buf : List UInt8} {start prefixLen : Nat} (h : buf.length ≤ 65535)
    (hstart : start ≤ buf.length) (hbits : prefixLen < 2 ^ 32) :
    Indexed.icmpExt buf start prefixLen = .ok (icmpExt (buf.drop start) prefixLen) := by
  have hpart (n : Nat) (pre : Bool) (hn : buf.length > start + n) :
      (do let p ← sliceFrom buf (start + n); Indexed.icmpMulti p pre) =
        .ok (icmpMulti ((buf.drop start).drop n) pre) := by
    rw [sliceFrom_eq (Nat.le_of_lt hn), ok_bind, List.drop_drop]
    exact icmpMulti_eq pre (by rw [List.length_drop]; omega)
  rw [Indexed.icmpExt, icmpExt, List.length_drop]
  by_cases hp : prefixLen ≠ 0
  · rw [if_pos hp, if_pos hp, fits_eq (by omega), ok_bind]
    by_cases hlen : buf.length > start + prefixLen
    · rw [if_pos hlen, if_pos (show buf.length - start > prefixLen by omega)]
      exact hpart prefixLen false hlen
    · rw [if_neg hlen, if_neg (show ¬buf.length - start > prefixLen by omega)]
      rfl
  · rw [if_neg hp, if_neg hp, fits_eq (by omega), ok_bind]
    by_cases hlen : buf.length > start + 128
    · rw [if_pos hlen, if_pos (show buf.length - start > 128 by omega)]
      exact hpart 128 true hlen
    · rw [if_neg hlen, if_neg (show ¬buf.length - start > 128 by omega)]
      rfl

/-! ## IPv4 -/

theorem computes_quotedIcmp4 (id : TraceId) (proto : UInt8) {l4 : List UInt8} (curSeq : UInt16)
    (h : l4.length ≤ 65535) :
    Computes (Indexed.quotedIcmp4 id proto l4 curSeq) (quotedIcmp4 id proto l4 curSeq) := by
  unfold Indexed.quotedIcmp4 quotedIcmp4
  refine Computes.ite (fun _ => ?_) fun _ => Computes.ite (fun _ => ?_) fun _ => Computes.ite (fun _ => ?_) fun _ => ?_
  · refine Computes.refuse fun _ => Computes.bind (computes_be16 l4 (by decide)) fun sport _ => ?_
    refine Computes.bind (computes_be32 l4 (by decide)) fun tseq _ => ?_
    exact Computes.refuse fun _ => Computes.ok _
  · refine Computes.refuse fun _ => Computes.bind (computes_be16 l4 (by decide)) fun sport _ => ?_
    refine Computes.refuse fun _ => Computes.ite (fun _ => ?_) fun _ => ?_
    · exact Computes.bindMap (computes_be16 l4 (by decide)) fun _ _ => Computes.ok _
    · exact Computes.bindMap (computes_be16 l4 (by decide)) fun _ _ => Computes.ok _
  · refine Computes.refuse_or fun hlen => Computes.step (index_eq 0 (by omega)) ?_
    refine Computes.refuse_or fun _ => Computes.step (index_eq 0 (by omega)) ?_
    refine Computes.refuse fun _ => Computes.bind (computes_be16 l4 (by decide)) fun eid _ => ?_
    refine Computes.refuse_or fun _ => Computes.refuse_or fun _ => Computes.step (sliceFrom_eq (by omega)) ?_
    refine Computes.step (carriesIdString_eq _) (Computes.refuse fun _ => ?_)
    exact Computes.bind (computes_be16 l4 (by decide)) fun seq _ => Computes.ok _
  · exact Computes.absent

/-- An IP header's length field. -/
theorem nibble_le (b : UInt8) : (b &&& 0x0f).toNat ≤ 15 := by
  rw [UInt8.toNat_and]
  exact Nat.and_le_right

theorem answerIcmp4_eq (id : TraceId) {buf : List UInt8} {hlen : Nat} (sender : BitVec 32)
    (quoted : Branch × UInt32 × UInt32) (outcome : Impl.Traceroute.Outcome) (h : buf.length ≤ 65535)
    (hlen' : hlen + 28 ≤ buf.length) :
    Indexed.answerIcmp4 id buf (buf.drop hlen) ((buf.drop hlen).drop ICMP_HDR) hlen (byteAt buf 8) (byteAt buf 1) sender
      quoted outcome =
      .ok {
        branch := quoted.1
        outcome
        seq := quoted.2.1
        sender := .v4 sender
        ttl := (byteAt buf 8).toNat
        tos := (byteAt buf 1).toNat
        size := buf.length - IPHDR - ICMP_HDR
        innerTtl := byteAt ((buf.drop hlen).drop ICMP_HDR) 8
        innerTos := byteAt ((buf.drop hlen).drop ICMP_HDR) 1
        innerL4Len := quoted.2.2
        edst :=
          if IpAddr.v4 (BitVec.ofNat 32 (beNat ((((buf.drop hlen).drop ICMP_HDR).drop 16).take 4))) ≠ id.target then
            some (BitVec.ofNat 32 (beNat ((((buf.drop hlen).drop ICMP_HDR).drop 16).take 4)))
          else none
        icmpext := icmpExt ((buf.drop hlen).drop ICMP_HDR) ((byteAt (buf.drop hlen) 5).toNat * 4) } := by
  have hicmp : (buf.drop hlen).length = buf.length - hlen := List.length_drop
  have heip : ((buf.drop hlen).drop ICMP_HDR).length = buf.length - hlen - 8 := by
    rw [List.length_drop, hicmp, ICMP_HDR]
  have hwords := ((buf.drop hlen).getD 5 0).toNat_lt
  rw [Indexed.answerIcmp4, IPHDR, ICMP_HDR] at *
  rw [fitsInt_eq (by omega) (by omega), ok_bind, fitsInt_eq (by omega) (by omega), ok_bind,
    index_eq 0 (by omega), ok_bind, index_eq 0 (by omega), ok_bind, index_eq 0 (by omega), ok_bind,
    index_eq 0 (by omega), ok_bind, index_eq 0 (by omega), ok_bind, index_eq 0 (by omega), ok_bind,
    index_eq 0 (by omega), ok_bind, icmpExt_eq h (by omega) (by omega), ok_bind, take_four _ (by omega),
    ← List.drop_drop]
  rfl

theorem computes_parseIcmp4 (id : TraceId) {buf : List UInt8} (sender : BitVec 32) (curSeq : UInt16)
    (h : buf.length ≤ 65535) : Computes (Indexed.parseIcmp4 id buf sender curSeq) (parseIcmp4 id buf sender curSeq) := by
  unfold Indexed.parseIcmp4 parseIcmp4
  refine Computes.bind (Computes.ofOption _) fun first _ => ?_
  have hnibble := nibble_le first
  refine Computes.step (fits_eq (by rw [ICMP_HDR]; omega)) (Computes.refuse fun hlen => ?_)
  rw [ICMP_HDR] at hlen
  refine Computes.step (index_eq 0 (by omega)) (Computes.step (index_eq 0 (by omega)) ?_)
  refine Computes.step (sliceFrom_eq (by omega)) (Computes.step (index_eq 0 (by rw [List.length_drop]; omega)) ?_)
  have hicmp : (buf.drop ((first &&& 0x0f).toNat * 4)).length = buf.length - (first &&& 0x0f).toNat * 4 :=
    List.length_drop
  refine Computes.ite (fun _ => ?_) fun _ => Computes.ite (fun _ => ?_) fun _ => Computes.absent
  · unfold Indexed.errorIcmp4
    refine Computes.step (sliceFrom_eq (by rw [ICMP_HDR]; omega)) (Computes.bind (Computes.ofOption _) fun inner _ => ?_)
    have hinner := nibble_le inner
    have heip : ((buf.drop ((first &&& 0x0f).toNat * 4)).drop ICMP_HDR).length =
        buf.length - (first &&& 0x0f).toNat * 4 - 8 := by
      rw [List.length_drop, hicmp, ICMP_HDR]
    refine Computes.refuse fun hehl => Computes.step (sliceFrom_eq (by omega)) ?_
    refine Computes.step (index_eq 0 (by omega)) ?_
    refine Computes.bind (computes_quotedIcmp4 id _ curSeq (by rw [List.length_drop]; omega)) fun quoted _ => ?_
    refine Computes.step (index_eq 0 (by omega)) ?_
    have hanswer (outcome : Impl.Traceroute.Outcome) :=
      @answerIcmp4_eq id buf ((first &&& 0x0f).toNat * 4) sender quoted outcome h (by omega)
    refine Computes.ite (fun _ => hanswer _) fun _ => Computes.ite (fun _ => ?_) fun _ => hanswer _
    exact Computes.bindMap (computes_be16 _ (by decide)) fun mtu _ => hanswer _
  · unfold Indexed.echoIcmp4
    refine Computes.step (index_eq 0 (by omega)) (Computes.refuse fun _ => ?_)
    refine Computes.bind (computes_be16 _ (by decide)) fun rid _ => ?_
    refine Computes.refuse_or fun _ => Computes.refuse_or fun _ => ?_
    refine Computes.step (sliceFrom_eq (by rw [ICMP_HDR]; omega)) (Computes.step (carriesIdString_eq _) ?_)
    refine Computes.refuse fun _ => Computes.bind (computes_be16 _ (by decide)) fun seq _ => ?_
    refine Computes.step (fitsInt_eq (by rw [IPHDR]; omega) (by rw [IPHDR]; omega)) ?_
    refine Computes.step (fitsInt_eq (by rw [IPHDR, ICMP_HDR]; omega) (by rw [IPHDR, ICMP_HDR]; omega)) ?_
    exact Computes.ok _

/-! ## IPv6 -/

theorem computes_optionsHeader {buf : List UInt8} {ptr : Nat} (h : buf.length ≤ 65535) (hptr : ptr ≤ 65535) :
    Computes (Indexed.optionsHeader buf ptr) (optionsHeader buf ptr) := by
  unfold Indexed.optionsHeader optionsHeader
  refine Computes.step (fits_eq (by omega)) (Computes.refuse fun hroom => ?_)
  refine Computes.step (index_eq 0 (by omega)) ?_
  have hunits := (buf.getD (ptr + 1) 0).toNat_lt
  refine Computes.step (fits_eq (by omega)) ?_
  have hopt : (8 * (buf.getD (ptr + 1) 0).toUInt32).toNat = 8 * (buf.getD (ptr + 1) 0).toNat := by
    rw [UInt32.toNat_mul, UInt8.toNat_toUInt32]
    exact Nat.mod_eq_of_lt (by show 8 * _ < _; omega)
  refine Computes.step (fits_eq (by omega)) (Computes.refuse fun _ => Computes.step (index_eq 0 (by omega)) ?_)
  exact Computes.ok _

/-- An options header ends inside the packet. -/
theorem optionsHeader_ptr {buf : List UInt8} {ptr : Nat} {r : UInt8 × UInt32 × Nat}
    (h : optionsHeader buf ptr = some r) : r.2.2 ≤ buf.length := by
  rw [optionsHeader] at h
  split at h
  · exact absurd h (by simp)
  · simp only at h
    split at h
    · exact absurd h (by simp)
    · obtain rfl := Option.some.inj h
      show ptr + _ ≤ buf.length
      omega

theorem computes_hopOptions {buf : List UInt8} {h : Headers} (hbuf : buf.length ≤ 65535) (hptr : h.ptr ≤ 65535) :
    Computes (Indexed.hopOptions buf h) (hopOptions buf h) := by
  unfold Indexed.hopOptions hopOptions
  refine Computes.ite (fun _ => ?_) fun _ => Computes.ok _
  rw [Option.map_eq_bind]
  exact Computes.bind (computes_optionsHeader hbuf hptr) fun _ _ => Computes.ok _

theorem hopOptions_ptr {buf : List UInt8} {h h' : Headers} (hbuf : buf.length ≤ 65535) (hptr : h.ptr ≤ 65535)
    (heq : hopOptions buf h = some h') : h'.ptr ≤ 65535 := by
  rw [hopOptions] at heq
  split at heq
  · obtain ⟨r, hr, rfl⟩ := Option.map_eq_some_iff.mp heq
    exact Nat.le_trans (optionsHeader_ptr hr) hbuf
  · rwa [← Option.some.inj heq]

theorem computes_dstOptions {buf : List UInt8} {h : Headers} (hbuf : buf.length ≤ 65535) (hptr : h.ptr ≤ 65535) :
    Computes (Indexed.dstOptions buf h) (dstOptions buf h) := by
  unfold Indexed.dstOptions dstOptions
  refine Computes.ite (fun _ => ?_) fun _ => Computes.ok _
  rw [Option.map_eq_bind]
  exact Computes.bind (computes_optionsHeader hbuf hptr) fun _ _ => Computes.ok _

theorem dstOptions_ptr {buf : List UInt8} {h h' : Headers} (hbuf : buf.length ≤ 65535) (hptr : h.ptr ≤ 65535)
    (heq : dstOptions buf h = some h') : h'.ptr ≤ 65535 := by
  rw [dstOptions] at heq
  split at heq
  · obtain ⟨r, hr, rfl⟩ := Option.map_eq_some_iff.mp heq
    exact Nat.le_trans (optionsHeader_ptr hr) hbuf
  · rwa [← Option.some.inj heq]

theorem computes_fragmentHeader {buf : List UInt8} {h : Headers} (hptr : h.ptr ≤ 65535) :
    Computes (Indexed.fragmentHeader buf h) (fragmentHeader buf h) := by
  unfold Indexed.fragmentHeader fragmentHeader
  refine Computes.ite (fun _ => ?_) fun _ => Computes.ok _
  refine Computes.step (fits_eq (by omega)) (Computes.refuse fun _ => ?_)
  refine Computes.bind (computes_be16 buf (by omega)) fun offset _ => Computes.refuse fun _ => ?_
  exact Computes.step (index_eq 0 (by omega)) (Computes.ok _)

theorem fragmentHeader_ptr {buf : List UInt8} {h h' : Headers} (hbuf : buf.length ≤ 65535) (hptr : h.ptr ≤ 65535)
    (heq : fragmentHeader buf h = some h') : h'.ptr ≤ 65535 := by
  rw [fragmentHeader] at heq
  split at heq
  · split at heq
    · exact absurd heq (by simp)
    · rename_i hroom
      obtain ⟨offset, -, hsome⟩ := Option.bind_eq_some_iff.mp heq
      split at hsome
      · exact absurd hsome (by simp)
      · obtain rfl := Option.some.inj hsome
        exact Nat.le_trans (Nat.le_of_not_lt hroom) hbuf
  · rwa [← Option.some.inj heq]

theorem answerIcmp6_eq {buf : List UInt8} (h : Headers) (siz : Nat) (sender : BitVec 128) (hoplimit tclass : Int)
    (quoted : UInt32 × Option Duration) (outcome : Impl.Traceroute.Outcome) (hbuf : buf.length ≤ 65535)
    (hlen : 48 ≤ buf.length) :
    Computes (Indexed.answerIcmp6 buf (buf.drop ICMP_HDR) h siz sender hoplimit tclass quoted outcome)
      ((be32 (buf.drop ICMP_HDR) 0).bind fun word =>
        some {
          branch := .v6Err
          outcome
          seq := quoted.1
          sender := .v6 sender
          ttl := hoplimit
          tos := tclass
          size := buf.length - ICMP_HDR
          innerTtl := byteAt (buf.drop ICMP_HDR) 7
          innerTos := ((word >>> 20) &&& 0xff).toUInt8
          hbhOptSize := h.hbh
          dstOptSize := h.dst
          innerL4Len := UInt32.ofNat siz
          sentTv := quoted.2
          icmpext := icmpExt (buf.drop ICMP_HDR) ((byteAt buf 4).toNat * 8) }) := by
  have heip : (buf.drop ICMP_HDR).length = buf.length - 8 := List.length_drop
  have hunits := (buf.getD 4 0).toNat_lt
  unfold Indexed.answerIcmp6
  refine Computes.step (fitsInt_eq (by rw [ICMP_HDR]; omega) (by rw [ICMP_HDR]; omega)) ?_
  refine Computes.step (index_eq 0 (by omega)) (Computes.bind (computes_be32 _ (by decide)) fun word _ => ?_)
  refine Computes.step (index_eq 0 (by omega)) ?_
  exact Computes.step (icmpExt_eq hbuf (by rw [ICMP_HDR]; omega) (by omega)) (Computes.ok _)

/-- An error that quotes a probe with this sequence number and send time. -/
def matched (id : TraceId) (buf : List UInt8) (h : Headers) (siz : Nat) (sender : BitVec 128)
    (hoplimit tclass : Int) (quoted : UInt32 × Option Duration) : Option Answer :=
  if quotedProtocol h.nxt ≠ id.protocol then none
  else
    let answer outcome := (be32 (buf.drop ICMP_HDR) 0).bind fun word =>
      some {
        branch := .v6Err
        outcome
        seq := quoted.1
        sender := .v6 sender
        ttl := hoplimit
        tos := tclass
        size := buf.length - ICMP_HDR
        innerTtl := byteAt (buf.drop ICMP_HDR) 7
        innerTos := ((word >>> 20) &&& 0xff).toUInt8
        hbhOptSize := h.hbh
        dstOptSize := h.dst
        innerL4Len := UInt32.ofNat siz
        sentTv := quoted.2
        icmpext := icmpExt (buf.drop ICMP_HDR) ((byteAt buf 4).toNat * 8) }
    if byteAt buf 0 = 3 then answer .timeExceeded
    else if byteAt buf 0 = 2 then ((be32 buf 4).map Impl.Traceroute.Outcome.tooBig).bind answer
    else answer (.unreach (byteAt buf 1))

theorem computes_matchedIcmp6 (id : TraceId) {buf : List UInt8} (h : Headers) (siz : Nat) (sender : BitVec 128)
    (hoplimit tclass : Int) (quoted : UInt32 × Option Duration) (hbuf : buf.length ≤ 65535) (hlen : 48 ≤ buf.length) :
    Computes (Indexed.matchedIcmp6 id buf (buf.drop ICMP_HDR) h siz (byteAt buf 0) sender hoplimit tclass quoted)
      (matched id buf h siz sender hoplimit tclass quoted) := by
  unfold Indexed.matchedIcmp6 matched
  have hanswer (outcome : Impl.Traceroute.Outcome) := answerIcmp6_eq h siz sender hoplimit tclass quoted outcome hbuf hlen
  refine Computes.refuse fun _ => Computes.ite (fun _ => hanswer _) fun _ => Computes.ite (fun _ => ?_) fun _ => ?_
  · exact Computes.bindMap (computes_be32 _ (by decide)) fun mtu _ => hanswer _
  · exact Computes.step (index_eq 0 (by omega)) (hanswer _)

theorem computes_parseIcmp6 (id : TraceId) {buf : List UInt8} (sender : BitVec 128) (hoplimit tclass : Int)
    (h : buf.length ≤ 65535) :
    Computes (Indexed.parseIcmp6 id buf sender hoplimit tclass) (parseIcmp6 id buf sender hoplimit tclass) := by
  unfold Indexed.parseIcmp6 parseIcmp6
  refine Computes.refuse fun hlen => ?_
  rw [ICMP_HDR] at hlen
  refine Computes.step (index_eq 0 (by omega)) ?_
  refine Computes.ite (fun _ => ?_) fun _ => Computes.ite (fun _ => ?_) fun _ => Computes.absent
  · unfold Indexed.errorIcmp6
    refine Computes.refuse fun hlen => ?_
    rw [ICMP_HDR] at hlen
    refine Computes.step (sliceFrom_eq (by rw [ICMP_HDR]; omega)) ?_
    refine Computes.step (index_eq 0 (by rw [List.length_drop, ICMP_HDR]; omega)) (Computes.refuse fun _ => ?_)
    have hptr₀ : ICMP_HDR + 40 ≤ 65535 := by decide
    refine Computes.bind (computes_hopOptions h hptr₀) fun h₁ heq₁ => ?_
    have hptr₁ := hopOptions_ptr h hptr₀ heq₁
    refine Computes.bind (computes_fragmentHeader hptr₁) fun h₂ heq₂ => ?_
    have hptr₂ := fragmentHeader_ptr h hptr₁ heq₂
    refine Computes.bind (computes_dstOptions h hptr₂) fun h₃ heq₃ => ?_
    have hptr₃ := dstOptions_ptr h hptr₂ heq₃
    have hmatched (siz : Nat) (quoted : UInt32 × Option Duration) :=
      computes_matchedIcmp6 id h₃ siz sender hoplimit tclass quoted h (by omega)
    by_cases htcp : h₃.nxt = IPPROTO_TCP
    · simp only [if_pos htcp]
      refine Computes.step (fits_eq (by rw [TCP_HDR]; omega)) (Computes.refuse fun _ => ?_)
      refine Computes.step (fits_eq (by omega)) (Computes.bind (computes_be32 buf (by omega)) fun tseq _ => ?_)
      exact Computes.refuse fun _ => hmatched _ _
    · simp only [if_neg htcp]
      refine Computes.step (fits_eq (by rw [V6INFO_LEN]; omega)) (Computes.refuse fun hroom => ?_)
      refine Computes.step (fits_eq (by omega)) (Computes.step (sliceFrom_eq (by omega)) ?_)
      refine Computes.bind (computes_readV6Info _) fun info _ => ?_
      exact Computes.refuse fun _ => hmatched _ _
  · unfold Indexed.echoIcmp6
    refine Computes.step (getRange_eq (by rw [ICMP_HDR]; omega) (Nat.le_refl _)) ?_
    rw [List.take_length]
    refine Computes.bind (computes_readV6Info _) fun info _ => Computes.refuse fun _ => ?_
    exact Computes.step (fitsInt_eq (by rw [ICMP_HDR]; omega) (by rw [ICMP_HDR]; omega)) (Computes.ok _)

/-! ## TCP -/

theorem computes_tcpSegment {buf : List UInt8} (sender : IpAddr) (hoplimit tclass : Int) (h : buf.length ≤ 65535) :
    Computes (Indexed.tcpSegment buf sender hoplimit tclass) (tcpSegment buf sender hoplimit tclass) := by
  unfold Indexed.tcpSegment tcpSegment
  cases sender with
  | v4 sender =>
    refine Computes.bind (Computes.ofOption _) fun first _ => ?_
    have hnibble := nibble_le first
    refine Computes.step (fits_eq (by rw [TCP_HDR]; omega)) (Computes.refuse fun hlen => ?_)
    rw [TCP_HDR] at hlen
    refine Computes.step (sliceFrom_eq (by omega)) ?_
    refine Computes.step (index_eq 0 (by omega)) (Computes.step (index_eq 0 (by omega)) ?_)
    refine Computes.step (fitsInt_eq (by rw [IPHDR]; omega) (by rw [IPHDR]; omega)) ?_
    exact Computes.step (fitsInt_eq (by rw [IPHDR, TCP_HDR]; omega) (by rw [IPHDR, TCP_HDR]; omega)) (Computes.ok _)
  | v6 sender =>
    exact Computes.step (fitsInt_eq (by rw [TCP_HDR]; omega) (by rw [TCP_HDR]; omega)) (Computes.ok _)

theorem tcpSegment_length {buf : List UInt8} {sender : IpAddr} {hoplimit tclass : Int}
    {segment : List UInt8 × Int × Int × Int × Branch} (h : tcpSegment buf sender hoplimit tclass = some segment) :
    segment.1.length ≤ buf.length := by
  cases sender with
  | v4 sender =>
    obtain ⟨first, -, hrest⟩ := Option.bind_eq_some_iff.mp h
    simp only at hrest
    split at hrest
    · exact absurd hrest (by simp)
    · obtain rfl := Option.some.inj hrest
      exact List.length_drop ▸ Nat.sub_le ..
  | v6 sender =>
    obtain rfl := Option.some.inj h
    exact Nat.le_refl _

theorem segmentOptions_eq {tcp : List UInt8} {tcpHlen : Nat} (h : tcp.length ≤ 65535) (hlen : tcpHlen ≤ tcp.length) :
    Indexed.segmentOptions tcp tcpHlen =
      .ok (if tcpHlen > TCP_HDR then some (hdropts ((tcp.take tcpHlen).drop TCP_HDR)) else none) := by
  rw [Indexed.segmentOptions]
  by_cases hopts : tcpHlen > TCP_HDR
  · have hl : ((tcp.take tcpHlen).drop TCP_HDR).length ≤ 65535 := by
      rw [List.length_drop, List.length_take]
      omega
    rw [if_pos hopts, if_pos hopts, slice_eq (Nat.le_of_lt hopts) hlen, ok_bind, hdropts_eq hl]
    rfl
  · rw [if_neg hopts, if_neg hopts]
    rfl

theorem computes_parseTcp (id : TraceId) {buf : List UInt8} (sender : IpAddr) (hoplimit tclass : Int)
    (h : buf.length ≤ 65535) :
    Computes (Indexed.parseTcp id buf sender hoplimit tclass) (parseTcp id buf sender hoplimit tclass) := by
  unfold Indexed.parseTcp parseTcp
  refine Computes.bind (computes_tcpSegment sender hoplimit tclass h) fun segment heq => ?_
  have hle := tcpSegment_length heq
  refine Computes.refuse fun hlen => ?_
  rw [TCP_HDR] at hlen
  refine Computes.step (index_eq 0 (by omega)) (Computes.refuse fun hdoff => ?_)
  refine Computes.bind (computes_be32 _ (by decide)) fun ack _ => ?_
  refine Computes.bind (computes_be16 _ (by decide)) fun port _ => Computes.refuse fun _ => ?_
  refine Computes.step (index_eq 0 (by omega)) ?_
  refine Computes.step (segmentOptions_eq (by omega) ?_) (Computes.ok _)
  exact Nat.le_of_not_lt fun hlt => hdoff (.inl hlt)

/-! ## Any reply -/

/-- Whatever a packet of at most 65535 bytes says, reading it indexes nothing
out of range and overflows nothing, and gives what reading it off the front
does. -/
theorem parseReply_computes (id : TraceId) (fromTcpSocket : Bool) (buf : List UInt8) (sender : IpAddr)
    (hoplimit tclass : Int) (curSeq : UInt16) (h : buf.length ≤ 65535) :
    Indexed.parseReply id fromTcpSocket buf sender hoplimit tclass curSeq ≠ .error .panics ∧
      Indexed.parseReply id fromTcpSocket buf sender hoplimit tclass curSeq =
        Checked.ofOption (parseReply id fromTcpSocket buf sender hoplimit tclass curSeq) := by
  have hcomputes : Computes (Indexed.parseReply id fromTcpSocket buf sender hoplimit tclass curSeq)
      (parseReply id fromTcpSocket buf sender hoplimit tclass curSeq) := by
    unfold Indexed.parseReply parseReply
    refine Computes.ite (fun _ => computes_parseTcp id sender hoplimit tclass h) fun _ => ?_
    cases sender with
    | v4 sender => exact computes_parseIcmp4 id sender curSeq h
    | v6 sender => exact computes_parseIcmp6 id sender hoplimit tclass h
  exact ⟨hcomputes.not_panics, hcomputes⟩

/-- An IPv4 header that says it is longer than the packet. -/
theorem parseReply_computes_truncated :
    Indexed.parseReply ⟨false, .ICMP, 1, 1, .v4 0, none⟩ false (List.replicate 40 0x4f) (.v4 0) 0 0 0 ≠
      .error .panics :=
  (parseReply_computes ⟨false, .ICMP, 1, 1, .v4 0, none⟩ false (List.replicate 40 0x4f) (.v4 0) 0 0 0 (by decide)).1

end Starla.Proof.Traceroute.Indexed
