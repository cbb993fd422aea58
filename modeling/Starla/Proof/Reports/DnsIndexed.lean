import Starla.Impl.Reports.DnsIndexed
import Starla.Proof.Measurements.DnsName

/-!
# Reading a name never leaves the packet

For a packet of any bytes and from any offset, `read_name` and `dns_namelen`
come to an end with every index and slice in the packet and no sum that
overflows, whatever its compression pointers do, and a name that is read has at
most 254 bytes of labels and dots (`readName_returns`).

Each turn of `read_name` takes a label, of which at most 255 bytes go in, or
one of at most 257 jumps; the offset says nothing. `computes_readNameFrom`
follows the code turn by turn, `spelled_readNameFrom` what has been written.
-/

namespace Starla.Proof.Reports.DnsIndexed

open Starla.Framework Starla.Framework.Checked Starla.Impl.Reports Starla.Impl.Reports.DnsIndexed
open Starla.Impl.Reports.Dns (byteAt pushBytes)
open Starla.Proof.Measurements.DnsName (pushBytes_append pushBytes_dot)

/-! ## Bits -/

/-- A length's two high bits. -/
theorem and_tag {n : Nat} (h : n < 256) : n &&& 0xC0 = n / 64 * 64 := by
  have hbits : ∀ hi < 4, ∀ lo < 64, (hi * 64 + lo) &&& 0xC0 = hi * 64 := by decide
  have hn := hbits (n / 64) (by omega) (n % 64) (by omega)
  rwa [Nat.div_add_mod'] at hn

theorem tag_eq {n : Nat} (h : n < 256) : (n &&& 0xC0 ≠ 0) = (n / 64 ≠ 0) ∧ (n &&& 0xC0 ≠ 0xC0) = (n / 64 ≠ 3) := by
  rw [and_tag h]
  exact ⟨propext (by omega), propext (by omega)⟩

/-- A pointer's target by its bytes. -/
theorem target_eq (len : Nat) {low : Nat} (h : low < 256) : (len &&& 0x3F) <<< 8 ||| low = len % 64 * 256 + low := by
  have hmask : len &&& 0x3F = len % 64 := Nat.and_two_pow_sub_one_eq_mod len 6
  rw [hmask, ← Nat.shiftLeft_add_eq_or_of_lt (i := 8) h, Nat.shiftLeft_eq]

/-! ## The code never panics -/

variable {w : Nat} {base : List UInt8}

/-- A `usize` has room for every offset in the packet and a label after it. -/
def Room (w : Nat) (base : List UInt8) : Prop := base.length + 512 ≤ 2 ^ w

theorem counted_eq {jumped : Bool} {count n : Nat} (h : jumped = false → count + n < 2 ^ w) :
    counted w jumped count n = .ok (if jumped then count else count + n) := by
  cases jumped with
  | true => rfl
  | false =>
    rw [counted, if_neg Bool.false_ne_true, fits_eq (h rfl), ok_bind]
    rfl

/-- A turn at a byte that is not the end of the name. -/
theorem readNameFrom_inside {offset len : Nat} (hin : offset < base.length) (hlen : byteAt base offset = len)
    (hne : len ≠ 0) (name : String) (count p jumps : Nat) (jumped : Bool) :
    readNameFrom w base offset name count p jumped jumps =
      (if len / 64 ≠ 0 then
        if len / 64 ≠ 3 then .error .absent
        else do
          fits w (offset + 1)
          let next := len % 64 * 256 + byteAt base (offset + 1)
          if next ≥ base.length ∨ jumps > 256 then .error .absent
          else do
            let count ← counted w jumped count 2
            fits 32 (jumps + 1)
            readNameFrom w base next name count p true (jumps + 1)
      else do
        fits w (offset + len + 1)
        if offset + len + 1 > base.length then .error .absent
        else do
          fits w (p + len + 1)
          if p + len + 1 > 255 then .error .absent
          else do
            fits w (offset + 1 + len)
            let label ← slice base (offset + 1) (offset + 1 + len)
            let count ← counted w jumped count (len + 1)
            readNameFrom w base (offset + len + 1) ((if p > 0 then name ++ "." else name) ++ pushBytes label) count
              (p + len + 1) jumped jumps) := by
  have hbyte : (base.getD offset 0).toNat = len := hlen
  have hlt : len < 256 := by
    rw [← hbyte]
    exact (base.getD offset 0).toNat_lt
  rw [DnsIndexed.readNameFrom]
  simp only [if_pos hin, index_eq 0 hin, ok_bind, hbyte, if_neg hne, (tag_eq hlt).1, (tag_eq hlt).2,
    target_eq len (UInt8.toNat_lt _)]
  rfl

theorem computes_readNameFrom (hroom : Room w base) {offset : Nat} {name : String} {count p jumps : Nat} {jumped : Bool}
    (hcount : jumped = false → count ≤ p) (hp : p ≤ 255) (hjumps : jumps ≤ 257) :
    Computes (readNameFrom w base offset name count p jumped jumps)
      (Dns.readNameFrom base offset name count p jumped jumps) := by
  unfold Room at hroom
  fun_induction Dns.readNameFrom base offset name count p jumped jumps with
  | case1 offset name count p jumped jumps len hin htag htag' => 
    rw [readNameFrom_inside hin.1 rfl hin.2, if_pos htag, if_pos htag']
    exact Computes.absent
  | case2 offset name count p jumped jumps len hin htag htag' next hnext =>
    rw [readNameFrom_inside hin.1 rfl hin.2, if_pos htag, if_neg htag']
    refine Computes.step (fits_eq (by omega)) ?_
    rw [if_pos hnext]
    exact Computes.absent
  | case3 offset name count p jumped jumps len hin htag htag' next hnext ih =>
    rw [readNameFrom_inside hin.1 rfl hin.2, if_pos htag, if_neg htag']
    refine Computes.step (fits_eq (by omega)) ?_
    rw [if_neg hnext]
    refine Computes.step (counted_eq fun h => ?_) ?_
    · have := hcount h
      omega
    · refine Computes.step (fits_eq (by omega)) ?_
      exact ih (fun h => nomatch h) hp (by omega)
  | case4 offset name count p jumped jumps len hin htag hlong =>
    rw [readNameFrom_inside hin.1 rfl hin.2, if_neg htag]
    refine Computes.step (fits_eq (by omega)) ?_
    by_cases hsize : offset + len + 1 > base.length
    · rw [if_pos hsize]
      exact Computes.absent
    · rw [if_neg hsize]
      refine Computes.step (fits_eq (by omega)) ?_
      rw [if_pos (hlong.resolve_left hsize)]
      exact Computes.absent
  | case5 offset name count p jumped jumps len hin htag hlong label ih =>
    have hslice : slice base (offset + 1) (offset + 1 + len) = .ok ((base.drop (offset + 1)).take len) := by
      rw [slice_eq (by omega) (by omega), List.drop_take, Nat.add_sub_cancel_left]
    have hname : (if p > 0 then name ++ "." else name) ++ pushBytes ((base.drop (offset + 1)).take len) =
        name ++ label := by
      rw [← String.append_assoc]
      split_ifs <;> simp
    rw [readNameFrom_inside hin.1 rfl hin.2, if_neg htag]
    refine Computes.step (fits_eq (by omega)) ?_
    rw [if_neg fun h => hlong (Or.inl h)]
    refine Computes.step (fits_eq (by omega)) ?_
    rw [if_neg fun h => hlong (Or.inr h)]
    refine Computes.step (fits_eq (by omega)) (Computes.step hslice (Computes.step (counted_eq fun h => ?_) ?_))
    · have := hcount h
      omega
    · rw [hname]
      refine ih (fun h => ?_) (by omega) hjumps
      have := hcount h
      rw [h, dif_neg Bool.false_ne_true]
      omega
  | case6 offset name count p jumped jumps len hend =>
    have hcounted : counted w jumped count 1 = .ok (if jumped then count else count + 1) := counted_eq fun h => by
      have := hcount h
      omega
    by_cases hin : offset < base.length
    · have hzero : (base.getD offset 0).toNat = 0 := by
        by_contra hne
        exact hend ⟨hin, hne⟩
      rw [DnsIndexed.readNameFrom, if_pos hin, index_eq 0 hin, ok_bind, hzero, hcounted]
      rfl
    · rw [DnsIndexed.readNameFrom, if_neg hin, hcounted]
      rfl

theorem taken_eq {start offset : Nat} (h : start ≤ offset) : taken start offset = .ok (offset - start) := by
  rw [taken, check_eq h, ok_bind]
  rfl

theorem dnsNamelenFrom_inside {offset len : Nat} (hin : offset < base.length) (hlen : byteAt base offset = len)
    (start : Nat) :
    dnsNamelenFrom w base start offset =
      (if len / 64 ≠ 0 then
        if len / 64 ≠ 3 then .error .absent
        else do
          fits w (offset + 1)
          taken start (offset + 1)
      else do
        fits w (offset + len + 1)
        if offset + len + 1 > base.length then .error .absent
        else if len = 0 then taken start (offset + len + 1)
        else dnsNamelenFrom w base start (offset + len + 1)) := by
  have hbyte : (base.getD offset 0).toNat = len := hlen
  have hlt : len < 256 := by
    rw [← hbyte]
    exact (base.getD offset 0).toNat_lt
  rw [DnsIndexed.dnsNamelenFrom]
  simp only [dif_pos hin, index_eq 0 hin, ok_bind, hbyte, (tag_eq hlt).1, (tag_eq hlt).2]

theorem computes_dnsNamelenFrom (hroom : Room w base) {start offset : Nat} (h : start ≤ offset) :
    Computes (dnsNamelenFrom w base start offset) (Dns.dnsNamelenFrom base start offset) := by
  unfold Room at hroom
  fun_induction Dns.dnsNamelenFrom base start offset with
  | case1 offset len hin htag htag' =>
    rw [dnsNamelenFrom_inside hin rfl, if_pos htag, if_pos htag']
    exact Computes.absent
  | case2 offset len hin htag htag' =>
    rw [dnsNamelenFrom_inside hin rfl, if_pos htag, if_neg htag']
    refine Computes.step (fits_eq (by omega)) ?_
    rw [taken_eq (by omega)]
    exact Computes.ok _
  | case3 offset len hin htag hlong =>
    rw [dnsNamelenFrom_inside hin rfl, if_neg htag]
    refine Computes.step (fits_eq (by omega)) ?_
    rw [if_pos hlong]
    exact Computes.absent
  | case4 offset len hin htag hlong hzero =>
    rw [dnsNamelenFrom_inside hin hzero, if_neg (by decide)]
    refine Computes.step (fits_eq (by omega)) ?_
    rw [if_neg (by omega), if_pos rfl, taken_eq (by omega)]
    exact Computes.ok _
  | case5 offset len hin htag hlong hne ih =>
    rw [dnsNamelenFrom_inside hin rfl, if_neg htag]
    refine Computes.step (fits_eq (by omega)) ?_
    rw [if_neg hlong, if_neg hne]
    exact ih (by omega)
  | case6 offset hin =>
    rw [DnsIndexed.dnsNamelenFrom, dif_neg hin, taken_eq h]
    exact Computes.ok _

/-! ## What is written of a name -/

/-- The labels of `name`, in its `p` bytes of labels and lengths. -/
structure Spelled (name : String) (p : Nat) (labels : List (List UInt8)) : Prop where
  short : ∀ label ∈ labels, 0 < label.length ∧ label.length ≤ 63
  text : name = pushBytes ([0x2E].intercalate labels)
  size : p = if labels = [] then 0 else ([0x2E].intercalate labels).length + 1

theorem intercalate_concat (labels : List (List UInt8)) (label : List UInt8) :
    [0x2E].intercalate (labels ++ [label]) =
      if labels = [] then label else [0x2E].intercalate labels ++ (0x2E :: label) := by
  induction labels with
  | nil => exact List.intercalate_singleton
  | cons first labels ih =>
    have hne : labels ++ [label] ≠ [] := by simp
    rw [List.cons_append, List.intercalate_cons_of_ne_nil hne, ih, if_neg (List.cons_ne_nil _ _)]
    cases labels with
    | nil => simp
    | cons second labels =>
      rw [if_neg (List.cons_ne_nil _ _), List.intercalate_cons_of_ne_nil (List.cons_ne_nil _ _)]
      simp only [List.append_assoc]

theorem Spelled.concat {name : String} {p : Nat} {labels : List (List UInt8)} (h : Spelled name p labels)
    {label : List UInt8} (hlabel : 0 < label.length ∧ label.length ≤ 63) :
    Spelled (name ++ ((if p > 0 then "." else "") ++ pushBytes label)) (p + label.length + 1) (labels ++ [label]) := by
  have hsize := h.size
  refine ⟨?_, ?_, ?_⟩
  · intro l hl
    rcases List.mem_append.mp hl with hl | hl
    · exact h.short l hl
    · rw [List.mem_singleton.mp hl]
      exact hlabel
  · rw [intercalate_concat, h.text]
    by_cases hnil : labels = []
    · rw [if_pos hnil] at hsize ⊢
      rw [hnil, hsize, if_neg (by decide)]
      simp [Dns.pushBytes]
    · rw [if_neg hnil] at hsize ⊢
      rw [if_pos (by omega), ← pushBytes_dot, ← pushBytes_append, ← pushBytes_append]
      rfl
  · rw [intercalate_concat, if_neg (by simp)]
    split_ifs at hsize ⊢
    · omega
    · rw [List.length_append, List.length_cons]
      omega

theorem spelled_readNameFrom {offset : Nat} {name : String} {count p jumps used : Nat} {jumped : Bool} {r : String}
    {labels : List (List UInt8)} (h : Spelled name p labels) (hp : p ≤ 255)
    (hread : Dns.readNameFrom base offset name count p jumped jumps = some (r, used)) :
    ∃ labels' p', Spelled r p' labels' ∧ p' ≤ 255 := by
  fun_induction Dns.readNameFrom base offset name count p jumped jumps generalizing labels with
  | case1 => cases hread
  | case2 => cases hread
  | case3 =>
    rename_i ih
    exact ih h hp hread
  | case4 => cases hread
  | case5 =>
    rename_i offset name count p jumped jumps len hin htag hlong text ih
    have hlen : ((base.drop (offset + 1)).take len).length = len := by
      rw [List.length_take, List.length_drop]
      omega
    have hlabel : 0 < ((base.drop (offset + 1)).take len).length ∧ ((base.drop (offset + 1)).take len).length ≤ 63 := by
      omega
    have hconcat := h.concat hlabel
    rw [hlen] at hconcat
    exact ih hconcat (by omega) hread
  | case6 =>
    cases hread
    exact ⟨labels, _, h, hp⟩

/-! ## Names -/

theorem readName_spelled {offset used : Nat} {name : String} (h : Dns.readName base offset = some (name, used)) :
    ∃ labels, (∀ label ∈ labels, 0 < label.length ∧ label.length ≤ 63) ∧
      name = pushBytes ([0x2E].intercalate labels) ∧ ([0x2E].intercalate labels).length ≤ 254 := by
  have hroot : Spelled "" 0 [] := ⟨(fun _ hl => nomatch hl), rfl, rfl⟩
  obtain ⟨labels, p, hname, hp⟩ := spelled_readNameFrom hroot (Nat.zero_le 255) h
  refine ⟨labels, hname.short, hname.text, ?_⟩
  have hsize := hname.size
  split_ifs at hsize with hnil
  · rw [hnil]
    exact Nat.zero_le 254
  · omega

/-- For every packet that a slice can be, and every offset: the code comes to an
end without a panic, and a name that is read is labels with dots between them,
all of at most 254 bytes, before any byte of it is escaped. -/
theorem readName_returns (w : Nat) (hw : 16 ≤ w) (base : List UInt8) (hbase : base.length < 2 ^ (w - 1)) :
    (∀ offset, Computes (readName w base offset) (Dns.readName base offset)) ∧
    (∀ start, Computes (dnsNamelen w base start) (Dns.dnsNamelen base start)) ∧
    ∀ offset name used, Dns.readName base offset = some (name, used) →
      ∃ labels, (∀ label ∈ labels, 0 < label.length ∧ label.length ≤ 63) ∧
        name = pushBytes ([0x2E].intercalate labels) ∧ ([0x2E].intercalate labels).length ≤ 254 := by
  have hroom : Room w base := by
    have hpow : 2 ^ w = 2 * 2 ^ (w - 1) := by
      rw [← Nat.pow_succ', Nat.succ_eq_add_one, Nat.sub_add_cancel (by omega)]
    have hleast : 2 ^ 15 ≤ 2 ^ (w - 1) := Nat.pow_le_pow_right (by decide) (by omega)
    unfold Room
    omega
  refine ⟨fun offset => ?_, fun start => ?_, fun offset name used => readName_spelled⟩
  · exact computes_readNameFrom hroom (fun _ => Nat.le_refl 0) (by decide) (by decide)
  · exact computes_dnsNamelenFrom hroom (Nat.le_refl start)

/-- A pointer to itself. -/
theorem readName_returns_self : readName 64 [0xC0, 0] 0 ≠ .error .panics :=
  ((readName_returns 64 (by decide) [0xC0, 0] (by decide)).1 0).not_panics

end Starla.Proof.Reports.DnsIndexed
