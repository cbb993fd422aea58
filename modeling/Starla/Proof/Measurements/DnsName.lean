import Mathlib.Tactic.Common
import Starla.Framework.LengthPrefixed
import Starla.Impl.Measurements.DnsName
import Starla.Impl.Reports.Dns

/-!
# A name read back

A name that is encoded is a list of labels, each after its length
(`encodeLabels_labels`). Where a packet has them, a reader goes over one label
after the other (`readNameFrom_labels`, `dnsNamelenFrom_labels`), so the name
comes back, also over a pointer to it (`encodeName_round_trip`).
-/

namespace Starla.Proof.Measurements.DnsName

open Starla.Framework Starla.Impl.Measurements.DnsName Starla.Impl.Reports Starla.Impl.Reports.Dns

/-! ## Texts and bytes -/

/-- A character that is written as it is. -/
def isPlain (c : Char) : Bool := ' ' ≤ c && c ≤ '~' && c != '"' && c != '\\'

/-- A text of bytes from ' ' to '~' other than quote and backslash. -/
def PlainName (name : String) : Prop := name.toList.all isPlain = true

instance (name : String) : Decidable (PlainName name) := inferInstanceAs (Decidable (_ = _))

theorem pushBytes_append (a b : List UInt8) : pushBytes (a ++ b) = pushBytes a ++ pushBytes b := by
  rw [pushBytes, List.map_append, String.join_append]
  rfl

theorem pushBytes_dot : pushBytes [0x2E] = "." := by decide

theorem isPlain_iff {c : Char} : isPlain c = true ↔ ' ' ≤ c ∧ c ≤ '~' ∧ c ≠ '"' ∧ c ≠ '\\' := by
  simp [isPlain, and_assoc]

theorem pushByte_plain {c : Char} (h : isPlain c = true) : pushByte c.val.toUInt8 = String.ofList [c] := by
  obtain ⟨hlo, hhi, hquote, hbackslash⟩ := isPlain_iff.mp h
  have hlo' : 0x20 ≤ c.toNat := hlo
  have hhi' : c.toNat ≤ 0x7E := hhi
  have hval : c.val.toUInt8.toNat = c.toNat := by
    rw [UInt32.toNat_toUInt8]
    exact Nat.mod_eq_of_lt (by show c.toNat < 256; omega)
  have hc : Char.ofNat c.toNat = c := Char.ofNat_toNat c
  have hne : ∀ {d : Char}, c ≠ d → c.toNat ≠ d.toNat := fun h heq => h (Char.toNat_inj.mp heq)
  have hq : c.toNat ≠ 34 := hne hquote
  have hb : c.toNat ≠ 92 := hne hbackslash
  have hplain : ¬ (c.val.toUInt8 = 0x22 ∨ c.val.toUInt8 = 0x5C ∨
      ¬ (0x20 ≤ c.val.toUInt8 ∧ c.val.toUInt8 ≤ 0x7E)) := by
    simp only [← UInt8.toNat_inj, UInt8.le_iff_toNat_le, hval]
    simp
    omega
  rw [pushByte, if_neg hplain, hval, hc]

theorem asBytes_ofList_cons (c : Char) (cs : List Char) :
    asBytes (String.ofList (c :: cs)) = String.utf8EncodeChar c ++ asBytes (String.ofList cs) := by
  simp [asBytes, List.utf8Encode]

theorem utf8Size_plain {c : Char} (h : isPlain c = true) : c.utf8Size = 1 :=
  Char.utf8Size_eq_one_iff.mpr (UInt32.le_trans (isPlain_iff.mp h).2.1 (by decide))

/-- A plain name is what is written of its bytes. -/
theorem pushBytes_asBytes {name : String} (h : PlainName name) : pushBytes (asBytes name) = name := by
  obtain ⟨cs, rfl⟩ : ∃ cs, name = String.ofList cs := ⟨name.toList, String.ofList_toList.symm⟩
  rw [PlainName, String.toList_ofList] at h
  induction cs with
  | nil => rfl
  | cons c cs ih =>
    rw [List.all_cons, Bool.and_eq_true] at h
    rw [asBytes_ofList_cons, String.utf8EncodeChar_eq_singleton (utf8Size_plain h.1), pushBytes_append, ih h.2]
    show String.join [pushByte c.val.toUInt8] ++ _ = _
    rw [pushByte_plain h.1, String.join_cons, String.join_nil, String.append_empty, ← String.ofList_append]
    rfl

theorem length_asBytes (name : String) : (asBytes name).length = name.utf8ByteSize := by
  simp [asBytes]

/-! ## Labels -/

structure IsLabel (label : List UInt8) : Prop where
  pos : 1 ≤ label.length
  le : label.length ≤ 63

/-- Labels as a name has them, a dot after each. -/
def dotted (labels : List (List UInt8)) : List UInt8 := labels.flatMap (· ++ [0x2E])

theorem dotted_cons (label : List UInt8) (labels : List (List UInt8)) :
    dotted (label :: labels) = label ++ ([0x2E] ++ dotted labels) := by
  rw [dotted, List.flatMap_cons, List.append_assoc]
  rfl

/-- What is encoded are labels. -/
theorem encodeLabels_labels {rest wire : List UInt8} (h : encodeLabels rest = some wire) :
    ∃ labels, rest = dotted labels ∧ wire = prefixed labels ++ [0] ∧ ∀ label ∈ labels, IsLabel label := by
  fun_induction encodeLabels rest generalizing wire with
  | case1 rest hempty =>
    rw [Option.some.injEq] at h
    exact ⟨[], List.isEmpty_iff.mp hempty, h.symm, by simp⟩
  | case2 => cases h
  | case3 => cases h
  | case4 rest hempty dot hdot hlen ih =>
    obtain ⟨out, hout, rfl⟩ := Option.map_eq_some_iff.mp h
    obtain ⟨labels, hrest, rfl, hlabels⟩ := ih hout
    obtain ⟨hlt, hget, -⟩ := List.findIdx?_eq_some_iff_getElem.mp hdot
    have hlength : (rest.take dot).length = dot := List.length_take_of_le hlt.le
    refine ⟨rest.take dot :: labels, ?_, ?_, ?_⟩
    · have hat : rest[dot] = 0x2E := by simpa using hget
      calc rest = rest.take dot ++ rest.drop dot := (List.take_append_drop dot rest).symm
        _ = rest.take dot ++ 0x2E :: dotted labels := by rw [List.drop_eq_getElem_cons hlt, hat, hrest]
        _ = dotted (rest.take dot :: labels) := by simp [dotted]
    · rw [prefixed_cons, hlength, List.cons_append, List.append_assoc]
    · rw [List.forall_mem_cons]
      exact ⟨⟨by omega, by omega⟩, hlabels⟩

theorem length_dotted (labels : List (List UInt8)) : (dotted labels).length = (prefixed labels).length := by
  induction labels with
  | nil => rfl
  | cons label labels ih =>
    rw [prefixed_cons, List.length_cons, List.length_append, ← ih]
    simp [dotted]
    omega

/-- What is encoded of a name. -/
theorem encodeName_labels {name : String} {wire : List UInt8} (hne : name ≠ "") (h : encodeName name = some wire) :
    ∃ labels, asBytes name = (if labels = [] then [0x2E] else dotted labels) ∧ wire = prefixed labels ++ [0] ∧
      (∀ label ∈ labels, IsLabel label) ∧ (prefixed labels).length ≤ 254 := by
  unfold encodeName at h
  split_ifs at h with hlen hroot
  · rw [Option.some.injEq] at h
    subst hroot
    exact ⟨[], by rw [if_pos rfl]; decide, h.symm, by simp, by simp⟩
  · obtain ⟨labels, hbytes, hwire, hlabels⟩ := encodeLabels_labels h
    have hlabelsne : labels ≠ [] := fun hnil => by
      rw [hnil] at hbytes
      have hzero : name.utf8ByteSize = 0 := by rw [← length_asBytes, hbytes]; rfl
      exact hne (String.utf8ByteSize_eq_zero_iff.mp hzero)
    refine ⟨labels, by rw [if_neg hlabelsne, hbytes], hwire, hlabels, ?_⟩
    rw [← length_dotted, ← hbytes, length_asBytes]
    rw [MAXLEN] at hlen
    omega

/-! ## Reading -/

variable {base : List UInt8} {offset : Nat} {label : List UInt8} {labels : List (List UInt8)}

theorem byteAt_label {more : List UInt8} (hlabel : IsLabel label)
    (h : Placed base offset (UInt8.ofNat label.length :: more)) : byteAt base offset = label.length := by
  have hle := hlabel.le
  rw [byteAt, h.getD, toNat_length (by omega)]

theorem readNameFrom_label {name : String} {count p jumps : Nat} {jumped : Bool} {more : List UInt8}
    (hlabel : IsLabel label) (h : Placed base offset (UInt8.ofNat label.length :: (label ++ more)))
    (hp : p + label.length + 1 ≤ 255) :
    readNameFrom base offset name count p jumped jumps =
      readNameFrom base (offset + label.length + 1) (name ++ ((if p > 0 then "." else "") ++ pushBytes label))
        (if jumped then count else count + label.length + 1) (p + label.length + 1) jumped jumps := by
  have hlen := byteAt_label hlabel h
  obtain ⟨hpos, hle⟩ := hlabel
  have hplace := (show Placed base offset ((UInt8.ofNat label.length :: label) ++ more) from h).left.length_le (by simp)
  rw [List.length_cons] at hplace
  have htake := h.tail.left.take
  rw [readNameFrom, hlen, if_pos (by omega), if_neg (by omega), if_neg (by omega), htake]

theorem readNameFrom_end {name : String} {count p jumps : Nat} {jumped : Bool} (h : Placed base offset [0]) :
    readNameFrom base offset name count p jumped jumps = some (name, if jumped then count else count + 1) := by
  have hlen : byteAt base offset = 0 := by rw [byteAt, h.getD]; rfl
  rw [readNameFrom, hlen, if_neg (by omega)]

/-- What is written of labels after `p` bytes. -/
def labelsText : (p : Nat) → List (List UInt8) → String
  | _, [] => ""
  | p, label :: labels =>
    (if p > 0 then "." else "") ++ pushBytes label ++ labelsText (p + label.length + 1) labels

/-- Labels that a packet has somewhere are all read. -/
theorem readNameFrom_labels (hlabels : ∀ label ∈ labels, IsLabel label) (h : Placed base offset (prefixed labels ++ [0]))
    (name : String) (count p jumps : Nat) (jumped : Bool) (hp : p + (prefixed labels).length ≤ 255) :
    readNameFrom base offset name count p jumped jumps =
      some (name ++ labelsText p labels, if jumped then count else count + ((prefixed labels).length + 1)) := by
  induction labels generalizing offset name count p with
  | nil =>
    rw [readNameFrom_end h, labelsText, String.append_empty, prefixed_nil, List.length_nil]
  | cons label labels ih =>
    simp only [List.forall_mem_cons] at hlabels
    have hlength : (prefixed (label :: labels)).length = label.length + 1 + (prefixed labels).length := by
      rw [prefixed_cons, List.length_cons, List.length_append]
      omega
    rw [prefixed_cons, List.cons_append, List.append_assoc] at h
    rw [readNameFrom_label hlabels.1 h (by omega)]
    have hnext : Placed base (offset + label.length + 1) (prefixed labels ++ [0]) := by
      have hright := h.tail.right
      rwa [Nat.add_right_comm] at hright
    rw [ih hlabels.2 hnext _ _ _ (by omega), labelsText, String.append_assoc]
    cases jumped
    · simp only [Bool.false_eq_true, if_false, Option.some.injEq, Prod.mk.injEq, true_and]
      omega
    · rfl

theorem dnsNamelenFrom_labels (hlabels : ∀ label ∈ labels, IsLabel label)
    (h : Placed base offset (prefixed labels ++ [0])) {start : Nat} (hstart : start ≤ offset) :
    dnsNamelenFrom base start offset = some (offset - start + ((prefixed labels).length + 1)) := by
  induction labels generalizing offset with
  | nil =>
    have hlen : byteAt base offset = 0 := by rw [byteAt, h.getD]; rfl
    have hplace := h.length_le (by simp)
    rw [prefixed_nil, List.nil_append, List.length_singleton] at hplace
    rw [dnsNamelenFrom, hlen, if_pos (by omega), if_neg (by omega), if_neg (by omega), if_pos rfl, prefixed_nil,
      List.length_nil, Option.some.injEq]
    omega
  | cons label labels ih =>
    simp only [List.forall_mem_cons] at hlabels
    rw [prefixed_cons, List.cons_append, List.append_assoc] at h
    have hlen := byteAt_label hlabels.1 h
    obtain ⟨hpos, hle⟩ := hlabels.1
    have hplace := (show Placed base offset ((UInt8.ofNat label.length :: label) ++ (prefixed labels ++ [0]))
      from h).left.length_le (by simp)
    rw [List.length_cons] at hplace
    have hnext : Placed base (offset + label.length + 1) (prefixed labels ++ [0]) := by
      have hright := h.tail.right
      rwa [Nat.add_right_comm] at hright
    rw [dnsNamelenFrom, hlen, if_pos (by omega), if_neg (by omega), if_neg (by omega), if_neg (by omega),
      ih hlabels.2 hnext (by omega), prefixed_cons, List.length_cons, List.length_append, Option.some.injEq]
    omega

/-! ## Pointers -/

/-- The two bytes that point to `target`. -/
def pointer (target : Nat) : List UInt8 := beBytes 2 (0xC000 + target)

theorem readNameFrom_pointer {name : String} {count p jumps target : Nat} {jumped : Bool} (htarget : target < 16384)
    (hlt : target < base.length) (hjumps : jumps ≤ 256) (h : Placed base offset (pointer target)) :
    readNameFrom base offset name count p jumped jumps =
      readNameFrom base target name (if jumped then count else count + 2) p true (jumps + 1) := by
  have hfirst : byteAt base offset = 192 + target / 256 := by
    rw [byteAt, h.getD, UInt8.toNat_ofNat', Nat.pow_one]
    omega
  have hsecond : byteAt base (offset + 1) = target % 256 := by
    rw [byteAt, h.tail.getD, UInt8.toNat_ofNat', Nat.pow_zero]
    omega
  have hplace := h.length_le (by simp [pointer, beBytes])
  rw [pointer, length_beBytes] at hplace
  have hnext : (192 + target / 256) % 64 * 256 + target % 256 = target := by omega
  rw [readNameFrom, hfirst, hsecond, hnext, if_pos (by omega), if_pos (by omega), if_neg (by omega), if_neg (by omega)]

/-! ## The round trip -/

/-- What is written of a name's labels is the name without its last dot. -/
theorem labelsText_dot (label : List UInt8) (labels : List (List UInt8)) :
    labelsText 0 (label :: labels) ++ "." = pushBytes (dotted (label :: labels)) := by
  have hlater : ∀ (labels : List (List UInt8)) (p : Nat), p > 0 →
      labelsText p labels ++ "." = "." ++ pushBytes (dotted labels) := by
    intro labels
    induction labels with
    | nil => exact fun p hp => rfl
    | cons label labels ih =>
      intro p hp
      rw [labelsText, if_pos hp, String.append_assoc, ih _ (by omega), dotted_cons, pushBytes_append, pushBytes_append,
        pushBytes_dot, String.append_assoc]
  rw [labelsText, if_neg (by omega), String.append_assoc, hlater labels _ (by omega), dotted_cons, pushBytes_append,
    pushBytes_append, pushBytes_dot, String.empty_append]

/-- A name's labels are read as the name without its last dot. -/
theorem labelsText_eq {name : String} {labels : List (List UInt8)} (hplain : PlainName name)
    (hbytes : asBytes name = if labels = [] then [0x2E] else dotted labels) : name = labelsText 0 labels ++ "." := by
  rw [← pushBytes_asBytes hplain, hbytes]
  cases labels with
  | nil => exact pushBytes_dot
  | cons label labels => rw [if_neg (List.cons_ne_nil _ _), labelsText_dot]

/-- A name that is encoded is read back wherever the packet has it, also over a
pointer, and no other name is encoded so. -/
theorem encodeName_round_trip {name : String} {wire : List UInt8} (hne : name ≠ "") (hplain : PlainName name)
    (hwire : encodeName name = some wire) :
    ∃ n, name = n ++ "." ∧
      (∀ base offset, Placed base offset wire →
        readName base offset = some (n, wire.length) ∧ dnsNamelen base offset = some wire.length ∧
          ∀ at', offset < 16384 → Placed base at' (pointer offset) → readName base at' = some (n, 2)) ∧
      wire.length ≤ 255 ∧
      (∃ labels, wire = prefixed labels ++ [0] ∧ (∀ label ∈ labels, 1 ≤ label.length ∧ label.length ≤ 63) ∧
        asBytes name = if labels = [] then [0x2E] else dotted labels) ∧
      ∀ other, other ≠ "" → PlainName other → encodeName other = some wire → other = name := by
  obtain ⟨labels, hbytes, hwire', hlabels, hlength⟩ := encodeName_labels hne hwire
  have hname := labelsText_eq hplain hbytes
  have hwirelen : wire.length = (prefixed labels).length + 1 := by rw [hwire', List.length_append, List.length_singleton]
  refine ⟨labelsText 0 labels, hname, fun base offset h => ?_, by omega,
    ⟨labels, hwire', fun label hl => ⟨(hlabels label hl).pos, (hlabels label hl).le⟩, hbytes⟩, ?_⟩
  · have hlt := h.length_le (by rw [hwire']; simp)
    rw [hwire'] at h
    refine ⟨?_, ?_, fun at' hoffset hpointer => ?_⟩
    · rw [readName, readNameFrom_labels hlabels h _ _ _ _ _ (by omega), String.empty_append, hwirelen, if_neg (by decide),
        Nat.zero_add]
    · rw [dnsNamelen, dnsNamelenFrom_labels hlabels h (Nat.le_refl _), hwirelen, Nat.sub_self, Nat.zero_add]
    · rw [readName, readNameFrom_pointer hoffset (by omega) (by omega) hpointer,
        readNameFrom_labels hlabels h _ _ _ _ _ (by omega), String.empty_append]
      rfl
  · intro other hother hotherplain hotherwire
    obtain ⟨labels', hbytes', hwire'', hlabels', -⟩ := encodeName_labels hother hotherwire
    have hsame : prefixed labels' = prefixed labels := List.append_cancel_right (hwire''.symm.trans hwire')
    have heq : labels' = labels :=
      prefixed_injective (fun l hl => by have := (hlabels' l hl).le; omega)
        (fun l hl => by have := (hlabels l hl).le; omega) hsame
    rw [labelsText_eq hotherplain hbytes', heq]
    exact hname.symm

theorem encodeName_round_trip_bind :
    ∃ n, "version.bind." = n ++ "." ∧
      readName ([0, 1] ++ ([7, 118, 101, 114, 115, 105, 111, 110, 4, 98, 105, 110, 100, 0] ++ [0xC0, 2])) 16 =
        some (n, 2) := by
  obtain ⟨n, hn, hreads, -⟩ := @encodeName_round_trip "version.bind."
    [7, 118, 101, 114, 115, 105, 111, 110, 4, 98, 105, 110, 100, 0] (by decide) (by decide) (by decide +kernel)
  exact ⟨n, hn, (hreads _ 2 placed_append).2.2 16 (by decide) ⟨[], by decide⟩⟩

end Starla.Proof.Measurements.DnsName
