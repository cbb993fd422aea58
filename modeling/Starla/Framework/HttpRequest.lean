import Mathlib.Data.List.DropRight
import Starla.Framework.Lines
import Starla.Framework.Takers

/-!
# HTTP/1.1 requests

What a strict server reads: a request line of three words, fields as far as an
empty line, and as many bytes of a body as the one length field says. A line ends
with CR and LF and has neither before.

* `utf8Bytes` : a text's bytes.
* `Request`, `readMessage` : a request, with its body, that is all there is.
* `readMessage_written` : a request is read as it is written if and only if its
  target is a word and each value has no end of line, or blanks around it.
* `isValueOf_of_isWord`, `decimal_toString` : texts and numbers that are values.
-/

namespace Starla.Framework

/-- The bytes of a text. -/
def utf8Bytes (s : String) : List UInt8 := s.toByteArray.data.toList

@[simp] theorem utf8Bytes_append (s t : String) : utf8Bytes (s ++ t) = utf8Bytes s ++ utf8Bytes t := by
  simp [utf8Bytes]

theorem utf8Bytes_ofList_cons (c : Char) (cs : List Char) :
    utf8Bytes (String.ofList (c :: cs)) = String.utf8EncodeChar c ++ utf8Bytes (String.ofList cs) := by
  simp [utf8Bytes, List.utf8Encode]

/-- An ASCII byte is that of one character. -/
theorem mem_utf8EncodeChar {c : Char} {b : UInt8} (hb : b.toNat < 128) :
    b ∈ String.utf8EncodeChar c ↔ c.toNat = b.toNat := by
  have hbyte {n : Nat} : b = UInt8.ofNat n ↔ b.toNat = n % 256 := by
    rw [← UInt8.toNat_inj, UInt8.toNat_ofNat']
  have hc : c.toNat = c.val.toNat := rfl
  have hmax : c.val.toNat < 0x110000 := by
    have hvalid := c.valid
    simp [UInt32.isValidChar, Nat.isValidChar] at hvalid
    omega
  delta String.utf8EncodeChar
  dsimp only
  split_ifs
  all_goals
    simp only [List.mem_cons, List.not_mem_nil, or_false, hbyte, hc]
    omega

/-- A text has an ASCII byte where it has the character. -/
theorem mem_utf8Bytes {s : String} {b : UInt8} {d : Char} (hb : b.toNat < 128) (hd : d.toNat = b.toNat) :
    b ∈ utf8Bytes s ↔ d ∈ s.toList := by
  obtain ⟨cs, rfl⟩ : ∃ cs, s = String.ofList cs := ⟨s.toList, String.ofList_toList.symm⟩
  rw [String.toList_ofList]
  induction cs with
  | nil => simp [utf8Bytes]
  | cons c cs ih =>
    rw [utf8Bytes_ofList_cons, List.mem_append, List.mem_cons, ih, mem_utf8EncodeChar hb, ← hd, Char.toNat_inj]
    exact or_congr_left eq_comm

/-- The bytes of ASCII characters are theirs. -/
theorem utf8Bytes_ascii {cs : List Char} (h : ∀ c ∈ cs, c.toNat < 128) :
    utf8Bytes (String.ofList cs) = cs.map fun c => UInt8.ofNat c.toNat := by
  induction cs with
  | nil => rfl
  | cons c cs ih =>
    rw [List.forall_mem_cons] at h
    have hsize : c.utf8Size = 1 := Char.utf8Size_eq_one_iff.mpr (UInt32.le_iff_toNat_le.mpr (by
      have := h.1
      show c.toNat ≤ 127
      omega))
    rw [utf8Bytes_ofList_cons, String.utf8EncodeChar_eq_singleton hsize, ih h.2, List.map_cons]
    rfl

namespace Http

structure Request where
  method : List UInt8
  target : List UInt8
  version : List UInt8
  /-- Each value after its name. -/
  fields : List (List UInt8 × List UInt8)
deriving DecidableEq

/-! ## Parts of a line -/

/-- The bytes before and after the first `sep`. -/
def splitByte (sep : UInt8) : List UInt8 → Option (List UInt8 × List UInt8)
  | [] => none
  | b :: bs => if b = sep then some ([], bs) else (splitByte sep bs).map fun s => (b :: s.1, s.2)

theorem splitByte_append {sep : UInt8} {l : List UInt8} (h : sep ∉ l) (rest : List UInt8) :
    splitByte sep (l ++ sep :: rest) = some (l, rest) := by
  induction l with
  | nil => rw [List.nil_append, splitByte, if_pos rfl]
  | cons b l ih =>
    rw [List.mem_cons, not_or] at h
    rw [List.cons_append, splitByte, if_neg (Ne.symm h.1), ih h.2]
    rfl

theorem of_splitByte {sep : UInt8} {s l rest : List UInt8} (h : splitByte sep s = some (l, rest)) :
    sep ∉ l ∧ s = l ++ sep :: rest := by
  induction s generalizing l with
  | nil => cases h
  | cons b s ih =>
    rw [splitByte] at h
    split at h
    · rename_i hb
      cases h
      exact ⟨List.not_mem_nil, by rw [hb]; rfl⟩
    · rename_i hb
      obtain ⟨⟨l', rest'⟩, hsplit, heq⟩ := Option.map_eq_some_iff.mp h
      cases heq
      obtain ⟨hl, rfl⟩ := ih hsplit
      refine ⟨?_, rfl⟩
      rw [List.mem_cons, not_or]
      exact ⟨Ne.symm hb, hl⟩

/-- The bytes are of one line. -/
def InLine (l : List UInt8) : Prop := 13 ∉ l ∧ 10 ∉ l

instance (l : List UInt8) : Decidable (InLine l) := inferInstanceAs (Decidable (_ ∧ _))

theorem inLine_append {x y : List UInt8} : InLine (x ++ y) ↔ InLine x ∧ InLine y := by
  simp only [InLine, List.mem_append, not_or]
  tauto

theorem inLine_cons {b : UInt8} {y : List UInt8} (hcr : b ≠ 13) (hlf : b ≠ 10) : InLine (b :: y) ↔ InLine y := by
  simp [InLine, hcr.symm, hlf.symm]

/-- A line, as far as its CR and LF. -/
def line : Taker UInt8 (List UInt8) := fun s => do
  let (l, rest) ← splitByte 13 s
  if 10 ∉ l ∧ rest.head? = some 10 then some (l, rest.tail) else none

theorem takes_line {l : List UInt8} (h : InLine l) : Takes line (l ++ [13, 10]) l := by
  intro rest
  show (splitByte 13 (l ++ [13, 10] ++ rest)).bind _ = _
  rw [List.append_assoc]
  show (splitByte 13 (l ++ 13 :: 10 :: rest)).bind _ = _
  rw [splitByte_append h.1]
  exact if_pos ⟨h.2, rfl⟩

theorem of_line {s l rest : List UInt8} (h : line.run s = some (l, rest)) : InLine l := by
  obtain ⟨⟨l', rest'⟩, hsplit, h⟩ := Option.bind_eq_some_iff.mp h
  dsimp only at h
  split at h
  · rename_i hend
    cases h
    exact ⟨(of_splitByte hsplit).1, hend.1⟩
  · cases h

/-! ## Request lines -/

def requestLine (l : List UInt8) : Option (List UInt8 × List UInt8 × List UInt8) := do
  let (method, rest) ← splitByte 32 l
  let (target, version) ← splitByte 32 rest
  if 32 ∈ version then none else some (method, target, version)

theorem requestLine_eq {m t v : List UInt8} (hm : 32 ∉ m) (ht : 32 ∉ t) (hv : 32 ∉ v) :
    requestLine (m ++ 32 :: (t ++ 32 :: v)) = some (m, t, v) := by
  unfold requestLine
  rw [splitByte_append hm]
  show (splitByte 32 (t ++ 32 :: v)).bind _ = _
  rw [splitByte_append ht]
  exact if_neg hv

theorem of_requestLine {l m t v : List UInt8} (h : requestLine l = some (m, t, v)) :
    32 ∉ t ∧ l = m ++ 32 :: (t ++ 32 :: v) := by
  obtain ⟨⟨m', rest⟩, hm, h⟩ := Option.bind_eq_some_iff.mp h
  obtain ⟨⟨t', v'⟩, ht, h⟩ := Option.bind_eq_some_iff.mp h
  dsimp only at h
  split at h
  · cases h
  · cases h
    obtain ⟨-, rfl⟩ := of_splitByte hm
    obtain ⟨hnot, rfl⟩ := of_splitByte ht
    exact ⟨hnot, rfl⟩

/-! ## Fields -/

def isBlankByte (b : UInt8) : Bool := b == 32 || b == 9

/-- A value without the blanks around it. -/
def trimBlanks (v : List UInt8) : List UInt8 := (v.dropWhile isBlankByte).rdropWhile isBlankByte

theorem trimBlanks_eq_self {v : List UInt8} (h : ∀ b ∈ v, isBlankByte b = false) : trimBlanks v = v := by
  have hfront : v.dropWhile isBlankByte = v := by
    cases v with
    | nil => rfl
    | cons b v => rw [List.dropWhile_cons_of_neg (by rw [h b List.mem_cons_self]; exact Bool.false_ne_true)]
  rw [trimBlanks, hfront, List.rdropWhile_eq_self_iff]
  intro hne
  rw [h _ (List.getLast_mem hne)]
  exact Bool.false_ne_true

theorem mem_of_mem_trimBlanks {b : UInt8} {v : List UInt8} (h : b ∈ trimBlanks v) : b ∈ v :=
  (List.dropWhile_sublist _).mem ((List.rdropWhile_prefix _ _).mem h)

theorem trimBlanks_cons {b : UInt8} (hb : isBlankByte b = true) (v : List UInt8) : trimBlanks (b :: v) = trimBlanks v := by
  rw [trimBlanks, List.dropWhile_cons_of_pos hb]
  rfl

/-- A value that is read as it is written. -/
structure IsValueOf (v : List UInt8) : Prop where
  inLine : InLine v
  trimmed : trimBlanks v = v

instance (v : List UInt8) : Decidable (IsValueOf v) :=
  decidable_of_iff (InLine v ∧ trimBlanks v = v) ⟨fun h => ⟨h.1, h.2⟩, fun h => ⟨h.inLine, h.trimmed⟩⟩

/-- A name is without blanks. -/
def fieldOf (l : List UInt8) : Option (List UInt8 × List UInt8) := do
  let (name, value) ← splitByte 58 l
  if name.any isBlankByte then none else some (name, trimBlanks value)

/-- A name that is read as it is written. -/
structure IsName (name : List UInt8) : Prop where
  inLine : InLine name
  noColon : 58 ∉ name
  noBlank : name.any isBlankByte = false

instance (name : List UInt8) : Decidable (IsName name) :=
  decidable_of_iff (InLine name ∧ 58 ∉ name ∧ name.any isBlankByte = false)
    ⟨fun h => ⟨h.1, h.2.1, h.2.2⟩, fun h => ⟨h.inLine, h.noColon, h.noBlank⟩⟩

theorem fieldOf_eq {name : List UInt8} (h : IsName name) (value : List UInt8) :
    fieldOf (name ++ 58 :: 32 :: value) = some (name, trimBlanks value) := by
  unfold fieldOf
  rw [splitByte_append h.noColon, ← trimBlanks_cons (b := 32) rfl]
  apply if_neg
  rw [h.noBlank]
  exact Bool.false_ne_true

theorem inLine_of_fieldOf {l name value : List UInt8} (h : fieldOf l = some (name, value)) (hl : InLine l) :
    InLine value := by
  obtain ⟨⟨name', value'⟩, hsplit, h⟩ := Option.bind_eq_some_iff.mp h
  dsimp only at h
  split at h
  · cases h
  · cases h
    obtain ⟨-, rfl⟩ := of_splitByte hsplit
    rw [inLine_append, inLine_cons (by decide) (by decide)] at hl
    exact ⟨fun hmem => hl.2.1 (mem_of_mem_trimBlanks hmem), fun hmem => hl.2.2 (mem_of_mem_trimBlanks hmem)⟩

/-- Fields as far as the empty line, fewer than `turns` of them. -/
def fieldsFrom : (turns : Nat) → Taker UInt8 (List (List UInt8 × List UInt8))
  | 0 => found none
  | turns + 1 => do
    let l ← line
    if l.isEmpty then return []
    else
      let field ← found (fieldOf l)
      let fields ← fieldsFrom turns
      return field :: fields

def fields : Taker UInt8 (List (List UInt8 × List UInt8)) := fun s => (fieldsFrom (s.length + 1)).run s

/-- A field as it is written. -/
def fieldLine (f : List UInt8 × List UInt8) : List UInt8 := (f.1 ++ 58 :: 32 :: f.2) ++ [13, 10]

def trimmed (f : List UInt8 × List UInt8) : List UInt8 × List UInt8 := (f.1, trimBlanks f.2)

theorem takes_fieldsFrom {fs : List (List UInt8 × List UInt8)} (h : ∀ f ∈ fs, IsName f.1 ∧ InLine f.2) {turns : Nat}
    (hturns : fs.length < turns) : Takes (fieldsFrom turns) (fs.flatMap fieldLine ++ [13, 10]) (fs.map trimmed) := by
  induction fs generalizing turns with
  | nil =>
    obtain ⟨turns, rfl⟩ : ∃ n, turns = n + 1 := ⟨turns - 1, by omega⟩
    rw [fieldsFrom]
    exact (takes_line ⟨List.not_mem_nil, List.not_mem_nil⟩).bind_last (.pure [])
  | cons f fs ih =>
    rw [List.forall_mem_cons] at h
    obtain ⟨turns, rfl⟩ : ∃ n, turns = n + 1 := ⟨turns - 1, by omega⟩
    have hline : InLine (f.1 ++ 58 :: 32 :: f.2) := by
      rw [inLine_append, inLine_cons (by decide) (by decide), inLine_cons (by decide) (by decide)]
      exact ⟨h.1.1.inLine, h.1.2⟩
    have hne : (f.1 ++ 58 :: 32 :: f.2).isEmpty = false := by cases f.1 <;> rfl
    rw [fieldsFrom, List.flatMap_cons, List.append_assoc, fieldLine]
    apply (takes_line hline).bind
    rw [if_neg (by rw [hne]; exact Bool.false_ne_true), fieldOf_eq h.1.1]
    apply (takes_found _).bind (s := [])
    exact (ih h.2 (by rw [List.length_cons] at hturns; omega)).bind_last (.pure _)

theorem takes_fields {fs : List (List UInt8 × List UInt8)} (h : ∀ f ∈ fs, IsName f.1 ∧ InLine f.2) :
    Takes fields (fs.flatMap fieldLine ++ [13, 10]) (fs.map trimmed) := by
  intro rest
  apply takes_fieldsFrom h
  have hlength : fs.length ≤ (fs.flatMap fieldLine).length := by
    clear h
    induction fs with
    | nil => exact Nat.le_refl 0
    | cons f fs ih =>
      rw [List.flatMap_cons, List.length_append, List.length_cons, fieldLine, List.length_append]
      show fs.length + 1 ≤ (f.1 ++ 58 :: 32 :: f.2).length + 2 + _
      omega
  rw [List.length_append, List.length_append]
  omega

theorem inLine_of_fieldsFrom {turns : Nat} {s rest : List UInt8} {fs : List (List UInt8 × List UInt8)}
    (h : (fieldsFrom turns).run s = some (fs, rest)) {f : List UInt8 × List UInt8} (hf : f ∈ fs) : InLine f.2 := by
  induction turns generalizing s fs with
  | zero => cases h
  | succ turns ih =>
    rw [fieldsFrom, run_bind_eq_some] at h
    obtain ⟨l, left, hl, h⟩ := h
    split at h
    · cases h
      cases hf
    · rw [run_bind_eq_some] at h
      obtain ⟨field, left', hfield, h⟩ := h
      rw [run_bind_eq_some] at h
      obtain ⟨fs', left'', hfs, h⟩ := h
      cases h
      rcases List.mem_cons.mp hf with rfl | hf
      · exact inLine_of_fieldOf (of_found hfield) (of_line hl)
      · exact ih hfs hf

/-! ## Messages -/

def head : Taker UInt8 Request := do
  let l ← line
  let (method, target, version) ← found (requestLine l)
  let fields ← fields
  return ⟨method, target, version, fields⟩

def lowerByte (b : UInt8) : UInt8 := if 65 ≤ b ∧ b ≤ 90 then b + 32 else b

def decimal (v : List UInt8) : Option Nat :=
  if v.isEmpty then none else ofDigits 10 (v.map fun b => Char.ofNat b.toNat)

/-- The body's length, where one field or none says it. -/
def contentLength (fs : List (List UInt8 × List UInt8)) : Option Nat :=
  match fs.filter fun f => f.1.map lowerByte == utf8Bytes "content-length" with
  | [] => some 0
  | [f] => decimal f.2
  | _ => none

def message : Taker UInt8 (Request × List UInt8) := do
  let r ← head
  let n ← found (contentLength r.fields)
  let body ← symbols n
  return (r, body)

/-- A request, and its body, that are all there is. -/
def readMessage (s : List UInt8) : Option (Request × List UInt8) := whole message s

/-- A request as it is written. -/
def written (r : Request) : List UInt8 :=
  ((r.method ++ 32 :: (r.target ++ 32 :: r.version)) ++ [13, 10]) ++ (r.fields.flatMap fieldLine ++ [13, 10])

/-- A word of a request line. -/
structure IsWordOf (w : List UInt8) : Prop where
  inLine : InLine w
  noSpace : 32 ∉ w

instance (w : List UInt8) : Decidable (IsWordOf w) :=
  decidable_of_iff (InLine w ∧ 32 ∉ w) ⟨fun h => ⟨h.1, h.2⟩, fun h => ⟨h.inLine, h.noSpace⟩⟩

theorem takes_head {r : Request} (hm : IsWordOf r.method) (ht : IsWordOf r.target) (hv : IsWordOf r.version)
    (hf : ∀ f ∈ r.fields, IsName f.1 ∧ InLine f.2) :
    Takes head (written r) { r with fields := r.fields.map trimmed } := by
  have hline : InLine (r.method ++ 32 :: (r.target ++ 32 :: r.version)) := by
    rw [inLine_append, inLine_cons (by decide) (by decide), inLine_append, inLine_cons (by decide) (by decide)]
    exact ⟨hm.inLine, ht.inLine, hv.inLine⟩
  unfold head written
  apply (takes_line hline).bind
  rw [requestLine_eq hm.noSpace ht.noSpace hv.noSpace]
  apply (takes_found _).bind (s := [])
  exact (takes_fields hf).bind_last (.pure _)

theorem clean_of_head {s rest : List UInt8} {r : Request} (h : head.run s = some (r, rest)) :
    IsWordOf r.target ∧ ∀ f ∈ r.fields, InLine f.2 := by
  unfold head at h
  rw [run_bind_eq_some] at h
  obtain ⟨l, left, hl, h⟩ := h
  rw [run_bind_eq_some] at h
  obtain ⟨⟨method, target, version⟩, left', hline, h⟩ := h
  rw [run_bind_eq_some] at h
  obtain ⟨fs, left'', hfs, h⟩ := h
  cases h
  obtain ⟨hspace, rfl⟩ := of_requestLine (of_found hline)
  have hin := of_line hl
  rw [inLine_append, inLine_cons (by decide) (by decide), inLine_append] at hin
  exact ⟨⟨hin.2.1, hspace⟩, fun f hf => inLine_of_fieldsFrom hfs hf⟩

theorem of_readMessage {s body : List UInt8} {r : Request} (h : readMessage s = some (r, body)) :
    ∃ left, head.run s = some (r, left) := by
  obtain ⟨r', left, hrun, h⟩ := run_bind_eq_some.mp (of_whole h)
  obtain ⟨n, left', -, h⟩ := run_bind_eq_some.mp h
  obtain ⟨body', left'', -, h⟩ := run_bind_eq_some.mp h
  cases h
  exact ⟨left, hrun⟩

theorem map_trimmed_eq_self {fs : List (List UInt8 × List UInt8)} :
    fs.map trimmed = fs ↔ ∀ f ∈ fs, trimBlanks f.2 = f.2 := by
  induction fs with
  | nil => exact iff_of_true rfl fun f hf => by cases hf
  | cons f fs ih =>
    rw [List.map_cons, List.cons.injEq, ih, List.forall_mem_cons]
    exact and_congr_left fun _ => Prod.ext_iff.trans (and_iff_right rfl)

/-- A request is read back if and only if nothing in it is a space, an end of line
or a blank where it may not be. -/
theorem readMessage_written (r : Request) (body : List UInt8) (hm : IsWordOf r.method) (hv : IsWordOf r.version)
    (hf : ∀ f ∈ r.fields, IsName f.1) (hlength : contentLength r.fields = some body.length) :
    readMessage (written r ++ body) = some (r, body) ↔
      IsWordOf r.target ∧ ∀ f ∈ r.fields, IsValueOf f.2 := by
  constructor
  · intro h
    obtain ⟨left, hrun⟩ := of_readMessage h
    obtain ⟨ht, hin⟩ := clean_of_head hrun
    have hread := takes_head hm ht hv (fun f hmem => ⟨hf f hmem, hin f hmem⟩) body
    rw [hrun, Option.some.injEq, Prod.mk.injEq] at hread
    have htrim := map_trimmed_eq_self.mp (congrArg Request.fields hread.1).symm
    exact ⟨ht, fun f hmem => ⟨hin f hmem, htrim f hmem⟩⟩
  · rintro ⟨ht, hvalues⟩
    have hread := takes_head hm ht hv fun f hmem => ⟨hf f hmem, (hvalues f hmem).inLine⟩
    rw [map_trimmed_eq_self.mpr fun f hmem => (hvalues f hmem).trimmed] at hread
    rw [readMessage, message, hread.whole_bind, hlength]
    apply Takes.whole
    apply (takes_found _).bind (s := [])
    exact (takes_symbols rfl).bind_last (.pure _)

/-! ## Texts as words and values -/

theorem inLine_utf8Bytes {s : String} : InLine (utf8Bytes s) ↔ '\r' ∉ s.toList ∧ '\n' ∉ s.toList :=
  and_congr (not_congr (mem_utf8Bytes (by decide) rfl)) (not_congr (mem_utf8Bytes (by decide) rfl))

theorem isWordOf_utf8Bytes {s : String} : IsWordOf (utf8Bytes s) ↔ InLine (utf8Bytes s) ∧ ' ' ∉ s.toList :=
  have hspace : 32 ∉ utf8Bytes s ↔ ' ' ∉ s.toList := not_congr (mem_utf8Bytes (by decide) rfl)
  ⟨fun h => ⟨h.inLine, hspace.mp h.noSpace⟩, fun h => ⟨h.1, hspace.mpr h.2⟩⟩

theorem isValueOf_of_isWord {s : String} (h : IsWord s.toList) : IsValueOf (utf8Bytes s) := by
  have hnot {b : UInt8} {d : Char} (hb : b.toNat < 128) (hd : d.toNat = b.toNat) (hblank : isWhitespace d = true) :
      b ∉ utf8Bytes s := by
    rw [mem_utf8Bytes hb hd]
    intro hmem
    rw [h.noBlank d hmem] at hblank
    cases hblank
  have hspace : 32 ∉ utf8Bytes s := hnot (d := ' ') (by decide) rfl rfl
  have htab : 9 ∉ utf8Bytes s := hnot (d := '\t') (by decide) rfl rfl
  refine ⟨⟨hnot (d := '\r') (by decide) rfl rfl, hnot (d := '\n') (by decide) rfl rfl⟩, ?_⟩
  apply trimBlanks_eq_self
  intro b hb
  rw [isBlankByte, Bool.or_eq_false_iff, beq_eq_false_iff_ne, beq_eq_false_iff_ne]
  exact ⟨fun h => hspace (h ▸ hb), fun h => htab (h ▸ hb)⟩

/-- A number is read back. -/
theorem decimal_toString (n : Nat) : decimal (utf8Bytes (toString n)) = some n := by
  have hascii : ∀ c ∈ Nat.toDigits 10 n, c.toNat < 128 := by
    intro c hc
    have hdigit := Nat.isDigit_of_mem_toDigits (by decide) (by decide) hc
    rw [Char.isDigit, Bool.and_eq_true, decide_eq_true_eq, decide_eq_true_eq] at hdigit
    have hle := UInt32.le_iff_toNat_le.mp hdigit.2
    show c.val.toNat < 128
    exact lt_of_le_of_lt hle (by decide)
  have hback : ((Nat.toDigits 10 n).map fun c => UInt8.ofNat c.toNat).map (fun b => Char.ofNat b.toNat) =
      Nat.toDigits 10 n := by
    rw [List.map_map]
    apply (List.map_congr_left fun c hc => ?_).trans (List.map_id _)
    have hc := hascii c hc
    show Char.ofNat (UInt8.ofNat c.toNat).toNat = c
    rw [UInt8.toNat_ofNat', Nat.mod_eq_of_lt (by omega), Char.ofNat_toNat]
  have hbytes : utf8Bytes (toString n) = (Nat.toDigits 10 n).map fun c => UInt8.ofNat c.toNat := utf8Bytes_ascii hascii
  have hne : (utf8Bytes (toString n)).isEmpty = false := by
    rw [hbytes, List.isEmpty_eq_false_iff]
    exact fun h => Nat.toDigits_ne_nil (List.map_eq_nil_iff.mp h)
  rw [decimal, hne, if_neg Bool.false_ne_true, hbytes, hback]
  exact ofDigits_toDigits n

end Http

end Starla.Framework
