import Starla.Framework.Ascii
import Starla.Proof.Measurements.HttpResponse

/-!
# A response that is written

A response is written from its status line, its header lines and its body, which
one of the lines may frame; every byte of the body's encoding is data or not
(`Body.marked`).

* `dechunkedLen_marked` : the data before any place of a chunked body.
* `headerLoop_lines` : the header lines, and what they say of the body.
* `parseResponse_encoding` : the parser undoes the encoding.
-/

namespace Starla.Proof.Measurements.Http

open Starla.Framework Starla.Impl.Measurements Starla.Impl.Measurements.Http

/-! ## The encoding -/

inductive Eol
  | lf
  | crlf

def Eol.bytes : Eol → List UInt8
  | lf => [10]
  | crlf => CRLF

/-- A text of one line: a CR at its end would be its line end's. -/
structure IsLine (line : List UInt8) : Prop where
  noLf : 10 ∉ line
  noCr : line.getLast? ≠ some 13

/-- A chunk's size, with an extension or without. -/
structure SizeLine where
  digits : List Char
  ext : Option (List UInt8)
  eol : Eol
  ne_nil : digits ≠ []
  noLf : ∀ e ∈ ext, 10 ∉ e

def SizeLine.text (l : SizeLine) : List UInt8 :=
  asciiBytes l.digits ++ (l.ext.map (59 :: ·)).getD []

structure Chunk where
  line : SizeLine
  data : List UInt8
  eol : Eol
  ne_nil : data ≠ []
  size : ofDigits 16 line.digits = some data.length

/-- The chunk of no data, and what comes after it. -/
structure LastChunk where
  line : SizeLine
  trailers : List UInt8
  size : ofDigits 16 line.digits = some 0

/-- Bytes that are data, or are not. -/
def mark (isData : Bool) (bytes : List UInt8) : List (UInt8 × Bool) := bytes.map (·, isData)

def SizeLine.marked (l : SizeLine) : List (UInt8 × Bool) := mark false (l.text ++ l.eol.bytes)

def Chunk.marked (c : Chunk) : List (UInt8 × Bool) := c.line.marked ++ (mark true c.data ++ mark false c.eol.bytes)

def LastChunk.marked (c : LastChunk) : List (UInt8 × Bool) := c.line.marked ++ mark false c.trailers

/-- A body, framed by its length, by chunked coding or by the close. -/
inductive Body
  | length (data : List UInt8)
  | chunked (chunks : List Chunk) (last : LastChunk)
  | close (data : List UInt8)

namespace Body

def data : Body → List UInt8
  | length data => data
  | chunked chunks _ => chunks.flatMap (·.data)
  | close data => data

def marked : Body → List (UInt8 × Bool)
  | length data => mark true data
  | chunked chunks last => chunks.flatMap (·.marked) ++ last.marked
  | close data => mark true data

def bytes (b : Body) : List UInt8 := b.marked.map (·.1)

/-- How many bytes of data there are before a place. -/
def dataBefore (b : Body) (k : Nat) : Nat := (b.marked.take k).countP (·.2)

end Body

/-- Whether a line is named `name`, blanks around its name left out. -/
def isNamed (name : String) (line : List UInt8) : Bool :=
  (splitOnce ':' (decodeUtf8LossyFrom none line)).any fun field => eqIgnoreAsciiCase (trim field.1) name.toList

/-- A line that frames no body. -/
structure Unframed (line : List UInt8) : Prop where
  noLength : isNamed "Content-Length" line = false
  noCoding : isNamed "Transfer-Encoding" line = false

/-- A line with a name and a value, in any case and with blanks around the value. -/
def IsField (name : String) (value : List Char) (line : List UInt8) : Prop :=
  ∃ name' before after, eqIgnoreAsciiCase name' name.toList = true ∧ (∀ c ∈ before ++ after, isBlank c = true) ∧
    line = asciiBytes (name' ++ ':' :: (before ++ value ++ after))

/-- The line that frames a body. -/
def Body.FramedBy (line : List UInt8) : Body → Prop
  | .length data => ∃ digits, digits ≠ [] ∧ ofDigits 10 digits = some data.length ∧ IsField "Content-Length" digits line
  | .chunked _ _ => ∃ value, eqIgnoreAsciiCase value "chunked".toList = true ∧ IsField "Transfer-Encoding" value line
  | .close _ => False

/-- One of the lines frames the body, or none where its end is the close. -/
def Body.Framed (lines : List (List UInt8)) : Body → Prop
  | .close _ => ∀ line ∈ lines, Unframed line
  | b => ∃ pre line post, lines = pre ++ line :: post ∧ b.FramedBy line ∧ ∀ l ∈ pre ++ post, Unframed l

structure HeaderLine where
  text : List UInt8
  eol : Eol
  isLine : IsLine text
  ne_nil : text ≠ []

def HeaderLine.bytes (l : HeaderLine) : List UInt8 := l.text ++ l.eol.bytes

structure Response where
  major : UInt8
  minor : UInt8
  status : Fin 1000
  reason : List UInt8
  statusEol : Eol
  lines : List HeaderLine
  blank : Eol
  body : Body
  isLine : IsLine reason
  framed : body.Framed (lines.map (·.text))

/-- A status in three digits. -/
def threeDigits (n : Nat) : List Char :=
  [Nat.digitChar (n / 100), Nat.digitChar (n / 10 % 10), Nat.digitChar (n % 10)]

namespace Response

def statusText (r : Response) : List Char :=
  ['H', 'T', 'T', 'P', '/'] ++ (Nat.toDigits 10 r.major.toNat ++ '.' :: Nat.toDigits 10 r.minor.toNat) ++
    ' ' :: threeDigits r.status

def head (r : Response) : List UInt8 :=
  asciiBytes r.statusText ++ r.reason ++ r.statusEol.bytes ++ (r.lines.flatMap (·.bytes) ++ r.blank.bytes)

def bytes (r : Response) : List UInt8 := r.head ++ r.body.bytes

/-- What the response is with `n` bytes of data. -/
def parsed (r : Response) (n storeHeaders : Nat) : ParsedResponse where
  res := UInt16.ofNat r.status
  ver := s!"{r.major.toNat}.{r.minor.toNat}"
  hsize := (r.lines.flatMap (·.bytes)).length
  bsize := n
  header := storedHeaders (r.lines.map fun l => decodeUtf8Lossy l.text) storeHeaders

end Response

/-! ## Lines -/

theorem nextLine_eol {line : List UInt8} (h : IsLine line) (eol : Eol) (rest : List UInt8) :
    nextLine (line ++ eol.bytes ++ rest) =
      some (decodeUtf8LossyFrom none line, (line ++ eol.bytes).length, rest) := by
  cases eol with
  | lf =>
    have hsplit : line ++ Eol.lf.bytes ++ rest = line ++ 10 :: rest := by rw [List.append_assoc]; rfl
    rw [hsplit, nextLine, splitLine, findSub_of_notMem h.noLf, Option.map_some, if_neg h.noCr, List.length_append]
    rfl
  | crlf =>
    have hsplit : line ++ Eol.crlf.bytes ++ rest = (line ++ [13]) ++ 10 :: rest := by
      rw [List.append_assoc, List.append_assoc]
      rfl
    have hnotMem : 10 ∉ line ++ [13] := by
      rw [List.mem_append, not_or]
      exact ⟨h.noLf, by decide⟩
    rw [hsplit, nextLine, splitLine, findSub_of_notMem hnotMem, Option.map_some, if_pos List.getLast?_concat,
      List.dropLast_concat, List.length_append, List.length_append]
    rfl

/-! ## Marks -/

theorem map_fst_mark (isData : Bool) (bytes : List UInt8) : (mark isData bytes).map (·.1) = bytes := by
  simp [mark, Function.comp_def]

theorem length_mark (isData : Bool) (bytes : List UInt8) : (mark isData bytes).length = bytes.length := by
  rw [mark, List.length_map]

theorem countP_mark_false (bytes : List UInt8) (k : Nat) : ((mark false bytes).take k).countP (·.2) = 0 := by
  rw [mark, ← List.map_take, List.countP_map]
  exact List.countP_eq_zero.mpr fun _ _ => by simp

theorem countP_mark_true (bytes : List UInt8) (k : Nat) :
    ((mark true bytes).take k).countP (·.2) = min k bytes.length := by
  rw [mark, ← List.map_take, List.countP_map, ← List.length_take]
  exact List.countP_eq_length.mpr fun _ _ => rfl

theorem countP_take_append (a b : List (UInt8 × Bool)) (k : Nat) :
    ((a ++ b).take k).countP (·.2) = (a.take k).countP (·.2) + (b.take (k - a.length)).countP (·.2) := by
  rw [List.take_append, List.countP_append]

/-! ## Chunks -/

/-- A size line without its LF. -/
def SizeLine.inner (l : SizeLine) : List UInt8 := l.text ++ match l.eol with
  | .lf => []
  | .crlf => [13]

theorem digit_lt {c : Char} (h : (digitValue 16 c).isSome = true) : c.toNat < 128 ∧ c ≠ ';' := by
  have hplace := digitValue_isSome h
  refine ⟨by omega, ?_⟩
  rintro rfl
  exact absurd h (by decide)

theorem notMem_asciiBytes {cs : List Char} {b : UInt8} (h : ∀ c ∈ cs, c.toNat < 128 ∧ c.toNat ≠ b.toNat) :
    b ∉ asciiBytes cs := by
  intro hmem
  obtain ⟨c, hc, rfl⟩ := List.mem_map.mp hmem
  obtain ⟨hlt, hne⟩ := h c hc
  exact hne (UInt8.toNat_ofNat_of_lt' (by show c.toNat < 256; omega)).symm

theorem SizeLine.notMem_inner (l : SizeLine) {n : Nat} (h : ofDigits 16 l.digits = some n) : 10 ∉ l.inner := by
  have hdigits := forall_isSome_of_ofDigits h
  have htext : 10 ∉ asciiBytes l.digits := notMem_asciiBytes fun c hc => by
    have hplace := digitValue_isSome (hdigits c hc)
    exact ⟨by omega, by show c.toNat ≠ 10; omega⟩
  rw [SizeLine.inner, SizeLine.text]
  cases hext : l.ext with
  | none => cases l.eol <;> simp [htext]
  | some e =>
    have he : 10 ∉ e := l.noLf e hext
    cases l.eol <;> simp [htext, he]

theorem SizeLine.inner_append (l : SizeLine) (rest : List UInt8) :
    l.text ++ l.eol.bytes ++ rest = l.inner ++ 10 :: rest := by
  rw [SizeLine.inner]
  cases l.eol with
  | lf => rw [List.append_nil, List.append_assoc]; rfl
  | crlf => rw [List.append_assoc, List.append_assoc]; rfl

theorem SizeLine.length_inner (l : SizeLine) : (l.text ++ l.eol.bytes).length = l.inner.length + 1 := by
  have hlength := congrArg List.length (l.inner_append [])
  rwa [List.append_nil, List.length_append, List.length_append, ← List.length_append, List.length_singleton] at hlength

theorem isWhitespace_cr : isWhitespace '\r' = true := rfl

/-- A size line is read as its size. -/
theorem SizeLine.chunkSize_inner (l : SizeLine) {n : Nat} (h : ofDigits 16 l.digits = some n) (hn : n ≤ USIZE_MAX) :
    chunkSize l.inner = some n := by
  have hdigits := forall_isSome_of_ofDigits h
  have hascii : ∀ c ∈ l.digits, c.toNat < 128 := fun c hc => (digit_lt (hdigits c hc)).1
  have hblank : ∀ c ∈ l.digits, isWhitespace c = false := fun c hc => isWhitespace_of_digit (hdigits c hc)
  have hsemi : ∀ c ∈ l.digits, (c != ';') = true := fun c hc => by simpa using (digit_lt (hdigits c hc)).2
  have hhex : fromHex l.digits = some n := by
    unfold fromHex
    split
    · rename_i cs hcs
      exact absurd (hdigits '+' (by rw [hcs]; exact List.mem_cons_self)) (by decide)
    · exact digitsUpTo_of_ofDigits l.ne_nil h hn
  have hword : IsWord l.digits := ⟨l.ne_nil, hblank⟩
  have htext : (trim (decodeUtf8LossyFrom none l.inner)).takeWhile (· != ';') = l.digits := by
    rw [SizeLine.inner, SizeLine.text, List.append_assoc, decodeUtf8Lossy_asciiBytes hascii]
    cases l.ext with
    | none =>
      have hall : l.digits.takeWhile (· != ';') = l.digits := List.takeWhile_eq_self_iff.mpr hsemi
      cases l.eol with
      | lf =>
        have htrim := @trim_blanks l.digits [] [] (by simp) (by simp) hword
        exact (congrArg _ htrim).trans hall
      | crlf =>
        have htrim := @trim_blanks l.digits [] ['\r'] (by simp) (by simp [isWhitespace_cr]) hword
        exact (congrArg _ htrim).trans hall
    | some e =>
      obtain ⟨tail, htail⟩ : ∃ tail, decodeUtf8LossyFrom none
          (((some e).map (59 :: ·)).getD [] ++ match l.eol with | .lf => [] | .crlf => [13]) = ';' :: tail :=
        ⟨_, rfl⟩
      rw [htail]
      obtain ⟨tail', htrim⟩ := @trim_before l.digits ';' tail hblank rfl
      rw [htrim, List.takeWhile_append_of_pos hsemi, List.takeWhile_cons_of_neg (by simp), List.append_nil]
  rw [chunkSize, htext, hhex]

theorem Eol.stripEol_bytes (eol : Eol) (rest : List UInt8) : stripEol (eol.bytes ++ rest) = rest := by
  cases eol with
  | lf => exact stripEol_lf rest
  | crlf => exact stripEol_crlf rest

/-- A size line cut before its end holds no size. -/
theorem dechunkedLen_sizeLine_cut (l : SizeLine) {n : Nat} (h : ofDigits 16 l.digits = some n) (turns : Nat)
    (rest : List UInt8) {k : Nat} (hk : k ≤ l.inner.length) :
    dechunkedLen turns ((l.text ++ l.eol.bytes ++ rest).take k) = 0 := by
  have hsplit : splitLine (l.text ++ l.eol.bytes ++ rest) = some (l.inner, rest) := by
    rw [l.inner_append, splitLine, findSub_of_notMem (l.notMem_inner h)]
  have htake := findSub_take hsplit k
  rw [List.length_singleton, if_neg (by omega)] at htake
  exact dechunkedLen_of_none htake

/-- A size line that is not cut. -/
theorem splitLine_sizeLine (l : SizeLine) {n : Nat} (h : ofDigits 16 l.digits = some n) (rest : List UInt8) (k : Nat) :
    splitLine ((l.text ++ l.eol.bytes ++ rest).take (l.inner.length + 1 + k)) = some (l.inner, rest.take k) := by
  have hsplit : splitLine (l.text ++ l.eol.bytes ++ rest) = some (l.inner, rest) := by
    rw [l.inner_append, splitLine, findSub_of_notMem (l.notMem_inner h)]
  have htake := findSub_take hsplit (l.inner.length + 1 + k)
  rw [List.length_singleton, if_pos (by omega), Nat.add_sub_cancel_left] at htake
  exact htake

theorem bytes_chunked_nil (last : LastChunk) :
    (Body.chunked [] last).bytes = last.line.text ++ last.line.eol.bytes ++ last.trailers := by
  rw [Body.bytes, Body.marked, List.flatMap_nil, List.nil_append, LastChunk.marked, SizeLine.marked, List.map_append,
    map_fst_mark, map_fst_mark]

theorem bytes_chunked_cons (c : Chunk) (chunks : List Chunk) (last : LastChunk) :
    (Body.chunked (c :: chunks) last).bytes =
      c.line.text ++ c.line.eol.bytes ++ (c.data ++ (c.eol.bytes ++ (Body.chunked chunks last).bytes)) := by
  simp only [Body.bytes, Body.marked, List.flatMap_cons, Chunk.marked, SizeLine.marked, List.map_append, map_fst_mark,
    List.append_assoc]

theorem dataBefore_chunked_nil (last : LastChunk) (k : Nat) : (Body.chunked [] last).dataBefore k = 0 := by
  rw [Body.dataBefore, Body.marked, List.flatMap_nil, List.nil_append, LastChunk.marked, SizeLine.marked,
    countP_take_append, countP_mark_false, countP_mark_false]

theorem dataBefore_chunked_cons (c : Chunk) (chunks : List Chunk) (last : LastChunk) (k : Nat) :
    (Body.chunked (c :: chunks) last).dataBefore k = min (k - (c.line.inner.length + 1)) c.data.length +
      (Body.chunked chunks last).dataBefore
        (k - (c.line.inner.length + 1) - c.data.length - c.eol.bytes.length) := by
  rw [Body.dataBefore, Body.marked, List.flatMap_cons, Chunk.marked, SizeLine.marked, List.append_assoc,
    List.append_assoc, List.append_assoc, countP_take_append, countP_mark_false, Nat.zero_add, countP_take_append,
    countP_mark_true, countP_take_append, countP_mark_false, Nat.zero_add, length_mark, length_mark, length_mark,
    c.line.length_inner]
  rfl

theorem dechunkedLen_last (last : LastChunk) (turns k : Nat) :
    dechunkedLen turns ((Body.chunked [] last).bytes.take k) = 0 := by
  rw [bytes_chunked_nil]
  by_cases hk : k ≤ last.line.inner.length
  · exact dechunkedLen_sizeLine_cut last.line last.size turns last.trailers hk
  · obtain ⟨m, rfl⟩ : ∃ m, k = last.line.inner.length + 1 + m := ⟨k - (last.line.inner.length + 1), by omega⟩
    refine dechunkedLen_of_noSize (splitLine_sizeLine last.line last.size last.trailers m) fun n hn => ?_
    rw [last.line.chunkSize_inner last.size (Nat.zero_le _), Option.some.injEq] at hn
    omega

/-- A chunk whose size line is not cut: what is there of its data, and the chunks
after it. -/
theorem dechunkedLen_chunk (c : Chunk) (hn : c.data.length ≤ USIZE_MAX) (rest : List UInt8) (turns m : Nat) :
    dechunkedLen (turns + 1) ((c.line.text ++ c.line.eol.bytes ++ (c.data ++ (c.eol.bytes ++ rest))).take
        (c.line.inner.length + 1 + m)) =
      min m c.data.length + dechunkedLen turns (rest.take (m - c.data.length - c.eol.bytes.length)) := by
  have hpos := List.length_pos_iff.mpr c.ne_nil
  obtain ⟨n, hsize⟩ : ∃ n, c.data.length = n + 1 := ⟨c.data.length - 1, by omega⟩
  have hline := splitLine_sizeLine c.line c.size (c.data ++ (c.eol.bytes ++ rest)) m
  have hchunk := c.line.chunkSize_inner c.size hn
  rw [hsize] at hchunk
  rw [dechunkedLen_of_size hline hchunk, ← hsize, List.length_take, List.length_append]
  by_cases hm : m ≤ c.data.length
  · -- the data is cut, and nothing follows it
    have hmin : min c.data.length (min m (c.data.length + (c.eol.bytes ++ rest).length)) = min m c.data.length := by
      omega
    have hzero : m - c.data.length - c.eol.bytes.length = 0 := by omega
    rw [hmin, List.drop_eq_nil_of_le (by rw [List.length_take]; omega), stripEol_nil, hzero, List.take_zero]
  · have hmin : min c.data.length (min m (c.data.length + (c.eol.bytes ++ rest).length)) = c.data.length := by
      omega
    have hlen : (c.eol.bytes ++ rest).length - rest.length = c.eol.bytes.length := by
      rw [List.length_append]
      omega
    rw [hmin, Nat.min_eq_right (by omega), List.drop_take, List.drop_left, dechunkedLen_stripEol_take,
      Eol.stripEol_bytes, hlen]

/-- The data before any place of a chunked body. -/
theorem dechunkedLen_marked {chunks : List Chunk} (hlen : ∀ c ∈ chunks, c.data.length ≤ USIZE_MAX) (last : LastChunk)
    {turns k : Nat} (hturns : ((Body.chunked chunks last).bytes.take k).length < turns) :
    dechunkedLen turns ((Body.chunked chunks last).bytes.take k) = (Body.chunked chunks last).dataBefore k := by
  induction chunks generalizing turns k with
  | nil => rw [dechunkedLen_last, dataBefore_chunked_nil]
  | cons c chunks ih =>
    simp only [List.forall_mem_cons] at hlen
    obtain ⟨hc, hchunks⟩ := hlen
    have hinner := c.line.length_inner
    rw [bytes_chunked_cons] at hturns ⊢
    rw [dataBefore_chunked_cons]
    by_cases hk : k ≤ c.line.inner.length
    · have hzero : k - (c.line.inner.length + 1) = 0 := by omega
      rw [dechunkedLen_sizeLine_cut c.line c.size turns _ hk, hzero, Nat.zero_sub, Nat.zero_sub, Nat.zero_min,
        Nat.zero_add]
      rfl
    · obtain ⟨m, rfl⟩ : ∃ m, k = c.line.inner.length + 1 + m := ⟨k - (c.line.inner.length + 1), by omega⟩
      obtain ⟨turns, rfl⟩ : ∃ n, turns = n + 1 := ⟨turns - 1, by omega⟩
      rw [List.length_take, List.length_append, hinner, List.length_append, List.length_append] at hturns
      rw [dechunkedLen_chunk c hc, Nat.add_sub_cancel_left, ih hchunks (by rw [List.length_take]; omega)]

/-! ## The status line -/

theorem digitValue_digitChar : ∀ n < 10, digitValue 10 (Nat.digitChar n) = some n := by
  decide

theorem isDigit_digitChar : ∀ n < 10, (Nat.digitChar n).isDigit = true := by
  decide

theorem ofDigits_threeDigits {n : Nat} (h : n < 1000) : ofDigits 10 (threeDigits n) = some n := by
  have hvalue : 0 * 10 + n / 100 = n / 100 ∧ (n / 100 * 10 + n / 10 % 10) * 10 + n % 10 = n := by omega
  rw [ofDigits, threeDigits]
  simp only [List.foldl_cons, List.foldl_nil, digitValue_digitChar (n / 100) (by omega),
    digitValue_digitChar (n / 10 % 10) (by omega), digitValue_digitChar (n % 10) (by omega), hvalue.1, hvalue.2]

theorem isDigit_of_mem_threeDigits {n : Nat} (h : n < 1000) {c : Char} (hc : c ∈ threeDigits n) : c.isDigit = true := by
  simp only [threeDigits, List.mem_cons, List.not_mem_nil, or_false] at hc
  rcases hc with rfl | rfl | rfl
  · exact isDigit_digitChar _ (by omega)
  · exact isDigit_digitChar _ (by omega)
  · exact isDigit_digitChar _ (by omega)

theorem parseUnsigned_of_ofDigits {max n : Nat} {cs : List Char} (hne : cs ≠ []) (h : ofDigits 10 cs = some n)
    (hn : n ≤ max) : parseUnsigned max cs = some n := by
  unfold parseUnsigned
  split
  · exact absurd (forall_isSome_of_ofDigits h '+' List.mem_cons_self) (by decide)
  · exact digitsUpTo_of_ofDigits hne h hn

theorem isDigit_of_mem_toDigits {n : Nat} {c : Char} (hc : c ∈ Nat.toDigits 10 n) : c.isDigit = true :=
  Nat.isDigit_of_mem_toDigits (by decide) (by decide) hc

theorem notMem_toDigits {n : Nat} {c : Char} (h : c.isDigit = false) : c ∉ Nat.toDigits 10 n := fun hc => by
  rw [isDigit_of_mem_toDigits hc] at h
  cases h

/-- The status line's text is read as the version and the status. -/
theorem statusLine_statusText (r : Response) (more : List Char) :
    statusLine (r.statusText ++ more) = .ok (UInt16.ofNat r.status, s!"{r.major.toNat}.{r.minor.toNat}") := by
  have hmajor : r.major.toNat ≤ 255 := Nat.lt_succ_iff.mp r.major.toNat_lt
  have hminor : r.minor.toNat ≤ 255 := Nat.lt_succ_iff.mp r.minor.toNat_lt
  have hstatus := r.status.isLt
  have htext : r.statusText ++ more =
      ['H', 'T', 'T', 'P', '/'] ++ ((Nat.toDigits 10 r.major.toNat ++ '.' :: Nat.toDigits 10 r.minor.toNat) ++
        ' ' :: (threeDigits r.status ++ more)) := by
    rw [Response.statusText, List.append_assoc, List.append_assoc]
    rfl
  have hspace : ' ' ∉ Nat.toDigits 10 r.major.toNat ++ '.' :: Nat.toDigits 10 r.minor.toNat := by
    rw [List.mem_append, List.mem_cons, not_or, not_or]
    exact ⟨notMem_toDigits rfl, by decide, notMem_toDigits rfl⟩
  have hdot : '.' ∉ Nat.toDigits 10 r.major.toNat := notMem_toDigits rfl
  have hfirst : (threeDigits r.status ++ more).dropWhile isWhitespace = threeDigits r.status ++ more := by
    have hdigit := isWhitespace_of_isDigit (isDigit_digitChar (r.status / 100) (by omega))
    rw [threeDigits, List.cons_append, List.dropWhile_cons, hdigit, if_neg Bool.false_ne_true]
  have hcode : parseUnsigned 65535 (threeDigits r.status) = some r.status.val :=
    parseUnsigned_of_ofDigits (List.cons_ne_nil _ _) (ofDigits_threeDigits hstatus) (by omega)
  rw [htext]
  unfold statusLine
  rw [List.take_left' (by rfl), List.drop_left' (by rfl), if_neg (by decide), splitOnce_append hspace]
  dsimp only
  rw [splitOnce_append hdot, Option.bind_some, parseUnsigned_toDigits hmajor, Option.bind_some,
    parseUnsigned_toDigits hminor, Option.map_some]
  dsimp only
  rw [hfirst, List.take_left' (by rfl), if_neg (show ¬ (threeDigits r.status).length < 3 from Nat.lt_irrefl 3),
    hcode]

/-! ## The header lines -/

/-- A character of a name that is written in any case. -/
theorem mem_of_eqIgnoreAsciiCase {a b : List Char} (h : eqIgnoreAsciiCase a b = true) {c : Char} (hc : c ∈ a) :
    c.isUpper = true ∨ c ∈ b.map asciiLower := by
  have hmem : asciiLower c ∈ b.map asciiLower := by
    rw [← eq_of_beq h]
    exact List.mem_map_of_mem hc
  by_cases hupper : c.isUpper = true
  · exact .inl hupper
  · rw [asciiLower, if_neg hupper] at hmem
    exact .inr hmem

/-- A character of a field's name. -/
def isNameChar (c : Char) : Bool := c.toNat < 128 && !isWhitespace c && c != ':'

theorem isNameChar_of_isUpper {c : Char} (h : c.isUpper = true) : isNameChar c = true := by
  have hrange : 65 ≤ c.val ∧ c.val ≤ 90 := of_decide_eq_true h
  have hlo : 65 ≤ c.val.toNat := UInt32.le_iff_toNat_le.mp hrange.1
  have hhi : c.val.toNat ≤ 90 := UInt32.le_iff_toNat_le.mp hrange.2
  have hne : c ≠ ':' := by
    rintro rfl
    exact absurd hlo (by decide)
  have hval : c.toNat = c.val.toNat := rfl
  have hblank : isWhitespace c = false := by
    simp only [isWhitespace, Bool.or_eq_false_iff, Bool.and_eq_false_iff, decide_eq_false_iff_not,
      beq_eq_false_iff_ne, ne_eq, UInt32.le_iff_toNat_le, ← UInt32.toNat_inj, UInt32.reduceToNat]
    omega
  rw [isNameChar, hblank, decide_eq_true (show c.toNat < 128 by omega), bne_iff_ne.mpr hne]
  rfl

theorem isNameChar_of_mem {name : List Char} {b : List Char} (h : eqIgnoreAsciiCase name b = true)
    (hb : (b.map asciiLower).all isNameChar = true) {c : Char} (hc : c ∈ name) : isNameChar c = true :=
  (mem_of_eqIgnoreAsciiCase h hc).elim isNameChar_of_isUpper (List.all_eq_true.mp hb c)

theorem isWhitespace_of_isBlank {c : Char} (h : isBlank c = true) : isWhitespace c = true ∧ c.toNat < 128 := by
  simp only [isBlank, Bool.or_eq_true, beq_iff_eq] at h
  rcases h with rfl | rfl
  · decide
  · decide

/-- A field's line is cut into its name and its value. -/
theorem splitOnce_field {name : String} {value : List Char} {line : List UInt8} (h : IsField name value line)
    (hname : (name.toList.map asciiLower).all isNameChar = true) (hvalue : ∀ c ∈ value, c.toNat < 128)
    (hword : IsWord value) :
    ∃ n v, splitOnce ':' (decodeUtf8LossyFrom none line) = some (n, v) ∧
      eqIgnoreAsciiCase (trim n) name.toList = true ∧ trim v = value := by
  obtain ⟨name', before, after, heq, hblank, rfl⟩ := h
  have hchars : ∀ c ∈ name', c.toNat < 128 ∧ isWhitespace c = false ∧ c ≠ ':' := fun c hc => by
    have hchar := isNameChar_of_mem heq hname hc
    simpa [isNameChar, and_assoc] using hchar
  have hbefore : ∀ c ∈ before, isBlank c = true := fun c hc => hblank c (List.mem_append_left _ hc)
  have hafter : ∀ c ∈ after, isBlank c = true := fun c hc => hblank c (List.mem_append_right _ hc)
  have hascii : ∀ c ∈ name' ++ ':' :: (before ++ value ++ after), c.toNat < 128 := by
    intro c hc
    simp only [List.mem_append, List.mem_cons] at hc
    rcases hc with hc | rfl | (hc | hc) | hc
    · exact (hchars c hc).1
    · decide
    · exact (isWhitespace_of_isBlank (hbefore c hc)).2
    · exact hvalue c hc
    · exact (isWhitespace_of_isBlank (hafter c hc)).2
  have hdecode := @decodeUtf8Lossy_asciiBytes _ [] hascii
  have hnil : decodeUtf8LossyFrom none [] = [] := rfl
  rw [List.append_nil, hnil, List.append_nil] at hdecode
  refine ⟨name', before ++ value ++ after, ?_, ?_, ?_⟩
  · rw [hdecode, splitOnce_append fun hmem => (hchars ':' hmem).2.2 rfl]
  · have htrim : trim name' = name' :=
      trim_eq_self (fun c hc => (hchars c (List.mem_of_mem_head? hc)).2.1)
        (fun c hc => (hchars c (List.mem_of_mem_getLast? hc)).2.1)
    rwa [htrim]
  · exact trim_blanks (fun c hc => (isWhitespace_of_isBlank (hbefore c hc)).1)
      (fun c hc => (isWhitespace_of_isBlank (hafter c hc)).1) hword

/-- A header line's text and length. -/
def addLine (h : Headers) (l : HeaderLine) : Headers := h.add (decodeUtf8LossyFrom none l.text) l.bytes.length

theorem add_lines (h : Headers) (line : List Char) (len : Nat) :
    (h.add line len).lines = h.lines ++ [String.ofList line] ∧ (h.add line len).hsize = h.hsize + len := by
  unfold Headers.add
  dsimp only
  split
  · exact ⟨rfl, rfl⟩
  · split_ifs
    · exact ⟨rfl, rfl⟩
    · exact ⟨rfl, rfl⟩
    · exact ⟨rfl, rfl⟩

theorem foldl_addLine (lines : List HeaderLine) (h : Headers) :
    (lines.foldl addLine h).lines = h.lines ++ lines.map (fun l => decodeUtf8Lossy l.text) ∧
      (lines.foldl addLine h).hsize = h.hsize + (lines.flatMap (·.bytes)).length := by
  induction lines generalizing h with
  | nil => exact ⟨(List.append_nil _).symm, rfl⟩
  | cons l lines ih =>
    obtain ⟨hlines, hsize⟩ := ih (addLine h l)
    obtain ⟨hline, hlen⟩ := add_lines h (decodeUtf8LossyFrom none l.text) l.bytes.length
    rw [List.foldl_cons, hlines, hsize, addLine, hline, hlen, List.append_assoc, List.flatMap_cons, List.length_append,
      Nat.add_assoc]
    exact ⟨rfl, rfl⟩

theorem add_unframed {line : List UInt8} (hline : Unframed line) (h : Headers) (len : Nat) :
    (h.add (decodeUtf8LossyFrom none line) len).contentLength = h.contentLength ∧
      (h.add (decodeUtf8LossyFrom none line) len).chunked = h.chunked := by
  unfold Headers.add
  dsimp only
  split
  · exact ⟨rfl, rfl⟩
  · rename_i name value hsplit
    obtain ⟨hlength, hcoding⟩ := hline
    rw [isNamed, hsplit, Option.any_some] at hlength hcoding
    rw [hlength, hcoding, Bool.false_and, if_neg Bool.false_ne_true, if_neg Bool.false_ne_true]
    exact ⟨rfl, rfl⟩

theorem foldl_unframed {lines : List HeaderLine} (hlines : ∀ l ∈ lines, Unframed l.text) (h : Headers) :
    (lines.foldl addLine h).contentLength = h.contentLength ∧ (lines.foldl addLine h).chunked = h.chunked := by
  induction lines generalizing h with
  | nil => exact ⟨rfl, rfl⟩
  | cons l lines ih =>
    simp only [List.forall_mem_cons] at hlines
    obtain ⟨hlength, hchunked⟩ := ih hlines.2 (addLine h l)
    obtain ⟨hlength', hchunked'⟩ := add_unframed hlines.1 h l.bytes.length
    exact ⟨hlength.trans hlength', hchunked.trans hchunked'⟩

/-- A Content-Length line. -/
theorem add_length {line : List UInt8} {digits : List Char} {n : Nat} (hne : digits ≠ [])
    (hdigits : ofDigits 10 digits = some n) (hn : n ≤ USIZE_MAX) (hline : IsField "Content-Length" digits line)
    (h : Headers) (len : Nat) :
    (h.add (decodeUtf8LossyFrom none line) len).contentLength = some n ∧
      (h.add (decodeUtf8LossyFrom none line) len).chunked = h.chunked := by
  have hdigit := forall_isSome_of_ofDigits hdigits
  have hword : IsWord digits := ⟨hne, fun c hc => isWhitespace_of_digit (hdigit c hc)⟩
  obtain ⟨name, value, hsplit, hname, htrim⟩ := splitOnce_field hline (by decide)
    (fun c hc => by have := digitValue_isSome (hdigit c hc); omega) hword
  unfold Headers.add
  dsimp only
  rw [hsplit]
  dsimp only
  rw [if_pos hname, htrim, parseUnsigned_of_ofDigits hne hdigits hn]
  exact ⟨rfl, rfl⟩

/-- A Transfer-Encoding line. -/
theorem add_chunked {line : List UInt8} {value : List Char} (hvalue : eqIgnoreAsciiCase value "chunked".toList = true)
    (hline : IsField "Transfer-Encoding" value line) (h : Headers) (len : Nat) :
    (h.add (decodeUtf8LossyFrom none line) len).chunked = true := by
  have hchars : ∀ c ∈ value, c.toNat < 128 ∧ isWhitespace c = false ∧ c ≠ ':' := fun c hc => by
    have hchar := isNameChar_of_mem hvalue (by decide) hc
    simpa [isNameChar, and_assoc] using hchar
  have hlower : value.map asciiLower = "chunked".toList := (eq_of_beq hvalue).trans (by decide)
  have hne : value ≠ [] := by
    rintro rfl
    exact absurd hlower (by decide)
  obtain ⟨name, value', hsplit, hname, htrim⟩ := splitOnce_field hline (by decide) (fun c hc => (hchars c hc).1)
    ⟨hne, fun c hc => (hchars c hc).2.1⟩
  have hnot : ¬ eqIgnoreAsciiCase (trim name) "Content-Length".toList = true := fun hlength =>
    absurd ((eq_of_beq hname).symm.trans (eq_of_beq hlength)) (by decide)
  unfold Headers.add
  dsimp only
  rw [hsplit]
  dsimp only
  rw [if_neg hnot, if_pos (by rw [hname, htrim, hlower]; decide)]

theorem headerLoop_lines (lines : List HeaderLine) (blank : Eol) (body : List UInt8) {turns : Nat}
    (hturns : lines.length < turns) (h : Headers) :
    headerLoop turns (lines.flatMap (·.bytes) ++ (blank.bytes ++ body)) h = .ok (lines.foldl addLine h, body) := by
  induction lines generalizing turns h with
  | nil =>
    obtain ⟨turns, rfl⟩ : ∃ n, turns = n + 1 := ⟨turns - 1, by omega⟩
    have hblank := nextLine_eol ⟨List.not_mem_nil, by simp⟩ blank body
    rw [List.nil_append] at hblank
    rw [List.flatMap_nil, List.nil_append, headerLoop, hblank]
    rfl
  | cons l lines ih =>
    rw [List.length_cons] at hturns
    obtain ⟨turns, rfl⟩ : ∃ n, turns = n + 1 := ⟨turns - 1, by omega⟩
    have hline := nextLine_eol l.isLine l.eol (lines.flatMap (·.bytes) ++ (blank.bytes ++ body))
    have htext : (decodeUtf8LossyFrom none l.text).isEmpty = false := by
      simpa using decodeUtf8Lossy_ne_nil (.inr l.ne_nil)
    rw [List.flatMap_cons, List.append_assoc, headerLoop, HeaderLine.bytes, hline]
    dsimp only
    rw [htext, if_neg Bool.false_ne_true, ih (by omega)]
    rfl

/-! ## The body -/

theorem length_data_le {chunks : List Chunk} (last : LastChunk) {c : Chunk} (hc : c ∈ chunks) :
    c.data.length ≤ (Body.chunked chunks last).bytes.length := by
  induction chunks with
  | nil => exact absurd hc List.not_mem_nil
  | cons d chunks ih =>
    rw [bytes_chunked_cons]
    simp only [List.length_append]
    rcases List.mem_cons.mp hc with rfl | hc
    · omega
    · have := ih hc
      omega

theorem countP_marked (b : Body) : b.marked.countP (·.2) = b.data.length := by
  have htrue : ∀ data : List UInt8, (mark true data).countP (·.2) = data.length := fun data => by
    have hall := countP_mark_true data data.length
    rwa [Nat.min_self, ← length_mark true data, List.take_length, length_mark] at hall
  have hfalse : ∀ bytes : List UInt8, (mark false bytes).countP (·.2) = 0 := fun bytes => by
    have hnone := countP_mark_false bytes bytes.length
    rwa [← length_mark false bytes, List.take_length] at hnone
  cases b with
  | length data => exact htrue data
  | close data => exact htrue data
  | chunked chunks last =>
    rw [Body.marked, Body.data, List.countP_append, LastChunk.marked, SizeLine.marked, List.countP_append, hfalse,
      hfalse, Nat.add_zero]
    induction chunks with
    | nil => rfl
    | cons c chunks ih =>
      rw [List.flatMap_cons, List.flatMap_cons, List.countP_append, List.length_append, ih, Chunk.marked, SizeLine.marked,
        List.countP_append, List.countP_append, htrue, hfalse, hfalse, Nat.zero_add, Nat.add_zero]

theorem length_marked (b : Body) : b.marked.length = b.bytes.length := (List.length_map _).symm

theorem dataBefore_length (b : Body) : b.dataBefore b.bytes.length = b.data.length := by
  rw [Body.dataBefore, ← length_marked, List.take_length, countP_marked]

/-- The lines around the one that frames a body. -/
theorem exists_framing {lines : List HeaderLine} {pre post : List (List UInt8)} {line : List UInt8}
    (hlines : lines.map (·.text) = pre ++ line :: post) (hrest : ∀ l ∈ pre ++ post, Unframed l) :
    ∃ before l after, lines = before ++ l :: after ∧ l.text = line ∧ (∀ l ∈ before, Unframed l.text) ∧
      ∀ l ∈ after, Unframed l.text := by
  obtain ⟨before, rest, rfl, rfl, hafter⟩ := List.map_eq_append_iff.mp hlines
  obtain ⟨l, after, rfl, rfl, rfl⟩ := List.map_eq_cons_iff.mp hafter
  exact ⟨before, l, after, rfl, rfl, fun l hl => hrest _ (List.mem_append_left _ (List.mem_map_of_mem hl)),
    fun l hl => hrest _ (List.mem_append_right _ (List.mem_map_of_mem hl))⟩

/-- The size of what there is of a body that the lines frame. -/
theorem bodySize_framed {b : Body} {lines : List HeaderLine} (h : b.Framed (lines.map (·.text)))
    (hlen : b.bytes.length ≤ USIZE_MAX) (k : Nat) :
    (lines.foldl addLine {}).bodySize (b.bytes.take k) = b.dataBefore k := by
  cases b with
  | close data =>
    have hall : ∀ l ∈ lines, Unframed l.text := fun l hl => h _ (List.mem_map_of_mem hl)
    obtain ⟨hlength, hchunked⟩ := foldl_unframed hall {}
    have hbytes : (Body.close data).bytes = data := map_fst_mark true data
    rw [Headers.bodySize, hlength, hchunked, hbytes, Body.dataBefore, Body.marked, countP_mark_true,
      if_neg Bool.false_ne_true, List.length_take]
  | length data =>
    obtain ⟨pre, line, post, hlines, ⟨digits, hne, hdigits, hfield⟩, hrest⟩ := h
    obtain ⟨before, l, after, rfl, rfl, hbefore, hafter⟩ := exists_framing hlines hrest
    have hbytes : (Body.length data).bytes = data := map_fst_mark true data
    rw [hbytes] at hlen ⊢
    rw [List.foldl_append, List.foldl_cons]
    obtain ⟨hlength, hchunked⟩ := foldl_unframed hafter (addLine (before.foldl addLine {}) l)
    obtain ⟨-, hchunked'⟩ := foldl_unframed hbefore {}
    obtain ⟨hn, hchunked''⟩ := add_length hne hdigits hlen hfield (before.foldl addLine {}) l.bytes.length
    rw [Headers.bodySize, hlength, hchunked, addLine, hn, hchunked'', hchunked', Body.dataBefore, Body.marked,
      countP_mark_true, if_neg Bool.false_ne_true, List.length_take]
    dsimp only
    omega
  | chunked chunks last =>
    obtain ⟨pre, line, post, hlines, ⟨value, hvalue, hfield⟩, hrest⟩ := h
    obtain ⟨before, l, after, rfl, rfl, hbefore, hafter⟩ := exists_framing hlines hrest
    rw [List.foldl_append, List.foldl_cons]
    obtain ⟨-, hchunked⟩ := foldl_unframed hafter (addLine (before.foldl addLine {}) l)
    have hchunked' := add_chunked hvalue hfield (before.foldl addLine {}) l.bytes.length
    rw [Headers.bodySize, hchunked, addLine, hchunked', if_pos rfl]
    exact dechunkedLen_marked (fun c hc => Nat.le_trans (length_data_le last hc) hlen) last (Nat.lt_succ_self _)

/-! ## The response -/

theorem statusText_bounds (r : Response) {c : Char} (hc : c ∈ r.statusText) : 32 ≤ c.toNat ∧ c.toNat < 128 := by
  have hdigit : ∀ c : Char, c.isDigit = true → 32 ≤ c.toNat ∧ c.toNat < 128 := fun c hc => by
    have hsome : (digitValue 10 c).isSome = true := by
      rw [digitValue_of_isDigit hc]
      rfl
    have hplace := digitValue_isSome hsome
    omega
  simp only [Response.statusText, List.mem_append, List.mem_cons, List.not_mem_nil, or_false] at hc
  rcases hc with (hc | hc | rfl | hc) | rfl | hc
  · rcases hc with rfl | rfl | rfl | rfl | rfl <;> decide
  · exact hdigit c (isDigit_of_mem_toDigits hc)
  · decide
  · exact hdigit c (isDigit_of_mem_toDigits hc)
  · decide
  · exact hdigit c (isDigit_of_mem_threeDigits r.status.isLt hc)

theorem isLine_status (r : Response) : IsLine (asciiBytes r.statusText ++ r.reason) where
  noLf := by
    rw [List.mem_append, not_or]
    refine ⟨notMem_asciiBytes fun c hc => ?_, r.isLine.noLf⟩
    obtain ⟨hlo, hhi⟩ := statusText_bounds r hc
    exact ⟨hhi, by show c.toNat ≠ 10; omega⟩
  noCr := by
    intro hlast
    by_cases hreason : r.reason = []
    · rw [hreason, List.append_nil] at hlast
      refine notMem_asciiBytes (fun c hc => ?_) (List.mem_of_getLast? hlast)
      obtain ⟨hlo, hhi⟩ := statusText_bounds r hc
      exact ⟨hhi, by show c.toNat ≠ 13; omega⟩
    · rw [List.getLast?_append_of_ne_nil _ hreason] at hlast
      exact r.isLine.noCr hlast

theorem decode_status (r : Response) :
    decodeUtf8LossyFrom none (asciiBytes r.statusText ++ r.reason) =
      r.statusText ++ decodeUtf8LossyFrom none r.reason :=
  decodeUtf8Lossy_asciiBytes fun _ hc => (statusText_bounds r hc).2

theorem length_lines_le (lines : List HeaderLine) : lines.length ≤ (lines.flatMap (·.bytes)).length := by
  induction lines with
  | nil => exact Nat.zero_le _
  | cons l lines ih =>
    have hpos := List.length_pos_iff.mpr l.ne_nil
    rw [List.flatMap_cons, List.length_append, List.length_cons, HeaderLine.bytes, List.length_append]
    omega

/-- The parser undoes the encoding: of a response cut anywhere after the headers,
it finds all there is of the body. -/
theorem parseResponse_encoding (r : Response) (hlen : r.bytes.length ≤ USIZE_MAX) (storeHeaders : Nat) :
    parseResponse r.bytes storeHeaders = .ok (r.parsed r.body.data.length storeHeaders) ∧
      ∀ k, parseResponse (r.bytes.take (r.head.length + k)) storeHeaders =
        .ok (r.parsed (r.body.dataBefore k) storeHeaders) := by
  have hcut : ∀ k, parseResponse (r.bytes.take (r.head.length + k)) storeHeaders =
      .ok (r.parsed (r.body.dataBefore k) storeHeaders) := fun k => by
    have htake : r.bytes.take (r.head.length + k) = r.head ++ r.body.bytes.take k := by
      rw [Response.bytes, List.take_append, List.take_of_length_le (Nat.le_add_right _ _), Nat.add_sub_cancel_left]
    have hstatus := nextLine_eol (isLine_status r) r.statusEol
      (r.lines.flatMap (·.bytes) ++ (r.blank.bytes ++ r.body.bytes.take k))
    have hturns : r.lines.length < (r.lines.flatMap (·.bytes) ++ (r.blank.bytes ++ r.body.bytes.take k)).length + 1 := by
      have := length_lines_le r.lines
      rw [List.length_append]
      omega
    have hbody : r.body.bytes.length ≤ USIZE_MAX := by
      rw [Response.bytes, List.length_append] at hlen
      omega
    obtain ⟨hlines, hsize⟩ := foldl_addLine r.lines {}
    rw [htake, Response.head, List.append_assoc, List.append_assoc (r.lines.flatMap (·.bytes)), parseResponse, hstatus]
    dsimp only
    rw [decode_status, statusLine_statusText]
    dsimp only
    rw [headerLoop_lines r.lines r.blank _ hturns]
    dsimp only
    rw [hlines, hsize, bodySize_framed r.framed hbody, Nat.zero_add]
    rfl
  refine ⟨?_, hcut⟩
  have hall := hcut r.body.bytes.length
  rwa [← List.length_append, dataBefore_length, ← Response.bytes, List.take_length] at hall

/-- A chunked body whose data reads as a size line. -/
def sizeLineInData : Response where
  major := 1
  minor := 1
  status := 200
  reason := ascii " OK"
  statusEol := .crlf
  lines := [⟨ascii "Server: x", .lf, ⟨by decide, by decide⟩, by decide⟩,
    ⟨ascii "transfer-encoding: Chunked", .crlf, ⟨by decide, by decide⟩, by decide⟩]
  blank := .crlf
  body := .chunked [⟨⟨['0', 'A'], some (ascii "q=1"), .crlf, by decide, by decide⟩, ascii "0\r\n\r\n5\r\nxy", .crlf,
    by decide, by decide⟩] ⟨⟨['0', '0'], none, .crlf, by decide, by decide⟩, ascii "X: y\r\n\r\n", by decide⟩
  isLine := ⟨by decide, by decide⟩
  framed := ⟨[ascii "Server: x"], ascii "transfer-encoding: Chunked", [], rfl,
    ⟨"Chunked".toList, by decide, "transfer-encoding".toList, [' '], [], by decide,
      List.all_eq_true.mp (by decide), by decide⟩, by
      rw [List.append_nil, List.forall_mem_singleton]
      exact ⟨by decide, by decide⟩⟩

theorem parseResponse_encoding_sizeLineInData :
    parseResponse sizeLineInData.bytes 0 = .ok (sizeLineInData.parsed 10 0) ∧
      ∀ k, parseResponse (sizeLineInData.bytes.take (sizeLineInData.head.length + k)) 0 =
        .ok (sizeLineInData.parsed (sizeLineInData.body.dataBefore k) 0) :=
  parseResponse_encoding sizeLineInData (by decide) 0

end Starla.Proof.Measurements.Http
