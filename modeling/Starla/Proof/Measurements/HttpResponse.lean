import Starla.Impl.Measurements.HttpResponse

/-!
# A response that comes in reads

The loop that reads a response stops by a test of its own, which reads the
headers in another way than the parser and looks for a chunked body's end in the
chunks' data too. What it has then is parsed as the whole is where nothing that
counts in the body's size comes later.

* `responseComplete_firstStop` : the first place at which the loop may stop.
* `bodySize_take` : how much of a body has to be there.
* `fetched_iff` : both, for every way of reading a response.
-/

namespace Starla.Proof.Measurements.Http

open Starla.Framework Starla.Impl.Measurements Starla.Impl.Measurements.Http

/-! ## The body -/

/-- Where the last chunk with data ends, 0 where there is none. -/
def chunkEnd : (turns : Nat) → (body : List UInt8) → Nat
  | 0, _ => 0
  | turns + 1, body =>
    match splitLine body with
    | none => 0
    | some (line, rest) =>
      match chunkSize line with
      | none => 0
      | some 0 => 0
      | some size =>
        let data := rest.drop (min size rest.length)
        let last := chunkEnd turns (stripEol data)
        if rest.isEmpty then 0
        else line.length + 1 + min size rest.length +
          if last = 0 then 0 else data.length - (stripEol data).length + last

/-- Where the bytes that count in the body's size end. -/
def bodyEnd (h : Headers) (body : List UInt8) : Nat :=
  if h.chunked then chunkEnd (body.length + 1) body
  else match h.contentLength with
    | some n => min n body.length
    | none => body.length

theorem splitLine_length {body line rest : List UInt8} (h : splitLine body = some (line, rest)) :
    body.length = line.length + 1 + rest.length := by
  rw [findSub_eq_some h]
  simp only [List.length_append, List.length_cons, List.length_nil]
  omega

theorem dechunkedLen_of_none {turns : Nat} {body : List UInt8} (h : splitLine body = none) :
    dechunkedLen turns body = 0 := by
  cases turns with
  | zero => rfl
  | succ turns => rw [dechunkedLen, h]

theorem dechunkedLen_nil (turns : Nat) : dechunkedLen turns [] = 0 := dechunkedLen_of_none rfl

theorem stripEol_nil : stripEol [] = [] := rfl

theorem stripEol_crlf (body : List UInt8) : stripEol (13 :: 10 :: body) = body := rfl

theorem stripEol_lf (body : List UInt8) : stripEol (10 :: body) = body := rfl

theorem stripEol_eq_self {body : List UInt8} (hcrlf : stripPrefix CRLF body = none)
    (hlf : stripPrefix [10] body = none) : stripEol body = body := by
  rw [stripEol, hcrlf, hlf]
  rfl

/-- A body starts with a line end or not. -/
theorem stripEol_cases (body : List UInt8) :
    (∃ rest, body = 13 :: 10 :: rest) ∨ (∃ rest, body = 10 :: rest) ∨
      (stripPrefix CRLF body = none ∧ stripPrefix [10] body = none) := by
  cases hcrlf : stripPrefix CRLF body with
  | some rest => exact .inl ⟨rest, stripPrefix_eq_some.mp hcrlf⟩
  | none =>
    cases hlf : stripPrefix [10] body with
    | some rest => exact .inr (.inl ⟨rest, stripPrefix_eq_some.mp hlf⟩)
    | none => exact .inr (.inr ⟨rfl, rfl⟩)

theorem length_stripEol_le (body : List UInt8) : (stripEol body).length ≤ body.length := by
  rcases stripEol_cases body with ⟨rest, rfl⟩ | ⟨rest, rfl⟩ | ⟨hcrlf, hlf⟩
  · rw [stripEol_crlf, List.length_cons, List.length_cons]
    omega
  · rw [stripEol_lf, List.length_cons]
    omega
  · rw [stripEol_eq_self hcrlf hlf]

theorem stripPrefix_take {p body : List UInt8} (h : stripPrefix p body = none) (m : Nat) :
    stripPrefix p (body.take m) = none := by
  rw [← List.take_append_drop m body] at h
  exact stripPrefix_eq_none_of_append h

/-- Half a line end after a chunk's data is no line. -/
theorem dechunkedLen_stripEol_take (turns : Nat) (body : List UInt8) (m : Nat) :
    dechunkedLen turns (stripEol (body.take m)) =
      dechunkedLen turns ((stripEol body).take (m - (body.length - (stripEol body).length))) := by
  rcases stripEol_cases body with ⟨rest, rfl⟩ | ⟨rest, rfl⟩ | ⟨hcrlf, hlf⟩
  · have hlen : (13 :: 10 :: rest).length - rest.length = 2 := by
      simp only [List.length_cons]
      omega
    rw [stripEol_crlf, hlen]
    rcases m with _ | _ | m
    · rfl
    · exact (dechunkedLen_of_none (show splitLine [13] = none by decide)).trans (dechunkedLen_nil turns).symm
    · rfl
  · have hlen : (10 :: rest).length - rest.length = 1 := by
      simp only [List.length_cons]
      omega
    rw [stripEol_lf, hlen]
    rcases m with _ | m
    · rfl
    · rfl
  · rw [stripEol_eq_self hcrlf hlf, stripEol_eq_self (stripPrefix_take hcrlf m) (stripPrefix_take hlf m),
      Nat.sub_self, Nat.sub_zero]

theorem dechunkedLen_of_size {turns n : Nat} {body line rest : List UInt8}
    (h : splitLine body = some (line, rest)) (hsize : chunkSize line = some (n + 1)) :
    dechunkedLen (turns + 1) body =
      min (n + 1) rest.length + dechunkedLen turns (stripEol (rest.drop (min (n + 1) rest.length))) := by
  rw [dechunkedLen, h]
  dsimp only
  rw [hsize]
  rfl

theorem dechunkedLen_of_noSize {turns : Nat} {body line rest : List UInt8} (h : splitLine body = some (line, rest))
    (hsize : ∀ n, chunkSize line ≠ some (n + 1)) : dechunkedLen turns body = 0 := by
  cases turns with
  | zero => rfl
  | succ turns =>
    rw [dechunkedLen, h]
    dsimp only
    rcases hs : chunkSize line with _ | _ | n
    · rfl
    · rfl
    · exact absurd hs (hsize n)

theorem chunkEnd_of_none {turns : Nat} {body : List UInt8} (h : splitLine body = none) :
    chunkEnd turns body = 0 := by
  cases turns with
  | zero => rfl
  | succ turns => rw [chunkEnd, h]

theorem chunkEnd_of_noSize {turns : Nat} {body line rest : List UInt8} (h : splitLine body = some (line, rest))
    (hsize : ∀ n, chunkSize line ≠ some (n + 1)) : chunkEnd turns body = 0 := by
  cases turns with
  | zero => rfl
  | succ turns =>
    rw [chunkEnd, h]
    dsimp only
    rcases hs : chunkSize line with _ | _ | n
    · rfl
    · rfl
    · exact absurd hs (hsize n)

theorem chunkEnd_of_size {turns n : Nat} {body line rest : List UInt8}
    (h : splitLine body = some (line, rest)) (hsize : chunkSize line = some (n + 1)) :
    chunkEnd (turns + 1) body =
      let data := rest.drop (min (n + 1) rest.length)
      let last := chunkEnd turns (stripEol data)
      if rest.isEmpty then 0
      else line.length + 1 + min (n + 1) rest.length +
        if last = 0 then 0 else data.length - (stripEol data).length + last := by
  rw [chunkEnd, h]
  dsimp only
  rw [hsize]
  rfl

/-- A body's first part has all the chunks' data exactly if the last byte of
data is in it. -/
theorem dechunkedLen_take {turns : Nat} {body : List UInt8} (hturns : body.length < turns) (j : Nat) :
    dechunkedLen turns (body.take j) = dechunkedLen turns body ↔ chunkEnd turns body ≤ j := by
  induction turns generalizing body j with
  | zero => omega
  | succ turns ih =>
    cases hs : splitLine body with
    | none =>
      rw [dechunkedLen_of_none hs, chunkEnd_of_none hs, dechunkedLen_of_none (findSub_take_of_none hs j)]
      simp
    | some s =>
      obtain ⟨line, rest⟩ := s
      have hlen := splitLine_length hs
      have htake := findSub_take hs j
      rw [List.length_singleton] at htake
      by_cases hsize : ∀ n, chunkSize line ≠ some (n + 1)
      · rw [dechunkedLen_of_noSize hs hsize, chunkEnd_of_noSize hs hsize]
        refine iff_of_true ?_ (Nat.zero_le j)
        split_ifs at htake
        · exact dechunkedLen_of_noSize htake hsize
        · exact dechunkedLen_of_none htake
      · obtain ⟨n, hn⟩ : ∃ n, chunkSize line = some (n + 1) := by simpa using hsize
        rw [dechunkedLen_of_size hs hn, chunkEnd_of_size hs hn]
        dsimp only
        generalize hd : min (n + 1) rest.length = d
        have hstrip := length_stripEol_le (rest.drop d)
        rw [List.length_drop] at hstrip
        by_cases hrest : rest = []
        · subst hrest
          rw [List.length_nil] at hd
          rw [List.drop_nil, stripEol_nil, dechunkedLen_nil, if_pos List.isEmpty_nil]
          refine iff_of_true ?_ (Nat.zero_le j)
          split_ifs at htake
          · rw [dechunkedLen_of_size htake hn, List.take_nil, List.drop_nil, stripEol_nil, dechunkedLen_nil,
              List.length_nil]
            omega
          · rw [dechunkedLen_of_none htake]
            omega
        · have hpos : 0 < rest.length := List.length_pos_iff.mpr hrest
          rw [if_neg (by simpa using hrest)]
          split_ifs at htake with hj
          · -- the size is there, and `k` bytes of what follows
            obtain ⟨k, rfl⟩ : ∃ k, j = line.length + 1 + k := ⟨j - (line.length + 1), by omega⟩
            rw [Nat.add_sub_cancel_left] at htake
            rw [dechunkedLen_of_size htake hn, List.length_take]
            by_cases hk : d ≤ k
            · have hd' : min (n + 1) (min k rest.length) = d := by omega
              have hturns' : (stripEol (rest.drop d)).length < turns := by omega
              have hdata := ih hturns' (k - d - ((rest.drop d).length - (stripEol (rest.drop d)).length))
              rw [hd', List.drop_take, dechunkedLen_stripEol_take, Nat.add_left_cancel_iff, hdata,
                List.length_drop]
              split_ifs
              · omega
              · omega
            · have hd' : min (n + 1) (min k rest.length) = k := by omega
              rw [hd', List.drop_eq_nil_of_le (by simp), stripEol_nil, dechunkedLen_nil]
              refine iff_of_false ?_ ?_
              · omega
              · omega
          · rw [dechunkedLen_of_none htake]
            refine iff_of_false ?_ ?_
            · omega
            · omega

theorem dechunkedLen_congr {turns : Nat} (turns' : Nat) {body : List UInt8} (h : body.length < turns)
    (h' : body.length < turns') : dechunkedLen turns body = dechunkedLen turns' body := by
  induction turns generalizing turns' body with
  | zero => omega
  | succ turns ih =>
    obtain ⟨turns', rfl⟩ : ∃ n, turns' = n + 1 := ⟨turns' - 1, by omega⟩
    cases hs : splitLine body with
    | none => rw [dechunkedLen_of_none hs, dechunkedLen_of_none hs]
    | some s =>
      obtain ⟨line, rest⟩ := s
      have hlen := splitLine_length hs
      by_cases hsize : ∀ n, chunkSize line ≠ some (n + 1)
      · rw [dechunkedLen_of_noSize hs hsize, dechunkedLen_of_noSize hs hsize]
      · obtain ⟨n, hn⟩ : ∃ n, chunkSize line = some (n + 1) := by simpa using hsize
        have hstrip := length_stripEol_le (rest.drop (min (n + 1) rest.length))
        rw [List.length_drop] at hstrip
        rw [dechunkedLen_of_size hs hn, dechunkedLen_of_size hs hn,
          ih turns' (by omega) (by omega)]

/-- A body's first part is as large as the body exactly if it has all the bytes
that count. -/
theorem bodySize_take (h : Headers) (body : List UInt8) {m : Nat} (hm : m ≤ body.length) :
    h.bodySize (body.take m) = h.bodySize body ↔ bodyEnd h body ≤ m := by
  have hlen : (body.take m).length = m := List.length_take_of_le hm
  unfold Headers.bodySize bodyEnd
  split_ifs
  · rw [dechunkedLen_congr (body.length + 1) (Nat.lt_succ_self _) (by omega)]
    exact dechunkedLen_take (Nat.lt_succ_self _) m
  · cases h.contentLength with
    | none =>
      dsimp only
      omega
    | some n =>
      dsimp only
      omega

/-! ## The headers -/

/-- What the parser makes of the headers, and the body it finds after them. -/
def parsedHead (raw : List UInt8) : Except String (UInt16 × String × Headers × List UInt8) :=
  match nextLine raw with
  | none => .error "bad status line: no line"
  | some (status, _, rest) =>
    match statusLine status with
    | .error e => .error e
    | .ok (res, ver) => (headerLoop (rest.length + 1) rest {}).map fun p => (res, ver, p)

theorem parseResponse_eq (raw : List UInt8) (storeHeaders : Nat) :
    parseResponse raw storeHeaders = (parsedHead raw).map fun (res, ver, h, body) =>
      { res, ver, hsize := h.hsize, bsize := h.bodySize body, header := storedHeaders h.lines storeHeaders } := by
  unfold parseResponse parsedHead
  rcases nextLine raw with _ | ⟨status, len, rest⟩
  · rfl
  · dsimp only
    rcases statusLine status with e | ⟨res, ver⟩
    · rfl
    · dsimp only
      rcases headerLoop (rest.length + 1) rest {} with e | ⟨h, body⟩
      · rfl
      · rfl

theorem nextLine_append {raw rest : List UInt8} {line : List Char} {len : Nat} (h : nextLine raw = some (line, len, rest))
    (v : List UInt8) : nextLine (raw ++ v) = some (line, len, rest ++ v) := by
  obtain ⟨⟨text, rest'⟩, hs, he⟩ := Option.map_eq_some_iff.mp h
  cases he
  rw [nextLine, splitLine, findSub_append hs]
  rfl

/-- A blank line is where a line starts. -/
def AtLine (a : List UInt8) : Prop := a = [] ∨ ∃ a', a = a' ++ [10]

/-- Bytes that end a line have a first line. -/
theorem splitLine_of_atLine {a : List UInt8} (h : AtLine a) (hne : a ≠ []) :
    ∃ line rest, splitLine a = some (line, rest) ∧ AtLine rest ∧ rest.length < a.length := by
  rcases h with rfl | ⟨a', rfl⟩
  · exact absurd rfl hne
  · obtain ⟨line, rest, hs, -⟩ := findSub_le (p := [10]) (show a' ++ [10] = a' ++ ([10] ++ []) from rfl)
    have hlen := splitLine_length hs
    have hsplit := findSub_eq_some hs
    refine ⟨line, rest, hs, ?_, by omega⟩
    rcases List.eq_nil_or_concat' rest with rfl | ⟨rest', x, rfl⟩
    · exact .inl rfl
    · have hlast := congrArg List.getLast? hsplit
      rw [← List.append_assoc, ← List.append_assoc, List.getLast?_concat, List.getLast?_concat] at hlast
      cases hlast
      exact .inr ⟨rest', rfl⟩

theorem nextLine_crlf (b : List UInt8) : nextLine (CRLF ++ b) = some ([], 2, b) := rfl

/-- The headers end at a blank line, or before it; what comes after it is of the
body. -/
theorem headerLoop_ok {a : List UInt8} (ha : AtLine a) (h : Headers) :
    ∃ h' c, c.length ≤ a.length + 2 ∧ ∀ b turns, a.length < turns →
      headerLoop turns (a ++ (CRLF ++ b)) h = .ok (h', c ++ b) := by
  induction hn : a.length using Nat.strongRecOn generalizing a h with
  | ind n ih =>
    by_cases hnil : a = []
    · subst hnil
      refine ⟨h, [], Nat.zero_le _, fun b turns hturns => ?_⟩
      obtain ⟨turns, rfl⟩ : ∃ n, turns = n + 1 := ⟨turns - 1, by omega⟩
      rw [List.nil_append, headerLoop, nextLine_crlf]
      rfl
    · obtain ⟨line, rest, hs, hrest, hlt⟩ := splitLine_of_atLine ha hnil
      obtain ⟨text, len, hline⟩ : ∃ text len, nextLine a = some (text, len, rest) := by
        rw [nextLine, hs]
        exact ⟨_, _, rfl⟩
      by_cases hempty : text.isEmpty
      · refine ⟨h, rest ++ CRLF, ?_, fun b turns hturns => ?_⟩
        · rw [List.length_append]
          show rest.length + 2 ≤ _
          omega
        · obtain ⟨turns, rfl⟩ : ∃ n, turns = n + 1 := ⟨turns - 1, by omega⟩
          rw [headerLoop, nextLine_append hline]
          dsimp only
          rw [if_pos hempty, List.append_assoc]
      · obtain ⟨h', c, hc, hloop⟩ := ih rest.length (by omega) hrest (h.add text len) rfl
        refine ⟨h', c, by omega, fun b turns hturns => ?_⟩
        obtain ⟨turns, rfl⟩ : ∃ n, turns = n + 1 := ⟨turns - 1, by omega⟩
        rw [headerLoop, nextLine_append hline]
        dsimp only
        rw [if_neg hempty]
        exact hloop b turns (by omega)

/-- Where the headers' end is there, what follows it makes no difference to what
they are read as. -/
theorem parsedHead_ok (head : List UInt8) :
    (∃ e, ∀ b, parsedHead (head ++ (CRLF ++ CRLF ++ b)) = .error e) ∨
      ∃ res ver h c, c.length ≤ head.length + 4 ∧
        ∀ b, parsedHead (head ++ (CRLF ++ CRLF ++ b)) = .ok (res, ver, h, c ++ b) := by
  have hsplit : ∀ b, head ++ (CRLF ++ CRLF ++ b) = (head ++ CRLF) ++ (CRLF ++ b) := by
    intro b
    rw [List.append_assoc, List.append_assoc]
  have hat : AtLine (head ++ CRLF) := .inr ⟨head ++ [13], by rw [List.append_assoc]; rfl⟩
  obtain ⟨line, rest, hs, hrest, hlt⟩ := splitLine_of_atLine hat (by simp [CRLF])
  obtain ⟨status, len, hline⟩ : ∃ text len, nextLine (head ++ CRLF) = some (text, len, rest) := by
    rw [nextLine, hs]
    exact ⟨_, _, rfl⟩
  cases hstatus : statusLine status with
  | error e =>
    refine .inl ⟨e, fun b => ?_⟩
    rw [hsplit, parsedHead, nextLine_append hline]
    dsimp only
    rw [hstatus]
  | ok p =>
    obtain ⟨res, ver⟩ := p
    obtain ⟨h, c, hc, hloop⟩ := headerLoop_ok hrest {}
    have hlen : (head ++ CRLF).length = head.length + 2 := List.length_append
    refine .inr ⟨res, ver, h, c, by omega, fun b => ?_⟩
    rw [hsplit, parsedHead, nextLine_append hline]
    dsimp only
    rw [hstatus]
    dsimp only
    rw [hloop b _ (by rw [List.length_append]; omega)]
    rfl

/-! ## Where the loop stops -/

/-- The Content-Length the loop goes by. -/
def stopLength (head : List UInt8) : Option Nat :=
  ((lines ((decodeUtf8LossyFrom none head).map asciiLower)).findSome? (stripPrefix "content-length:".toList)).bind
    fun v => parseUnsigned USIZE_MAX (trim v)

/-- The loop waits for a chunked body's end. -/
def stopChunked (head : List UInt8) : Bool :=
  (lines ((decodeUtf8LossyFrom none head).map asciiLower)).any fun l =>
    (stripPrefix "transfer-encoding:".toList (l.dropWhile isWhitespace)).isSome && hasInfix "chunked".toList l

def lastChunk : List UInt8 := 48 :: CRLF ++ CRLF

/-- The first place at which the loop may stop. -/
def firstStop (s : List UInt8) : Option Nat :=
  match findSub (CRLF ++ CRLF) s with
  | none => none
  | some (head, body) =>
    match stopLength head with
    | some len => if len ≤ body.length then some (head.length + 4 + len) else none
    | none =>
      if stopChunked head then (findSub lastChunk body).map fun p => head.length + 4 + (p.1.length + 5) else none

theorem responseComplete_eq (buf : List UInt8) :
    responseComplete buf = match findSub (CRLF ++ CRLF) buf with
      | none => false
      | some (head, body) =>
        match stopLength head with
        | some len => decide (len ≤ body.length)
        | none => if stopChunked head then lastChunk.isSuffixOf body else false := rfl

theorem responseComplete_take {s head body : List UInt8} (h : findSub (CRLF ++ CRLF) s = some (head, body)) (k : Nat) :
    responseComplete (s.take k) = true ↔ head.length + 4 ≤ k ∧
      match stopLength head with
      | some len => len ≤ (body.take (k - (head.length + 4))).length
      | none => stopChunked head = true ∧ lastChunk <:+ body.take (k - (head.length + 4)) := by
  rw [responseComplete_eq, findSub_take h]
  show (match (if head.length + 4 ≤ k then some (head, body.take (k - (head.length + 4))) else none) with
    | none => _ | some (head, body) => _) = true ↔ _
  split_ifs with hk
  · dsimp only
    cases stopLength head with
    | some len => simp [hk]
    | none => simp [hk]
  · simp [hk]

theorem suffix_of_findSub {body a b : List UInt8} (h : findSub lastChunk body = some (a, b)) :
    lastChunk <:+ body.take (a.length + 5) := by
  have htake : body.take (a.length + 5) = a ++ lastChunk := by
    rw [findSub_eq_some h, ← List.append_assoc]
    exact List.take_left' List.length_append
  rw [htake]
  exact List.suffix_append a lastChunk

theorem findSub_of_suffix {body : List UInt8} {m : Nat} (h : lastChunk <:+ body.take m) :
    ∃ a b, findSub lastChunk body = some (a, b) ∧ a.length + 5 ≤ m := by
  obtain ⟨a₀, ha⟩ := h
  have hbody : body = a₀ ++ (lastChunk ++ body.drop m) := by
    rw [← List.append_assoc, ha, List.take_append_drop]
  obtain ⟨a, b, hfind, hle⟩ := findSub_le hbody
  have hlen := congrArg List.length ha
  rw [List.length_append, List.length_take] at hlen
  have hlast : lastChunk.length = 5 := rfl
  exact ⟨a, b, hfind, by omega⟩

/-- The loop may stop at no place before the first. -/
theorem firstStop_le {s : List UInt8} {j : Nat} (hj : responseComplete (s.take j) = true) :
    ∃ k, firstStop s = some k ∧ k ≤ j := by
  unfold firstStop
  rcases hs : findSub (CRLF ++ CRLF) s with _ | ⟨head, body⟩
  · rw [responseComplete_eq, findSub_take_of_none hs] at hj
    cases hj
  · rw [responseComplete_take hs] at hj
    obtain ⟨hle, hstop⟩ := hj
    dsimp only
    cases hlen : stopLength head with
    | some len =>
      rw [hlen] at hstop
      dsimp only at hstop ⊢
      rw [List.length_take] at hstop
      exact ⟨_, if_pos (by omega), by omega⟩
    | none =>
      rw [hlen] at hstop
      obtain ⟨hchunked, hsuffix⟩ := hstop
      obtain ⟨a, b, hfind, hle'⟩ := findSub_of_suffix hsuffix
      dsimp only
      rw [if_pos hchunked, hfind]
      exact ⟨_, rfl, by dsimp only; omega⟩

/-- It may stop at the first. -/
theorem responseComplete_firstStop {s : List UInt8} {k : Nat} (h : firstStop s = some k) :
    responseComplete (s.take k) = true := by
  unfold firstStop at h
  rcases hs : findSub (CRLF ++ CRLF) s with _ | ⟨head, body⟩
  · rw [hs] at h
    cases h
  · rw [hs] at h
    dsimp only at h
    rw [responseComplete_take hs]
    cases hlen : stopLength head with
    | some len =>
      rw [hlen] at h
      dsimp only at h
      split_ifs at h with hle
      cases h
      refine ⟨by omega, ?_⟩
      rw [List.length_take]
      omega
    | none =>
      rw [hlen] at h
      dsimp only at h
      split_ifs at h with hchunked
      obtain ⟨⟨a, b⟩, hfind, rfl⟩ := Option.map_eq_some_iff.mp h
      refine ⟨by omega, hchunked, ?_⟩
      rw [Nat.add_sub_cancel_left]
      exact suffix_of_findSub hfind

theorem firstStop_le_length {s : List UInt8} {k : Nat} (h : firstStop s = some k) : k ≤ s.length := by
  have hcomplete := responseComplete_firstStop h
  by_contra hk
  rw [List.take_of_length_le (by omega), ← List.take_length (l := s)] at hcomplete
  obtain ⟨k', hk', hle⟩ := firstStop_le hcomplete
  rw [h] at hk'
  cases hk'
  omega

/-! ## The loop -/

/-- What one read returns. -/
def IsRead (chunk : List UInt8) : Prop := chunk ≠ [] ∧ chunk.length ≤ CHUNK

/-- The loop has all of it, or stops where it may. -/
theorem readLoop_take {s : List UInt8} {i : Nat} {reads : List (List UInt8)} (hlen : s.length < MAX_RESPONSE_BYTES)
    (hreads : ∀ chunk ∈ reads, IsRead chunk) (hs : s.take i ++ reads.flatten = s) :
    readLoop (s.take i) reads = s ∨
      ∃ j, responseComplete (s.take j) = true ∧ readLoop (s.take i) reads = s.take j := by
  induction reads generalizing i with
  | nil => exact .inl ((List.append_nil _).symm.trans hs)
  | cons chunk reads ih =>
    have hchunk : chunk ≠ [] := (hreads chunk List.mem_cons_self).1
    have hle : (s.take i).length ≤ s.length := List.length_take_le' i s
    rw [List.flatten_cons, ← List.append_assoc] at hs
    have htake : s.take i ++ chunk = s.take (s.take i ++ chunk).length := by
      exact (List.take_left' rfl).symm.trans (congrArg (List.take _) hs)
    rw [readLoop, if_neg (by simp only [List.isEmpty_iff, hchunk, false_or]; omega)]
    split_ifs with hcomplete
    · rw [htake] at hcomplete ⊢
      exact .inr ⟨_, hcomplete, rfl⟩
    · rw [htake] at hs ⊢
      exact ih (fun c hc => hreads c (List.mem_cons_of_mem _ hc)) hs

/-- Read byte by byte, it stops at the first place. -/
theorem readLoop_bytes {s : List UInt8} {i k : Nat} (hlen : s.length < MAX_RESPONSE_BYTES)
    (hk : firstStop s = some k) (hi : i < k) :
    readLoop (s.take i) ((s.drop i).map ([·])) = s.take k := by
  have hkle := firstStop_le_length hk
  induction hn : k - i using Nat.strongRecOn generalizing i with
  | ind n ih =>
    have hilt : i < s.length := by omega
    have hdrop : s.drop i = s.get ⟨i, hilt⟩ :: s.drop (i + 1) := List.drop_eq_getElem_cons (by omega)
    have htake : s.take i ++ [s.get ⟨i, hilt⟩] = s.take (i + 1) := List.take_append_getElem (by omega)
    have hilen : (s.take i).length = i := List.length_take_of_le (by omega)
    rw [hdrop, List.map_cons, readLoop, if_neg (by simp only [List.isEmpty_cons, Bool.false_eq_true, false_or]; omega),
      htake]
    split_ifs with hcomplete
    · obtain ⟨k', hk', hle⟩ := firstStop_le hcomplete
      rw [hk] at hk'
      cases hk'
      rw [show i + 1 = k by omega]
    · by_cases hik : i + 1 = k
      · rw [hik, responseComplete_firstStop hk] at hcomplete
        exact absurd rfl hcomplete
      · exact ih (k - (i + 1)) (by omega) (by omega) rfl

/-! ## Any reads -/

/-- No byte that counts in the body's size comes after the place at which the
loop may stop first. -/
def Counted (s : List UInt8) : Prop :=
  match firstStop s, parsedHead s with
  | some k, .ok (_, _, h, body) => s.length - body.length + bodyEnd h body ≤ k
  | _, _ => True

/-- What a first part with all the headers is read as. -/
theorem parseResponse_take {s head rest : List UInt8} {k : Nat} (hs : findSub (CRLF ++ CRLF) s = some (head, rest))
    (hk : head.length + 4 ≤ k) (hkle : k ≤ s.length) (storeHeaders : Nat) :
    parseResponse (s.take k) storeHeaders = parseResponse s storeHeaders ↔
      match parsedHead s with
      | .ok (_, _, h, body) => s.length - body.length + bodyEnd h body ≤ k
      | .error _ => True := by
  have hsplit := findSub_eq_some hs
  have hlen := congrArg List.length hsplit
  have hcrlf : (CRLF ++ CRLF).length = 4 := rfl
  rw [List.length_append, List.length_append, hcrlf] at hlen
  obtain ⟨m, rfl⟩ : ∃ m, k = head.length + 4 + m := ⟨k - (head.length + 4), by omega⟩
  have htake : s.take (head.length + 4 + m) = head ++ (CRLF ++ CRLF ++ rest.take m) := by
    rw [hsplit, ← List.append_assoc, List.take_append, List.length_append, hcrlf, Nat.add_sub_cancel_left,
      List.take_of_length_le (by rw [List.length_append, hcrlf]; omega), List.append_assoc]
  rw [parseResponse_eq, parseResponse_eq, htake]
  subst hsplit
  rcases parsedHead_ok head with ⟨e, he⟩ | ⟨res, ver, h, c, hc, hok⟩
  · rw [he, he]
    simp
  · rw [hok, hok]
    have hbody : c ++ rest.take m = (c ++ rest).take (c.length + m) := by
      rw [List.take_append, List.take_of_length_le (l := c) (by omega), Nat.add_sub_cancel_left]
    have hsize := bodySize_take h (c ++ rest) (m := c.length + m) (by rw [List.length_append]; omega)
    rw [hbody]
    dsimp only [Except.map]
    rw [Except.ok.injEq, ParsedResponse.mk.injEq]
    simp only [true_and, and_true]
    rw [hsize, List.length_append, List.length_append, hcrlf, List.length_append]
    omega

theorem findSub_of_firstStop {s : List UInt8} {k : Nat} (h : firstStop s = some k) :
    ∃ head rest, findSub (CRLF ++ CRLF) s = some (head, rest) ∧ head.length + 4 ≤ k := by
  have hcomplete := responseComplete_firstStop h
  rcases hs : findSub (CRLF ++ CRLF) s with _ | ⟨head, rest⟩
  · rw [responseComplete_eq, findSub_take_of_none hs] at hcomplete
    cases hcomplete
  · rw [responseComplete_take hs] at hcomplete
    exact ⟨head, rest, rfl, hcomplete.1⟩

theorem flatten_bytes (s : List UInt8) : (s.map ([·])).flatten = s := by
  rw [← List.flatMap_def]
  exact List.flatMap_singleton' s

/-- However a response is read, what is reported is what the parser gives for all
of it, exactly if nothing that counts comes after the first place at which the
loop may stop. -/
theorem fetched_iff (s : List UInt8) (storeHeaders : Nat) (hlen : s.length < MAX_RESPONSE_BYTES) :
    (∀ reads, (∀ chunk ∈ reads, IsRead chunk) → reads.flatten = s →
      fetched reads storeHeaders = parseResponse s storeHeaders) ↔ Counted s := by
  constructor
  · intro h
    unfold Counted
    rcases hk : firstStop s with _ | k
    · trivial
    · obtain ⟨head, rest, hs, hle⟩ := findSub_of_firstStop hk
      have hreads : ∀ chunk ∈ s.map ([·]), IsRead chunk := by
        intro chunk hchunk
        obtain ⟨b, -, rfl⟩ := List.mem_map.mp hchunk
        exact ⟨List.cons_ne_nil _ _, show 1 ≤ CHUNK by decide⟩
      have hbytes := h _ hreads (flatten_bytes s)
      have hloop := readLoop_bytes (i := 0) hlen hk (by omega)
      rw [List.take_zero, List.drop_zero] at hloop
      rw [fetched, hloop, parseResponse_take hs hle (firstStop_le_length hk)] at hbytes
      rcases hp : parsedHead s with e | ⟨res, ver, h, body⟩
      · trivial
      · rw [hp] at hbytes
        exact hbytes
  · intro h reads hreads hs
    rw [fetched]
    rcases readLoop_take (i := 0) hlen hreads (by simpa using hs) with hall | ⟨j, hcomplete, hloop⟩
    · exact congrArg (parseResponse · storeHeaders) hall
    · obtain ⟨k, hk, hkj⟩ := firstStop_le hcomplete
      obtain ⟨head, rest, hsub, hle⟩ := findSub_of_firstStop hk
      refine (congrArg (parseResponse · storeHeaders) hloop).trans ?_
      by_cases hj : j ≤ s.length
      · rw [parseResponse_take hsub (by omega) hj]
        rw [Counted, hk] at h
        rcases hp : parsedHead s with e | ⟨res, ver, hd, body⟩
        · trivial
        · rw [hp] at h
          exact Nat.le_trans h hkj
      · rw [List.take_of_length_le (by omega)]

/-- A text's bytes. -/
def ascii (text : String) : List UInt8 := text.toList.map fun c => UInt8.ofNat c.toNat

theorem fetched_iff_echo :
    (∀ reads, (∀ chunk ∈ reads, IsRead chunk) →
      reads.flatten = ascii "HTTP/1.0 200 OK\r\nContent-Length: 2\r\n\r\nok" →
      fetched reads 1024 = parseResponse (ascii "HTTP/1.0 200 OK\r\nContent-Length: 2\r\n\r\nok") 1024) ↔
      Counted (ascii "HTTP/1.0 200 OK\r\nContent-Length: 2\r\n\r\nok") :=
  fetched_iff _ _ (by decide)

/-- A chunk whose data reads as the last chunk, where a read ends with it. -/
def dataReads : List (List UInt8) :=
  [ascii "HTTP/1.1 200 OK\r\nTransfer-Encoding: chunked\r\n\r\n5\r\n0\r\n\r\n",
    ascii "\r\n1\r\nx\r\n0\r\n\r\n"]

theorem fetched_dataReads :
    (∀ chunk ∈ dataReads, IsRead chunk) ∧ dataReads.flatten.length < MAX_RESPONSE_BYTES ∧
      (fetched dataReads 0).toOption.map (·.bsize) = some 5 ∧
      (parseResponse dataReads.flatten 0).toOption.map (·.bsize) = some 6 := by
  unfold IsRead
  decide

end Starla.Proof.Measurements.Http
