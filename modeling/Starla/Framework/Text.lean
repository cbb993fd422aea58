import Mathlib.Algebra.Group.Int.Defs
import Mathlib.Algebra.Group.Nat.Defs
import Mathlib.Data.List.Basic

/-!
# Text

Characters and numbers as a text protocol reads them, over `List Char`.

* `words`, `afterFields` : text apart at runs of a character class.
* `parseUnsigned`, `parseSigned` : whole numbers within bounds.
* `decodeUtf8Lossy` : bytes as characters, U+FFFD for each maximal part of an
  ill-formed sequence.
-/

namespace Starla.Framework

/-! ## Character classes -/

/-- Unicode's White_Space property. -/
def isWhitespace (c : Char) : Bool :=
  (9 ≤ c.val && c.val ≤ 13) || c.val == 0x20 || c.val == 0x85 || c.val == 0xA0 || c.val == 0x1680 ||
    (0x2000 ≤ c.val && c.val ≤ 0x200A) || c.val == 0x2028 || c.val == 0x2029 || c.val == 0x202F ||
    c.val == 0x205F || c.val == 0x3000

/-- The blanks of a crontab. -/
def isBlank (c : Char) : Bool := c == ' ' || c == '\t'

/-- The value of a digit, in radices up to 16. -/
def digitValue (radix : Nat) (c : Char) : Option Nat :=
  let v := if c.isDigit then some (c.toNat - 48)
    else if 'a' ≤ c ∧ c ≤ 'f' then some (c.toNat - 87)
    else if 'A' ≤ c ∧ c ≤ 'F' then some (c.toNat - 55)
    else none
  v.filter (· < radix)

/-- A character's upper case, where that is ASCII. -/
def upperAscii (c : Char) : List Char :=
  if c.isLower then [c.toUpper]
  else match c.val with
    | 0x131 => ['I']
    | 0x17F => ['S']
    | 0xDF => ['S', 'S']
    | 0xFB00 => ['F', 'F']
    | 0xFB01 => ['F', 'I']
    | 0xFB02 => ['F', 'L']
    | 0xFB03 => ['F', 'F', 'I']
    | 0xFB04 => ['F', 'F', 'L']
    | 0xFB05 | 0xFB06 => ['S', 'T']
    | _ => [c]

/-- A character's lower case, where that is ASCII: U+212A is the Kelvin sign. -/
def lowerAscii (c : Char) : Char :=
  if c.isUpper then c.toLower else if c.val = 0x212A then 'k' else c

/-! ## Cutting text -/

/-- The maximal runs without a character of a class. -/
def wordsFrom (p : Char → Bool) (word : List Char) : List Char → List (List Char)
  | [] => if word.isEmpty then [] else [word]
  | c :: cs =>
    if p c then (if word.isEmpty then [] else [word]) ++ wordsFrom p [] cs
    else wordsFrom p (word ++ [c]) cs

def words (p : Char → Bool) (cs : List Char) : List (List Char) := wordsFrom p [] cs

theorem forall_mem_of_all {p : Char → Bool} {cs : List Char} (h : cs.all (! p ·) = true) :
    ∀ c ∈ cs, p c = false := fun c hc => by
  simpa using List.all_eq_true.mp h c hc

theorem wordsFrom_append {p : Char → Bool} {word cs s : List Char} {c : Char}
    (hcs : ∀ c ∈ cs, p c = false) (hc : p c = true) :
    wordsFrom p word (cs ++ c :: s) =
      (if (word ++ cs).isEmpty then [] else [word ++ cs]) ++ wordsFrom p [] s := by
  induction cs generalizing word with
  | nil => simp [wordsFrom, hc]
  | cons d cs ih =>
    rw [List.cons_append, wordsFrom, if_neg (by simp [hcs d List.mem_cons_self]),
      ih fun e he => hcs e (List.mem_cons_of_mem _ he), List.append_assoc]
    rfl

/-- What follows a text's first field and the separators after it. -/
def afterField (p : Char → Bool) (cs : List Char) : List Char := (cs.dropWhile (! p ·)).dropWhile p

def afterFields (p : Char → Bool) : Nat → List Char → List Char
  | 0, cs => cs
  | n + 1, cs => afterFields p n (afterField p cs)

/-- What follows a prefix. -/
def stripPrefix {α : Type} [DecidableEq α] : List α → List α → Option (List α)
  | [], cs => some cs
  | _ :: _, [] => none
  | p :: ps, c :: cs => if p = c then stripPrefix ps cs else none

theorem stripPrefix_eq_some {α : Type} [DecidableEq α] {p cs rest : List α} :
    stripPrefix p cs = some rest ↔ cs = p ++ rest := by
  induction p generalizing cs with
  | nil => simp [stripPrefix]
  | cons a p ih =>
    cases cs with
    | nil => simp [stripPrefix]
    | cons c cs =>
      rw [stripPrefix, List.cons_append, List.cons.injEq]
      by_cases h : a = c
      · rw [if_pos h, ih]
        exact ⟨fun h' => ⟨h.symm, h'⟩, fun h' => h'.2⟩
      · rw [if_neg h]
        exact ⟨fun h' => absurd h' (by simp), fun h' => absurd h'.1.symm h⟩

/-- Whether a text holds another. -/
def hasInfix (p : List Char) : List Char → Bool
  | [] => p.isEmpty
  | c :: cs => p.isPrefixOf (c :: cs) || hasInfix p cs

/-- The text before and after the first `sep`. -/
def splitOnce (sep : Char) : List Char → Option (List Char × List Char)
  | [] => none
  | c :: cs => if c = sep then some ([], cs) else (splitOnce sep cs).map fun s => (c :: s.1, s.2)

theorem splitOnce_append {sep : Char} {cs rest : List Char} (h : sep ∉ cs) :
    splitOnce sep (cs ++ sep :: rest) = some (cs, rest) := by
  induction cs with
  | nil => simp [splitOnce]
  | cons c cs ih =>
    rw [List.mem_cons, not_or] at h
    rw [List.cons_append, splitOnce, if_neg (Ne.symm h.1), ih h.2]
    rfl

theorem splitOnce_eq_some {sep : Char} {cs a b : List Char} (h : splitOnce sep cs = some (a, b)) :
    cs = a ++ sep :: b := by
  induction cs generalizing a with
  | nil => cases h
  | cons c cs ih =>
    rw [splitOnce] at h
    split_ifs at h with hc
    · cases h
      rw [hc]
      rfl
    · obtain ⟨s, hs, hsplit⟩ := Option.map_eq_some_iff.mp h
      cases hsplit
      rw [ih hs]
      rfl

theorem splitOnce_of_notMem {sep : Char} {cs : List Char} (h : sep ∉ cs) : splitOnce sep cs = none := by
  induction cs with
  | nil => rfl
  | cons c cs ih =>
    rw [List.mem_cons, not_or] at h
    rw [splitOnce, if_neg (Ne.symm h.1), ih h.2]
    rfl

/-! ## Numbers -/

/-- The number the digits stand for. -/
def ofDigits (radix : Nat) (cs : List Char) : Option Nat :=
  cs.foldl (fun n c => match n, digitValue radix c with
    | some n, some d => some (n * radix + d)
    | _, _ => none) (some 0)

/-- At least one digit, and a value up to `max`. -/
def digitsUpTo (max radix : Nat) (cs : List Char) : Option Nat :=
  if cs.isEmpty then none else (ofDigits radix cs).filter (· ≤ max)

/-- Digits, a plus sign before them or not. -/
def parseUnsigned (max : Nat) : List Char → Option Nat
  | '+' :: cs => digitsUpTo max 10 cs
  | cs => digitsUpTo max 10 cs

/-- Digits, a sign before them or not: `-min` to `max`. -/
def parseSigned (min max : Nat) : List Char → Option Int
  | '-' :: cs => (digitsUpTo min 10 cs).map fun n => -n
  | '+' :: cs => (digitsUpTo max 10 cs).map fun n => n
  | cs => (digitsUpTo max 10 cs).map fun n => n

/-! ## UTF-8 -/

/-- A sequence whose first bytes have been read: their value so far, and the
ranges of the bytes still to come. -/
abbrev Utf8Pending := Nat × List (UInt8 × UInt8)

def replacement : Char := '\uFFFD'

/-- The first byte of a sequence: a character of its own, or what is to come. -/
def utf8Start (b : UInt8) : Char ⊕ Utf8Pending :=
  let cont : UInt8 × UInt8 := (0x80, 0xBF)
  if b < 0x80 then .inl (Char.ofNat b.toNat)
  else if 0xC2 ≤ b ∧ b ≤ 0xDF then .inr (b.toNat - 0xC0, [cont])
  else if b = 0xE0 then .inr (0, [(0xA0, 0xBF), cont])
  else if b = 0xED then .inr (0xD, [(0x80, 0x9F), cont])
  else if 0xE1 ≤ b ∧ b ≤ 0xEF then .inr (b.toNat - 0xE0, [cont, cont])
  else if b = 0xF0 then .inr (0, [(0x90, 0xBF), cont, cont])
  else if 0xF1 ≤ b ∧ b ≤ 0xF3 then .inr (b.toNat - 0xF0, [cont, cont, cont])
  else if b = 0xF4 then .inr (4, [(0x80, 0x8F), cont, cont])
  else .inl replacement

/-- A byte that starts a sequence, or stands alone. -/
def utf8First (b : UInt8) : List Char × Option Utf8Pending :=
  match utf8Start b with
  | .inl c => ([c], none)
  | .inr p => ([], some p)

def utf8Step (pending : Option Utf8Pending) (b : UInt8) : List Char × Option Utf8Pending :=
  match pending with
  | none => utf8First b
  | some (_, []) => utf8First b
  | some (n, (lo, hi) :: rest) =>
    if lo ≤ b ∧ b ≤ hi then
      let n := n * 64 + (b.toNat - 0x80)
      if rest.isEmpty then ([Char.ofNat n], none) else ([], some (n, rest))
    else
      -- the bytes so far are one ill-formed part; this one starts afresh
      let (cs, p) := utf8First b
      (replacement :: cs, p)

def decodeUtf8LossyFrom (pending : Option Utf8Pending) : List UInt8 → List Char
  | [] => if pending.isSome then [replacement] else []
  | b :: bs =>
    let (cs, p) := utf8Step pending b
    cs ++ decodeUtf8LossyFrom p bs

def decodeUtf8Lossy (bs : List UInt8) : String := String.ofList (decodeUtf8LossyFrom none bs)

end Starla.Framework
