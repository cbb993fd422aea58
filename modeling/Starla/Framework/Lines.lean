import Mathlib.Data.List.DropRight
import Starla.Framework.Text

/-!
# Lines, words and numbers of a text file

What Rust's `lines`, `trim` and `split_whitespace` give, and that what was
written as a line is read back.

* `lines_append` : a line written before others is the first one read.
* `IsWord`, `IsValue` : texts a blank, or a line's end, does not cut.
* `parseUnsigned_toDigits`, `parseSigned_toString` : a number printed is read back.
* `settings_settingLine` : the same of a line that is a key and its value.
-/

namespace Starla.Framework

/-! ## Lines -/

/-- A `\r` at the end is part of the line's end. -/
def stripCr (line : List Char) : List Char :=
  if line.getLast? = some '\r' then line.dropLast else line

def linesFrom (line : List Char) : List Char → List (List Char)
  | [] => if line.isEmpty then [] else [line]
  | c :: cs => if c = '\n' then stripCr line :: linesFrom [] cs else linesFrom (line ++ [c]) cs

def lines (cs : List Char) : List (List Char) := linesFrom [] cs

theorem linesFrom_append {line cs rest : List Char} (h : '\n' ∉ cs) :
    linesFrom line (cs ++ '\n' :: rest) = stripCr (line ++ cs) :: lines rest := by
  induction cs generalizing line with
  | nil => simp [linesFrom, lines]
  | cons c cs ih =>
    rw [List.mem_cons, not_or] at h
    rw [List.cons_append, linesFrom, if_neg (Ne.symm h.1), ih h.2, List.append_assoc]
    rfl

theorem lines_append {cs rest : List Char} (h : '\n' ∉ cs) :
    lines (cs ++ '\n' :: rest) = stripCr cs :: lines rest := linesFrom_append h

theorem mem_stripCr {c : Char} {line : List Char} (h : c ∈ stripCr line) : c ∈ line := by
  unfold stripCr at h
  split at h
  · exact (List.dropLast_sublist line).subset h
  · exact h

theorem not_mem_linesFrom {line cs l : List Char} (hline : '\n' ∉ line) (hl : l ∈ linesFrom line cs) :
    '\n' ∉ l := by
  induction cs generalizing line with
  | nil =>
    rw [linesFrom] at hl
    split at hl
    · exact absurd hl List.not_mem_nil
    · rwa [List.mem_singleton.mp hl]
  | cons c cs ih =>
    rw [linesFrom] at hl
    split at hl
    · rcases List.mem_cons.mp hl with rfl | hl
      · exact fun h => hline (mem_stripCr h)
      · exact ih List.not_mem_nil hl
    · exact ih (by simp [hline, Ne.symm ‹¬ c = '\n'›]) hl

/-- No line holds a line's end. -/
theorem not_mem_of_mem_lines {cs l : List Char} (hl : l ∈ lines cs) : '\n' ∉ l :=
  not_mem_linesFrom List.not_mem_nil hl

/-! ## Blanks around a text -/

def trim (cs : List Char) : List Char := (cs.dropWhile isWhitespace).rdropWhile isWhitespace

theorem mem_of_mem_trim {c : Char} {cs : List Char} (h : c ∈ trim cs) : c ∈ cs :=
  (List.dropWhile_sublist _).subset ((List.rdropWhile_prefix _ _).sublist.subset h)

theorem trim_eq_self {cs : List Char} (hhead : ∀ c ∈ cs.head?, isWhitespace c = false)
    (hlast : ∀ c ∈ cs.getLast?, isWhitespace c = false) : trim cs = cs := by
  have hfront : cs.dropWhile isWhitespace = cs := by
    cases cs with
    | nil => rfl
    | cons c cs => rw [List.dropWhile_cons, if_neg (by simp [hhead c rfl])]
  rw [trim, hfront, List.rdropWhile_eq_self_iff]
  intro hne
  simp [hlast _ (List.getLast?_eq_getLast_of_ne_nil hne)]

theorem getLast?_trim {c : Char} {cs : List Char} (h : c ∈ (trim cs).getLast?) : isWhitespace c = false := by
  have hne : trim cs ≠ [] := fun hnil => by simp [hnil] at h
  rw [List.getLast?_eq_getLast_of_ne_nil hne, Option.mem_some_iff] at h
  rw [← h]
  exact Bool.eq_false_iff.mpr (List.rdropWhile_last_not isWhitespace _ hne)

theorem head?_trim {c : Char} {cs : List Char} (h : c ∈ (trim cs).head?) : isWhitespace c = false := by
  have hne : trim cs ≠ [] := fun hnil => by simp [hnil] at h
  obtain ⟨rest, hrest⟩ : trim cs <+: cs.dropWhile isWhitespace := List.rdropWhile_prefix _ _
  have hhead : c ∈ (cs.dropWhile isWhitespace).head? := by
    rw [← hrest, List.head?_append_of_ne_nil _ hne]
    exact h
  have hdrop : cs.dropWhile isWhitespace ≠ [] := fun hnil => by simp [hnil] at hhead
  rw [List.head?_eq_some_head hdrop, Option.mem_some_iff] at hhead
  rw [← hhead]
  exact List.head_dropWhile_not isWhitespace hdrop

theorem trim_trim (cs : List Char) : trim (trim cs) = trim cs :=
  trim_eq_self (fun _ => head?_trim) (fun _ => getLast?_trim)

/-! ## Words and values -/

/-- A text no blank cuts. -/
structure IsWord (cs : List Char) : Prop where
  ne_nil : cs ≠ []
  noBlank : ∀ c ∈ cs, isWhitespace c = false

/-- A text that is the rest of a line after a blank. -/
structure IsValue (cs : List Char) : Prop where
  oneLine : '\n' ∉ cs
  trimmed : trim cs = cs

instance (cs : List Char) : Decidable (IsWord cs) :=
  decidable_of_iff (cs ≠ [] ∧ (cs.all fun c => !isWhitespace c) = true)
    ⟨fun h => ⟨h.1, by simpa using h.2⟩, fun h => ⟨h.1, by simpa using h.noBlank⟩⟩

theorem IsWord.isValue {cs : List Char} (h : IsWord cs) : IsValue cs where
  oneLine hc := absurd (h.noBlank _ hc) (by decide)
  trimmed := trim_eq_self (fun c hc => h.noBlank c (List.mem_of_mem_head? hc))
    (fun c hc => h.noBlank c (List.mem_of_mem_getLast? hc))

theorem IsValue.last {c : Char} {cs : List Char} (h : IsValue cs) (hc : c ∈ cs.getLast?) :
    isWhitespace c = false := by
  rw [← h.trimmed] at hc
  exact getLast?_trim hc

theorem IsValue.stripCr_eq {cs : List Char} (h : IsValue cs) : stripCr cs = cs :=
  if_neg fun hlast => absurd (h.last hlast) (by decide)

theorem isValue_nil : IsValue [] := ⟨List.not_mem_nil, rfl⟩

theorem isValue_trim {cs : List Char} (h : '\n' ∉ cs) : IsValue (trim cs) :=
  ⟨fun hc => h (mem_of_mem_trim hc), trim_trim cs⟩

theorem wordsFrom_of_forall {p : Char → Bool} {word cs : List Char} (hcs : ∀ c ∈ cs, p c = false) :
    wordsFrom p word cs = if (word ++ cs).isEmpty then [] else [word ++ cs] := by
  induction cs generalizing word with
  | nil => rw [wordsFrom, List.append_nil]
  | cons c cs ih =>
    rw [wordsFrom, if_neg (by simp [hcs c List.mem_cons_self]), ih fun d hd => hcs d (List.mem_cons_of_mem _ hd),
      List.append_assoc]
    rfl

theorem isWord_of_mem_wordsFrom {p : Char → Bool} {word cs w : List Char}
    (hword : ∀ c ∈ word, p c = false) (hw : w ∈ wordsFrom p word cs) :
    w ≠ [] ∧ ∀ c ∈ w, p c = false := by
  have hown : w ∈ (if word.isEmpty then [] else [word]) → w ≠ [] ∧ ∀ c ∈ w, p c = false := by
    intro hw
    split at hw
    · exact absurd hw List.not_mem_nil
    · rw [List.mem_singleton.mp hw]
      exact ⟨fun h => ‹¬ word.isEmpty = true› (by simp [h]), hword⟩
  induction cs generalizing word with
  | nil => exact hown hw
  | cons c cs ih =>
    rw [wordsFrom] at hw
    split at hw
    · rcases List.mem_append.mp hw with hw | hw
      · exact hown hw
      · exact ih (by simp) hw (by simp)
    · rename_i hc
      have hword' : ∀ d ∈ word ++ [c], p d = false := by
        intro d hd
        rcases List.mem_append.mp hd with hd | hd
        · exact hword d hd
        · simpa [List.mem_singleton.mp hd] using hc
      refine ih hword' hw fun hw => ?_
      rw [if_neg (by simp), List.mem_singleton] at hw
      exact ⟨by simp [hw], hw ▸ hword'⟩

theorem isWord_of_mem_words {cs w : List Char} (hw : w ∈ words isWhitespace cs) : IsWord w :=
  have h := isWord_of_mem_wordsFrom (by simp) hw
  ⟨h.1, h.2⟩

/-- Lines joined by their ends are read apart. -/
theorem lines_intercalate {l : String} {ls : List String} (h : ∀ l' ∈ l :: ls, IsValue l'.toList) :
    lines (String.intercalate "\n" (l :: ls) ++ "\n").toList = (l :: ls).map String.toList := by
  have hl : IsValue l.toList := h l List.mem_cons_self
  induction ls generalizing l with
  | nil =>
    rw [String.intercalate_singleton, String.toList_append, show "\n".toList = '\n' :: [] from rfl,
      lines_append hl.oneLine, hl.stripCr_eq]
    rfl
  | cons l' ls ih =>
    have hls : ∀ m ∈ l' :: ls, IsValue m.toList := fun m hm => h m (List.mem_cons_of_mem _ hm)
    have htext : (String.intercalate "\n" (l :: l' :: ls) ++ "\n").toList =
        l.toList ++ '\n' :: (String.intercalate "\n" (l' :: ls) ++ "\n").toList := by
      simp [String.intercalate_cons_cons]
    rw [htext, lines_append hl.oneLine, hl.stripCr_eq, ih hls (hls l' List.mem_cons_self)]
    rfl

/-! ## Numbers -/

theorem digitValue_of_isDigit {c : Char} (h : c.isDigit = true) :
    digitValue 10 c = some (c.toNat - 48) := by
  have hlt : c.toNat - 48 < 10 := by
    simp only [Char.isDigit, Bool.and_eq_true, decide_eq_true_eq] at h
    have h2 : c.toNat ≤ 57 := h.2
    omega
  simp [digitValue, h, hlt]

theorem foldl_digitValue (cs : List Char) (h : ∀ c ∈ cs, c.isDigit = true) (n : Nat) :
    cs.foldl (fun n c => match n, digitValue 10 c with
      | some n, some d => some (n * 10 + d)
      | _, _ => none) (some n) = some (Nat.ofDigitChars 10 cs n) := by
  induction cs generalizing n with
  | nil => rfl
  | cons c cs ih =>
    rw [List.foldl_cons, Nat.ofDigitChars_cons, digitValue_of_isDigit (h c List.mem_cons_self), Nat.mul_comm]
    exact ih (fun c hc => h c (List.mem_cons_of_mem _ hc)) _

theorem ofDigits_toDigits (n : Nat) : ofDigits 10 (Nat.toDigits 10 n) = some n := by
  have h := foldl_digitValue (Nat.toDigits 10 n)
    (fun c hc => Nat.isDigit_of_mem_toDigits (by decide) (by decide) hc) 0
  rwa [Nat.ofDigitChars_ten_toDigits] at h

theorem digitsUpTo_toDigits {max n : Nat} (h : n ≤ max) :
    digitsUpTo max 10 (Nat.toDigits 10 n) = some n := by
  rw [digitsUpTo, if_neg (by simp [Nat.toDigits_ne_nil]), ofDigits_toDigits]
  simp [h]

theorem head_toDigits {n : Nat} {c : Char} {cs : List Char} (h : Nat.toDigits 10 n = c :: cs) :
    c.isDigit = true :=
  Nat.isDigit_of_mem_toDigits (by decide) (by decide) (h ▸ List.mem_cons_self)

theorem parseUnsigned_toDigits {max n : Nat} (h : n ≤ max) :
    parseUnsigned max (Nat.toDigits 10 n) = some n := by
  unfold parseUnsigned
  split
  · rename_i cs hcs
    exact absurd (head_toDigits hcs) (by decide)
  · exact digitsUpTo_toDigits h

theorem isWhitespace_of_isDigit {c : Char} (h : c.isDigit = true) : isWhitespace c = false := by
  simp only [Char.isDigit, Bool.and_eq_true, decide_eq_true_eq, ge_iff_le, UInt32.le_iff_toNat_le] at h
  have h1 : 48 ≤ c.val.toNat := h.1
  have h2 : c.val.toNat ≤ 57 := h.2
  simp only [isWhitespace, Bool.or_eq_false_iff, Bool.and_eq_false_iff, decide_eq_false_iff_not,
    beq_eq_false_iff_ne, ne_eq, UInt32.le_iff_toNat_le, ← UInt32.toNat_inj, UInt32.reduceToNat]
  omega

theorem isWord_toDigits (n : Nat) : IsWord (Nat.toDigits 10 n) where
  ne_nil := Nat.toDigits_ne_nil
  noBlank _ hc := isWhitespace_of_isDigit (Nat.isDigit_of_mem_toDigits (by decide) (by decide) hc)

theorem toList_toString (i : Int) :
    (toString i).toList = if i < 0 then '-' :: Nat.toDigits 10 i.natAbs else Nat.toDigits 10 i.natAbs := by
  cases i with
  | ofNat n =>
    show n.repr.toList = _
    rw [Nat.toList_repr, if_neg (by simp)]
    rfl
  | negSucc n =>
    show ("-" ++ (n + 1).repr).toList = _
    rw [String.toList_append, Nat.toList_repr, if_pos (Int.negSucc_lt_zero n)]
    rfl

theorem isWord_toString (i : Int) : IsWord (toString i).toList := by
  have h := isWord_toDigits i.natAbs
  rw [toList_toString]
  split
  · refine ⟨List.cons_ne_nil _ _, fun c hc => ?_⟩
    rcases List.mem_cons.mp hc with rfl | hc
    · rfl
    · exact h.noBlank c hc
  · exact h

theorem parseSigned_toString {min max : Nat} {i : Int} (hmin : -min ≤ i) (hmax : i ≤ max) :
    parseSigned min max (toString i).toList = some i := by
  rw [toList_toString]
  by_cases h : i < 0
  · rw [if_pos h, parseSigned, digitsUpTo_toDigits (by omega)]
    show some (-(i.natAbs : Int)) = some i
    congr 1
    omega
  · rw [if_neg h]
    unfold parseSigned
    split
    · exact absurd (head_toDigits ‹_›) (by decide)
    · exact absurd (head_toDigits ‹_›) (by decide)
    · rw [digitsUpTo_toDigits (by omega)]
      show some (i.natAbs : Int) = some i
      congr 1
      omega

/-! ## Settings: a key and its value on each line -/

/-- A line, cut at its first blank. -/
def setting (line : List Char) : String × String :=
  let (k, v) := (splitOnce ' ' line).getD (line, [])
  (String.ofList k, String.ofList (trim v))

def settings (text : String) : List (String × String) := (lines text.toList).map setting

def settingLine (key value : String) : String := key ++ " " ++ value ++ "\n"

/-- A line for a value that is there. -/
def settingLine? (key : String) : Option String → String
  | some value => settingLine key value
  | none => ""

theorem stripCr_of_isValue {k v : List Char} (h : IsValue v) : stripCr (k ++ ' ' :: v) = k ++ ' ' :: v := by
  refine if_neg fun hlast => ?_
  rw [List.getLast?_append_of_ne_nil _ (by simp)] at hlast
  cases v with
  | nil => exact absurd hlast (by decide)
  | cons c v =>
    rw [List.getLast?_cons_cons] at hlast
    exact absurd (h.last hlast) (by decide)

/-- A setting written before others is the first one read. -/
theorem settings_settingLine {key value rest : String} (hkey : IsWord key.toList)
    (hvalue : IsValue value.toList) :
    settings (settingLine key value ++ rest) = (key, value) :: settings rest := by
  have hblank : ' ' ∉ key.toList := fun h => absurd (hkey.noBlank _ h) (by decide)
  have hend : '\n' ∉ key.toList := fun h => absurd (hkey.noBlank _ h) (by decide)
  have htext : (settingLine key value ++ rest).toList =
      (key.toList ++ ' ' :: value.toList) ++ '\n' :: rest.toList := by
    simp [settingLine]
  rw [settings, htext, lines_append (by simp [hend, hvalue.oneLine]), stripCr_of_isValue hvalue,
    List.map_cons, setting, splitOnce_append hblank]
  simp only [Option.getD_some, hvalue.trimmed, String.ofList_toList]
  rfl

@[simp] theorem settings_empty : settings "" = [] := rfl

section
variable {σ : Type} {read : σ → String × String → σ} {s : σ} {key rest : String}

theorem foldl_settingLine {value : String} (hkey : IsWord key.toList) (hvalue : IsValue value.toList) :
    (settings (settingLine key value ++ rest)).foldl read s =
      (settings rest).foldl read (read s (key, value)) := by
  rw [settings_settingLine hkey hvalue, List.foldl_cons]

theorem foldl_settingLine? {value : Option String} (hkey : IsWord key.toList)
    (hvalue : ∀ v ∈ value, IsValue v.toList) :
    (settings (settingLine? key value ++ rest)).foldl read s =
      (settings rest).foldl read (value.elim s fun v => read s (key, v)) := by
  cases value with
  | none => rw [settingLine?, String.empty_append, Option.elim_none]
  | some v => exact foldl_settingLine hkey (hvalue v rfl)

end

end Starla.Framework
