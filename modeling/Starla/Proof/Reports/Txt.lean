import Mathlib.Tactic.Common
import Starla.Framework.JsonStrings
import Starla.Framework.LengthPrefixed
import Starla.Proof.Reports.Dns

/-!
# A TXT read back

The text of a TXT is an array of JSON strings (`writeTxt_prefixed`), in each of
which a reader finds the bytes again (`undoEscapes_texts`): the strings come back
as they were (`writeTxt_round_trip`).
-/

namespace Starla.Proof.Reports.Txt

open Starla.Framework Starla.Framework.JsonText Starla.Impl.Reports Starla.Impl.Reports.Dns

/-! ## A reader -/

/-- The byte of three decimal digits. -/
def decimalByte (a b c : Char) : Option UInt8 :=
  if a.isDigit ∧ b.isDigit ∧ c.isDigit then
    let n := (a.toNat - 48) * 100 + (b.toNat - 48) * 10 + (c.toNat - 48)
    if n < 256 then some (UInt8.ofNat n) else none
  else none

/-- A string's bytes, three decimal digits after each backslash. -/
def undoEscapes : List Char → Option (List UInt8)
  | [] => some []
  | c :: cs =>
    if c = '\\' then
      match cs with
      | a :: b :: d :: rest => (decimalByte a b d).bind fun byte => (undoEscapes rest).map (byte :: ·)
      | _ => none
    else if c.toNat < 128 then (undoEscapes cs).map (UInt8.ofNat c.toNat :: ·)
    else none

/-! ## A byte -/

/-- What a reader of the JSON text finds for a byte. -/
def byteText (b : UInt8) : List Char :=
  if b = 0x22 ∨ b = 0x5C ∨ ¬ (0x20 ≤ b ∧ b ≤ 0x7E) then '\\' :: (zeroPadded 3 (toString b.toNat)).toList
  else [Char.ofNat b.toNat]

theorem toList_zeroPadded (width n : Nat) :
    (zeroPadded width (toString n)).toList =
      List.replicate (width - (Nat.toDigits 10 n).length) '0' ++ Nat.toDigits 10 n := by
  rw [zeroPadded, String.toList_append, Nat.toString_eq_ofList_toDigits, String.toList_ofList, String.toList_ofList,
    String.length_ofList]

/-- Three digits are written of a byte, and read as it. -/
theorem decimalByte_digits : ∀ n < 256,
    List.replicate (3 - (Nat.toDigits 10 n).length) '0' ++ Nat.toDigits 10 n =
        [Nat.digitChar (n / 100), Nat.digitChar (n / 10 % 10), Nat.digitChar (n % 10)] ∧
      decimalByte (Nat.digitChar (n / 100)) (Nat.digitChar (n / 10 % 10)) (Nat.digitChar (n % 10)) =
        some (UInt8.ofNat n) := by
  decide +kernel

theorem toNat_charOfNat : ∀ n < 127, (Char.ofNat n).toNat = n := by
  decide

theorem undoEscapes_byteText (b : UInt8) (rest : List Char) :
    undoEscapes (byteText b ++ rest) = (undoEscapes rest).map (b :: ·) := by
  unfold byteText
  split_ifs with hspecial
  · obtain ⟨hdigits, hdecimal⟩ := decimalByte_digits b.toNat b.toNat_lt
    rw [toList_zeroPadded, hdigits]
    show (decimalByte _ _ _).bind _ = _
    rw [hdecimal, UInt8.ofNat_toNat]
    rfl
  · simp only [not_or, not_not, UInt8.le_iff_toNat_le, ← UInt8.toNat_inj] at hspecial
    obtain ⟨hquote, hbackslash, hlo, hhi⟩ := hspecial
    have hb : b.toNat < 127 := Nat.lt_succ_of_le hhi
    have hchar : (Char.ofNat b.toNat).toNat = b.toNat := toNat_charOfNat b.toNat hb
    have hne : Char.ofNat b.toNat ≠ '\\' := fun h => hbackslash (by rw [← hchar, h]; rfl)
    rw [List.singleton_append, undoEscapes.eq_def]
    simp only [hne, if_false, hchar, UInt8.ofNat_toNat, if_pos (show b.toNat < 128 by omega)]

theorem undoEscapes_texts (bytes : List UInt8) : undoEscapes (bytes.flatMap byteText) = some bytes := by
  induction bytes with
  | nil => rfl
  | cons b bytes ih => rw [List.flatMap_cons, undoEscapes_byteText, ih, Option.map_some]

theorem decodes_pushByte (b : UInt8) : Decodes (pushByte b).toList (byteText b) := by
  unfold pushByte byteText
  split_ifs with hspecial
  · obtain ⟨hdigits, -⟩ := decimalByte_digits b.toNat b.toNat_lt
    have hplain : ∀ n, n < 10 → isPlain (Nat.digitChar n) = true := fun n hn => isPlain_digitChar (by omega)
    have hbyte := b.toNat_lt
    rw [String.toList_append, toList_zeroPadded, hdigits]
    refine Decodes.append decodes_backslash ?_
    exact (decodes_plain (hplain _ (by omega))).append
      ((decodes_plain (hplain _ (by omega))).append (decodes_plain (hplain _ (by omega))))
  · simp only [not_or, not_not, UInt8.le_iff_toNat_le, ← UInt8.toNat_inj] at hspecial
    obtain ⟨hquote, hbackslash, hlo, hhi⟩ := hspecial
    rw [String.toList_ofList]
    exact decodes_plain (plain_ofNat b.toNat (Nat.lt_succ_of_le hhi) hlo hquote hbackslash).1

theorem decodes_pushBytes (bytes : List UInt8) : Decodes (pushBytes bytes).toList (bytes.flatMap byteText) := by
  unfold pushBytes
  induction bytes with
  | nil => exact decodes_nil
  | cons b bytes ih =>
    rw [List.map_cons, String.join_cons, String.toList_append]
    exact (decodes_pushByte b).append ih

/-! ## The strings -/

theorem txtStrings_append (bytes rest : List UInt8) :
    txtStrings (some bytes.length) (bytes ++ rest) = pushBytes bytes ++ txtStrings (some 0) rest := by
  induction bytes with
  | nil => exact String.empty_append.symm
  | cons b bytes ih =>
    rw [List.cons_append, List.length_cons, txtStrings, ih, ← String.append_assoc, pushBytes, pushBytes, List.map_cons,
      String.join_cons]

/-- What is left of strings after the first. -/
theorem txtStrings_later {strings : List (List UInt8)} (h : ∀ s ∈ strings, s.length ≤ 255) :
    (txtStrings (some 0) (prefixed strings)).toList =
      strings.flatMap fun s => ['"', ',', ' ', '"'] ++ (pushBytes s).toList := by
  induction strings with
  | nil => rfl
  | cons s strings ih =>
    simp only [List.forall_mem_cons] at h
    rw [prefixed_cons, txtStrings, toNat_length h.1, txtStrings_append, String.toList_append, String.toList_append,
      ih h.2, List.flatMap_cons, List.append_assoc]
    rfl

theorem stringsText_cons (cs : List Char) (css : List (List Char)) :
    stringsText (cs :: css) = cs ++ (css.flatMap fun ds => ['"', ',', ' ', '"'] ++ ds) ++ ['"'] := by
  induction css generalizing cs with
  | nil => simp [stringsText]
  | cons ds css ih =>
    rw [stringsText, ih]
    · simp
    · simp

/-- A TXT's text is an array of its strings. -/
theorem writeTxt_prefixed {strings : List (List UInt8)} (hne : strings ≠ []) (h : ∀ s ∈ strings, s.length ≤ 255) :
    (writeTxt (prefixed strings)).toList = "\"RDATA\" : ".toList ++
      (['[', ' ', '"'] ++ stringsText (strings.map fun s => (pushBytes s).toList) ++ [' ', ']', ' ']) := by
  cases strings with
  | nil => exact absurd rfl hne
  | cons s strings =>
    simp only [List.forall_mem_cons] at h
    rw [writeTxt, prefixed_cons, txtStrings, toNat_length h.1, txtStrings_append, String.toList_append,
      String.toList_append, String.toList_append, txtStrings_later h.2, List.map_cons, stringsText_cons,
      List.flatMap_map]
    simp

theorem mapM_undoEscapes (strings : List (List UInt8)) :
    (strings.map fun s => s.flatMap byteText).mapM undoEscapes = some strings := by
  induction strings with
  | nil => rfl
  | cons s strings ih =>
    rw [List.map_cons, List.mapM_cons, undoEscapes_texts, ih]
    rfl

/-- An array is written that the strings are read from. -/
theorem exists_array {strings : List (List UInt8)} (hne : strings ≠ []) (h : ∀ s ∈ strings, s.length ≤ 255) :
    ∃ array, writeTxt (prefixed strings) = "\"RDATA\" : " ++ array ∧
      (decodeStrings array.toList).bind (fun items => items.mapM undoEscapes) = some strings := by
  have hdecodes : List.Forall₂ Decodes (strings.map fun s => (pushBytes s).toList)
      (strings.map fun s => s.flatMap byteText) := by
    rw [List.forall₂_map_left_iff, List.forall₂_map_right_iff, List.forall₂_same]
    exact fun s _ => decodes_pushBytes s
  have harray := decodeStrings_array hdecodes (by simpa using hne)
  have hwrite := writeTxt_prefixed hne h
  generalize ['[', ' ', '"'] ++ stringsText (strings.map fun s => (pushBytes s).toList) ++ [' ', ']', ' '] = array
    at harray hwrite
  refine ⟨String.ofList array, ?_, ?_⟩
  · rw [← String.toList_inj, hwrite, String.toList_append, @String.toList_ofList array]
  · rw [String.toList_ofList, harray, Option.bind_some, mapM_undoEscapes]

/-- The strings of a TXT are read back from its text, which no other strings
give. -/
theorem writeTxt_round_trip {strings : List (List UInt8)} (hne : strings ≠ []) (h : ∀ s ∈ strings, s.length ≤ 255) :
    (∃ array, writeTxt (prefixed strings) = "\"RDATA\" : " ++ array ∧
      (decodeStrings array.toList).bind (fun items => items.mapM undoEscapes) = some strings) ∧
      ∀ others, others ≠ [] → (∀ s ∈ others, s.length ≤ 255) →
        writeTxt (prefixed others) = writeTxt (prefixed strings) → others = strings := by
  refine ⟨exists_array hne h, fun others hothers hlengths heq => ?_⟩
  obtain ⟨array, harray, hstrings⟩ := exists_array hne h
  obtain ⟨array', harray', hothers'⟩ := exists_array hothers hlengths
  have hsame : array' = array := (String.append_right_inj _).mp (harray'.symm.trans (heq.trans harray))
  rw [hsame, hstrings, Option.some.injEq] at hothers'
  exact hothers'.symm

theorem writeTxt_round_trip_two :
    (∃ array, writeTxt (prefixed [[], [0x22, 0x61]]) = "\"RDATA\" : " ++ array ∧
      (decodeStrings array.toList).bind (fun items => items.mapM undoEscapes) = some [[], [0x22, 0x61]]) ∧
      ∀ others, others ≠ [] → (∀ s ∈ others, s.length ≤ 255) →
        writeTxt (prefixed others) = writeTxt (prefixed [[], [0x22, 0x61]]) → others = [[], [0x22, 0x61]] :=
  writeTxt_round_trip (by decide) (by decide)

end Starla.Proof.Reports.Txt
