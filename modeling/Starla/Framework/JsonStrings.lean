import Mathlib.Data.List.Forall2
import Starla.Framework.JsonRules
import Starla.Framework.Text

/-!
# Arrays of JSON strings

* `decodeStrings` : the strings a JSON array of strings stands for, `none` for
  any other text.
* `Decodes` : what some of a string's text stands for, and how texts compose.
* `decodeStrings_array` : an array that is written a string after the other.
-/

namespace Starla.Framework.JsonText

/-! ## Strings -/

/-- What an escape's letter stands for. -/
def escaped (c : Char) : Char :=
  if c = 'b' then '\x08' else if c = 'f' then '\x0c'
  else if c = 'n' then '\n' else if c = 'r' then '\r' else if c = 't' then '\t' else c

/-- A string as far as it is read: its characters, the value of a `\u` begun,
and the first of two surrogates. -/
structure Decoding where
  within : Within
  chars : List Char
  value : Nat
  high : Option Nat

namespace Decoding

/-- A character, where no surrogate waits for another. -/
def push (d : Decoding) (c : Char) : Option Decoding :=
  if d.high.isSome then none else some ⟨.plain, d.chars ++ [c], 0, none⟩

/-- A code unit of a `\u`. -/
def pushUnit (d : Decoding) (value : Nat) : Option Decoding :=
  match d.high with
  | some high =>
    if 0xDC00 ≤ value ∧ value ≤ 0xDFFF then
      some ⟨.plain, d.chars ++ [Char.ofNat (0x10000 + (high - 0xD800) * 0x400 + (value - 0xDC00))], 0, none⟩
    else none
  | none =>
    if 0xD800 ≤ value ∧ value ≤ 0xDBFF then some ⟨.plain, d.chars, 0, some value⟩
    else if 0xDC00 ≤ value ∧ value ≤ 0xDFFF then none
    else d.push (Char.ofNat value)

def next (d : Decoding) (c : Char) : Option Decoding :=
  (d.within.next c).bind fun w =>
    let value := d.value * 16 + (digitValue 16 c).getD 0
    match d.within, w with
    | .plain, .plain => d.push c
    | .escape, .plain => d.push (escaped c)
    | .hex _, .plain => d.pushUnit value
    | .hex _, w => some { d with within := w, value := value }
    | _, w => some { d with within := w, value := 0 }

/-- A string that `chars` were read of. -/
def read (chars : List Char) : Decoding := ⟨.plain, chars, 0, none⟩

end Decoding

/-! ## Arrays -/

/-- Where an array is: before it, where its first string may be or where a
string must be, in one or after it, and after the array. -/
inductive Place
  | before
  | first
  | item
  | within (d : Decoding)
  | after
  | closed

structure Strings where
  items : List (List Char)
  place : Place

def Strings.next (s : Strings) (c : Char) : Option Strings :=
  match s.place with
  | .within d =>
    if d.within = .plain ∧ c = '"' then if d.high.isSome then none else some ⟨s.items ++ [d.chars], .after⟩
    else (d.next c).map fun d => ⟨s.items, .within d⟩
  | place =>
    if isBlank c then some s
    else match place with
      | .before => if c = '[' then some ⟨s.items, .first⟩ else none
      | .first =>
        if c = '"' then some ⟨s.items, .within (.read [])⟩ else if c = ']' then some ⟨s.items, .closed⟩ else none
      | .item => if c = '"' then some ⟨s.items, .within (.read [])⟩ else none
      | .after => if c = ',' then some ⟨s.items, .item⟩ else if c = ']' then some ⟨s.items, .closed⟩ else none
      | _ => none

def decodeStrings (cs : List Char) : Option (List (List Char)) :=
  match cs.foldlM Strings.next ⟨[], .before⟩ with
  | some ⟨items, .closed⟩ => some items
  | _ => none

/-- Two surrogates, and one that is alone. -/
example : decodeStrings "[\"a\\n\", \"\\ud83d\\ude00\"]".toList = some [['a', '\n'], [Char.ofNat 0x1F600]] ∧
    decodeStrings "[\"\\ud83d\"]".toList = none := by decide

/-! ## Texts within a string -/

/-- `cs` stands for `text` within a string. -/
def Decodes (cs text : List Char) : Prop :=
  ∀ items chars, cs.foldlM Strings.next ⟨items, .within (.read chars)⟩ =
    some ⟨items, .within (.read (chars ++ text))⟩

variable {cs ds text text' : List Char}

theorem decodes_nil : Decodes [] [] := fun items chars => by
  rw [List.append_nil]
  rfl

theorem Decodes.append (h : Decodes cs text) (h' : Decodes ds text') : Decodes (cs ++ ds) (text ++ text') :=
  fun items chars => by
    rw [List.foldlM_append, h, ← List.append_assoc]
    exact h' items _

theorem decodes_plain {c : Char} (hc : isPlain c = true) : Decodes [c] [c] := fun items chars => by
  have hne : c ≠ '"' := by
    rintro rfl
    exact absurd hc (by decide)
  rw [List.foldlM_cons, Strings.next]
  simp only [Decoding.read, hne, and_false, if_false]
  rw [Decoding.next]
  simp only [next_of_isPlain hc]
  rfl

theorem decodes_backslash : Decodes ['\\', '\\'] ['\\'] := fun _ _ => rfl

theorem Decodes.string (h : Decodes cs text) (items : List (List Char)) :
    (cs ++ ['"']).foldlM Strings.next ⟨items, .within (.read [])⟩ = some ⟨items ++ [text], .after⟩ := by
  rw [List.foldlM_append, h]
  rfl

/-! ## Arrays that are written -/

/-- Texts in a row, the end of a string and the start of the next between. -/
def stringsText : List (List Char) → List Char
  | [] => []
  | [cs] => cs ++ ['"']
  | cs :: rest => cs ++ ['"'] ++ [',', ' ', '"'] ++ stringsText rest

theorem foldlM_stringsText {css texts : List (List Char)} (h : List.Forall₂ Decodes css texts) (hne : css ≠ [])
    (items : List (List Char)) :
    (stringsText css).foldlM Strings.next ⟨items, .within (.read [])⟩ = some ⟨items ++ texts, .after⟩ := by
  induction h generalizing items with
  | nil => exact absurd rfl hne
  | @cons cs text css texts hcs hcss ih =>
    cases hcss with
    | nil => exact hcs.string items
    | @cons ds _ rest _ hds hrest =>
      have hnext : stringsText (cs :: ds :: rest) = cs ++ ['"'] ++ [',', ' ', '"'] ++ stringsText (ds :: rest) := rfl
      rw [hnext, List.foldlM_append, List.foldlM_append, hcs.string]
      have hlater := ih (List.cons_ne_nil ds rest) (items ++ [text])
      rw [List.append_assoc] at hlater
      exact hlater

/-- An array that is written a string after the other. -/
theorem decodeStrings_array {css texts : List (List Char)} (h : List.Forall₂ Decodes css texts) (hne : css ≠ []) :
    decodeStrings (['[', ' ', '"'] ++ stringsText css ++ [' ', ']', ' ']) = some texts := by
  have hopen : ['[', ' ', '"'].foldlM Strings.next ⟨[], .before⟩ = some ⟨[], .within (.read [])⟩ := rfl
  have hfold : (['[', ' ', '"'] ++ stringsText css ++ [' ', ']', ' ']).foldlM Strings.next ⟨[], .before⟩ =
      some ⟨texts, .closed⟩ := by
    rw [List.foldlM_append, List.foldlM_append, hopen]
    show ((stringsText css).foldlM Strings.next ⟨[], .within (.read [])⟩ >>= _) = _
    rw [foldlM_stringsText h hne]
    rfl
  rw [decodeStrings, hfold]

theorem toList_intercalate_quoted (s : String) (texts : List String) :
    (", ".intercalate ((s :: texts).map fun s => "\"" ++ s ++ "\"")).toList =
      '"' :: stringsText ((s :: texts).map String.toList) := by
  induction texts generalizing s with
  | nil =>
    rw [List.map_singleton, String.intercalate_singleton, String.toList_append, String.toList_append]
    rfl
  | cons t texts ih =>
    have hrest := ih t
    rw [List.map_cons] at hrest
    rw [List.map_cons, List.map_cons, String.intercalate_cons_cons, String.toList_append, hrest]
    simp [stringsText]

/-- The same of the texts with a comma between. -/
theorem decodeStrings_intercalate {strings : List String} {texts : List (List Char)}
    (h : List.Forall₂ (fun s text => Decodes s.toList text) strings texts) :
    decodeStrings ("[ " ++ ", ".intercalate (strings.map fun s => "\"" ++ s ++ "\"") ++ " ]").toList = some texts := by
  cases h with
  | nil => rfl
  | @cons s text strings texts hs hstrings =>
    have hall : List.Forall₂ Decodes ((s :: strings).map String.toList) (text :: texts) := by
      rw [List.forall₂_map_left_iff]
      exact .cons hs hstrings
    have hopen : ['[', ' ', '"'].foldlM Strings.next ⟨[], .before⟩ = some ⟨[], .within (.read [])⟩ := rfl
    have hlist : ("[ " ++ ", ".intercalate ((s :: strings).map fun s => "\"" ++ s ++ "\"") ++ " ]").toList =
        ['[', ' ', '"'] ++ stringsText ((s :: strings).map String.toList) ++ [' ', ']'] := by
      rw [String.toList_append, String.toList_append, toList_intercalate_quoted]
      rfl
    have hfold : (['[', ' ', '"'] ++ stringsText ((s :: strings).map String.toList) ++ [' ', ']']).foldlM
        Strings.next ⟨[], .before⟩ = some ⟨text :: texts, .closed⟩ := by
      rw [List.foldlM_append, List.foldlM_append, hopen]
      show ((stringsText _).foldlM Strings.next ⟨[], .within (.read [])⟩ >>= _) = _
      rw [foldlM_stringsText hall (List.cons_ne_nil _ _)]
      rfl
    rw [hlist, decodeStrings, hfold]

end Starla.Framework.JsonText
