import Mathlib.Data.List.Basic

/-!
# JSON texts

A recogniser of JSON texts that reads a character at a time, and the shape of
what it reads: its structure and its members' names, without the text of its
scalars.

* `read` : the shape of a JSON text, `none` for any other text.
* `feed` : the states the recogniser goes through, a state being the values
  still open and what may come next.
-/

namespace Starla.Framework.JsonText

inductive Shape
  | null
  | bool
  | number
  | string
  | array (items : List Shape)
  | object (members : List (String × Shape))

/-! ## Strings -/

/-- Within a string: at a character, after a backslash, or before the last of
`left + 1` hexadecimal digits. -/
inductive Within
  | plain
  | escape
  | hex (left : Nat)
deriving DecidableEq, Repr

def isHexDigit (c : Char) : Bool := c.isDigit || ('a' ≤ c && c ≤ 'f') || ('A' ≤ c && c ≤ 'F')

/-- The next character of a string that goes on. -/
def Within.next (w : Within) (c : Char) : Option Within :=
  match w with
  | .plain => if c < ' ' || c == '"' then none else if c == '\\' then some .escape else some .plain
  | .escape =>
    if c == 'u' then some (.hex 3)
    else if ['"', '\\', '/', 'b', 'f', 'n', 'r', 't'].contains c then some .plain else none
  | .hex left =>
    if isHexDigit c then match left with
      | 0 => some .plain
      | left + 1 => some (.hex left)
    else none

/-- A text that may stand between a string's quotes. -/
def IsContent (cs : List Char) : Prop := cs.foldlM Within.next .plain = some .plain

instance (cs : List Char) : Decidable (IsContent cs) := inferInstanceAs (Decidable (_ = _))

/-- A character a string holds as it is. -/
def isPlain (c : Char) : Bool := !(c < ' ') && c != '"' && c != '\\'

/-! ## Numbers -/

inductive Numeral
  | start
  | minus
  | zero
  | int
  | point
  | fraction
  | e
  | sign
  | exponent
deriving DecidableEq, Repr

/-- Whether a number may end here. -/
def Numeral.ends : Numeral → Bool
  | zero | int | fraction | exponent => true
  | _ => false

def Numeral.next (n : Numeral) (c : Char) : Option Numeral :=
  match n with
  | start => if c == '-' then some minus else if c == '0' then some zero else if c.isDigit then some int else none
  | minus => if c == '0' then some zero else if c.isDigit then some int else none
  | zero => if c == '.' then some point else if c == 'e' || c == 'E' then some e else none
  | int =>
    if c.isDigit then some int
    else if c == '.' then some point else if c == 'e' || c == 'E' then some e else none
  | point => if c.isDigit then some fraction else none
  | fraction => if c.isDigit then some fraction else if c == 'e' || c == 'E' then some e else none
  | e => if c == '+' || c == '-' then some sign else if c.isDigit then some exponent else none
  | sign => if c.isDigit then some exponent else none
  | exponent => if c.isDigit then some exponent else none

def IsNumber (cs : List Char) : Prop := ∃ n, cs.foldlM Numeral.next .start = some n ∧ n.ends = true

/-! ## Literals -/

/-- What has been read of `true`, `false` or `null`. -/
inductive Literal
  | t | tr | tru
  | f | fa | fal | fals
  | n | nu | nul
deriving DecidableEq, Repr

/-- A literal goes on, or ends. -/
def Literal.next (l : Literal) (c : Char) : Option (Literal ⊕ Shape) :=
  match l with
  | t => if c == 'r' then some (.inl tr) else none
  | tr => if c == 'u' then some (.inl tru) else none
  | tru => if c == 'e' then some (.inr .bool) else none
  | f => if c == 'a' then some (.inl fa) else none
  | fa => if c == 'l' then some (.inl fal) else none
  | fal => if c == 's' then some (.inl fals) else none
  | fals => if c == 'e' then some (.inr .bool) else none
  | n => if c == 'u' then some (.inl nu) else none
  | nu => if c == 'l' then some (.inl nul) else none
  | nul => if c == 'l' then some (.inr .null) else none

/-! ## The recogniser -/

/-- A place for a value. -/
inductive Hole
  | root
  | array (items : List Shape)
  | object (members : List (String × Shape)) (name : String)

/-- Where the recogniser is: at a value for a hole, or in the innermost open
array or object. -/
inductive Mode
  | value (h : Hole)
  | string (h : Hole) (w : Within)
  | number (h : Hole) (n : Numeral)
  | literal (h : Hole) (l : Literal)
  | member (members : List (String × Shape))
  | name (members : List (String × Shape)) (w : Within) (cs : List Char)
  | colon (members : List (String × Shape)) (name : String)
  | afterItem (items : List Shape)
  | afterMember (members : List (String × Shape))
  | afterRoot (v : Shape)

structure State where
  /-- The holes the open arrays and objects are for, the innermost first. -/
  holes : List Hole
  mode : Mode

def Hole.fill (h : Hole) (v : Shape) : Mode :=
  match h with
  | root => .afterRoot v
  | array items => .afterItem (items ++ [v])
  | object members name => .afterMember (members ++ [(name, v)])

def isBlank (c : Char) : Bool := c == ' ' || c == '\t' || c == '\n' || c == '\r'

namespace State

def start : State := ⟨[], .value .root⟩

/-- The innermost array or object ends. -/
def close (holes : List Hole) (v : Shape) : Option State :=
  match holes with
  | [] => none
  | h :: holes => some ⟨holes, h.fill v⟩

/-- An array ends without an item. -/
def closeEmpty (holes : List Hole) (h : Hole) : Option State :=
  match h with
  | .array [] => close holes (.array [])
  | _ => none

/-- What comes after a value. -/
def nextAfter (holes : List Hole) (m : Mode) (c : Char) : Option State :=
  if isBlank c then some ⟨holes, m⟩
  else match m with
    | .afterItem items =>
      if c == ',' then some ⟨holes, .value (.array items)⟩
      else if c == ']' then close holes (.array items) else none
    | .afterMember members =>
      if c == ',' then some ⟨holes, .member members⟩
      else if c == '}' then close holes (.object members) else none
    | _ => none

/-- A value's first character; an array's end may come in place of its first
item. -/
def nextValue (holes : List Hole) (h : Hole) (c : Char) : Option State :=
  if isBlank c then some ⟨holes, .value h⟩
  else if c == '"' then some ⟨holes, .string h .plain⟩
  else if c == '{' then some ⟨h :: holes, .member []⟩
  else if c == '[' then some ⟨h :: holes, .value (.array [])⟩
  else if c == ']' then closeEmpty holes h
  else if c == 't' then some ⟨holes, .literal h .t⟩
  else if c == 'f' then some ⟨holes, .literal h .f⟩
  else if c == 'n' then some ⟨holes, .literal h .n⟩
  else (Numeral.start.next c).map fun n => ⟨holes, .number h n⟩

def next (s : State) (c : Char) : Option State :=
  match s.mode with
  | .value h => nextValue s.holes h c
  | .string h w =>
    if w = .plain ∧ c = '"' then some ⟨s.holes, h.fill .string⟩
    else (w.next c).map fun w => ⟨s.holes, .string h w⟩
  | .number h n =>
    match n.next c with
    | some n => some ⟨s.holes, .number h n⟩
    | none => if n.ends then nextAfter s.holes (h.fill .number) c else none
  | .literal h l =>
    match l.next c with
    | some (.inl l) => some ⟨s.holes, .literal h l⟩
    | some (.inr v) => some ⟨s.holes, h.fill v⟩
    | none => none
  | .member members =>
    if isBlank c then some s
    else if c == '"' then some ⟨s.holes, .name members .plain []⟩
    else if c == '}' && members.isEmpty then close s.holes (.object []) else none
  | .name members w cs =>
    if w = .plain ∧ c = '"' then some ⟨s.holes, .colon members (String.ofList cs)⟩
    else (w.next c).map fun w => ⟨s.holes, .name members w (cs ++ [c])⟩
  | .colon members name =>
    if isBlank c then some s else if c == ':' then some ⟨s.holes, .value (.object members name)⟩ else none
  | m => nextAfter s.holes m c

end State

def feed (s : State) (cs : List Char) : Option State := cs.foldlM State.next s

/-- The shape of a JSON text. -/
def read (cs : List Char) : Option Shape :=
  -- the blank ends a number
  match feed .start (cs ++ [' ']) with
  | some ⟨[], .afterRoot v⟩ => some v
  | _ => none

end Starla.Framework.JsonText
