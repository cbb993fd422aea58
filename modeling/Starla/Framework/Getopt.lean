import Mathlib.Data.List.Basic

/-!
# What getopt allows to write

A command line sets options and has operands. `Renders` says which argument
lists stand for given settings and operands: short options bundled behind one
dash, a value attached or in the next argument, a long option by its name or
by a prefix of no other name, options and operands in any order, and anything
behind `--` an operand. A setting is an option with its value, empty for a flag.
-/

namespace Starla.Framework.Getopt

variable {O : Type}

/-- The options of a getopt string, and which of them take a value. -/
def optionsOf : List Char → List (Char × Bool)
  | [] => []
  | c :: ':' :: rest => (c, true) :: optionsOf rest
  | c :: rest => (c, false) :: optionsOf rest

/-- The short options of a getopt string, each under its own letter. -/
def shortOf (optstring : String) (c : Char) : Option (Bool × Char) :=
  ((optionsOf optstring.toList).lookup c).map (·, c)

theorem shortOf_eq_some {optstring : String} {c : Char} {b : Bool} {o : Char}
    (h : shortOf optstring c = some (b, o)) : o = c ∧ (c, b) ∈ optionsOf optstring.toList := by
  obtain ⟨b', hb, he⟩ := Option.map_eq_some_iff.mp h
  obtain ⟨rfl, rfl⟩ := Prod.mk.inj he
  obtain ⟨l₁, l₂, hl, -⟩ := List.lookup_eq_some_iff.mp hb
  exact ⟨rfl, hl ▸ by simp⟩

/-- An argument that starts with a dash. -/
def dash (cs : List Char) : String := String.ofList ('-' :: cs)

@[simp] theorem toList_dash (cs : List Char) : (dash cs).toList = '-' :: cs :=
  String.toList_ofList

theorem dash_ne_dashes {cs : List Char} (h : cs ≠ ['-']) : (dash cs == "--") = false := by
  rw [beq_eq_false_iff_ne]
  intro he
  exact h (List.cons.inj ((toList_dash cs).symm.trans (congrArg String.toList he))).2

/-- An argument that names no option: a lone dash, or no dash in front. -/
def IsOperand (arg : String) : Prop := arg = "-" ∨ arg.toList.head? ≠ some '-'

theorem IsOperand.ne_dashes {arg : String} (h : IsOperand arg) : (arg == "--") = false := by
  rw [beq_eq_false_iff_ne]
  rintro rfl
  rcases h with h | h
  · exact absurd h (by decide)
  · exact h (by decide)

/-- A bundle of flags, and the settings it stands for. -/
def Flags (short : Char → Option (Bool × O)) : List Char → List (O × String) → Prop :=
  List.Forall₂ fun c o => short c = some (false, o.1) ∧ o.2 = ""

theorem Flags.ne_dash {short : Char → Option (Bool × O)} {cs rest : List Char}
    {os : List (O × String)} (hs : short '-' = none) (h : Flags short cs os) (hne : cs ++ rest ≠ [])
    (hrest : ∀ c ∈ rest.head?, short c ≠ none) : ∃ c cs', cs ++ rest = c :: cs' ∧ c ≠ '-' := by
  cases h with
  | nil =>
    obtain ⟨c, cs', rfl⟩ := List.exists_cons_of_ne_nil hne
    exact ⟨c, cs', rfl, fun hc => hrest c rfl (hc ▸ hs)⟩
  | @cons c _ _ _ hc _ =>
    refine ⟨c, _, rfl, fun he => ?_⟩
    rw [he, hs] at hc
    cases hc.1

/-- The option a long name stands for: its own, or the only one whose name it
starts. -/
inductive Named (long : List (String × Bool × O)) : List Char → Bool × O → Prop
  | exact {name : String} {o : Bool × O} (h : (name, o) ∈ long) : Named long name.toList o
  | abbreviated {given : List Char} {name : String} {o : Bool × O} (h : (name, o) ∈ long)
      (hg : given <+: name.toList) (hne : given ≠ [])
      (honly : ∀ p ∈ long, given <+: p.1.toList → p = (name, o)) : Named long given o

theorem not_named_nil {given : List Char} {o : Bool × O} : ¬ Named [] given o := by
  rintro (h | h)
  · exact List.not_mem_nil h
  · exact List.not_mem_nil h

/-- The arguments of one option, or of one bundle, and the settings they stand for. -/
inductive Group (short : Char → Option (Bool × O)) (long : List (String × Bool × O)) :
    List String → List (O × String) → Prop
  | flags {cs : List Char} {os : List (O × String)} (h : Flags short cs os) (hne : cs ≠ []) :
      Group short long [dash cs] os
  | attached {cs : List Char} {os : List (O × String)} {c : Char} {o : O} {value : List Char}
      (h : Flags short cs os) (hc : short c = some (true, o)) (hv : value ≠ []) :
      Group short long [dash (cs ++ c :: value)] (os ++ [(o, String.ofList value)])
  | separate {cs : List Char} {os : List (O × String)} {c : Char} {o : O} {value : String}
      (h : Flags short cs os) (hc : short c = some (true, o)) :
      Group short long [dash (cs ++ [c]), value] (os ++ [(o, value)])
  | longFlag {name : List Char} {o : O} (h : Named long name (false, o)) :
      Group short long [dash ('-' :: name)] [(o, "")]
  | longAttached {name value : List Char} {o : O} (h : Named long name (true, o)) :
      Group short long [dash ('-' :: (name ++ '=' :: value))] [(o, String.ofList value)]
  | longSeparate {name : List Char} {value : String} {o : O} (h : Named long name (true, o)) :
      Group short long [dash ('-' :: name), value] [(o, value)]

/-- The argument lists that stand for some settings and operands. -/
inductive Renders (short : Char → Option (Bool × O)) (long : List (String × Bool × O)) :
    List String → List (O × String) → List String → Prop
  | nil : Renders short long [] [] []
  | dashes {operands : List String} : Renders short long ("--" :: operands) [] operands
  | operand {arg : String} {args : List String} {settings : List (O × String)}
      {operands : List String} (h : IsOperand arg) (hr : Renders short long args settings operands) :
      Renders short long (arg :: args) settings (arg :: operands)
  | group {group args : List String} {os settings : List (O × String)} {operands : List String}
      (h : Group short long group os) (hr : Renders short long args settings operands) :
      Renders short long (group ++ args) (os ++ settings) operands

end Starla.Framework.Getopt
