import Starla.Framework.Stream
import Starla.Impl.Controller.Telnet
import Mathlib.Data.List.Infix

/-!
# What the telnet filter leaves of an encoded stream

A peer sends data with 255 doubled, commands of two and of three bytes, and
subnegotiations whose payload has 255 doubled. Inside a subnegotiation the
filter stays at the second of two IACs, so a 240 right after them ends it.

* `feed_doubled` : doubled bytes, read as data, are the bytes.
* `feed_subnegotiation` : of a subnegotiation, what follows an inner 255, 240
  is left.
* `feed_encode` : what is left of a stream, item by item.
* `feed_eq_data_iff` : it is the data, however the stream is cut into reads,
  exactly if no payload goes on after a 255, 240.
-/

namespace Starla.Proof.Controller

open Starla.Framework Starla.Impl.Controller

/-! ## The encoding -/

def IsVerb (c : UInt8) : Prop := c = WILL ∨ c = WONT ∨ c = DO ∨ c = DONT

/-- What a telnet peer sends. -/
inductive Item
  | data (b : UInt8)
  | command (c : UInt8) (h : c ≠ IAC ∧ ¬ IsVerb c ∧ c ≠ SB)
  | option (verb : UInt8) (h : IsVerb verb) (opt : UInt8)
  | subnegotiation (payload : List UInt8)

/-- Bytes with 255 doubled. -/
def doubled (bs : List UInt8) : List UInt8 := bs.flatMap fun b => if b = IAC then [IAC, IAC] else [b]

def Item.encode : Item → List UInt8
  | .data b => doubled [b]
  | .command c _ => [IAC, c]
  | .option verb _ opt => [IAC, verb, opt]
  | .subnegotiation payload => IAC :: SB :: (doubled payload ++ [IAC, SE])

def encode (items : List Item) : List UInt8 := items.flatMap Item.encode

def Item.bytes : Item → List UInt8
  | .data b => [b]
  | _ => []

/-- The data bytes of a stream. -/
def dataOf (items : List Item) : List UInt8 := items.flatMap Item.bytes

theorem doubled_cons (b : UInt8) (bs : List UInt8) :
    doubled (b :: bs) = (if b = IAC then [IAC, IAC] else [b]) ++ doubled bs := List.flatMap_cons

/-! ## What the filter leaves -/

theorem filter_hom : StreamHom FilterState.feed :=
  .of_step FilterState.step (fun _ => rfl) (fun _ _ _ => rfl)

theorem feed_doubled (bs : List UInt8) : FilterState.normal.feed (doubled bs) = (bs, .normal) := by
  induction bs with
  | nil => rfl
  | cons b bs ih =>
    have hb : FilterState.normal.feed (if b = IAC then [IAC, IAC] else [b]) = ([b], .normal) := by
      split_ifs with h
      · rw [h]
        rfl
      · simp [FilterState.feed, FilterState.step, h]
    rw [doubled_cons, filter_hom.append, hb, ih, List.singleton_append]

/-- What is left of a payload: `iac` whether a doubled 255 was just read. -/
def leakedFrom (iac : Bool) : List UInt8 → List UInt8
  | [] => []
  | b :: p => if iac ∧ b = SE then p else leakedFrom (b == IAC) p

def leaked (payload : List UInt8) : List UInt8 := leakedFrom false payload

/-- Inside a subnegotiation, after a doubled 255 or not. -/
def inside (iac : Bool) : FilterState := if iac then .sbIac else .sb

theorem feed_inside_byte {iac : Bool} {b : UInt8} (h : ¬ (iac ∧ b = SE)) :
    (inside iac).feed (if b = IAC then [IAC, IAC] else [b]) = ([], inside (b == IAC)) := by
  by_cases hb : b = IAC
  · subst hb
    cases iac <;> rfl
  · cases iac with
    | false => simp [inside, FilterState.feed, FilterState.step, hb]
    | true => simp [inside, FilterState.feed, FilterState.step, hb, show b ≠ SE from fun hs => h ⟨rfl, hs⟩]

theorem feed_inside (iac : Bool) (payload : List UInt8) :
    (inside iac).feed (doubled payload ++ [IAC, SE]) = (leakedFrom iac payload, .normal) := by
  induction payload generalizing iac with
  | nil => cases iac <;> rfl
  | cons b p ih =>
    rw [doubled_cons, List.append_assoc, filter_hom.append, leakedFrom]
    by_cases h : iac ∧ b = SE
    · -- the subnegotiation is over for the filter: the rest is read as data
      obtain ⟨rfl, rfl⟩ := h
      have hend : (inside true).feed (if SE = IAC then [IAC, IAC] else [SE]) = ([], .normal) := rfl
      have hclose : FilterState.normal.feed [IAC, SE] = ([], .normal) := rfl
      rw [hend, filter_hom.append, feed_doubled, hclose, if_pos ⟨rfl, rfl⟩]
      simp
    · rw [feed_inside_byte h, ih, if_neg h]
      rfl

theorem feed_subnegotiation (payload : List UInt8) :
    FilterState.normal.feed (Item.subnegotiation payload).encode = (leaked payload, .normal) := by
  have hopen : FilterState.normal.feed [IAC, SB] = ([], inside false) := rfl
  show FilterState.normal.feed ([IAC, SB] ++ (doubled payload ++ [IAC, SE])) = _
  rw [filter_hom.append, hopen, feed_inside]
  rfl

/-- What the filter leaves of an item. -/
def Item.left : Item → List UInt8
  | .data b => [b]
  | .subnegotiation payload => leaked payload
  | _ => []

theorem feed_item (i : Item) : FilterState.normal.feed i.encode = (i.left, .normal) := by
  cases i with
  | data b => exact feed_doubled [b]
  | command c h =>
    obtain ⟨hiac, hverb, hsb⟩ := h
    have hverb' : ¬ (c = WILL ∨ c = WONT ∨ c = DO ∨ c = DONT) := hverb
    simp [Item.encode, Item.left, FilterState.feed, FilterState.step, hiac, hverb', hsb]
  | option verb h opt =>
    have hiac : verb ≠ IAC := by
      rcases h with h | h | h | h <;> rw [h] <;> decide
    have hverb : verb = WILL ∨ verb = WONT ∨ verb = DO ∨ verb = DONT := h
    simp [Item.encode, Item.left, FilterState.feed, FilterState.step, hiac, hverb]
  | subnegotiation payload => exact feed_subnegotiation payload

theorem feed_encode (items : List Item) :
    FilterState.normal.feed (encode items) = (items.flatMap Item.left, .normal) := by
  induction items with
  | nil => rfl
  | cons i items ih =>
    show FilterState.normal.feed (i.encode ++ encode items) = _
    rw [filter_hom.append, feed_item, ih]
    rfl

/-! ## Payloads that end early -/

/-- A payload goes on after a 255, 240. -/
def GoesOn (payload : List UInt8) : Prop := ∃ b, [IAC, SE, b] <:+: payload

/-- The payload with the 255 before it, if it was read. -/
def after (iac : Bool) (payload : List UInt8) : List UInt8 := if iac then IAC :: payload else payload

theorem leakedFrom_ne_nil_iff (iac : Bool) (payload : List UInt8) :
    leakedFrom iac payload ≠ [] ↔ GoesOn (after iac payload) := by
  induction payload generalizing iac with
  | nil =>
    refine iff_of_false (fun h => h rfl) ?_
    rintro ⟨b, h⟩
    have hlen := h.length_le
    cases iac <;> simp [after] at hlen
  | cons b p ih =>
    rw [leakedFrom]
    -- a 255, 240 begins in the payload itself, or with the 255 before it
    have hcons : GoesOn (after (b == IAC) p) ↔ GoesOn (b :: p) := by
      by_cases hb : b = IAC
      · simp [after, hb]
      · have hne : ∀ c, ¬ [IAC, SE, c] <+: b :: p := fun c h => hb (List.cons_prefix_cons.mp h).1.symm
        simp [after, hb, GoesOn, List.infix_cons_iff, hne]
    by_cases h : iac ∧ b = SE
    · obtain ⟨rfl, rfl⟩ := h
      rw [if_pos ⟨rfl, rfl⟩]
      constructor
      · intro hne
        obtain ⟨c, q, rfl⟩ := List.exists_cons_of_ne_nil hne
        exact ⟨c, [], q, rfl⟩
      · rintro ⟨c, hc⟩ rfl
        have hlen := hc.length_le
        simp [after] at hlen
    · rw [if_neg h, ih, hcons]
      cases iac with
      | false => rfl
      | true =>
        have hb : b ≠ SE := fun hb => h ⟨rfl, hb⟩
        have hne : ∀ c, ¬ [IAC, SE, c] <+: IAC :: b :: p := fun c h =>
          hb (List.cons_prefix_cons.mp (List.cons_prefix_cons.mp h).2).1.symm
        simp [after, GoesOn, List.infix_cons_iff (a := IAC), hne]

theorem leaked_eq_nil_iff (payload : List UInt8) : leaked payload = [] ↔ ¬ GoesOn payload := by
  have h := leakedFrom_ne_nil_iff false payload
  exact not_iff_not.mp (h.trans not_not.symm)

/-- The filter adds to the data what is left of the payloads. -/
theorem length_left (items : List Item) :
    (items.flatMap Item.left).length =
      (dataOf items).length + (items.flatMap fun | .subnegotiation p => leaked p | _ => []).length := by
  induction items with
  | nil => rfl
  | cons i items ih =>
    simp only [dataOf, List.flatMap_cons, List.length_append] at ih ⊢
    rw [ih]
    cases i <;> simp [Item.left, Item.bytes] <;> omega

theorem left_eq_bytes_iff (items : List Item) :
    items.flatMap Item.left = dataOf items ↔
      ∀ payload, Item.subnegotiation payload ∈ items → leaked payload = [] := by
  constructor
  · intro h payload hmem
    have hlen := length_left items
    rw [h] at hlen
    have hnil : (items.flatMap fun | .subnegotiation p => leaked p | _ => []) = [] :=
      List.eq_nil_of_length_eq_zero (by omega)
    exact List.flatMap_eq_nil_iff.mp hnil _ hmem
  · intro h
    rw [dataOf, List.flatMap_def, List.flatMap_def]
    refine congrArg List.flatten (List.map_congr_left fun i hi => ?_)
    cases i with
    | subnegotiation payload => exact h payload hi
    | _ => rfl

/-! ## The stream -/

/-- However an encoded stream is cut into reads, the filter leaves its data
exactly if no subnegotiation's payload goes on after a 255, 240. -/
theorem feed_eq_data_iff (items : List Item) (reads : List (List UInt8)) (h : reads.flatten = encode items) :
    (feedChunks FilterState.feed .normal reads).1 = dataOf items ↔
      ∀ payload, Item.subnegotiation payload ∈ items → ¬ GoesOn payload := by
  rw [filter_hom.feedChunks, h, feed_encode, left_eq_bytes_iff]
  simp only [leaked_eq_nil_iff]

/-- A payload that ends in 255, 240, and an option whose byte comes later. -/
theorem feed_eq_data_iff_cut :
    (feedChunks FilterState.feed .normal [[104, IAC, SB, 31, IAC], [IAC, SE, IAC, SE, IAC, WILL], [3, 105]]).1 =
      [104, 105] :=
  (feed_eq_data_iff [.data 104, .subnegotiation [31, IAC, SE], .option WILL (.inl rfl) 3, .data 105]
    [[104, IAC, SB, 31, IAC], [IAC, SE, IAC, SE, IAC, WILL], [3, 105]] (by decide)).mpr (by
      intro payload hmem
      simp only [List.mem_cons, Item.subnegotiation.injEq, reduceCtorEq, List.not_mem_nil, or_false,
        false_or] at hmem
      rw [hmem, ← leaked_eq_nil_iff]
      decide)

/-- Of the payload 255, 240, 65 the last byte comes out as data. -/
theorem feed_ne_data :
    ¬ ∀ (items : List Item) (reads : List (List UInt8)), reads.flatten = encode items →
      (feedChunks FilterState.feed .normal reads).1 = dataOf items := by
  intro h
  have h1 := h [.subnegotiation [IAC, SE, 65]] [[IAC, SB, IAC, IAC, SE, 65, IAC, SE]] (by decide)
  exact absurd h1 (by decide)

end Starla.Proof.Controller
