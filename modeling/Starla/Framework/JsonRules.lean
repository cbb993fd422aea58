import Starla.Framework.JsonText

/-!
# Rules for JSON texts

What a text does to the recogniser's state, put together from its parts.

* `Leads s a t` : the text `a` takes the recogniser from `s` to `t`. For a
  closed text it holds by `rfl`.
* `Settles s a t` : the same once what follows `a` ends a value: a number ends
  there only.
* `Reads a v` : `a` is a value of shape `v`, wherever a value may stand.
* `isContent_of_between` : a text between a member's quotes is a string's
  content, if the object around it is read with the members it has without it.
* `number_of_read` : an object whose text ends in a digit ends in a number.
* `not_mem_of_feed` : no text holds a control character.
-/

namespace Starla.Framework.JsonText

variable {s t u : State} {hs : List Hole} {h : Hole} {a b : String} {c d : Char} {cs ds : List Char}
  {w w' : Within} {v : Shape} {ms : List (String × Shape)} {k : String}

@[simp] theorem feed_nil : feed s [] = some s := rfl

theorem feed_cons : feed s (c :: cs) = (s.next c).bind fun t => feed t cs := rfl

theorem feed_append : feed s (cs ++ ds) = (feed s cs).bind fun t => feed t ds := List.foldlM_append

/-! ## Strings -/

theorem next_of_isPlain (hc : isPlain c = true) : Within.plain.next c = some .plain := by
  simp only [isPlain, Bool.and_eq_true, Bool.not_eq_true', decide_eq_false_iff_not, bne_iff_ne] at hc
  simp [Within.next, hc.1.1, hc.1.2, hc.2]

theorem isContent_of_plain (hcs : cs.all isPlain = true) : IsContent cs := by
  induction cs with
  | nil => rfl
  | cons c cs ih =>
    rw [List.all_cons, Bool.and_eq_true] at hcs
    show (Within.plain.next c).bind (fun w => cs.foldlM Within.next w) = some .plain
    rw [next_of_isPlain hcs.1]
    exact ih hcs.2

theorem IsContent.append (hc : IsContent cs) (hd : IsContent ds) : IsContent (cs ++ ds) := by
  show (cs ++ ds).foldlM Within.next .plain = some .plain
  rw [List.foldlM_append, show cs.foldlM Within.next .plain = some .plain from hc]
  exact hd

/-- A string goes on exactly when its next character may stand in it. -/
theorem next_string (hw : w.next c = some w') :
    State.next ⟨hs, .string h w⟩ c = some ⟨hs, .string h w'⟩ := by
  have hquote : ¬ (w = .plain ∧ c = '"') := by
    rintro ⟨rfl, rfl⟩
    cases hw
  simp [State.next, hquote, hw]

theorem feed_within (hcs : cs.foldlM Within.next w = some w') :
    feed ⟨hs, .string h w⟩ cs = some ⟨hs, .string h w'⟩ := by
  induction cs generalizing w with
  | nil =>
    cases hcs
    rfl
  | cons c cs ih =>
    obtain ⟨w₁, hw₁, hrest⟩ := Option.bind_eq_some_iff.mp hcs
    rw [feed_cons, next_string hw₁]
    exact ih hrest

theorem feed_content (hcs : IsContent cs) :
    feed ⟨hs, .string h .plain⟩ cs = some ⟨hs, .string h .plain⟩ := feed_within hcs

/-! ## Numbers -/

theorem next_number {n n' : Numeral} (hn : n.next c = some n') :
    State.next ⟨hs, .number h n⟩ c = some ⟨hs, .number h n'⟩ := by
  simp [State.next, hn]

theorem feed_numeral {n n' : Numeral} (hcs : cs.foldlM Numeral.next n = some n') :
    feed ⟨hs, .number h n⟩ cs = some ⟨hs, .number h n'⟩ := by
  induction cs generalizing n with
  | nil =>
    cases hcs
    rfl
  | cons c cs ih =>
    obtain ⟨n₁, hn₁, hrest⟩ := Option.bind_eq_some_iff.mp hcs
    rw [feed_cons, next_number hn₁]
    exact ih hrest

/-- A number's first character. -/
theorem next_value_number {n : Numeral} (hn : Numeral.start.next c = some n) :
    State.next ⟨hs, .value h⟩ c = some ⟨hs, .number h n⟩ := by
  have hnone : ∀ d ∈ [' ', '\t', '\n', '\r', '"', '{', '[', ']', 't', 'f', 'n'],
      Numeral.start.next d = none := by
    simp only [List.forall_mem_cons, List.not_mem_nil, false_imp_iff, implies_true, and_true]
    exact ⟨rfl, rfl, rfl, rfl, rfl, rfl, rfl, rfl, rfl, rfl, rfl⟩
  have hother : ∀ d ∈ [' ', '\t', '\n', '\r', '"', '{', '[', ']', 't', 'f', 'n'], c ≠ d := by
    rintro d hd rfl
    rw [hnone c hd] at hn
    cases hn
  simp only [List.mem_cons, List.not_mem_nil, or_false, forall_eq_or_imp, forall_eq] at hother
  simp [State.next, State.nextValue, isBlank, hother, hn]

/-- A character that ends a value. -/
def endsValue (c : Char) : Bool := c == ' ' || c == ',' || c == '}' || c == ']'

theorem next_eq_none_of_endsValue (hd : endsValue d = true) (n : Numeral) : n.next d = none := by
  simp only [endsValue, Bool.or_eq_true, beq_iff_eq] at hd
  rcases hd with ((rfl | rfl) | rfl) | rfl <;> cases n <;> rfl

/-- A number ends where its value does. -/
theorem next_number_end {n : Numeral} (hn : n.ends = true) (hd : endsValue d = true) :
    State.next ⟨hs, .number h n⟩ d = State.next ⟨hs, h.fill .number⟩ d := by
  have hfill : State.next ⟨hs, h.fill .number⟩ d = State.nextAfter hs (h.fill .number) d := by cases h <;> rfl
  rw [hfill]
  simp [State.next, next_eq_none_of_endsValue hd n, hn]

theorem feed_number (hcs : IsNumber cs) (hd : endsValue d = true) :
    feed ⟨hs, .value h⟩ (cs ++ d :: ds) = feed ⟨hs, h.fill .number⟩ (d :: ds) := by
  obtain ⟨n, hn, hends⟩ := hcs
  cases cs with
  | nil =>
    cases hn
    exact absurd hends (by decide)
  | cons c cs =>
    obtain ⟨n₁, hn₁, hrest⟩ := Option.bind_eq_some_iff.mp hn
    rw [List.cons_append, feed_cons, next_value_number hn₁, Option.bind_some, feed_append,
      feed_numeral hrest, Option.bind_some, feed_cons, next_number_end hends hd, ← feed_cons]

/-! ## Leading from one state to another -/

def Leads (s : State) (a : String) (t : State) : Prop := feed s a.toList = some t

/-- Leads from one state to the other, if a value ends after it. -/
def Settles (s : State) (a : String) (t : State) : Prop :=
  ∀ d cs, endsValue d = true → feed s (a.toList ++ d :: cs) = feed t (d :: cs)

/-- Whether a text starts where a value ends. -/
def delimited (a : String) : Bool := a.toList.head?.any endsValue

theorem Leads.refl : Leads s "" s := rfl

theorem Leads.append (ha : Leads s a t) (hb : Leads t b u) : Leads s (a ++ b) u := by
  rw [Leads, String.toList_append, feed_append, ha]
  exact hb

theorem Leads.settles (ha : Leads s a t) : Settles s a t := fun d cs _ => by
  rw [feed_append, ha, Option.bind_some]

theorem Leads.content (ha : Leads s a ⟨hs, .string h .plain⟩) (hb : IsContent b.toList) :
    Leads s (a ++ b) ⟨hs, .string h .plain⟩ := ha.append (feed_content hb)

theorem Leads.trans_settles (ha : Leads s a t) (hb : Settles t b u) : Settles s (a ++ b) u := fun d cs hd => by
  rw [String.toList_append, List.append_assoc, feed_append, ha, Option.bind_some, hb d cs hd]

theorem settles_number (hb : IsNumber b.toList) : Settles ⟨hs, .value h⟩ b ⟨hs, h.fill .number⟩ :=
  fun _ _ hd => feed_number hb hd

theorem Leads.number (ha : Leads s a ⟨hs, .value h⟩) (hb : IsNumber b.toList) :
    Settles s (a ++ b) ⟨hs, h.fill .number⟩ := ha.trans_settles (settles_number hb)

theorem Settles.append (ha : Settles s a t) (hdel : delimited b = true) (hb : Leads t b u) :
    Leads s (a ++ b) u := by
  rw [delimited] at hdel
  rw [Leads, String.toList_append]
  rw [Leads] at hb
  cases hcs : b.toList with
  | nil => simp [hcs] at hdel
  | cons d cs =>
    rw [ha d cs (by simpa [hcs] using hdel), ← hcs, hb]

/-- A part that may be left out. -/
theorem Settles.trans (ha : Settles s a t) (hdel : b = "" ∨ delimited b = true) (hb : Settles t b u) :
    Settles s (a ++ b) u := fun d cs hd => by
  rw [String.toList_append, List.append_assoc, ← hb d cs hd]
  rcases hdel with rfl | hdel
  · exact ha d cs hd
  · rw [delimited] at hdel
    cases hcs : b.toList with
    | nil => simp [hcs] at hdel
    | cons e es => exact ha e _ (by simpa [hcs] using hdel)

/-! ## Values -/

/-- A value, wherever one may stand. -/
def Reads (a : String) (v : Shape) : Prop := ∀ hs h, Settles ⟨hs, .value h⟩ a ⟨hs, h.fill v⟩

theorem Leads.value (ha : Leads s a ⟨hs, .value h⟩) (hb : Reads b v) : Settles s (a ++ b) ⟨hs, h.fill v⟩ :=
  ha.trans_settles (hb hs h)

/-- Values with a comma between them. -/
theorem settles_intercalate {P : Shape → Prop} {texts : List String}
    (htexts : ∀ a ∈ texts, ∃ v, P v ∧ Reads a v) (hne : texts ≠ []) :
    ∃ vs, (∀ v ∈ vs, P v) ∧ ∀ hs items,
      Settles ⟨hs, .value (.array items)⟩ (", ".intercalate texts) ⟨hs, .afterItem (items ++ vs)⟩ := by
  induction texts with
  | nil => exact absurd rfl hne
  | cons a texts ih =>
    obtain ⟨v, hv, ha⟩ := htexts a List.mem_cons_self
    cases texts with
    | nil =>
      refine ⟨[v], by simpa using hv, fun hs items => ?_⟩
      rw [String.intercalate_singleton]
      exact ha hs (.array items)
    | cons b texts =>
      obtain ⟨vs, hvs, hrest⟩ := ih (fun b hb => htexts b (List.mem_cons_of_mem _ hb)) (by simp)
      refine ⟨v :: vs, by simpa using ⟨hv, hvs⟩, fun hs items => ?_⟩
      rw [show ", ".intercalate (a :: b :: texts) = a ++ ", " ++ ", ".intercalate (b :: texts) by
        simp [String.intercalate_cons_cons]]
      have := ((ha hs (.array items)).append (b := ", ") rfl rfl).trans_settles (hrest hs (items ++ [v]))
      simpa using this

/-- An array whose items all have a property. -/
def Shape.ArrayOf (P : Shape → Prop) : Shape → Prop
  | array items => ∀ v ∈ items, P v
  | _ => False

theorem reads_array {P : Shape → Prop} {texts : List String}
    (htexts : ∀ a ∈ texts, ∃ v, P v ∧ Reads a v) :
    ∃ v, v.ArrayOf P ∧ Reads ("[ " ++ ", ".intercalate texts ++ " ]") v := by
  by_cases hne : texts = []
  · subst hne
    exact ⟨.array [], by simp [Shape.ArrayOf], fun hs h => Leads.settles (show Leads _ "[  ]" _ from rfl)⟩
  · obtain ⟨vs, hvs, hitems⟩ := settles_intercalate htexts hne
    refine ⟨.array vs, hvs, fun hs h => ?_⟩
    have hopen : Leads ⟨hs, .value h⟩ "[ " ⟨h :: hs, .value (.array [])⟩ := rfl
    have hitems : Settles ⟨hs, .value h⟩ ("[ " ++ ", ".intercalate texts) ⟨h :: hs, .afterItem vs⟩ :=
      hopen.trans_settles (hitems _ [])
    exact (hitems.append rfl (show Leads _ " ]" _ from rfl)).settles

/-! ## The members of the outermost object -/

/-- The members so far of the object a mode is in. -/
def Mode.members : Mode → Option (List (String × Shape))
  | value (.object ms _) | string (.object ms _) _ | number (.object ms _) _ | literal (.object ms _) _ => some ms
  | member ms | name ms _ _ | colon ms _ | afterMember ms => some ms
  | _ => none

/-- The object a mode is in, if it is in one, keeps its members. -/
def KeepsMembers (m m' : Mode) : Prop :=
  ∀ ms, m.members = some ms → ∃ ms', m'.members = some ms' ∧ ms.length ≤ ms'.length

theorem keepsMembers_of_eq {m m' : Mode} (hm : m'.members = m.members) : KeepsMembers m m' := fun ms hms =>
  ⟨ms, hm.trans hms, Nat.le_refl _⟩

theorem keepsMembers_fill {m : Mode} (hm : m.members = Mode.members (.value h)) : KeepsMembers m (h.fill v) := by
  intro ms hms
  rw [hm] at hms
  cases h with
  | root => cases hms
  | array items => cases hms
  | object members k =>
    cases hms
    exact ⟨_, rfl, by rw [List.length_append]; omega⟩

/-- What a character does to the open arrays and objects. -/
inductive Move (s t : State) : Prop
  | stays (hholes : t.holes = s.holes) (hmembers : KeepsMembers s.mode t.mode)
      (hroot : ∀ v, s.mode = .afterRoot v → t.mode = .afterRoot v)
  | opens (h : Hole) (hholes : t.holes = h :: s.holes) (hmode : s.mode = .value h)
  | closes (h : Hole) (v : Shape) (hholes : s.holes = h :: t.holes) (hmode : t.mode = h.fill v)

theorem move_close {m : Mode} (ht : State.close hs v = some t) : Move ⟨hs, m⟩ t := by
  cases hs with
  | nil => cases ht
  | cons h holes =>
    cases ht
    exact .closes h v rfl rfl

theorem move_nextAfter {m m' : Mode} (ht : State.nextAfter hs m' c = some t) (hm : KeepsMembers m m')
    (hroot : ∀ v, m = .afterRoot v → m' = .afterRoot v) : Move ⟨hs, m⟩ t := by
  unfold State.nextAfter at ht
  by_cases hc : isBlank c = true
  · rw [if_pos hc] at ht
    cases ht
    exact .stays rfl hm hroot
  · rw [if_neg hc] at ht
    cases m' with
    | afterItem items =>
      dsimp only at ht
      split_ifs at ht
      · cases ht
        refine .stays rfl (fun ms hms => ?_) fun v hv => by cases hroot v hv
        obtain ⟨_, h', -⟩ := hm ms hms
        cases h'
      · exact move_close ht
    | afterMember members =>
      dsimp only at ht
      split_ifs at ht
      · cases ht
        exact .stays rfl hm fun v hv => by cases hroot v hv
      · exact move_close ht
    | _ => cases ht

theorem move_nextValue (ht : State.nextValue hs h c = some t) : Move ⟨hs, .value h⟩ t := by
  have hsame : ∀ m : Mode, m.members = Mode.members (.value h) → Move ⟨hs, .value h⟩ ⟨hs, m⟩ := fun m hm =>
    .stays rfl (keepsMembers_of_eq hm) fun v hv => by cases hv
  have hliteral : ∀ l, (Mode.literal h l).members = Mode.members (.value h) := fun l => by cases h <;> rfl
  rw [State.nextValue] at ht
  split_ifs at ht
  · cases ht
    exact hsame _ rfl
  · cases ht
    exact hsame _ (by cases h <;> rfl)
  · cases ht
    exact .opens h rfl rfl
  · cases ht
    exact .opens h rfl rfl
  · unfold State.closeEmpty at ht
    split at ht
    · exact move_close ht
    · cases ht
  · cases ht
    exact hsame _ (hliteral _)
  · cases ht
    exact hsame _ (hliteral _)
  · cases ht
    exact hsame _ (hliteral _)
  · obtain ⟨n, -, rfl⟩ := Option.map_eq_some_iff.mp ht
    exact hsame _ (by cases h <;> rfl)

theorem move_next (ht : s.next c = some t) : Move s t := by
  obtain ⟨hs, m⟩ := s
  cases m with
  | value h => exact move_nextValue ht
  | string h w =>
    simp only [State.next] at ht
    split_ifs at ht
    · cases ht
      exact .stays rfl (keepsMembers_fill (by cases h <;> rfl)) fun v hv => by cases hv
    · obtain ⟨w, -, rfl⟩ := Option.map_eq_some_iff.mp ht
      exact .stays rfl (keepsMembers_of_eq (by cases h <;> rfl)) fun v hv => by cases hv
  | number h n =>
    simp only [State.next] at ht
    cases hn : n.next c with
    | some n' =>
      rw [hn] at ht
      cases ht
      exact .stays rfl (keepsMembers_of_eq (by cases h <;> rfl)) fun v hv => by cases hv
    | none =>
      rw [hn] at ht
      dsimp only at ht
      split_ifs at ht
      exact move_nextAfter ht (keepsMembers_fill (by cases h <;> rfl)) fun v hv => by cases hv
  | literal h l =>
    simp only [State.next] at ht
    rcases hl : l.next c with _ | l' | v <;> rw [hl] at ht <;> cases ht
    · exact .stays rfl (keepsMembers_of_eq (by cases h <;> rfl)) fun v hv => by cases hv
    · exact .stays rfl (keepsMembers_fill (by cases h <;> rfl)) fun v hv => by cases hv
  | member members =>
    simp only [State.next] at ht
    split_ifs at ht
    · cases ht
      exact .stays rfl (keepsMembers_of_eq rfl) fun v hv => by cases hv
    · cases ht
      exact .stays rfl (keepsMembers_of_eq rfl) fun v hv => by cases hv
    · exact move_close ht
  | name members w cs =>
    simp only [State.next] at ht
    split_ifs at ht
    · cases ht
      exact .stays rfl (keepsMembers_of_eq rfl) fun v hv => by cases hv
    · obtain ⟨w, -, rfl⟩ := Option.map_eq_some_iff.mp ht
      exact .stays rfl (keepsMembers_of_eq rfl) fun v hv => by cases hv
  | colon members k =>
    simp only [State.next] at ht
    split_ifs at ht
    · cases ht
      exact .stays rfl (keepsMembers_of_eq rfl) fun v hv => by cases hv
    · cases ht
      exact .stays rfl (keepsMembers_of_eq rfl) fun v hv => by cases hv
  | afterItem items => exact move_nextAfter ht (keepsMembers_of_eq rfl) fun v hv => hv
  | afterMember members => exact move_nextAfter ht (keepsMembers_of_eq rfl) fun v hv => hv
  | afterRoot v => exact move_nextAfter ht (keepsMembers_of_eq rfl) fun v hv => hv

/-- The outermost value is an object with at least `n` members so far, or has
ended. -/
inductive AtLeast (n : Nat) : State → Prop
  | inner (hs : List Hole) (ms : List (String × Shape)) (k : String) (m : Mode) (hn : n ≤ ms.length) :
      AtLeast n ⟨hs ++ [.object ms k, .root], m⟩
  | outer (ms : List (String × Shape)) (m : Mode) (hm : m.members = some ms) (hn : n ≤ ms.length) :
      AtLeast n ⟨[.root], m⟩
  | ended (v : Shape) : AtLeast n ⟨[], .afterRoot v⟩

theorem AtLeast.next {n : Nat} (hs : AtLeast n s) (ht : s.next c = some t) : AtLeast n t := by
  obtain ⟨holes, m⟩ := t
  cases hs with
  | inner hs ms k m hn =>
    cases move_next ht with
    | stays hholes =>
      cases hholes
      exact .inner hs ms k _ hn
    | opens h hholes =>
      cases hholes
      exact .inner (h :: hs) ms k _ hn
    | closes h v hholes hmode =>
      cases hs with
      | nil =>
        cases hholes
        cases hmode
        exact .outer _ _ rfl (by rw [List.length_append]; omega)
      | cons h' hs =>
        cases hholes
        exact .inner hs ms k _ hn
  | outer ms m hm hn =>
    cases move_next ht with
    | stays hholes hmembers =>
      cases hholes
      obtain ⟨ms', hms', hle⟩ := hmembers ms hm
      exact .outer ms' _ hms' (Nat.le_trans hn hle)
    | opens h hholes hmode =>
      cases hholes
      cases hmode
      cases h with
      | root => cases hm
      | array items => cases hm
      | object members k =>
        cases hm
        exact .inner [] ms k _ hn
    | closes h v hholes hmode =>
      cases hholes
      cases hmode
      exact .ended v
  | ended v =>
    cases move_next ht with
    | stays hholes _ hroot =>
      cases hholes
      cases hroot v rfl
      exact .ended v
    | opens h _ hmode => cases hmode
    | closes h v hholes => cases hholes

theorem AtLeast.feed {n : Nat} (hs : AtLeast n s) (ht : feed s cs = some t) : AtLeast n t := by
  induction cs generalizing s with
  | nil =>
    cases ht
    exact hs
  | cons c cs ih =>
    obtain ⟨s₁, hs₁, hrest⟩ := Option.bind_eq_some_iff.mp ht
    exact ih (hs.next hs₁) hrest

/-! ## A text between a member's quotes -/

/-- A letter, as far as a member's name starts with one. -/
def isLetter (c : Char) : Bool := !isBlank c && c != ',' && c != ']' && c != '}' && c != ':'

theorem nextAfter_of_isLetter (hc : isLetter c = true) (m : Mode) : State.nextAfter hs m c = none := by
  simp only [isLetter, Bool.and_eq_true, Bool.not_eq_true', bne_iff_ne] at hc
  obtain ⟨⟨⟨⟨hb, h₁⟩, h₂⟩, h₃⟩, -⟩ := hc
  cases m <;> simp [State.nextAfter, hb, h₁, h₂, h₃]

theorem next_colon_of_isLetter (hc : isLetter c = true) : State.next ⟨hs, .colon ms k⟩ c = none := by
  simp only [isLetter, Bool.and_eq_true, Bool.not_eq_true', bne_iff_ne] at hc
  simp [State.next, hc.1.1.1.1, hc.2]

theorem next_fill : State.next ⟨hs, h.fill v⟩ c = State.nextAfter hs (h.fill v) c := by
  cases h <;> rfl

theorem nextAfter_quote (m : Mode) : State.nextAfter hs m '"' = none := by
  cases m <;> rfl

/-- A string's end and the start of the next member, as far as its name's first
letter: read so only at the end of a value. -/
theorem mode_of_feed_quote (hc : isLetter c = true) (ht : feed s (['"', ',', ' ', '"'] ++ c :: cs) = some t) :
    ∃ h, s.mode = .string h .plain := by
  obtain ⟨hs, m⟩ := s
  obtain ⟨u, hu, hrest⟩ := Option.bind_eq_some_iff.mp (feed_append.symm.trans ht)
  have hnext : u.next c ≠ none := fun hnone => by
    rw [feed_cons, hnone] at hrest
    cases hrest
  cases m with
  | value h =>
    cases hu
    exact absurd (next_fill.trans (nextAfter_of_isLetter hc _)) hnext
  | string h w =>
    cases w with
    | plain => exact ⟨h, rfl⟩
    | escape =>
      cases hu
      exact absurd (next_fill.trans (nextAfter_of_isLetter hc _)) hnext
    | hex left => cases hu
  | number h n =>
    have hquote : State.next ⟨hs, .number h n⟩ '"' = none := by
      have hn : n.next '"' = none := by cases n <;> rfl
      simp [State.next, hn, nextAfter_quote]
    rw [feed_cons, hquote] at hu
    cases hu
  | literal h l => cases l <;> cases hu
  | member ms =>
    cases hu
    exact absurd (next_colon_of_isLetter hc) hnext
  | name ms w cs =>
    cases w with
    | plain => cases hu
    | escape =>
      cases hu
      exact absurd (next_colon_of_isLetter hc) hnext
    | hex left => cases hu
  | colon ms k => cases hu
  | afterItem items => cases hu
  | afterMember ms => cases hu
  | afterRoot v => cases hu

/-- A text within a string: the string goes on, or ends at a quote. -/
theorem feed_string (hcs : feed ⟨hs, .string h w⟩ cs = some t) :
    (∃ w', cs.foldlM Within.next w = some w' ∧ t = ⟨hs, .string h w'⟩) ∨
      ∃ es ds, cs = es ++ '"' :: ds ∧ feed ⟨hs, h.fill .string⟩ ds = some t := by
  induction cs generalizing w with
  | nil =>
    cases hcs
    exact .inl ⟨w, rfl, rfl⟩
  | cons c cs ih =>
    obtain ⟨u, hu, hrest⟩ := Option.bind_eq_some_iff.mp hcs
    simp only [State.next] at hu
    split_ifs at hu with hq
    · cases hu
      exact .inr ⟨[], cs, by rw [hq.2]; rfl, hrest⟩
    · obtain ⟨w₁, hw₁, rfl⟩ := Option.map_eq_some_iff.mp hu
      rcases ih hrest with ⟨w', hw', ht⟩ | ⟨es, ds, rfl, hds⟩
      · exact .inl ⟨w', Option.bind_eq_some_iff.mpr ⟨w₁, hw₁, hw'⟩, ht⟩
      · exact .inr ⟨c :: es, ds, rfl, hds⟩

/-- A text with the members `tail`, to come after a member's value. -/
structure Follows (post : String) (tail : List (String × Shape)) : Prop where
  settles : ∀ hs ms, Settles ⟨hs, .afterMember ms⟩ post ⟨hs, .afterMember (ms ++ tail)⟩
  head : ∃ c cs rest, post.toList = ',' :: ' ' :: '"' :: c :: (cs ++ '"' :: ':' :: rest) ∧
    isLetter c = true ∧ (c :: cs).all isPlain = true

/-- After a string, another member follows only a member's. -/
theorem object_of_feed_quote {post : String} {tail : List (String × Shape)} (hpost : Follows post tail)
    (ht : feed ⟨hs, .string h .plain⟩ ('"' :: (post.toList ++ ds)) = some t) : ∃ ms k, h = .object ms k := by
  obtain ⟨c, cs, rest, hhead, -, hplain⟩ := hpost.head
  cases h with
  | object ms k => exact ⟨ms, k, rfl⟩
  | root =>
    rw [hhead] at ht
    cases ht
  | array items =>
    have hname : feed ⟨hs, .string (.array items) .plain⟩ ('"' :: ',' :: ' ' :: '"' :: (c :: cs)) =
        some ⟨hs, .string (.array (items ++ [.string])) .plain⟩ := feed_content (isContent_of_plain hplain)
    rw [hhead, show '"' :: (',' :: ' ' :: '"' :: c :: (cs ++ '"' :: ':' :: rest) ++ ds) =
      ('"' :: ',' :: ' ' :: '"' :: (c :: cs)) ++ ('"' :: ':' :: (rest ++ ds)) by simp, feed_append, hname] at ht
    cases ht

theorem feed_of_read {cs : List Char} (hcs : read cs = some v) :
    feed .start (cs ++ [' ']) = some ⟨[], .afterRoot v⟩ := by
  unfold read at hcs
  split at hcs
  · rename_i v' hfeed
    cases hcs
    exact hfeed
  · cases hcs

/-- An object's end that is the text's. -/
theorem eq_of_feed_end (hfeed : feed ⟨hs, .afterMember ms⟩ [' ', '}', ' '] = some ⟨[], .afterRoot v⟩) :
    hs = [.root] ∧ v = .object ms := by
  cases hs with
  | nil => cases hfeed
  | cons h hs =>
    have hend : feed ⟨h :: hs, .afterMember ms⟩ [' ', '}', ' '] = some ⟨hs, h.fill (.object ms)⟩ := by
      cases h <;> rfl
    rw [hend] at hfeed
    cases h with
    | root =>
      cases hfeed
      exact ⟨rfl, rfl⟩
    | array items => cases hfeed
    | object members k => cases hfeed

variable {pre post : String} {tail ms' : List (String × Shape)}

/-- A text between the quotes of a member's string, read with what comes
before and after it: the quote after it ends a string. -/
theorem string_of_read (hpre : Leads .start pre ⟨[.root], .string (.object ms k) .plain⟩) (hpost : Follows post tail)
    (hread : read (pre.toList ++ (cs ++ '"' :: (post.toList ++ ds))) = some v) :
    ∃ hs h, feed ⟨[.root], .string (.object ms k) .plain⟩ cs = some ⟨hs, .string h .plain⟩ ∧
      feed ⟨hs, .string h .plain⟩ ('"' :: (post.toList ++ ds ++ [' '])) = some ⟨[], .afterRoot v⟩ := by
  have hfeed := feed_of_read hread
  rw [List.append_assoc, feed_append, hpre, Option.bind_some, List.append_assoc, feed_append] at hfeed
  obtain ⟨u, hu, hrest⟩ := Option.bind_eq_some_iff.mp hfeed
  obtain ⟨c, cs', rest, hhead, hc, -⟩ := hpost.head
  obtain ⟨hs, m⟩ := u
  have hquote : feed ⟨hs, m⟩ (['"', ',', ' ', '"'] ++ c :: (cs' ++ '"' :: ':' :: rest ++ ds ++ [' '])) =
      some ⟨[], .afterRoot v⟩ := by
    rw [← hrest, hhead]
    simp
  obtain ⟨h, rfl⟩ : ∃ h, m = .string h .plain := mode_of_feed_quote hc hquote
  exact ⟨hs, h, hu, hrest⟩

/-- A text between the quotes of a member's string is the string's content, if
the object is read with the members it has but for the text. -/
theorem isContent_of_between (hpre : Leads .start pre ⟨[.root], .string (.object ms k) .plain⟩)
    (hpost : Follows post tail)
    (hread : read (pre.toList ++ (cs ++ '"' :: (post.toList ++ [' ', '}']))) = some (.object ms'))
    (hlen : ms'.length = ms.length + 1 + tail.length) : IsContent cs := by
  obtain ⟨hs, h, hu, hrest⟩ := string_of_read hpre hpost hread
  rcases feed_string hu with ⟨w', hw', heq⟩ | ⟨es, ds, -, hds⟩
  · cases heq
    exact hw'
  · -- the text ends the string early, so that it adds a member
    have hds : feed ⟨[.root], .afterMember (ms ++ [(k, .string)])⟩ ds = some ⟨hs, .string h .plain⟩ := hds
    have hatLeast : AtLeast (ms.length + 1) ⟨hs, .string h .plain⟩ :=
      (AtLeast.outer _ (.afterMember _) rfl (by simp)).feed hds
    have hquote : feed ⟨hs, .string h .plain⟩ ('"' :: (post.toList ++ [' ', '}', ' '])) =
        some ⟨[], .afterRoot (.object ms')⟩ := by
      simpa using hrest
    obtain ⟨ms₂, k₂, rfl⟩ := object_of_feed_quote hpost hquote
    have hend : feed ⟨hs, .afterMember (ms₂ ++ [(k₂, .string)] ++ tail)⟩ [' ', '}', ' '] =
        some ⟨[], .afterRoot (.object ms')⟩ := by
      have hsettles := hpost.settles hs (ms₂ ++ [(k₂, .string)]) ' ' ['}', ' '] rfl
      rw [← hsettles, ← hrest, List.append_assoc]
      rfl
    obtain ⟨rfl, hms'⟩ := eq_of_feed_end hend
    cases hms'
    have hle : ms.length + 1 ≤ ms₂.length := by
      generalize hstate : (⟨[.root], .string (.object ms₂ k₂) .plain⟩ : State) = s at hatLeast
      cases hatLeast with
      | inner hs ms k m hn =>
        have := congrArg (fun s : State => s.holes.length) hstate
        simp at this
      | outer ms m hm hn =>
        cases hstate
        cases hm
        exact hn
      | ended v => cases hstate
    simp only [List.length_append, List.length_singleton] at hlen
    omega

/-! ## A number at an object's end -/

theorem ne_of_isDigit (hc : c.isDigit = true) (hd : d.isDigit = false) : c ≠ d := by
  rintro rfl
  rw [hc] at hd
  cases hd

theorem isLetter_of_isDigit (hc : c.isDigit = true) : isLetter c = true := by
  have hne : ∀ d, d.isDigit = false → c ≠ d := fun d => ne_of_isDigit hc
  simp [isLetter, isBlank, hne ' ' rfl, hne '\t' rfl, hne '\n' rfl, hne '\r' rfl, hne ',' rfl, hne ']' rfl,
    hne '}' rfl, hne ':' rfl]

theorem next_start_of_isDigit (hc : c.isDigit = true) : ∃ n, Numeral.start.next c = some n := by
  simp only [Numeral.next, hc, if_true]
  split_ifs <;> exact ⟨_, rfl⟩

/-- A digit is read within a number or a string. -/
theorem mode_of_next_digit (hc : c.isDigit = true) (ht : s.next c = some t) :
    (∃ h n, t.mode = .number h n) ∨ (∃ h w, t.mode = .string h w) ∨ ∃ ms w cs, t.mode = .name ms w cs := by
  have hne : ∀ d, d.isDigit = false → c ≠ d := fun d => ne_of_isDigit hc
  have hletter := isLetter_of_isDigit hc
  have hblank : isBlank c = false := by
    simp only [isLetter, Bool.and_eq_true, Bool.not_eq_true'] at hletter
    exact hletter.1.1.1.1
  obtain ⟨hs, m⟩ := s
  cases m with
  | value h =>
    obtain ⟨n, hn⟩ := next_start_of_isDigit hc
    rw [next_value_number hn] at ht
    cases ht
    exact .inl ⟨h, n, rfl⟩
  | string h w =>
    simp only [State.next, hne '"' rfl, and_false, if_false] at ht
    obtain ⟨w', -, rfl⟩ := Option.map_eq_some_iff.mp ht
    exact .inr (.inl ⟨h, w', rfl⟩)
  | number h n =>
    cases hn : n.next c with
    | some n' =>
      rw [next_number hn] at ht
      cases ht
      exact .inl ⟨h, n', rfl⟩
    | none => simp [State.next, hn, nextAfter_of_isLetter hletter] at ht
  | literal h l =>
    have hl : l.next c = none := by
      cases l <;> simp [Literal.next, hne 'r' rfl, hne 'u' rfl, hne 'e' rfl, hne 'a' rfl, hne 'l' rfl, hne 's' rfl]
    simp [State.next, hl] at ht
  | member ms => simp [State.next, hblank, hne '"' rfl, hne '}' rfl] at ht
  | name ms w cs =>
    simp only [State.next, hne '"' rfl, and_false, if_false] at ht
    obtain ⟨w', -, rfl⟩ := Option.map_eq_some_iff.mp ht
    exact .inr (.inr ⟨ms, w', _, rfl⟩)
  | colon ms k => simp [next_colon_of_isLetter hletter] at ht
  | afterItem items => cases (nextAfter_of_isLetter hletter (.afterItem items)).symm.trans ht
  | afterMember ms => cases (nextAfter_of_isLetter hletter (.afterMember ms)).symm.trans ht
  | afterRoot v => cases (nextAfter_of_isLetter hletter (.afterRoot v)).symm.trans ht

theorem number_of_read (hc : c.isDigit = true) (hread : read (cs ++ c :: [' ', '}']) = some v) :
    ∃ ms k, v = .object (ms ++ [(k, .number)]) := by
  have hfeed := feed_of_read hread
  rw [List.append_assoc, feed_append] at hfeed
  obtain ⟨s, -, hrest⟩ := Option.bind_eq_some_iff.mp hfeed
  obtain ⟨t, ht, hend⟩ := Option.bind_eq_some_iff.mp hrest
  obtain ⟨hs, m⟩ := t
  replace hend : feed ⟨hs, m⟩ [' ', '}', ' '] = some ⟨[], .afterRoot v⟩ := hend
  rcases mode_of_next_digit hc ht with ⟨h, n, rfl⟩ | ⟨h, w, rfl⟩ | ⟨ms, w, cs, rfl⟩
  · cases hn : n.ends with
    | false =>
      have hnone : State.next ⟨hs, .number h n⟩ ' ' = none := by
        simp [State.next, next_eq_none_of_endsValue (d := ' ') rfl n, hn]
      rw [feed_cons, hnone] at hend
      cases hend
    | true =>
      rw [feed_cons, next_number_end hn rfl, ← feed_cons] at hend
      cases h with
      | root => cases hend
      | array items => cases hend
      | object ms k => exact ⟨ms, k, (eq_of_feed_end hend).2⟩
  · cases w <;> cases hend
  · cases w <;> cases hend

/-! ## Control characters -/

/-- A control character other than a blank. -/
def isControl (c : Char) : Bool := c < ' ' && !isBlank c

theorem ne_of_isControl {c d : Char} (hc : isControl c = true) (hd : isControl d = false) : c ≠ d := by
  rintro rfl
  rw [hc] at hd
  cases hd

theorem val_lt_of_isControl {c : Char} (hc : isControl c = true) : c.val.toNat < 32 := by
  simp only [isControl, Bool.and_eq_true, decide_eq_true_eq] at hc
  exact UInt32.lt_iff_toNat_lt.mp hc.1

theorem not_le_of_isControl {c d : Char} (hc : isControl c = true) (hd : 32 ≤ d.val.toNat) : ¬ d ≤ c := by
  intro hle
  have hlt := val_lt_of_isControl hc
  have hle : d.val.toNat ≤ c.val.toNat := UInt32.le_iff_toNat_le.mp hle
  omega

theorem not_isDigit_of_isControl {c : Char} (hc : isControl c = true) : c.isDigit = false := by
  rw [← Bool.not_eq_true]
  intro hdigit
  simp only [Char.isDigit, Bool.and_eq_true, decide_eq_true_eq] at hdigit
  exact not_le_of_isControl (d := '0') hc (by decide) hdigit.1

theorem within_next_of_isControl {w : Within} {c : Char} (hc : isControl c = true) : w.next c = none := by
  have hlt : c < ' ' := by
    simp only [isControl, Bool.and_eq_true, decide_eq_true_eq] at hc
    exact hc.1
  have hne : ∀ d, isControl d = false → c ≠ d := fun d => ne_of_isControl hc
  cases w with
  | plain => simp [Within.next, hlt]
  | escape =>
    simp [Within.next, hne '"' rfl, hne '\\' rfl, hne '/' rfl, hne 'b' rfl, hne 'f' rfl, hne 'n' rfl,
      hne 'r' rfl, hne 't' rfl, hne 'u' rfl]
  | hex left =>
    have hhex : isHexDigit c = false := by
      have ha : ¬ 'a' ≤ c := not_le_of_isControl hc (by decide)
      have hA : ¬ 'A' ≤ c := not_le_of_isControl hc (by decide)
      simp [isHexDigit, not_isDigit_of_isControl hc, ha, hA]
    simp [Within.next, hhex]

theorem numeral_next_of_isControl {n : Numeral} {c : Char} (hc : isControl c = true) : n.next c = none := by
  have hne : ∀ d, isControl d = false → c ≠ d := fun d => ne_of_isControl hc
  cases n <;>
    simp [Numeral.next, not_isDigit_of_isControl hc, hne '-' rfl, hne '0' rfl, hne '.' rfl, hne 'e' rfl,
      hne 'E' rfl, hne '+' rfl]

theorem literal_next_of_isControl {l : Literal} {c : Char} (hc : isControl c = true) : l.next c = none := by
  have hne : ∀ d, isControl d = false → c ≠ d := fun d => ne_of_isControl hc
  cases l <;> simp [Literal.next, hne 'a' rfl, hne 'e' rfl, hne 'l' rfl, hne 'r' rfl, hne 's' rfl, hne 'u' rfl]

/-- No text holds a control character, in a string or out of one. -/
theorem next_of_isControl {s : State} {c : Char} (hc : isControl c = true) : s.next c = none := by
  have hne : ∀ d, isControl d = false → c ≠ d := fun d => ne_of_isControl hc
  have hblank : isBlank c = false := by
    simp only [isControl, Bool.and_eq_true, Bool.not_eq_true'] at hc
    exact hc.2
  have hafter : ∀ hs m, State.nextAfter hs m c = none := by
    intro hs m
    cases m <;> simp [State.nextAfter, hblank, hne ',' rfl, hne ']' rfl, hne '}' rfl]
  obtain ⟨hs, m⟩ := s
  cases m with
  | value h =>
    simp [State.next, State.nextValue, hblank, numeral_next_of_isControl hc, hne '"' rfl, hne '{' rfl, hne '[' rfl,
      hne ']' rfl, hne 't' rfl, hne 'f' rfl, hne 'n' rfl]
  | string h w => simp [State.next, within_next_of_isControl hc, hne '"' rfl]
  | number h n => simp [State.next, numeral_next_of_isControl hc, hafter]
  | literal h l => simp [State.next, literal_next_of_isControl hc]
  | member ms => simp [State.next, hblank, hne '"' rfl, hne '}' rfl]
  | name ms w cs => simp [State.next, within_next_of_isControl hc, hne '"' rfl]
  | colon ms name => simp [State.next, hblank, hne ':' rfl]
  | afterItem items => exact hafter _ _
  | afterMember ms => exact hafter _ _
  | afterRoot v => exact hafter _ _

theorem not_mem_of_feed {s t : State} {cs : List Char} {c : Char} (hc : isControl c = true)
    (hfeed : feed s cs = some t) : c ∉ cs := by
  intro hmem
  obtain ⟨as, bs, rfl⟩ := List.append_of_mem hmem
  rw [feed_append] at hfeed
  obtain ⟨u, -, hrest⟩ := Option.bind_eq_some_iff.mp hfeed
  rw [feed_cons, next_of_isControl hc] at hrest
  cases hrest

end Starla.Framework.JsonText
