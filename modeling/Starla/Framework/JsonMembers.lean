import Mathlib.Data.List.Forall2
import Starla.Framework.Formatting
import Starla.Framework.JsonRules

/-!
# Members of JSON objects

Values and objects by the properties they have: `Fields` are an object's
members in order, each a name and what its value is.

* `ReadsAs a P` : `a` is a value with `P`, wherever a value may stand.
* `Adds m a fs` : `a` adds the members `fs`, from the mode `m` on: where a
  member may start (`Mode.member`), or after one (`Mode.afterMember`).
* `Members a fs` : the same after a member, for a text that may be empty.
* `Leading a fs` : members with a comma after each.
* `AddsFrom a cs` : members after one, of which some may be missing.
* `OpensString a fs k` : `a` gives an object its first members and opens the
  string of its member `k`.
* `read_named_iff` : an object assembled around a string is read with its
  members exactly when the text between the quotes is a string's content.
-/

namespace Starla.Framework.JsonText

/-! ## Shapes -/

def Shape.IsBool (v : Shape) : Prop := v = .bool
def Shape.IsNumber (v : Shape) : Prop := v = .number
def Shape.IsString (v : Shape) : Prop := v = .string

theorem not_isString_number : ¬ Shape.IsString .number := fun h => by cases h

abbrev Fields := List (String × (Shape → Prop))

/-- A member as its field has it. -/
def IsMember (f : String × (Shape → Prop)) (m : String × Shape) : Prop := m.1 = f.1 ∧ f.2 m.2

/-- An object with the members `fs`, in order, and no other. -/
def Shape.ObjectOf (fs : Fields) : Shape → Prop
  | object ms => List.Forall₂ IsMember fs ms
  | _ => False

theorem not_objectOf_of_number {fs : Fields} {k k' : String} {P : Shape → Prop} {ms : List (String × Shape)}
    (hP : ¬ P .number) : ¬ (Shape.object (ms ++ [(k', .number)])).ObjectOf (fs ++ [(k, P)]) := by
  intro hobject
  have hreverse := List.forall₂_reverse_iff.mpr (show List.Forall₂ IsMember _ _ from hobject)
  rw [List.reverse_append, List.reverse_append] at hreverse
  cases hreverse with
  | cons hlast _ => exact hP hlast.2

variable {a b p pre post rest name k : String} {fs gs : Fields} {P Q : Shape → Prop} {cs : List Char}
  {m : List (String × Shape) → Mode}

/-! ## Values -/

def ReadsAs (a : String) (P : Shape → Prop) : Prop := ∃ v, P v ∧ Reads a v

theorem ReadsAs.mono (ha : ReadsAs a P) (hP : ∀ v, P v → Q v) : ReadsAs a Q := by
  obtain ⟨v, hv, hreads⟩ := ha
  exact ⟨v, hP v hv, hreads⟩

theorem ReadsAs.blank (ha : ReadsAs a P) : ReadsAs (" " ++ a) P := by
  obtain ⟨v, hv, hreads⟩ := ha
  have hblank : ∀ hs h, Leads ⟨hs, .value h⟩ " " ⟨hs, .value h⟩ := fun _ _ => rfl
  exact ⟨v, hv, fun hs h => (hblank hs h).trans_settles (hreads hs h)⟩

theorem readsAs_number (ha : IsNumber a.toList) : ReadsAs a Shape.IsNumber :=
  ⟨.number, rfl, fun _ _ => settles_number ha⟩

theorem readsAs_string (ha : IsContent a.toList) : ReadsAs ("\"" ++ a ++ "\"") Shape.IsString := by
  refine ⟨.string, rfl, fun hs h => ?_⟩
  have hopen : Leads ⟨hs, .value h⟩ "\"" ⟨hs, .string h .plain⟩ := rfl
  exact ((hopen.content ha).append (show Leads _ "\"" _ from rfl)).settles

theorem readsAs_array {texts : List String} (htexts : ∀ a ∈ texts, ReadsAs a P) :
    ReadsAs ("[ " ++ ", ".intercalate texts ++ " ]") (Shape.ArrayOf P) := reads_array htexts

/-- An array of one item. -/
theorem readsAs_singleton (ha : ReadsAs a P) : ReadsAs ("[ " ++ a ++ " ]") (Shape.ArrayOf P) := by
  have hone : ∀ b ∈ [a], ReadsAs b P := fun b hb => List.mem_singleton.mp hb ▸ ha
  have h := readsAs_array hone
  rwa [String.intercalate_singleton] at h

/-- A whole text that is a value. -/
theorem read_of_readsAs (ha : ReadsAs a P) : ∃ v, read a.toList = some v ∧ P v := by
  obtain ⟨v, hv, hreads⟩ := ha
  refine ⟨v, ?_, hv⟩
  have hfeed : feed .start (a.toList ++ [' ']) = some ⟨[], .afterRoot v⟩ := hreads [] .root ' ' [] rfl
  rw [read, hfeed]

/-! ## Members -/

/-- A text that adds members, from the mode `m` on. -/
def Adds (m : List (String × Shape) → Mode) (a : String) (fs : Fields) : Prop :=
  ∃ ms, List.Forall₂ IsMember fs ms ∧ ∀ hs ms₀, Settles ⟨hs, m ms₀⟩ a ⟨hs, .afterMember (ms₀ ++ ms)⟩

/-- A text that adds members after one. -/
structure Members (a : String) (fs : Fields) : Prop where
  delimited : a = "" ∨ delimited a = true
  adds : Adds .afterMember a fs

/-- Members with a comma after each. -/
def Leading (a : String) (fs : Fields) : Prop :=
  ∃ ms, List.Forall₂ IsMember fs ms ∧ ∀ hs ms₀, Leads ⟨hs, .member ms₀⟩ a ⟨hs, .member (ms₀ ++ ms)⟩

/-- A member's name, its value comes next. -/
def Introduces (m : List (String × Shape) → Mode) (p k : String) : Prop :=
  ∀ hs ms, Leads ⟨hs, m ms⟩ p ⟨hs, .value (.object ms k)⟩

/-- A member's name and its string's quote. -/
def Quotes (m : List (String × Shape) → Mode) (p k : String) : Prop :=
  ∀ hs ms, Leads ⟨hs, m ms⟩ p ⟨hs, .string (.object ms k) .plain⟩

theorem delimited_append (ha : delimited a = true) : delimited (a ++ b) = true := by
  rw [delimited] at ha ⊢
  rw [String.toList_append]
  cases hcs : a.toList with
  | nil => simp [hcs] at ha
  | cons c cs => simpa [hcs] using ha

namespace Adds

theorem value (hp : Introduces m p k) (ha : ReadsAs a P) : Adds m (p ++ a) [(k, P)] := by
  obtain ⟨v, hv, hreads⟩ := ha
  exact ⟨[(k, v)], .cons ⟨rfl, hv⟩ .nil, fun hs ms₀ => (hp hs ms₀).value hreads⟩

theorem text (hp : Quotes m p k) (ha : IsContent a.toList) : Adds m (p ++ a ++ "\"") [(k, Shape.IsString)] :=
  ⟨[(k, .string)], .cons ⟨rfl, rfl⟩ .nil, fun hs ms₀ =>
    (((hp hs ms₀).content ha).append (show Leads _ "\"" _ from rfl)).settles⟩

/-- A string that is written as it is. -/
theorem literal (ha : ∀ hs ms, Leads ⟨hs, m ms⟩ a ⟨hs, .afterMember (ms ++ [(k, .string)])⟩) :
    Adds m a [(k, Shape.IsString)] :=
  ⟨[(k, .string)], .cons ⟨rfl, rfl⟩ .nil, fun hs ms₀ => (ha hs ms₀).settles⟩

theorem append (ha : Adds m a fs) (hb : Members b gs) : Adds m (a ++ b) (fs ++ gs) := by
  obtain ⟨ms, hms, hsa⟩ := ha
  obtain ⟨hdelimited, ns, hns, hsb⟩ := hb
  refine ⟨ms ++ ns, List.rel_append hms hns, fun hs ms₀ => ?_⟩
  rw [← List.append_assoc]
  exact (hsa hs ms₀).trans hdelimited (hsb hs _)

theorem blank (ha : Adds m a fs) : Adds m (a ++ " ") fs := by
  obtain ⟨ms, hms, hsa⟩ := ha
  exact ⟨ms, hms, fun hs ms₀ => ((hsa hs ms₀).append rfl (show Leads _ " " _ from rfl)).settles⟩

end Adds

namespace Members

theorem nil : Members "" [] := ⟨.inl rfl, [], .nil, fun hs ms₀ => by
  rw [List.append_nil]
  exact Leads.settles Leads.refl⟩

theorem append (ha : Members a fs) (hb : Members b gs) : Members (a ++ b) (fs ++ gs) := by
  refine ⟨?_, ha.adds.append hb⟩
  rcases ha.delimited with rfl | hdelimited
  · rw [String.empty_append]
    exact hb.delimited
  · exact .inr (delimited_append hdelimited)

theorem value (hp : Introduces .afterMember p k) (hdelimited : JsonText.delimited p = true) (ha : ReadsAs a P) :
    Members (p ++ a) [(k, P)] :=
  ⟨.inr (delimited_append hdelimited), .value hp ha⟩

theorem text (hp : Quotes .afterMember p k) (hdelimited : JsonText.delimited p = true)
    (ha : IsContent a.toList) : Members (p ++ a ++ "\"") [(k, Shape.IsString)] :=
  ⟨.inr (delimited_append (delimited_append hdelimited)), .text hp ha⟩

theorem ite {c : Prop} [Decidable c] (ha : c → Members a fs) :
    Members (if c then a else "") (if c then fs else []) := by
  split_ifs with hc
  · exact ha hc
  · exact nil

theorem getD_map {α : Type} {x : Option α} {f : α → String} (hf : ∀ y, x = some y → Members (f y) fs) :
    Members ((x.map f).getD "") (if x.isSome then fs else []) := by
  cases x with
  | none => exact nil
  | some y => exact hf y rfl

theorem literal (hdelimited : JsonText.delimited a = true)
    (ha : ∀ hs ms, Leads ⟨hs, .afterMember ms⟩ a ⟨hs, .afterMember (ms ++ [(k, .string)])⟩) :
    Members a [(k, Shape.IsString)] :=
  ⟨.inr hdelimited, .literal ha⟩

/-- Members, and a value after them. -/
theorem andValue (ha : Members a fs) (hp : Introduces .afterMember p k) (hdelimited : JsonText.delimited p = true)
    (hb : ReadsAs b P) : Members (a ++ p ++ b) (fs ++ [(k, P)]) := by
  rw [String.append_assoc]
  exact ha.append (.value hp hdelimited hb)

/-- Members, and a string after them. -/
theorem andText (ha : Members a fs) (hp : Quotes .afterMember p k) (hdelimited : JsonText.delimited p = true)
    (hb : IsContent b.toList) : Members (a ++ p ++ b ++ "\"") (fs ++ [(k, Shape.IsString)]) := by
  have h := ha.append (.text hp hdelimited hb)
  rwa [← String.append_assoc, ← String.append_assoc] at h

end Members

namespace Adds

/-- Members, and a value after them. -/
theorem andValue (ha : Adds m a fs) (hp : Introduces .afterMember p k) (hdelimited : delimited p = true)
    (hb : ReadsAs b P) : Adds m (a ++ p ++ b) (fs ++ [(k, P)]) := by
  rw [String.append_assoc]
  exact ha.append (.value hp hdelimited hb)

/-- Members, and a string after them. -/
theorem andText (ha : Adds m a fs) (hp : Quotes .afterMember p k) (hdelimited : delimited p = true)
    (hb : IsContent b.toList) : Adds m (a ++ p ++ b ++ "\"") (fs ++ [(k, Shape.IsString)]) := by
  have h := ha.append (.text hp hdelimited hb)
  rwa [← String.append_assoc, ← String.append_assoc] at h

end Adds

namespace Leading

theorem nil : Leading "" [] := ⟨[], .nil, fun hs ms₀ => by
  rw [List.append_nil]
  exact Leads.refl⟩

theorem append (ha : Leading a fs) (hb : Leading b gs) : Leading (a ++ b) (fs ++ gs) := by
  obtain ⟨ms, hms, hsa⟩ := ha
  obtain ⟨ns, hns, hsb⟩ := hb
  refine ⟨ms ++ ns, List.rel_append hms hns, fun hs ms₀ => ?_⟩
  rw [← List.append_assoc]
  exact (hsa hs ms₀).append (hsb hs _)

/-- Members, and the comma after the last. -/
theorem of_adds (ha : Adds .member a fs) : Leading (a ++ ", ") fs := by
  obtain ⟨ms, hms, hsa⟩ := ha
  exact ⟨ms, hms, fun hs ms₀ => (hsa hs ms₀).append rfl (show Leads _ ", " _ from rfl)⟩

theorem of_adds_comma (ha : Adds .member a fs) : Leading (a ++ ",") fs := by
  obtain ⟨ms, hms, hsa⟩ := ha
  exact ⟨ms, hms, fun hs ms₀ => (hsa hs ms₀).append rfl (show Leads _ "," _ from rfl)⟩

theorem append_adds (ha : Leading a fs) (hb : Adds .member b gs) : Adds .member (a ++ b) (fs ++ gs) := by
  obtain ⟨ms, hms, hsa⟩ := ha
  obtain ⟨ns, hns, hsb⟩ := hb
  refine ⟨ms ++ ns, List.rel_append hms hns, fun hs ms₀ => ?_⟩
  rw [← List.append_assoc]
  exact (hsa hs ms₀).trans_settles (hsb hs _)

/-- Members, a value and the comma after it. -/
theorem andValue (ha : Leading a fs) (hp : Introduces .member p k) (hb : ReadsAs b P) :
    Leading (a ++ p ++ b ++ ", ") (fs ++ [(k, P)]) := by
  have h := ha.append (.of_adds (.value hp hb))
  rwa [← String.append_assoc, ← String.append_assoc] at h

theorem ite {c : Prop} [Decidable c] (ha : c → Leading a fs) :
    Leading (if c then a else "") (if c then fs else []) := by
  split_ifs with hc
  · exact ha hc
  · exact nil

theorem getD_map {α : Type} {x : Option α} {f : α → String} (hf : ∀ y, x = some y → Leading (f y) fs) :
    Leading ((x.map f).getD "") (if x.isSome then fs else []) := by
  cases x with
  | none => exact nil
  | some y => exact hf y rfl

end Leading

/-! ## Objects -/

/-- An object's members between the texts that open and close it. -/
theorem readsAs_objectBetween {o e : String} (ho : ∀ hs h, Leads ⟨hs, .value h⟩ o ⟨h :: hs, .member []⟩)
    (ha : Adds .member a fs) (hdelimited : delimited e = true)
    (he : ∀ hs h ms, Leads ⟨h :: hs, .afterMember ms⟩ e ⟨hs, h.fill (.object ms)⟩) :
    ReadsAs (o ++ a ++ e) (Shape.ObjectOf fs) := by
  obtain ⟨ms, hms, hsettles⟩ := ha
  refine ⟨.object ms, hms, fun hs h => ?_⟩
  exact (((ho hs h).trans_settles (hsettles (h :: hs) [])).append hdelimited (he hs h _)).settles

theorem readsAs_object (ha : Adds .member a fs) : ReadsAs ("\x7b " ++ a ++ " \x7d") (Shape.ObjectOf fs) :=
  readsAs_objectBetween (fun _ _ => rfl) ha rfl fun _ _ _ => rfl

/-! ## Arrays -/

/-- A text that goes on with an array's items after one, and ends it. -/
structure EndsArray (a : String) (P : Shape → Prop) : Prop where
  delimited : JsonText.delimited a = true
  ends : ∃ vs, (∀ v ∈ vs, P v) ∧
    ∀ hs h items, Leads ⟨h :: hs, .afterItem items⟩ a ⟨hs, h.fill (.array (items ++ vs))⟩

namespace EndsArray

theorem close : EndsArray " ]" P := ⟨rfl, [], by simp, fun hs h items => by
  rw [List.append_nil]
  rfl⟩

theorem cons (ha : ReadsAs a P) (hb : EndsArray b P) : EndsArray ("," ++ a ++ b) P := by
  obtain ⟨v, hv, hreads⟩ := ha
  obtain ⟨hdelimited, vs, hvs, hends⟩ := hb
  refine ⟨delimited_append (delimited_append rfl), v :: vs, ?_, fun hs h items => ?_⟩
  · simpa using ⟨hv, hvs⟩
  · have hcomma : Leads ⟨h :: hs, .afterItem items⟩ "," ⟨h :: hs, .value (.array items)⟩ := rfl
    have hall := (hcomma.value hreads).append hdelimited (hends hs h _)
    rwa [List.append_assoc] at hall

end EndsArray

/-- A member whose array's first item and other items follow. -/
theorem Members.array (hp : ∀ hs ms, Leads ⟨hs, .afterMember ms⟩ p ⟨.object ms k :: hs, .value (.array [])⟩)
    (hdelimited : JsonText.delimited p = true) (ha : ReadsAs a P) (hb : EndsArray b P) :
    Members (p ++ a ++ b) [(k, Shape.ArrayOf P)] := by
  obtain ⟨v, hv, hreads⟩ := ha
  obtain ⟨hdel, vs, hvs, hends⟩ := hb
  refine ⟨.inr (delimited_append (delimited_append hdelimited)), [(k, .array (v :: vs))], ?_, fun hs ms₀ => ?_⟩
  · exact .cons ⟨rfl, by simpa [Shape.ArrayOf] using ⟨hv, hvs⟩⟩ .nil
  · exact (((hp hs ms₀).value hreads).append hdel (hends hs _ _)).settles

/-- Items with a comma between them and a blank before each. -/
theorem endsArray_spaced {texts : List String} (htexts : ∀ a ∈ texts, ReadsAs a P) :
    EndsArray (spaced false texts ++ " ]") P := by
  induction texts with
  | nil => exact .close
  | cons a texts ih =>
    have ha := (htexts a List.mem_cons_self).blank
    have hrest := ih fun b hb => htexts b (List.mem_cons_of_mem _ hb)
    have h := EndsArray.cons ha hrest
    rwa [← String.append_assoc, ← String.append_assoc] at h

theorem readsAs_spaced {texts : List String} (htexts : ∀ a ∈ texts, ReadsAs a P) :
    ReadsAs ("[" ++ (spaced true texts ++ " ]")) (Shape.ArrayOf P) := by
  cases texts with
  | nil => exact ⟨.array [], by simp [Shape.ArrayOf], fun hs h => Leads.settles (show Leads _ "[ ]" _ from rfl)⟩
  | cons a texts =>
    obtain ⟨v, hv, hreads⟩ := (htexts a List.mem_cons_self).blank
    obtain ⟨hdelimited, vs, hvs, hends⟩ := endsArray_spaced fun b hb => htexts b (List.mem_cons_of_mem _ hb)
    refine ⟨.array (v :: vs), ?_, fun hs h => ?_⟩
    · simpa [Shape.ArrayOf] using ⟨hv, hvs⟩
    · have hopen : Leads ⟨hs, .value h⟩ "[" ⟨h :: hs, .value (.array [])⟩ := rfl
      have hall := ((hopen.value hreads).append hdelimited (hends hs h _)).settles
      rw [spaced, if_pos rfl, String.empty_append, String.append_assoc]
      rwa [String.append_assoc] at hall

/-! ## Strings within objects -/

/-- A text that adds members and opens the string of the next. -/
def OpensString (a : String) (fs : Fields) (k : String) : Prop :=
  ∃ ms, List.Forall₂ IsMember fs ms ∧
    ∀ hs ms₀, Leads ⟨hs, .member ms₀⟩ a ⟨hs, .string (.object (ms₀ ++ ms) k) .plain⟩

theorem Adds.opensString (ha : Adds .member a fs) (hp : Quotes .afterMember p k)
    (hdelimited : delimited p = true) : OpensString (a ++ p) fs k := by
  obtain ⟨ms, hms, hsettles⟩ := ha
  exact ⟨ms, hms, fun hs ms₀ => (hsettles hs ms₀).append hdelimited (hp hs _)⟩

theorem Leading.opensString (ha : Leading a fs) (hp : Quotes .member p k) : OpensString (a ++ p) fs k := by
  obtain ⟨ms, hms, hleads⟩ := ha
  exact ⟨ms, hms, fun hs ms₀ => (hleads hs ms₀).append (hp hs _)⟩

theorem OpensString.text (ha : OpensString a fs k) (hb : IsContent b.toList) :
    Adds .member (a ++ b ++ "\"") (fs ++ [(k, Shape.IsString)]) := by
  obtain ⟨ms, hms, hleads⟩ := ha
  have hstring : IsMember (k, Shape.IsString) (k, .string) := ⟨rfl, rfl⟩
  refine ⟨ms ++ [(k, .string)], List.rel_append hms (.cons hstring .nil), fun hs ms₀ => ?_⟩
  rw [← List.append_assoc]
  exact (((hleads hs ms₀).content hb).append (show Leads _ "\"" _ from rfl)).settles

/-- Members, a comma and more of them. -/
theorem Members.comma (ha : Members a fs) (hdelimited : JsonText.delimited a = true) (hb : Adds .member b gs) :
    Members (a ++ ", " ++ b) (fs ++ gs) := by
  refine ⟨.inr (delimited_append (delimited_append hdelimited)), ?_⟩
  obtain ⟨ms, hms, hsa⟩ := ha.adds
  obtain ⟨ns, hns, hsb⟩ := hb
  refine ⟨ms ++ ns, List.rel_append hms hns, fun hs ms₀ => ?_⟩
  have hcomma : Leads ⟨hs, .afterMember ms₀⟩ (a ++ ", ") ⟨hs, .member (ms₀ ++ ms)⟩ :=
    (hsa hs ms₀).append rfl (show Leads _ ", " _ from rfl)
  rw [← List.append_assoc]
  exact hcomma.trans_settles (hsb hs _)

/-! ## Members of which some may be missing -/

/-- Members, each with whether it has to be there. -/
abbrev Choices := List (Bool × String × (Shape → Prop))

/-- Those that have to be there, and any of the others. -/
inductive Chosen : Choices → Fields → Prop
  | nil : Chosen [] []
  | take {needed : Bool} {f : String × (Shape → Prop)} {cs : Choices} {fs : Fields} (h : Chosen cs fs) :
    Chosen ((needed, f) :: cs) (f :: fs)
  | skip {f : String × (Shape → Prop)} {cs : Choices} {fs : Fields} (h : Chosen cs fs) : Chosen ((false, f) :: cs) fs

def Shape.ObjectFrom (cs : Choices) (v : Shape) : Prop := ∃ fs, Chosen cs fs ∧ v.ObjectOf fs

theorem Chosen.append {cs ds : Choices} (hc : Chosen cs fs) (hd : Chosen ds gs) : Chosen (cs ++ ds) (fs ++ gs) := by
  induction hc with
  | nil => exact hd
  | take _ ih => exact .take ih
  | skip _ ih => exact .skip ih

/-- A text that adds some members after one. -/
def AddsFrom (a : String) (cs : Choices) : Prop := ∃ fs, Chosen cs fs ∧ Members a fs

namespace AddsFrom

variable {cs ds : Choices} {f : String × (Shape → Prop)}

theorem append (ha : AddsFrom a cs) (hb : AddsFrom b ds) : AddsFrom (a ++ b) (cs ++ ds) := by
  obtain ⟨fs, hcs, hfs⟩ := ha
  obtain ⟨gs, hds, hgs⟩ := hb
  exact ⟨fs ++ gs, hcs.append hds, hfs.append hgs⟩

theorem of_members {needed : Bool} (ha : Members a [f]) : AddsFrom a [(needed, f)] := ⟨[f], .take .nil, ha⟩

theorem none : AddsFrom "" [(false, f)] := ⟨[], .skip .nil, .nil⟩

theorem ite {c : Prop} [Decidable c] (ha : c → Members a [f]) : AddsFrom (if c then a else "") [(false, f)] := by
  split_ifs with hc
  · exact .of_members (ha hc)
  · exact .none

end AddsFrom

/-- Members where some may be missing, and others after them. -/
theorem readsAs_objectFrom {cs ds : Choices} (ha : ∃ fs, Chosen cs fs ∧ Adds .member a fs) (hb : AddsFrom b ds) :
    ReadsAs ("\x7b " ++ (a ++ b) ++ " \x7d") (Shape.ObjectFrom (cs ++ ds)) := by
  obtain ⟨fs, hcs, hfs⟩ := ha
  obtain ⟨gs, hds, hgs⟩ := hb
  exact (readsAs_object (hfs.append hgs)).mono fun v hv => ⟨fs ++ gs, hcs.append hds, hv⟩

/-! ## Control characters -/

theorem not_mem_of_settles {s t : State} {c : Char} (hc : isControl c = true) (ha : Settles s a t)
    (ht : ∃ u, feed t [' '] = some u) : c ∉ a.toList := by
  obtain ⟨u, hu⟩ := ht
  have hfeed := (ha ' ' [] rfl).trans hu
  exact fun hmem => not_mem_of_feed hc hfeed (List.mem_append_left _ hmem)

theorem ReadsAs.not_mem {c : Char} (hc : isControl c = true) (ha : ReadsAs a P) : c ∉ a.toList := by
  obtain ⟨v, -, hreads⟩ := ha
  exact not_mem_of_settles hc (hreads [] .root) ⟨_, rfl⟩

theorem Adds.not_mem {c : Char} (hc : isControl c = true) (ha : Adds m a fs) : c ∉ a.toList := by
  obtain ⟨ms, -, hsettles⟩ := ha
  exact not_mem_of_settles hc (hsettles [] []) ⟨_, rfl⟩

theorem Leading.not_mem {c : Char} (hc : isControl c = true) (ha : Leading a fs) : c ∉ a.toList := by
  obtain ⟨ms, -, hleads⟩ := ha
  exact not_mem_of_feed hc (hleads [] [])

theorem OpensString.not_mem {c : Char} (hc : isControl c = true) (ha : OpensString a fs k) : c ∉ a.toList := by
  obtain ⟨ms, -, hleads⟩ := ha
  exact not_mem_of_feed hc (hleads [] [])

/-- A text that starts with a comma and a member's name. -/
def StartsMember (a : String) : Prop :=
  ∃ c cs rest, a.toList = ',' :: ' ' :: '"' :: c :: (cs ++ '"' :: ':' :: rest) ∧
    isLetter c = true ∧ (c :: cs).all isPlain = true

theorem StartsMember.append (ha : StartsMember a) : StartsMember (a ++ b) := by
  obtain ⟨c, cs, rest, ha, hc, hcs⟩ := ha
  exact ⟨c, cs, rest ++ b.toList, by rw [String.toList_append, ha]; simp, hc, hcs⟩

/-- An object's text around a string. -/
def objectAround (pre name post : String) : String := "\x7b " ++ (pre ++ name ++ "\"" ++ post) ++ " \x7d"

theorem read_named_iff (hpre : OpensString pre fs k) (hpost : Members post gs) (hstarts : StartsMember post) :
    (∃ v, read (objectAround pre name post).toList = some v ∧
      v.ObjectOf (fs ++ (k, Shape.IsString) :: gs)) ↔ IsContent name.toList := by
  constructor
  · rintro ⟨v, hread, hv⟩
    obtain ⟨ms, hms, hleads⟩ := hpre
    obtain ⟨-, ns, hns, hsettles⟩ := hpost
    cases v with
    | object members =>
      have hlen : fs.length + (gs.length + 1) = members.length := by
        simpa using List.Forall₂.length_eq (show List.Forall₂ IsMember _ members from hv)
      have hopen : Leads .start ("\x7b " ++ pre) ⟨[.root], .string (.object ms k) .plain⟩ :=
        (show Leads .start "\x7b " ⟨[.root], .member []⟩ from rfl).append (hleads [.root] [])
      have hobject : read (("\x7b " ++ pre).toList ++
          (name.toList ++ '"' :: (post.toList ++ [' ', '\x7d']))) = some (.object members) := by
        rw [← hread]
        simp [objectAround]
      refine isContent_of_between hopen ⟨hsettles, hstarts⟩ hobject ?_
      rw [← hms.length_eq, ← hns.length_eq]
      omega
    | _ => exact absurd hv id
  · intro hname
    have hread := read_of_readsAs (readsAs_object ((hpre.text hname).append hpost))
    rwa [List.append_assoc, List.singleton_append] at hread

/-- Whatever the text between the quotes, an object that breaks after them is
not read. -/
theorem read_eq_none_of_broken (hpre : OpensString pre fs k) (hpost : Members post gs) (hstarts : StartsMember post)
    (hrest : delimited rest = true) (hbroken : ∀ hs ms, feed ⟨hs, .afterMember ms⟩ rest.toList = none) :
    read (objectAround pre name (post ++ rest)).toList = none := by
  obtain ⟨ms, -, hleads⟩ := hpre
  obtain ⟨-, ns, -, hsettles⟩ := hpost
  have hopen : Leads .start ("\x7b " ++ pre) ⟨[.root], .string (.object ms k) .plain⟩ :=
    (show Leads .start "\x7b " ⟨[.root], .member []⟩ from rfl).append (hleads [.root] [])
  by_contra hread
  obtain ⟨v, hv⟩ := Option.ne_none_iff_exists'.mp hread
  have hobject : read (("\x7b " ++ pre).toList ++
      (name.toList ++ '"' :: (post.toList ++ (rest.toList ++ [' ', '\x7d'])))) = some v := by
    rw [← hv]
    simp [objectAround]
  obtain ⟨hs, h, -, hfeed⟩ := string_of_read hopen ⟨hsettles, hstarts⟩ hobject
  have hquote : feed ⟨hs, .string h .plain⟩ ('"' :: (post.toList ++ (rest.toList ++ [' ', '\x7d', ' ']))) =
      some ⟨[], .afterRoot v⟩ := by
    simpa using hfeed
  obtain ⟨ms', k', rfl⟩ := object_of_feed_quote ⟨hsettles, hstarts⟩ hquote
  have hafter : feed ⟨hs, .afterMember (ms' ++ [(k', .string)])⟩ (post.toList ++ (rest.toList ++ [' ', '\x7d', ' '])) =
      some ⟨[], .afterRoot v⟩ := by
    rw [← hfeed]
    simp [feed_cons, State.next, Hole.fill]
  rw [delimited] at hrest
  cases hcs : rest.toList with
  | nil => simp [hcs] at hrest
  | cons d ds =>
    have hd : endsValue d = true := by simpa [hcs] using hrest
    rw [hcs, List.cons_append, hsettles hs _ d _ hd, ← List.cons_append, ← hcs, feed_append,
      hbroken hs] at hafter
    cases hafter

/-- Nor is one that breaks before a string. -/
theorem read_eq_none_of_broken_start (hbroken : feed ⟨[.root], .member []⟩ pre.toList = none) :
    read ("\x7b " ++ (pre ++ rest) ++ " \x7d").toList = none := by
  have hstart : feed .start ("\x7b ".toList) = some ⟨[.root], .member []⟩ := rfl
  rw [read, String.toList_append, String.toList_append, String.toList_append, List.append_assoc,
    List.append_assoc, feed_append, hstart, Option.bind_some, List.append_assoc, feed_append, hbroken]
  rfl

/-- An object whose text ends in a digit does not end in another member than a
number. -/
theorem not_read_of_isDigit {c : Char} (hc : c.isDigit = true) (hP : ¬ P .number) :
    ¬ ∃ v, read ("\x7b " ++ (a ++ String.ofList [c]) ++ " \x7d").toList = some v ∧
      v.ObjectOf (fs ++ [(k, P)]) := by
  rintro ⟨v, hread, hv⟩
  have htext : read ("\x7b ".toList ++ a.toList ++ c :: [' ', '\x7d']) = some v := by
    simpa using hread
  obtain ⟨ms, k', rfl⟩ := number_of_read hc htext
  exact not_objectOf_of_number hP hv

end Starla.Framework.JsonText
