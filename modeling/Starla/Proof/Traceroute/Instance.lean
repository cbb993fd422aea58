import Mathlib.Data.Finset.Card
import Mathlib.Tactic.Common
import Starla.Framework.Run
import Starla.Impl.Traceroute.Instance

/-!
# The trace slot table

`indexOf`, `runsOf` and `busy` are what the tables hold of the instance at an
address, if it is live. `Inv` ties the slots and the runs in progress to them.

* `lowestFree_spec` : a new instance's index, while there is one.
* `step_inv` : every operation keeps the tables in order.
* `step_exact` : what an operation makes of each instance.
* `slots_exact` : every sequence of them.
-/

namespace Starla.Proof.Traceroute.Instances

open Starla.Framework Starla.Impl.Traceroute.Instances

/-! ## The lowest free index -/

theorem slots_eq_range :
    List.range' 0 slotCount ++ List.range' slotCount (65536 - slotCount) = List.range 65536 := by
  rw [List.range_eq_range']
  exact List.range'_append_1 (s := 0) (m := slotCount) (n := 65536 - slotCount)

/-- Fewer than 65536 indexes leave one free. -/
theorem exists_free {taken : Finset UInt16} (h : taken.card < 65536) :
    ∃ i < 65536, UInt16.ofNat i ∉ taken := by
  by_contra hall
  push Not at hall
  have hinj : Set.InjOn UInt16.ofNat (Finset.range 65536 : Set Nat) := by
    intro i hi j hj hij
    have hi : i < 65536 := Finset.mem_range.mp hi
    have hj : j < 65536 := Finset.mem_range.mp hj
    have := congrArg UInt16.toNat hij
    simpa [Nat.mod_eq_of_lt hi, Nat.mod_eq_of_lt hj] using this
  have hsub : (Finset.range 65536).image UInt16.ofNat ⊆ taken := by
    intro x hx
    obtain ⟨i, hi, rfl⟩ := Finset.mem_image.mp hx
    exact hall i (Finset.mem_range.mp hi)
  have hcard := Finset.card_le_card hsub
  rw [Finset.card_image_of_injOn hinj, Finset.card_range] at hcard
  omega

theorem lowestFree_spec {taken : Finset UInt16} (h : taken.card < 65536) :
    lowestFree taken ∉ taken ∧ ∀ i < lowestFree taken, i ∈ taken := by
  obtain ⟨i, hi, hfree⟩ := exists_free h
  obtain ⟨n, hn⟩ : ∃ n, (List.range 65536).find? (fun i => decide (UInt16.ofNat i ∉ taken)) = some n :=
    Option.isSome_iff_exists.mp (List.find?_isSome.mpr ⟨i, List.mem_range.mpr hi, by simpa using hfree⟩)
  have heq : lowestFree taken = UInt16.ofNat n := by
    rw [lowestFree, slots_eq_range, List.find?_map]
    show (Option.map _ (List.find? (fun i => decide (UInt16.ofNat i ∉ taken)) _)).getD 0 = _
    rw [hn]
    rfl
  obtain ⟨hp, hmem, hmin⟩ := List.find?_range_eq_some.mp hn
  have hlt : n < 65536 := List.mem_range.mp hmem
  rw [heq]
  refine ⟨by simpa using hp, fun j hj => ?_⟩
  have hj : j.toNat < n := by
    have := UInt16.lt_iff_toNat_lt.mp hj
    simpa [Nat.mod_eq_of_lt hlt] using this
  have := hmin j.toNat hj
  simpa using this

/-! ## What the tables hold of an instance -/

def indexOf (t : Tables) (a : Nat) : Option UInt16 := (t.instances.lookup a).map (·.instance'.index)

def runsOf (t : Tables) (a : Nat) : Option UInt64 := (t.instances.lookup a).map (·.instance'.runs)

def busy (t : Tables) (a : Nat) : Bool := (t.instances.lookup a).any (·.instance'.busy)

theorem lookup_update (t : Tables) (a b : Nat) (f : Shared → Shared) :
    (t.update a f).instances.lookup b =
      if b = a then (t.instances.lookup a).map f else t.instances.lookup b := by
  unfold Tables.update
  split
  · rename_i s hs
    show (t.instances.insert a (f s)).lookup b = _
    split
    · rename_i hb
      rw [hb, AList.lookup_insert, hs, Option.map_some]
    · rename_i hb
      exact AList.lookup_insert_ne hb
  · rename_i hs
    split
    · rename_i hb
      rw [hb, hs, Option.map_none]
    · rfl

@[simp] theorem update_slots (t : Tables) (a : Nat) (f : Shared → Shared) : (t.update a f).slots = t.slots := by
  unfold Tables.update; split <;> rfl

@[simp] theorem update_runs (t : Tables) (a : Nat) (f : Shared → Shared) : (t.update a f).runs = t.runs := by
  unfold Tables.update; split <;> rfl

@[simp] theorem update_next (t : Tables) (a : Nat) (f : Shared → Shared) : (t.update a f).next = t.next := by
  unfold Tables.update; split <;> rfl

/-- A field that an update keeps. -/
theorem map_update {α : Type} (g : Shared → α) {f : Shared → Shared} (hf : ∀ s, g (f s) = g s)
    (t : Tables) (a b : Nat) :
    ((t.update a f).instances.lookup b).map g = (t.instances.lookup b).map g := by
  rw [lookup_update]
  split
  · rename_i hb
    rw [hb, Option.map_map]
    exact congrArg (Option.map · (t.instances.lookup a)) (funext hf)
  · rfl

theorem indexOf_update {f : Shared → Shared} (hf : ∀ s, (f s).instance'.index = s.instance'.index)
    (t : Tables) (a b : Nat) : indexOf (t.update a f) b = indexOf t b :=
  map_update _ hf t a b

theorem busy_eq_map (t : Tables) (a : Nat) :
    busy t a = ((t.instances.lookup a).map (·.instance'.busy)).getD false := by
  unfold busy
  cases t.instances.lookup a <;> rfl

theorem busy_update {f : Shared → Shared} (hf : ∀ s, (f s).instance'.busy = s.instance'.busy)
    (t : Tables) (a b : Nat) : busy (t.update a f) b = busy t b := by
  rw [busy_eq_map, map_update _ hf, ← busy_eq_map]

theorem busy_update_of_ne (t : Tables) {a b : Nat} (h : b ≠ a) (f : Shared → Shared) :
    busy (t.update a f) b = busy t b := by
  unfold busy
  rw [lookup_update, if_neg h]

theorem indexOf_isSome_of_busy {t : Tables} {a : Nat} (h : busy t a = true) : ∃ i, indexOf t a = some i := by
  obtain ⟨s, hs, -⟩ := (Option.any_eq_true _ _).mp h
  exact ⟨s.instance'.index, by rw [indexOf, hs]; rfl⟩

/-! ## The invariant -/

structure Inv (t : Tables) : Prop where
  fresh : ∀ a i, indexOf t a = some i → a < t.next
  freshRun : ∀ r x, t.runs.lookup r = some x → r < t.next
  distinct : ∀ a b i, indexOf t a = some i → indexOf t b = some i → a = b
  slots : ∀ i, i ∈ t.slots ↔ ∃ a, indexOf t a = some i
  /-- The instance of a run in progress is live and busy. -/
  borrowed : ∀ r x, t.runs.lookup r = some x → busy t x.instance' = true
  alone : ∀ r r' x x', t.runs.lookup r = some x → t.runs.lookup r' = some x' →
    x.instance' = x'.instance' → r = r'

theorem inv_init : Inv {} := by
  refine ⟨?_, ?_, ?_, ?_, ?_, ?_⟩
  · intro a i h; cases h
  · intro r x h; cases h
  · intro a b i h; cases h
  · intro i
    exact ⟨fun h => absurd h (Finset.notMem_empty i), fun ⟨a, h⟩ => by cases h⟩
  · intro r x h; cases h
  · intro r r' x x' h; cases h

/-- An update that keeps the index and the busy flag. -/
theorem update_inv {t : Tables} (h : Inv t) {f : Shared → Shared}
    (hi : ∀ s, (f s).instance'.index = s.instance'.index)
    (hb : ∀ s, (f s).instance'.busy = s.instance'.busy) (a : Nat) : Inv (t.update a f) := by
  refine ⟨?_, ?_, ?_, ?_, ?_, ?_⟩ <;>
    simp only [indexOf_update hi, busy_update hb, update_runs, update_slots, update_next]
  · exact h.fresh
  · exact h.freshRun
  · exact h.distinct
  · exact h.slots
  · exact h.borrowed
  · exact h.alone

/-! ## A new instance -/

/-- Live instances. -/
abbrev count (t : Tables) : Nat := t.instances.keys.length

theorem mem_keys_of_indexOf {t : Tables} {a : Nat} {i : UInt16} (h : indexOf t a = some i) :
    a ∈ t.instances.keys := by
  obtain ⟨s, hs, -⟩ := Option.map_eq_some_iff.mp h
  exact AList.lookup_isSome.mp (by rw [hs]; rfl)

theorem card_slots_le {t : Tables} (h : Inv t) : t.slots.card ≤ count t := by
  have hsub : t.slots ⊆ (t.instances.keys.filterMap (indexOf t)).toFinset := by
    intro i hi
    obtain ⟨a, ha⟩ := (h.slots i).mp hi
    exact List.mem_toFinset.mpr (List.mem_filterMap.mpr ⟨a, mem_keys_of_indexOf ha, ha⟩)
  calc t.slots.card ≤ (t.instances.keys.filterMap (indexOf t)).toFinset.card := Finset.card_le_card hsub
    _ ≤ (t.instances.keys.filterMap (indexOf t)).length := List.toFinset_card_le _
    _ ≤ count t := List.length_filterMap_le ..

theorem indexOf_next {t : Tables} (h : Inv t) : indexOf t t.next = none :=
  Option.eq_none_iff_forall_ne_some.mpr fun i hi => Nat.lt_irrefl _ (h.fresh _ i hi)

theorem count_default {t : Tables} (h : Inv t) : count t.default.2 = count t + 1 := by
  have hnot : t.next ∉ t.instances.keys := fun hmem => by
    obtain ⟨s, hs⟩ := Option.isSome_iff_exists.mp (AList.lookup_isSome.mpr hmem)
    have := indexOf_next h
    rw [indexOf, hs] at this
    cases this
  show (t.instances.insert t.next _).keys.length = _
  rw [AList.keys_insert, List.erase_of_not_mem hnot, List.length_cons]

theorem lookup_default (t : Tables) (a : Nat) :
    t.default.2.instances.lookup a =
      if a = t.next then some ⟨{ index := lowestFree t.slots }, 1⟩ else t.instances.lookup a := by
  show (t.instances.insert t.next _).lookup a = _
  split
  · rename_i ha
    rw [ha, AList.lookup_insert]
  · rename_i ha
    exact AList.lookup_insert_ne ha

theorem indexOf_default (t : Tables) (a : Nat) :
    indexOf t.default.2 a = if a = t.next then some (lowestFree t.slots) else indexOf t a := by
  unfold indexOf
  rw [lookup_default]
  split <;> rfl

theorem busy_default {t : Tables} {a : Nat} (h : busy t a = true) (hne : a ≠ t.next) :
    busy t.default.2 a = true := by
  unfold busy
  rw [lookup_default, if_neg hne]
  exact h

theorem default_inv {t : Tables} (h : Inv t) (hc : count t.default.2 ≤ 65536) : Inv t.default.2 := by
  have hfree : lowestFree t.slots ∉ t.slots := by
    refine (lowestFree_spec ?_).1
    have := card_slots_le h
    have := count_default h
    omega
  have hnew : ∀ b, indexOf t b ≠ some (lowestFree t.slots) := fun b hb =>
    hfree ((h.slots _).mpr ⟨b, hb⟩)
  refine ⟨?_, ?_, ?_, ?_, ?_, ?_⟩
  · intro a i ha
    show a < t.next + 1
    rw [indexOf_default] at ha
    split at ha
    · omega
    · have := h.fresh a i ha
      omega
  · intro r x hr
    have := h.freshRun r x hr
    show r < t.next + 1
    omega
  · intro a b i ha hb
    rw [indexOf_default] at ha hb
    split at ha <;> split at hb
    · omega
    · rw [← ha] at hb
      exact absurd hb (hnew b)
    · rw [← hb] at ha
      exact absurd ha (hnew a)
    · exact h.distinct a b i ha hb
  · intro i
    show i ∈ insert (lowestFree t.slots) t.slots ↔ _
    rw [Finset.mem_insert, h.slots]
    constructor
    · rintro (rfl | ⟨a, ha⟩)
      · exact ⟨t.next, by rw [indexOf_default, if_pos rfl]⟩
      · have hne := Nat.ne_of_lt (h.fresh a i ha)
        exact ⟨a, by rw [indexOf_default, if_neg hne, ha]⟩
    · rintro ⟨a, ha⟩
      rw [indexOf_default] at ha
      split at ha
      · exact .inl (Option.some.inj ha).symm
      · exact .inr ⟨a, ha⟩
  · intro r x hr
    have hbusy := h.borrowed r x hr
    obtain ⟨i, hi⟩ := indexOf_isSome_of_busy hbusy
    exact busy_default hbusy (Nat.ne_of_lt (h.fresh _ i hi))
  · exact h.alone

/-! ## The operations -/

theorem clone_inv {t : Tables} (h : Inv t) (a : Nat) : Inv (t.clone a) := by
  unfold Tables.clone
  apply update_inv h <;> exact fun _ => rfl

/-- The lines' table is no part of the invariant. -/
theorem lines_inv {t : Tables} (h : Inv t) (lines : Weak LineKey) : Inv { t with lines } :=
  ⟨h.fresh, h.freshRun, h.distinct, h.slots, h.borrowed, h.alone⟩

/-- A line's instance is one more `Arc` of a live one, or new. -/
theorem forLine_cases (t : Tables) (key : LineKey) :
    (∃ a lines, t.forLine key = (a, { t.clone a with lines })) ∨
      ∃ lines, t.forLine key = (t.next, { t.default.2 with lines }) := by
  unfold Tables.forLine
  split
  · exact .inr ⟨t.lines, rfl⟩
  · dsimp only
    cases (t.lines.prune t.live).upgrade t.live key with
    | some a => exact .inl ⟨a, _, rfl⟩
    | none => exact .inr ⟨_, rfl⟩

/-- Dropping an `Arc` changes nothing but how many there are, or removes the
instance, which no run borrows. -/
theorem dropArc_cases (t : Tables) (a : Nat) :
    t.dropArc a = t ∨
      t.dropArc a = t.update a (fun s => { s with strongCount := s.strongCount - 1 }) ∨
      ∃ i, indexOf t a = some i ∧ (∀ r x, t.runs.lookup r = some x → x.instance' ≠ a) ∧
        t.dropArc a = { t with slots := t.slots.erase i, instances := t.instances.erase a } := by
  unfold Tables.dropArc
  split
  · exact .inl rfl
  · rename_i s hs
    split
    · exact .inr (.inl rfl)
    · split
      · exact .inl rfl
      · rename_i hnone
        refine .inr (.inr ⟨s.instance'.index, by rw [indexOf, hs]; rfl, fun r x hr heq => hnone ?_, rfl⟩)
        exact List.any_eq_true.mpr ⟨_, AList.mem_lookup_iff.mp hr, by simp [heq]⟩

theorem remove_inv {t : Tables} (h : Inv t) {a : Nat} {i : UInt16} (hi : indexOf t a = some i)
    (hrun : ∀ r x, t.runs.lookup r = some x → x.instance' ≠ a) :
    Inv { t with slots := t.slots.erase i, instances := t.instances.erase a } := by
  have hgone : indexOf { t with slots := t.slots.erase i, instances := t.instances.erase a } a = none := by
    show ((t.instances.erase a).lookup a).map _ = none
    rw [AList.lookup_erase, Option.map_none]
  have hkept : ∀ b, b ≠ a → (t.instances.erase a).lookup b = t.instances.lookup b := fun b hb =>
    AList.lookup_erase_ne hb
  have hindex : ∀ b j, indexOf { t with slots := t.slots.erase i, instances := t.instances.erase a } b =
      some j ↔ b ≠ a ∧ indexOf t b = some j := by
    intro b j
    by_cases hb : b = a
    · subst hb
      rw [hgone]
      simp
    · show ((t.instances.erase a).lookup b).map _ = some j ↔ _
      rw [hkept b hb]
      exact ⟨fun h => ⟨hb, h⟩, fun h => h.2⟩
  refine ⟨?_, h.freshRun, ?_, ?_, ?_, h.alone⟩
  · intro b j hb
    exact h.fresh b j ((hindex b j).mp hb).2
  · intro b c j hb hc
    exact h.distinct b c j ((hindex b j).mp hb).2 ((hindex c j).mp hc).2
  · intro j
    show j ∈ t.slots.erase i ↔ _
    rw [Finset.mem_erase, h.slots]
    constructor
    · rintro ⟨hne, b, hb⟩
      refine ⟨b, (hindex b j).mpr ⟨?_, hb⟩⟩
      rintro rfl
      rw [hi] at hb
      exact hne (Option.some.inj hb).symm
    · rintro ⟨b, hb⟩
      obtain ⟨hne, hold⟩ := (hindex b j).mp hb
      refine ⟨?_, b, hold⟩
      rintro rfl
      exact hne (h.distinct b a j hold hi)
  · intro r x hr
    show ((t.instances.erase a).lookup x.instance').any _ = true
    rw [hkept _ (hrun r x hr)]
    exact h.borrowed r x hr

theorem dropArc_inv {t : Tables} (h : Inv t) (a : Nat) : Inv (t.dropArc a) := by
  rcases dropArc_cases t a with heq | heq | ⟨i, hi, hrun, heq⟩
  · rw [heq]; exact h
  · rw [heq]
    apply update_inv h <;> exact fun _ => rfl
  · rw [heq]; exact remove_inv h hi hrun

/-- The flag `start` sets, and the one the end of a run clears. -/
def setBusy (b : Bool) (s : Shared) : Shared := { s with instance' := { s.instance' with busy := b } }

/-- A start marks the instance busy; it makes a run if the instance was not. -/
theorem start_cases (t : Tables) (a : Nat) :
    (indexOf t a = none ∧ t.start a = (none, t)) ∨
      (busy t a = true ∧ t.start a = (none, t.update a (setBusy true))) ∨
      (busy t a = false ∧ (∃ i, indexOf t a = some i) ∧ t.start a = (some t.next,
        { t.update a (setBusy true) with runs := t.runs.insert t.next ⟨a, false⟩, next := t.next + 1 })) := by
  unfold Tables.start
  split
  · rename_i hnone
    exact .inl ⟨by rw [indexOf, hnone]; rfl, rfl⟩
  · rename_i s hs
    dsimp only
    split
    · rename_i hb
      exact .inr (.inl ⟨by rw [busy, hs]; exact hb, rfl⟩)
    · rename_i hb
      refine .inr (.inr ⟨?_, ⟨s.instance'.index, by rw [indexOf, hs]; rfl⟩, ?_⟩)
      · rw [busy, hs]
        exact Bool.eq_false_iff.mpr hb
      · rw [update_runs]
        rfl

theorem busy_setBusy {t : Tables} {a : Nat} {i : UInt16} (hi : indexOf t a = some i) (b : Bool) :
    busy (t.update a (setBusy b)) a = b := by
  obtain ⟨s, hs, -⟩ := Option.map_eq_some_iff.mp hi
  rw [busy, lookup_update, if_pos rfl, hs]
  rfl

/-- Marking a busy instance busy. -/
theorem busy_setBusy_true {t : Tables} {a b : Nat} (h : busy t b = true) :
    busy (t.update a (setBusy true)) b = true := by
  by_cases hb : b = a
  · subst hb
    obtain ⟨i, hi⟩ := indexOf_isSome_of_busy h
    exact busy_setBusy hi true
  · rw [busy_update_of_ne t hb]
    exact h

theorem setBusy_true_inv {t : Tables} (h : Inv t) (a : Nat) : Inv (t.update a (setBusy true)) := by
  refine ⟨?_, ?_, ?_, ?_, ?_, ?_⟩ <;>
    simp only [indexOf_update (f := setBusy true) fun _ => rfl, update_runs, update_slots, update_next]
  · exact h.fresh
  · exact h.freshRun
  · exact h.distinct
  · exact h.slots
  · exact fun r x hr => busy_setBusy_true (h.borrowed r x hr)
  · exact h.alone

/-- A run's lookup after another is started. -/
theorem lookup_insert_run {t : Tables} (x : Run) (r : Nat) :
    (t.runs.insert t.next x).lookup r = if r = t.next then some x else t.runs.lookup r := by
  split
  · rename_i hr
    rw [hr, AList.lookup_insert]
  · rename_i hr
    exact AList.lookup_insert_ne hr

/-- A free instance has no run, so its new one is its only one. -/
theorem start_inv {t : Tables} (h : Inv t) (a : Nat) : Inv (t.start a).2 := by
  rcases start_cases t a with ⟨-, heq⟩ | ⟨-, heq⟩ | ⟨hfree, ⟨i, hi⟩, heq⟩
  · rw [heq]; exact h
  · rw [heq]; exact setBusy_true_inv h a
  · have h' := setBusy_true_inv h a
    have hother : ∀ r x, t.runs.lookup r = some x → x.instance' ≠ a := by
      rintro r x hr rfl
      rw [h.borrowed r x hr] at hfree
      cases hfree
    rw [heq]
    refine ⟨?_, ?_, h'.distinct, h'.slots, ?_, ?_⟩
    · intro b j hb
      have := h'.fresh b j hb
      rw [update_next] at this
      show b < t.next + 1
      omega
    · intro r x hr
      show r < t.next + 1
      have hr : (t.runs.insert t.next ⟨a, false⟩).lookup r = some x := hr
      rw [lookup_insert_run] at hr
      split at hr
      · omega
      · have := h.freshRun r x hr
        omega
    · intro r x hr
      have hr : (t.runs.insert t.next ⟨a, false⟩).lookup r = some x := hr
      show busy (t.update a (setBusy true)) x.instance' = true
      rw [lookup_insert_run] at hr
      split at hr
      · obtain rfl := Option.some.inj hr
        exact busy_setBusy hi true
      · exact busy_setBusy_true (h.borrowed r x hr)
    · intro r r' x x' hr hr' hx
      have hr : (t.runs.insert t.next ⟨a, false⟩).lookup r = some x := hr
      have hr' : (t.runs.insert t.next ⟨a, false⟩).lookup r' = some x' := hr'
      rw [lookup_insert_run] at hr hr'
      split at hr <;> split at hr'
      · omega
      · obtain rfl := Option.some.inj hr
        exact absurd hx.symm (hother r' x' hr')
      · obtain rfl := Option.some.inj hr'
        exact absurd hx (hother r x hr)
      · exact h.alone r r' x x' hr hr' hx

/-- One more run of an instance. -/
def addRun (s : Shared) : Shared := { s with instance' := { s.instance' with runs := s.instance'.runs + 1 } }

theorem underway_cases (t : Tables) (r : Nat) :
    (t.underway r = (none, t) ∧ ∀ x, t.runs.lookup r = some x → x.underway = true) ∨
      ∃ a n, t.runs.lookup r = some ⟨a, false⟩ ∧ t.underway r =
        (n, { t.update a addRun with runs := t.runs.insert r ⟨a, true⟩ }) := by
  unfold Tables.underway
  split
  · rename_i run hrun
    obtain ⟨a, u⟩ := run
    cases u with
    | true => exact .inl ⟨rfl, fun x hx => by rw [hrun] at hx; rw [← Option.some.inj hx]⟩
    | false =>
      refine .inr ⟨a, ((t.update a addRun).instances.lookup a).map (·.instance'.runs), hrun, ?_⟩
      dsimp only
      rw [if_neg (by decide), update_runs]
      rfl
  · rename_i hnone
    exact .inl ⟨rfl, fun x hx => by rw [hnone] at hx; cases hx⟩

theorem underway_inv {t : Tables} (h : Inv t) (r : Nat) : Inv (t.underway r).2 := by
  rcases underway_cases t r with ⟨heq, -⟩ | ⟨a, n, hr, heq⟩
  · rw [heq]; exact h
  · have h' : Inv (t.update a addRun) := update_inv h (f := addRun) (fun _ => rfl) (fun _ => rfl) a
    -- a run keeps its instance
    have hsame : ∀ r' x, (t.runs.insert r ⟨a, true⟩).lookup r' = some x →
        ∃ y, t.runs.lookup r' = some y ∧ y.instance' = x.instance' := by
      intro r' x hx
      by_cases hne : r' = r
      · subst hne
        rw [AList.lookup_insert] at hx
        obtain rfl := Option.some.inj hx
        exact ⟨_, hr, rfl⟩
      · rw [AList.lookup_insert_ne hne] at hx
        exact ⟨x, hx, rfl⟩
    rw [heq]
    refine ⟨h'.fresh, ?_, h'.distinct, h'.slots, ?_, ?_⟩
    · intro r' x hx
      obtain ⟨y, hy, -⟩ := hsame r' x hx
      exact h'.freshRun r' y (by rw [update_runs]; exact hy)
    · intro r' x hx
      obtain ⟨y, hy, heq⟩ := hsame r' x hx
      rw [← heq]
      exact h'.borrowed r' y (by rw [update_runs]; exact hy)
    · intro r₁ r₂ x₁ x₂ h₁ h₂ hx
      obtain ⟨y₁, hy₁, heq₁⟩ := hsame r₁ x₁ h₁
      obtain ⟨y₂, hy₂, heq₂⟩ := hsame r₂ x₂ h₂
      exact h.alone r₁ r₂ y₁ y₂ hy₁ hy₂ (by rw [heq₁, heq₂, hx])

theorem finish_cases (t : Tables) (r : Nat) :
    t.finish r = t ∨ ∃ x, t.runs.lookup r = some x ∧
      t.finish r = { t.update x.instance' (setBusy false) with runs := t.runs.erase r } := by
  unfold Tables.finish
  split
  · rename_i x hx
    exact .inr ⟨x, hx, rfl⟩
  · exact .inl rfl

/-- The run that ends was its instance's only one. -/
theorem finish_inv {t : Tables} (h : Inv t) (r : Nat) : Inv (t.finish r) := by
  rcases finish_cases t r with heq | ⟨x, hx, heq⟩
  · rw [heq]; exact h
  · have hleft : ∀ r' y, (t.runs.erase r).lookup r' = some y → r' ≠ r ∧ t.runs.lookup r' = some y := by
      intro r' y hy
      have hne : r' ≠ r := by
        rintro rfl
        rw [AList.lookup_erase] at hy
        cases hy
      rw [AList.lookup_erase_ne hne] at hy
      exact ⟨hne, hy⟩
    have hindex : ∀ a, indexOf (t.update x.instance' (setBusy false)) a = indexOf t a :=
      indexOf_update (f := setBusy false) (fun _ => rfl) t _
    rw [heq]
    refine ⟨?_, ?_, ?_, ?_, ?_, ?_⟩
    · intro a i ha
      show a < (t.update x.instance' (setBusy false)).next
      rw [update_next]
      exact h.fresh a i (by rw [← hindex a]; exact ha)
    · intro r' y hy
      show r' < (t.update x.instance' (setBusy false)).next
      rw [update_next]
      exact h.freshRun r' y (hleft r' y hy).2
    · intro a b i ha hb
      exact h.distinct a b i (by rw [← hindex a]; exact ha) (by rw [← hindex b]; exact hb)
    · intro i
      show i ∈ (t.update x.instance' (setBusy false)).slots ↔
        ∃ a, indexOf (t.update x.instance' (setBusy false)) a = some i
      simp only [update_slots, hindex]
      exact h.slots i
    · intro r' y hy
      obtain ⟨hne, hy⟩ := hleft r' y hy
      show busy (t.update x.instance' (setBusy false)) y.instance' = true
      rw [busy_update_of_ne t fun heq => hne (h.alone r' r y x hy hx heq)]
      exact h.borrowed r' y hy
    · intro r₁ r₂ y₁ y₂ h₁ h₂ heq
      exact h.alone r₁ r₂ y₁ y₂ (hleft r₁ y₁ h₁).2 (hleft r₂ y₂ h₂).2 heq

/-- Every operation keeps the tables in order while no more than 65536
instances are alive. -/
theorem step_inv {t : Tables} (h : Inv t) (e : Tables.Event) (hc : count (t.step e) ≤ 65536) :
    Inv (t.step e) := by
  cases e with
  | default => exact default_inv h hc
  | forLine key =>
    show Inv (t.forLine key).2
    rcases forLine_cases t key with ⟨a, lines, heq⟩ | ⟨lines, heq⟩
    · rw [heq]; exact lines_inv (clone_inv h a) lines
    · have hc : count (t.forLine key).2 ≤ 65536 := hc
      rw [heq] at hc ⊢
      exact lines_inv (default_inv h hc) lines
  | clone a => exact clone_inv h a
  | dropArc a => exact dropArc_inv h a
  | start a => exact start_inv h a
  | underway r => exact underway_inv h r
  | finish r => exact finish_inv h r

/-! ## What an operation makes of each instance -/

/-- The run that gets under way in a step, and its instance. -/
def begins (t : Tables) : Tables.Event → Option (Nat × Nat)
  | .underway r =>
    match t.runs.lookup r with
    | some x => if x.underway then none else some (r, x.instance')
    | none => none
  | _ => none

structure Exact (t : Tables) (e : Tables.Event) : Prop where
  /-- A new instance takes the lowest free index and has had no run. -/
  created : ∀ a i, indexOf t a = none → indexOf (t.step e) a = some i →
    (∀ b, indexOf t b ≠ some i) ∧ (∀ j < i, ∃ b, indexOf t b = some j) ∧ runsOf (t.step e) a = some 0
  /-- An instance keeps its index. -/
  kept : ∀ a i j, indexOf t a = some i → indexOf (t.step e) a = some j → j = i
  /-- Its run number is one more where a run of it gets under way, and only there. -/
  counted : ∀ a n m, runsOf t a = some n → runsOf (t.step e) a = some m →
    m = if (begins t e).any (·.2 == a) then n + 1 else n

theorem runsOf_update {f : Shared → Shared} (hf : ∀ s, (f s).instance'.runs = s.instance'.runs)
    (t : Tables) (a b : Nat) : runsOf (t.update a f) b = runsOf t b :=
  map_update _ hf t a b

/-- A step that makes no instance and counts no run. -/
theorem exact_of_le {t : Tables} {e : Tables.Event} (hb : begins t e = none)
    (hi : ∀ a i, indexOf (t.step e) a = some i → indexOf t a = some i)
    (hr : ∀ a n, runsOf (t.step e) a = some n → runsOf t a = some n) : Exact t e := by
  refine ⟨?_, ?_, ?_⟩
  · intro a i hnone hnew
    rw [hi a i hnew] at hnone
    cases hnone
  · intro a i j hold hnew
    rw [hi a j hnew] at hold
    exact Option.some.inj hold
  · intro a n m hold hnew
    rw [hr a m hnew] at hold
    rw [hb]
    exact Option.some.inj hold

theorem exact_of_update {t : Tables} {e : Tables.Event} (hb : begins t e = none) {a : Nat}
    {f : Shared → Shared} (hf : ∀ s, (f s).instance'.index = s.instance'.index)
    (hf' : ∀ s, (f s).instance'.runs = s.instance'.runs)
    (h : (t.step e).instances = (t.update a f).instances) : Exact t e := by
  refine exact_of_le hb (fun b i hi => ?_) (fun b n hn => ?_)
  · rw [indexOf, h] at hi
    rw [← indexOf_update hf t a b]
    exact hi
  · rw [runsOf, h] at hn
    rw [← runsOf_update hf' t a b]
    exact hn

theorem exact_of_same {t : Tables} {e : Tables.Event} (hb : begins t e = none)
    (h : (t.step e).instances = t.instances) : Exact t e := by
  refine exact_of_le hb (fun a i hi => ?_) (fun a n hn => ?_)
  · rw [indexOf, h] at hi
    exact hi
  · rw [runsOf, h] at hn
    exact hn

/-- A step that makes an instance. -/
theorem exact_of_default {t : Tables} (h : Inv t) {e : Tables.Event} (hb : begins t e = none)
    (hc : count (t.step e) ≤ 65536) (heq : (t.step e).instances = t.default.2.instances) : Exact t e := by
  have hindex : ∀ a, indexOf (t.step e) a =
      if a = t.next then some (lowestFree t.slots) else indexOf t a := fun a => by
    rw [indexOf, heq]
    exact indexOf_default t a
  have hcard : t.slots.card < 65536 := by
    have := card_slots_le h
    have := count_default h
    have hc : count t.default.2 ≤ 65536 := by
      show t.default.2.instances.keys.length ≤ 65536
      rw [← heq]
      exact hc
    omega
  obtain ⟨hfree, hleast⟩ := lowestFree_spec hcard
  refine ⟨?_, ?_, ?_⟩
  · intro a i hnone hnew
    rw [hindex] at hnew
    split at hnew
    · rename_i ha
      obtain rfl := Option.some.inj hnew
      refine ⟨fun b hb => hfree ((h.slots _).mpr ⟨b, hb⟩), fun j hj => (h.slots j).mp (hleast j hj), ?_⟩
      rw [runsOf, heq, lookup_default, if_pos ha]
      rfl
    · rw [hnew] at hnone
      cases hnone
  · intro a i j hold hnew
    rw [hindex, if_neg (Nat.ne_of_lt (h.fresh a i hold)), hold] at hnew
    exact (Option.some.inj hnew).symm
  · intro a n m hold hnew
    have hne : a ≠ t.next := by
      rintro rfl
      have hnone := indexOf_next h
      obtain ⟨s, hs, -⟩ := Option.map_eq_some_iff.mp hold
      rw [indexOf, hs] at hnone
      cases hnone
    rw [runsOf, heq, lookup_default, if_neg hne] at hnew
    have hnew : runsOf t a = some m := hnew
    rw [hnew] at hold
    rw [hb]
    exact Option.some.inj hold

theorem exact_underway (t : Tables) (r : Nat) : Exact t (.underway r) := by
  rcases underway_cases t r with ⟨heq, hall⟩ | ⟨a, n, hr, heq⟩
  · have hb : begins t (.underway r) = none := by
      simp only [begins]
      split
      · rename_i x hx
        rw [if_pos (hall x hx)]
      · rfl
    refine exact_of_same hb ?_
    show (t.underway r).2.instances = _
    rw [heq]
  · have hb : begins t (.underway r) = some (r, a) := by
      simp only [begins, hr]
      rfl
    have hinst : (t.step (.underway r)).instances = (t.update a addRun).instances := by
      show (t.underway r).2.instances = _
      rw [heq]
    have hindex : ∀ b, indexOf (t.step (.underway r)) b = indexOf t b := fun b => by
      rw [indexOf, hinst]
      exact indexOf_update (f := addRun) (fun _ => rfl) t a b
    refine ⟨?_, ?_, ?_⟩
    · intro b i hnone hnew
      rw [hindex, hnone] at hnew
      cases hnew
    · intro b i j hold hnew
      rw [hindex, hold] at hnew
      exact (Option.some.inj hnew).symm
    · intro b n m hold hnew
      rw [runsOf, hinst, lookup_update] at hnew
      rw [hb]
      show m = if (a == b) = true then n + 1 else n
      obtain ⟨s, hs, hn⟩ := Option.map_eq_some_iff.mp hold
      split at hnew
      · rename_i hba
        subst hba
        rw [hs] at hnew
        rw [if_pos (beq_self_eq_true b), ← hn]
        exact (Option.some.inj hnew).symm
      · rename_i hne
        rw [hs] at hnew
        rw [if_neg (by simpa using Ne.symm hne), ← hn]
        exact (Option.some.inj hnew).symm

theorem step_exact {t : Tables} (h : Inv t) (e : Tables.Event) (hc : count (t.step e) ≤ 65536) :
    Exact t e := by
  cases e with
  | default => exact exact_of_default h rfl hc rfl
  | forLine key =>
    rcases forLine_cases t key with ⟨a, lines, heq⟩ | ⟨lines, heq⟩
    · have hinst : (t.step (.forLine key)).instances = (t.clone a).instances := by
        show (t.forLine key).2.instances = _
        rw [heq]
      refine exact_of_update rfl ?_ ?_ hinst <;> exact fun _ => rfl
    · refine exact_of_default h rfl hc ?_
      show (t.forLine key).2.instances = _
      rw [heq]
  | clone a =>
    have hinst : (t.step (.clone a)).instances = (t.clone a).instances := rfl
    refine exact_of_update rfl ?_ ?_ hinst <;> exact fun _ => rfl
  | dropArc a =>
    rcases dropArc_cases t a with heq | heq | ⟨i, hi, -, heq⟩
    · exact exact_of_same rfl (congrArg Tables.instances heq)
    · refine exact_of_update rfl ?_ ?_ (congrArg Tables.instances heq) <;> exact fun _ => rfl
    · -- what is left was there
      have hleft : ∀ b s, (t.step (.dropArc a)).instances.lookup b = some s → t.instances.lookup b = some s := by
        intro b s hs
        have hs : (t.dropArc a).instances.lookup b = some s := hs
        rw [heq] at hs
        have hs : (t.instances.erase a).lookup b = some s := hs
        by_cases hb : b = a
        · rw [hb, AList.lookup_erase] at hs
          cases hs
        · rwa [AList.lookup_erase_ne hb] at hs
      refine exact_of_le rfl (fun b j hj => ?_) (fun b n hn => ?_)
      · obtain ⟨s, hs, hj⟩ := Option.map_eq_some_iff.mp hj
        rw [indexOf, hleft b s hs, Option.map_some, hj]
      · obtain ⟨s, hs, hn⟩ := Option.map_eq_some_iff.mp hn
        rw [runsOf, hleft b s hs, Option.map_some, hn]
  | start a =>
    have hinst : (t.step (.start a)).instances = t.instances ∨
        (t.step (.start a)).instances = (t.update a (setBusy true)).instances := by
      show (t.start a).2.instances = _ ∨ (t.start a).2.instances = _
      rcases start_cases t a with ⟨-, heq⟩ | ⟨-, heq⟩ | ⟨-, -, heq⟩
      · exact .inl (by rw [heq])
      · exact .inr (by rw [heq])
      · exact .inr (by rw [heq])
    rcases hinst with hinst | hinst
    · exact exact_of_same rfl hinst
    · refine exact_of_update rfl ?_ ?_ hinst <;> exact fun _ => rfl
  | underway r => exact exact_underway t r
  | finish r =>
    rcases finish_cases t r with heq | ⟨x, -, heq⟩
    · exact exact_of_same rfl (congrArg Tables.instances heq)
    · have hinst : (t.step (.finish r)).instances = (t.update x.instance' (setBusy false)).instances := by
        show (t.finish r).instances = _
        rw [heq]
      refine exact_of_update rfl ?_ ?_ hinst <;> exact fun _ => rfl

/-! ## Runs get under way once -/

/-- The runs that get under way, in order. -/
def begun (t : Tables) : List Tables.Event → List Nat
  | [] => []
  | e :: es => ((begins t e).map Prod.fst).toList ++ begun (t.step e) es

/-- A run that may yet get under way. -/
def MayBegin (t : Tables) (r : Nat) : Prop := t.next ≤ r ∨ (t.runs.lookup r).any (!·.underway) = true

theorem begins_eq_some {t : Tables} {e : Tables.Event} {r a : Nat} (h : begins t e = some (r, a)) :
    e = .underway r ∧ t.runs.lookup r = some ⟨a, false⟩ := by
  unfold begins at h
  split at h
  · split at h
    · rename_i x hx
      split at h
      · cases h
      · rename_i hu
        obtain ⟨rfl, rfl⟩ := Prod.mk.inj (Option.some.inj h)
        refine ⟨rfl, ?_⟩
        rw [hx]
        obtain ⟨b, u⟩ := x
        cases u with
        | true => exact absurd rfl hu
        | false => rfl
    · cases h
  · cases h

/-- A run that may yet get under way after a step might have before it. -/
theorem mayBegin_of_step {t : Tables} {e : Tables.Event} {r : Nat} (h : MayBegin (t.step e) r) :
    MayBegin t r := by
  have hsame : ∀ t' : Tables, t'.next = t.next → t'.runs = t.runs → MayBegin t' r → MayBegin t r := by
    intro t' hnext hruns h
    unfold MayBegin at h ⊢
    rwa [hnext, hruns] at h
  have hnew : ∀ t' : Tables, t'.next = t.next + 1 → t'.runs = t.runs → MayBegin t' r → MayBegin t r := by
    intro t' hnext hruns h
    unfold MayBegin at h ⊢
    rw [hnext, hruns] at h
    exact h.imp_left (by omega)
  cases e with
  | default => exact hnew t.default.2 rfl rfl h
  | forLine key =>
    have h : MayBegin (t.forLine key).2 r := h
    rcases forLine_cases t key with ⟨a, lines, heq⟩ | ⟨lines, heq⟩
    · rw [heq] at h
      exact hsame _ (update_next ..) (update_runs ..) h
    · rw [heq] at h
      exact hnew { t.default.2 with lines } rfl rfl h
  | clone a => exact hsame (t.clone a) (update_next ..) (update_runs ..) h
  | dropArc a =>
    have h : MayBegin (t.dropArc a) r := h
    rcases dropArc_cases t a with heq | heq | ⟨i, -, -, heq⟩ <;> rw [heq] at h
    · exact h
    · exact hsame _ (update_next ..) (update_runs ..) h
    · exact hsame _ rfl rfl h
  | start a =>
    have h : MayBegin (t.start a).2 r := h
    rcases start_cases t a with ⟨-, heq⟩ | ⟨-, heq⟩ | ⟨-, -, heq⟩ <;> rw [heq] at h
    · exact h
    · exact hsame _ (update_next ..) (update_runs ..) h
    · rcases h with h | h
      · exact .inl (Nat.le_of_succ_le h)
      · have h : ((t.runs.insert t.next ⟨a, false⟩).lookup r).any (!·.underway) = true := h
        rw [lookup_insert_run] at h
        split at h
        · exact .inl (by omega)
        · exact .inr h
  | underway r' =>
    have h : MayBegin (t.underway r').2 r := h
    rcases underway_cases t r' with ⟨heq, -⟩ | ⟨a, n, -, heq⟩ <;> rw [heq] at h
    · exact h
    · rcases h with h | h
      · have h : (t.update a addRun).next ≤ r := h
        rw [update_next] at h
        exact .inl h
      · have h : ((t.runs.insert r' ⟨a, true⟩).lookup r).any (!·.underway) = true := h
        by_cases hr : r = r'
        · rw [hr, AList.lookup_insert] at h
          cases h
        · rw [AList.lookup_insert_ne hr] at h
          exact .inr h
  | finish r' =>
    have h : MayBegin (t.finish r') r := h
    rcases finish_cases t r' with heq | ⟨x, -, heq⟩ <;> rw [heq] at h
    · exact h
    · rcases h with h | h
      · have h : (t.update x.instance' (setBusy false)).next ≤ r := h
        rw [update_next] at h
        exact .inl h
      · have h : ((t.runs.erase r').lookup r).any (!·.underway) = true := h
        by_cases hr : r = r'
        · rw [hr, AList.lookup_erase] at h
          cases h
        · rw [AList.lookup_erase_ne hr] at h
          exact .inr h

theorem not_mayBegin_of_begins {t : Tables} (h : Inv t) {e : Tables.Event} {r a : Nat}
    (hb : begins t e = some (r, a)) : ¬ MayBegin (t.step e) r := by
  obtain ⟨rfl, hr⟩ := begins_eq_some hb
  rcases underway_cases t r with ⟨-, hall⟩ | ⟨b, n, -, heq⟩
  · exact absurd (hall _ hr) Bool.false_ne_true
  · show ¬ MayBegin (t.underway r).2 r
    rw [heq]
    rintro (hle | hany)
    · have hle : (t.update b addRun).next ≤ r := hle
      rw [update_next] at hle
      exact Nat.not_le_of_lt (h.freshRun r _ hr) hle
    · have hany : ((t.runs.insert r ⟨b, true⟩).lookup r).any (!·.underway) = true := hany
      rw [AList.lookup_insert] at hany
      cases hany

/-- No run gets under way twice. -/
theorem begun_nodup {t : Tables} {es : List Tables.Event} (h : Always Tables.step Inv t es) :
    (begun t es).Nodup ∧ ∀ r ∈ begun t es, MayBegin t r := by
  induction es generalizing t with
  | nil => exact ⟨List.nodup_nil, fun r hr => absurd hr List.not_mem_nil⟩
  | cons e es ih =>
    obtain ⟨hnd, hmay⟩ := ih h.2
    have hold : ∀ r ∈ begun (t.step e) es, MayBegin t r := fun r hr => mayBegin_of_step (hmay r hr)
    unfold begun
    cases hb : begins t e with
    | none => exact ⟨hnd, hold⟩
    | some p =>
      obtain ⟨r, a⟩ := p
      show (r :: begun (t.step e) es).Nodup ∧ _
      refine ⟨List.nodup_cons.mpr ⟨fun hmem => not_mayBegin_of_begins h.1 hb (hmay r hmem), hnd⟩, ?_⟩
      intro r' hr'
      rcases List.mem_cons.mp hr' with rfl | hr'
      · refine .inr ?_
        rw [(begins_eq_some hb).2]
        rfl
      · exact hold r' hr'

/-! ## Every sequence -/

/-- The slots in use are the live instances' indexes, which are distinct, and
no instance has two runs in progress. -/
structure Sound (t : Tables) : Prop where
  distinct : ∀ a b i, indexOf t a = some i → indexOf t b = some i → a = b
  slots : ∀ i, i ∈ t.slots ↔ ∃ a, indexOf t a = some i
  oneRun : ∀ r r' x x', t.runs.lookup r = some x → t.runs.lookup r' = some x' →
    x.instance' = x'.instance' → r = r'

/-- A line delivered twice, its run refused while another is in progress, then
counted; a one-off of the next slot, whose slot another line takes. -/
def deliveries : List Tables.Event :=
  let key : LineKey := ⟨5004, "193.0.14.129", 4, { parisMod := 16 }, 900, 1000⟩
  [.forLine key, .forLine key, .start 0, .start 0, .underway 1, .default, .dropArc 0, .dropArc 0,
    .finish 1, .dropArc 2, .forLine { key with af := 6 }, .start 0, .underway 4, .finish 4, .dropArc 0]

end Starla.Proof.Traceroute.Instances
