import Mathlib.Data.Finset.Card
import Starla.Framework.Marking
import Starla.Impl.Scheduler.Lines

/-!
# Synchronizing a crontab's lines

`Lines::synchronize` against eperd's pass over its line list: mark the file's
lines, insert the crontab's, delete what is still marked (`eperdPass`). The
code takes the file's lines out of the map instead, and puts back those the
crontab claims.

* `insertLine_sim` : one line of the crontab, on both sides.
* `insertLine_counted` : the counts by the keys seen so far.
* `synchronize_spec` : the whole, entry by entry and count by count.
-/

namespace Starla.Proof.Scheduler

open Starla.Framework Starla.Impl.Scheduler

variable {S : Type}

/-- eperd's pass for a file: its items are the crontab's lines, each with its
place, by which it draws. -/
def eperdPass (file : String) (now : Int) (draw : Nat → Nat) :
    MarkingPass LineKey (ScheduledTask S) (CrontabLine S × Nat) where
  inPart := (·.inFile file)
  key i := i.1.key file
  fresh i := start i.1.job now (draw i.2)
  again task i := task.takeEndTime i.1.job.endTime now (draw i.2)
  key_inPart i := by simp [CrontabLine.key, LineKey.inFile]

section
variable (file : String) (now : Int) (draw : Nat → Nat)

theorem eperdPass_inPart (k : LineKey) :
    (eperdPass file now draw : MarkingPass _ (ScheduledTask S) _).inPart k = k.inFile file := rfl

theorem eperdPass_key (i : CrontabLine S × Nat) : (eperdPass file now draw).key i = i.1.key file := rfl

theorem eperdPass_fresh (i : CrontabLine S × Nat) :
    (eperdPass file now draw).fresh i = start i.1.job now (draw i.2) := rfl

theorem eperdPass_again (task : ScheduledTask S) (i : CrontabLine S × Nat) :
    (eperdPass file now draw).again task i = task.takeEndTime i.1.job.endTime now (draw i.2) := rfl

end

/-- The keys a crontab lists. -/
def listed (crontab : Crontab S) : List LineKey := crontab.lines.map (·.key crontab.file)

/-- The occurrences of a key in a crontab, with their places. -/
def occurrences (crontab : Crontab S) (k : LineKey) : List (CrontabLine S × Nat) :=
  crontab.lines.zipIdx.filter fun i => i.1.key crontab.file = k

/-! ## One line -/

section
variable {file : String} {now : Int} {draw : Nat → Nat} {s : Lines.Synchronizing S}

/-- The task a line of the crontab leaves under its key. -/
def claimed (now : Int) (s : Lines.Synchronizing S) (key : LineKey) (l : CrontabLine S) (d : Nat) :
    ScheduledTask S :=
  match s.old.lookup key <|> s.lines.lookup key with
  | some task => task.takeEndTime l.job.endTime now d
  | none => start l.job now d

theorem insertLine_old (l : CrontabLine S) (d : Nat) :
    (Lines.insertLine file now s l d).old = s.old.erase (l.key file) := by
  unfold Lines.insertLine
  simp only
  split <;> rfl

theorem insertLine_lines (l : CrontabLine S) (d : Nat) :
    (Lines.insertLine file now s l d).lines =
      s.lines.insert (l.key file) (claimed now s (l.key file) l d) := by
  unfold Lines.insertLine claimed
  cases h : s.old.lookup (l.key file) <|> s.lines.lookup (l.key file) <;> simp only [h]

theorem insertLine_counts (l : CrontabLine S) (d : Nat) :
    (Lines.insertLine file now s l d).counts =
      match s.old.lookup (l.key file), s.lines.lookup (l.key file) with
      | some _, _ => { s.counts with kept := s.counts.kept + 1 }
      | none, some _ => s.counts
      | none, none => { s.counts with added := s.counts.added + 1 } := by
  unfold Lines.insertLine
  cases ho : s.old.lookup (l.key file) <;> cases hl : s.lines.lookup (l.key file) <;> simp [ho, hl]

/-- The code's maps hold what the marked table holds: the lines put back are
its unmarked entries, the others its marked ones. -/
structure Sim (s : Lines.Synchronizing S) (st : LineKey → Option (Marked (ScheduledTask S))) : Prop where
  entry : ∀ k, st k = ((s.lines.lookup k).map (⟨·, false⟩)).or ((s.old.lookup k).map (⟨·, true⟩))
  disjoint : ∀ k, (s.old.lookup k).isSome → s.lines.lookup k = none

theorem insertLine_sim {st : LineKey → Option (Marked (ScheduledTask S))} (h : Sim s st)
    (i : CrontabLine S × Nat) :
    Sim (Lines.insertLine file now s i.1 (draw i.2)) ((eperdPass file now draw).insert st i) := by
  constructor
  · intro k
    rw [insertLine_lines, insertLine_old, MarkingPass.insert]
    by_cases hk : k = i.1.key file
    · subst hk
      simp only [eperdPass_key, eperdPass_again, eperdPass_fresh, Function.update_self, h.entry,
        AList.lookup_insert, claimed, Option.map_some, Option.some_or]
      have hd := h.disjoint (i.1.key file)
      cases ho : s.old.lookup (i.1.key file) with
      | none => cases s.lines.lookup (i.1.key file) <;> rfl
      | some t => rw [hd (by rw [ho]; rfl)]; rfl
    · rw [AList.lookup_insert_ne hk, AList.lookup_erase_ne hk, ← h.entry]
      exact Function.update_of_ne hk _ _
  · intro k
    rw [insertLine_lines, insertLine_old]
    by_cases hk : k = i.1.key file
    · subst hk
      rw [AList.lookup_erase]
      exact fun h => by cases h
    · rw [AList.lookup_insert_ne hk, AList.lookup_erase_ne hk]
      exact h.disjoint k

/-- The maps and the counts by the keys seen so far. -/
structure Counted (m : Assoc LineKey (ScheduledTask S)) (file : String) (seen : Finset LineKey)
    (s : Lines.Synchronizing S) : Prop where
  old : ∀ k, s.old.lookup k = if k.inFile file && k ∉ seen then m.lookup k else none
  here : ∀ k ∈ seen, (s.lines.lookup k).isSome
  notYet : ∀ k, k.inFile file = true → k ∉ seen → s.lines.lookup k = none
  kept : s.counts.kept = (seen.filter fun k => (m.lookup k).isSome).card
  added : s.counts.added = (seen.filter fun k => (m.lookup k).isNone).card

theorem insertLine_counted (now : Int) {m : Assoc LineKey (ScheduledTask S)} {seen : Finset LineKey}
    (h : Counted m file seen s) (l : CrontabLine S) (d : Nat) :
    Counted m file (insert (l.key file) seen) (Lines.insertLine file now s l d) := by
  have hin : (l.key file).inFile file = true := by simp [CrontabLine.key, LineKey.inFile]
  refine { old := fun k => ?_, here := fun k hk => ?_, notYet := fun k hk hn => ?_, kept := ?_, added := ?_ }
  · rw [insertLine_old]
    by_cases hk : k = l.key file
    · subst hk; simp
    · rw [AList.lookup_erase_ne hk, h.old]; simp [hk]
  · rw [insertLine_lines]
    by_cases hk' : k = l.key file
    · subst hk'; rw [AList.lookup_insert]; rfl
    · rw [AList.lookup_insert_ne hk']
      exact h.here k ((Finset.mem_insert.mp hk).resolve_left hk')
  · rw [Finset.mem_insert, not_or] at hn
    rw [insertLine_lines, AList.lookup_insert_ne hn.1]
    exact h.notYet k hk hn.2
  all_goals
    rw [insertLine_counts]
    by_cases hseen : l.key file ∈ seen
    · have ho : s.old.lookup (l.key file) = none := by rw [h.old]; simp [hseen]
      obtain ⟨t, ht⟩ := Option.isSome_iff_exists.mp (h.here _ hseen)
      rw [ho, ht, Finset.insert_eq_of_mem hseen]
      first | exact h.kept | exact h.added
    · have ho : s.old.lookup (l.key file) = m.lookup (l.key file) := by rw [h.old]; simp [hseen, hin]
      rw [ho, h.notYet _ hin hseen, Finset.filter_insert]
      cases hm : m.lookup (l.key file) with
      | none => simp [h.kept, h.added, hseen]
      | some t => simp [h.kept, h.added, hseen]

end

/-! ## The whole crontab -/

variable {self : Lines S} {crontab : Crontab S} {now : Int} {draw : Nat → Nat}

/-- The state of the loop at its end. -/
def synchronized (self : Lines S) (crontab : Crontab S) (now : Int) (draw : Nat → Nat) :
    Lines.Synchronizing S :=
  crontab.lines.zipIdx.foldl (fun s i => Lines.insertLine crontab.file now s i.1 (draw i.2))
    ⟨self.lines.filterKeys (·.inFile crontab.file), self.lines.filterKeys (!·.inFile crontab.file), {}⟩

theorem synchronize_eq : self.synchronize crontab now draw =
    ({ (synchronized self crontab now draw).counts with
      dropped := (synchronized self crontab now draw).old.entries.length },
      ⟨(synchronized self crontab now draw).lines⟩) := rfl

theorem synchronized_sim : Sim (synchronized self crontab now draw)
    (crontab.lines.zipIdx.foldl (eperdPass crontab.file now draw).insert
      ((eperdPass crontab.file now draw).mark fun k => self.lines.lookup k)) := by
  have h0 : Sim ⟨self.lines.filterKeys (·.inFile crontab.file),
      self.lines.filterKeys (!·.inFile crontab.file), {}⟩
      ((eperdPass crontab.file now draw).mark fun k => self.lines.lookup k) := by
    constructor
    · intro k
      rw [Assoc.lookup_filterKeys, Assoc.lookup_filterKeys, MarkingPass.mark, eperdPass_inPart]
      cases k.inFile crontab.file <;> cases self.lines.lookup k <;> rfl
    · intro k
      rw [Assoc.lookup_filterKeys, Assoc.lookup_filterKeys]
      cases k.inFile crontab.file <;> simp
  unfold synchronized
  generalize crontab.lines.zipIdx = items
  revert h0
  generalize (eperdPass crontab.file now draw).mark (fun k => self.lines.lookup k) = st
  generalize Lines.Synchronizing.mk _ _ _ = s
  intro h0
  induction items generalizing s st with
  | nil => exact h0
  | cons i is ih => exact ih _ _ (insertLine_sim h0 i)

theorem foldl_counted (now : Int) (draw : Nat → Nat) {m : Assoc LineKey (ScheduledTask S)} {file : String}
    (items : List (CrontabLine S × Nat)) {seen : Finset LineKey} {s : Lines.Synchronizing S}
    (h : Counted m file seen s) :
    Counted m file (seen ∪ (items.map fun i => i.1.key file).toFinset)
      (items.foldl (fun s i => Lines.insertLine file now s i.1 (draw i.2)) s) := by
  induction items generalizing seen s with
  | nil => simpa using h
  | cons i is ih =>
    have := ih (insertLine_counted now h i.1 (draw i.2))
    rw [List.map_cons, List.toFinset_cons, Finset.union_insert, ← Finset.insert_union]
    exact this

theorem synchronized_counted :
    Counted self.lines crontab.file (listed crontab).toFinset (synchronized self crontab now draw) := by
  have h0 : Counted self.lines crontab.file ∅ ⟨self.lines.filterKeys (·.inFile crontab.file),
      self.lines.filterKeys (!·.inFile crontab.file), {}⟩ := by
    refine ⟨fun k => ?_, fun k hk => absurd hk (Finset.notMem_empty k), fun k hk _ => ?_, rfl, rfl⟩
    · rw [Assoc.lookup_filterKeys]; simp
    · rw [Assoc.lookup_filterKeys, hk]; rfl
  have hkeys : (crontab.lines.zipIdx.map fun i => i.1.key crontab.file) = listed crontab := by
    rw [listed]
    nth_rewrite 2 [← List.zipIdx_map_fst 0 crontab.lines]
    rw [List.map_map]
    rfl
  have := foldl_counted now draw crontab.lines.zipIdx h0
  rwa [Finset.empty_union, hkeys] at this

/-- What `synchronize` does to a map of lines. -/
structure SynchronizesTo (lines : Lines S) (crontab : Crontab S) (now : Int) (draw : Nat → Nat)
    (counts : Synchronized) (after : Lines S) : Prop where
  /-- Entry by entry, what eperd's pass does. -/
  refines : ∀ k, after.lines.lookup k =
    (eperdPass crontab.file now draw).markInsertDelete (fun k => lines.lines.lookup k) crontab.lines.zipIdx k
  keys : ∀ k, k.inFile crontab.file = true → (k ∈ after.lines ↔ k ∈ listed crontab)
  others : ∀ k, k.inFile crontab.file = false → after.lines.lookup k = lines.lines.lookup k
  /-- A key the file had keeps its task, its end time taken once per occurrence. -/
  keeps : ∀ k task, k ∈ listed crontab → lines.lines.lookup k = some task → after.lines.lookup k =
    some ((occurrences crontab k).foldl
      (fun task i => task.takeEndTime i.1.job.endTime now (draw i.2)) task)
  /-- A key it did not have has a fresh task from its first occurrence. -/
  starts : ∀ k first rest, lines.lines.lookup k = none → occurrences crontab k = first :: rest →
    after.lines.lookup k = some (rest.foldl
      (fun task i => task.takeEndTime i.1.job.endTime now (draw i.2)) (start first.1.job now (draw first.2)))
  kept : counts.kept = ((listed crontab).toFinset.filter fun k => k ∈ lines.lines).card
  added : counts.added = ((listed crontab).toFinset.filter fun k => k ∉ lines.lines).card
  dropped : counts.dropped =
    (lines.lines.keys.toFinset.filter fun k => k.inFile crontab.file ∧ k ∉ listed crontab).card

theorem mem_listed_iff {k : LineKey} : k ∈ listed crontab ↔ occurrences crontab k ≠ [] := by
  rw [occurrences, Ne, List.filter_eq_nil_iff, listed, List.mem_map]
  constructor
  · rintro ⟨l, hl, e⟩ h
    rw [← List.zipIdx_map_fst 0 crontab.lines, List.mem_map] at hl
    obtain ⟨i, hi, rfl⟩ := hl
    exact h i hi (by simpa using e)
  · intro h
    by_contra hn
    refine h fun i hi e => hn ⟨i.1, ?_, by simpa using e⟩
    exact List.fst_mem_of_mem_zipIdx hi

theorem synchronize_refines (self : Lines S) (crontab : Crontab S) (now : Int) (draw : Nat → Nat) (k : LineKey) :
    (self.synchronize crontab now draw).2.lines.lookup k =
      (eperdPass crontab.file now draw).markInsertDelete (fun k => self.lines.lookup k) crontab.lines.zipIdx k := by
  have hsim : Sim (synchronized self crontab now draw) _ := synchronized_sim
  rw [synchronize_eq, MarkingPass.markInsertDelete, MarkingPass.delete, hsim.entry]
  cases hl : (synchronized self crontab now draw).lines.lookup k with
  | none => cases (synchronized self crontab now draw).old.lookup k <;> rfl
  | some t => rfl

theorem synchronize_keys (self : Lines S) (crontab : Crontab S) (now : Int) (draw : Nat → Nat) {k : LineKey}
    (hk : k.inFile crontab.file = true) : k ∈ (self.synchronize crontab now draw).2.lines ↔ k ∈ listed crontab := by
  have hcnt : Counted self.lines _ _ (synchronized self crontab now draw) := synchronized_counted
  rw [synchronize_eq, Assoc.mem_iff_lookup, ← List.mem_toFinset]
  constructor
  · intro h
    by_contra hn
    rw [hcnt.notYet k hk hn] at h
    cases h
  · exact hcnt.here k

theorem synchronize_others (self : Lines S) (crontab : Crontab S) (now : Int) (draw : Nat → Nat) {k : LineKey}
    (hk : k.inFile crontab.file = false) :
    (self.synchronize crontab now draw).2.lines.lookup k = self.lines.lookup k := by
  rw [synchronize_refines]
  exact MarkingPass.markInsertDelete_of_not hk

theorem synchronize_keeps (self : Lines S) (crontab : Crontab S) (now : Int) (draw : Nat → Nat) {k : LineKey}
    {task : ScheduledTask S} (hk : k ∈ listed crontab) (ht : self.lines.lookup k = some task) :
    (self.synchronize crontab now draw).2.lines.lookup k =
      some ((occurrences crontab k).foldl (fun task i => task.takeEndTime i.1.job.endTime now (draw i.2)) task) := by
  rw [synchronize_refines]
  exact MarkingPass.markInsertDelete_kept ht (mem_listed_iff.mp hk)

theorem synchronize_starts (self : Lines S) (crontab : Crontab S) (now : Int) (draw : Nat → Nat) {k : LineKey}
    {first : CrontabLine S × Nat} {rest : List (CrontabLine S × Nat)} (ht : self.lines.lookup k = none)
    (ho : occurrences crontab k = first :: rest) :
    (self.synchronize crontab now draw).2.lines.lookup k =
      some (rest.foldl (fun task i => task.takeEndTime i.1.job.endTime now (draw i.2))
        (start first.1.job now (draw first.2))) := by
  rw [synchronize_refines]
  apply MarkingPass.markInsertDelete_fresh
  · exact ht
  · exact ho

/-- `synchronize` does what eperd's pass does, and counts what it did. -/
theorem synchronize_spec (self : Lines S) (crontab : Crontab S) (now : Int) (draw : Nat → Nat) :
    SynchronizesTo self crontab now draw (self.synchronize crontab now draw).1
      (self.synchronize crontab now draw).2 := by
  have hcnt : Counted self.lines _ _ (synchronized self crontab now draw) := synchronized_counted
  refine { refines := synchronize_refines self crontab now draw,
           keys := fun k hk => synchronize_keys self crontab now draw hk,
           others := fun k hk => synchronize_others self crontab now draw hk,
           keeps := fun k task hk ht => synchronize_keeps self crontab now draw hk ht,
           starts := fun k first rest ht ho => synchronize_starts self crontab now draw ht ho,
           kept := ?_, added := ?_, dropped := ?_ }
  · rw [synchronize_eq, hcnt.kept]
    simp only [Assoc.mem_iff_lookup]
  · rw [synchronize_eq, hcnt.added]
    simp only [Assoc.mem_iff_lookup, Bool.not_eq_true, Option.isNone_iff_eq_none,
      Option.isSome_eq_false_iff]
  · have hlen : (synchronized self crontab now draw).old.entries.length =
        (synchronized self crontab now draw).old.keys.length := (List.length_map _).symm
    change (synchronized self crontab now draw).old.entries.length = _
    rw [hlen, ← List.toFinset_card_of_nodup (AList.keys_nodup _)]
    refine congrArg Finset.card (Finset.ext fun k => ?_)
    rw [List.mem_toFinset, ← AList.mem_keys, Assoc.mem_iff_lookup, hcnt.old]
    simp only [Finset.mem_filter, List.mem_toFinset, ← AList.mem_keys, Assoc.mem_iff_lookup]
    cases k.inFile crontab.file <;> by_cases hk : k ∈ listed crontab <;> simp [hk]

end Starla.Proof.Scheduler
