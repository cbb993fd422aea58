import Starla.Framework.Run
import Starla.Proof.Results.PostSchedule

/-!
# An httppost line in the upload loop

The loop waits for a line's deadline, the guard against a clock that went back
before it, and takes a cycle when the line is due. With a spread of more than
18 intervals the cycles get so far ahead of the clock that the guard fires
though the clock did not go back, and cycles are taken again.

* `isDue_iff` : due is having a next run that is not ahead.
* `firstCycle_spec` : the first cycle after a clock reading.
* `inv_take`, `inv_step` : the next slot is at most ten intervals ahead of the
  clock, so that the guard leaves it alone.
* `line_kept` : what holds over a run, where no cycle that is due has its slot
  more than nine intervals ahead.
-/

namespace Starla.Proof.Results

open Starla.Framework Starla.Impl.Results
open Starla.Impl.Scheduler (uniformOffset randomRange)

/-! ## Due, and when -/

/-- The loop's test and its deadline agree. -/
theorem isDue_iff (s : Slots) (now : Int) :
    s.isDue now = true ↔ ∃ at_, s.nextRun now = some at_ ∧ at_ ≤ now := by
  simp only [Slots.isDue, Slots.nextRun, Bool.and_eq_true, decide_eq_true_eq]
  constructor
  · rintro ⟨⟨hslot, hstart⟩, hend⟩
    have hat : max (wrap64 (s.slot s.cycle + s.offset)) s.schedule.startTime ≤ now := max_le hslot hstart
    exact ⟨_, if_pos ⟨hend, le_trans hat hend⟩, hat⟩
  · rintro ⟨at_, hnext, hat⟩
    split_ifs at hnext with h
    obtain rfl := Option.some.inj hnext
    exact ⟨⟨(max_le_iff.mp hat).1, (max_le_iff.mp hat).2⟩, h.1⟩

/-! ## Schedules and readings of the clock -/

/-- Readings far enough from the end of the 64 bits. -/
def clockLimit : Int := 2 ^ 63 - 2 ^ 31

/-- No cycle is due, at the start or after it and before the end, whose slot is
ten or more intervals after the clock's. -/
def NeverAhead (p : PostSchedule) : Prop :=
  ∀ d, 0 ≤ d → p.startTime + d ≤ p.endTime → (d + (p.spread / 2 : Nat)) / p.interval ≤ d / p.interval + 9

/-- As many intervals as that are enough for any end. -/
theorem neverAhead_of_le {p : PostSchedule} (h : p.spread / 2 ≤ 9 * p.interval) : NeverAhead p := by
  intro d _ _
  by_cases hi : p.interval = 0
  · simp [hi]
  · have hpos : (0 : Int) < p.interval := by omega
    have hle : d + (p.spread / 2 : Nat) ≤ d + 9 * p.interval := by omega
    refine (Int.ediv_le_ediv hpos hle).trans ?_
    rw [Int.add_mul_ediv_right _ _ (by omega)]

/-- A schedule `set_httppost_line` takes, its start of 64 bits. -/
structure Taken (p : PostSchedule) : Prop where
  accepted : p.accepted = true
  start64 : p.startTime < 2 ^ 63
  neverAhead : NeverAhead p

section
variable {p : PostSchedule}

theorem Taken.interval_bounds (h : Taken p) : 1 ≤ p.interval ∧ p.interval ≤ 63244800 := by
  have ha := h.accepted
  have hmax : MAX_INTERVAL = 63244800 := rfl
  simp only [PostSchedule.accepted, Bool.and_eq_true, decide_eq_true_eq] at ha
  omega

theorem Taken.start_nonneg (h : Taken p) : 0 ≤ p.startTime := by
  have ha := h.accepted
  simp only [PostSchedule.accepted, Bool.and_eq_true, decide_eq_true_eq] at ha
  exact ha.2

theorem Taken.wrap_interval (h : Taken p) : wrap64 p.interval = p.interval := by
  have := h.interval_bounds
  exact wrap64_of_mem (by omega) (by omega)

/-- A line that may run has a spread of less than 20 intervals. -/
theorem Taken.spread_lt (h : Taken p) (hend : p.startTime ≤ p.endTime) : p.spread / 2 < 10 * p.interval := by
  have hi := h.interval_bounds
  have h0 := h.neverAhead 0 (Int.le_refl 0) (by omega)
  rw [Int.zero_add, Int.zero_ediv, Int.zero_add] at h0
  have hlt := Int.lt_ediv_add_one_mul_self ((p.spread / 2 : Nat) : Int) (show (0 : Int) < p.interval by omega)
  have hle : ((p.spread / 2 : Nat) / (p.interval : Int) + 1) * p.interval ≤ 10 * p.interval :=
    Int.mul_le_mul_of_nonneg_right (by omega) (by omega)
  omega

end

theorem uniformOffset_bounds {spread : Nat} (h : spread < 2 ^ 62) (draw : Nat) :
    -((spread / 2 : Nat) : Int) ≤ uniformOffset spread draw ∧ uniformOffset spread draw ≤ spread := by
  unfold uniformOffset randomRange
  split_ifs with h0
  · omega
  · have hmod : draw % (spread + 1) ≤ spread := Nat.lt_succ_iff.mp (Nat.mod_lt _ (by omega))
    rw [wrap64_of_mem (x := ((draw % (spread + 1) : Nat) : Int)) (by omega) (by omega),
      wrap64_of_mem (x := ((spread / 2 : Nat) : Int)) (by omega) (by omega), wrap64_of_mem (by omega) (by omega)]
    omega

/-! ## The slots of a line -/

/-- The slot of a cycle, where it is a time. -/
theorem slot_eq {s : Slots} (h : Taken s.schedule) {c : Int} (hlo : 0 < slotAt s.schedule.startTime s.schedule.interval c)
    (hhi : slotAt s.schedule.startTime s.schedule.interval c < 2 ^ 63) :
    s.slot c = slotAt s.schedule.startTime s.schedule.interval c := by
  have hst := h.start64
  have hs0 := h.start_nonneg
  unfold slotAt at hlo hhi ⊢
  rw [Slots.slot, h.wrap_interval, wrap64_of_mem (x := c * _) (by omega) (by omega), wrap64_of_mem (by omega) (by omega)]

/-- The first cycle after a reading, its slot at most two intervals ahead. -/
theorem firstCycle_spec {p : PostSchedule} (h : Taken p) {now : Int} (h0 : 0 ≤ now) (hlim : now < clockLimit) :
    now < slotAt p.startTime p.interval (firstCycle now p) ∧
      slotAt p.startTime p.interval (firstCycle now p) ≤ now + 2 * p.interval := by
  have hi := h.interval_bounds
  have hst := h.start64
  have hs0 := h.start_nonneg
  unfold clockLimit at hlim
  have hcycle : firstCycle now p = wrap64 ((now - p.startTime).tdiv p.interval + 1) := by
    rw [firstCycle, if_neg (by omega), h.wrap_interval, wrap64_of_mem (x := now - p.startTime) (by omega) (by omega)]
  by_cases hlt : now < p.startTime
  · obtain ⟨hq0, hqle, hqmul, hqlt⟩ := ediv_bounds (d := p.startTime - now) hi.1 (by omega)
    rw [hcycle, tdiv_of_lt hlt, wrap64_of_mem (by omega) (by omega), slotAt, Int.add_mul, Int.one_mul, Int.neg_mul]
    omega
  · obtain ⟨hq0, hqle, hqmul, hqlt⟩ := ediv_bounds (d := now - p.startTime) hi.1 (by omega)
    rw [hcycle, tdiv_of_le (by omega), wrap64_of_mem (by omega) (by omega), slotAt, Int.add_mul, Int.one_mul]
    omega

/-! ## Runs of the loop -/

/-- A cycle that was taken, and what it led to. -/
structure Take where
  before : Slots
  now : Int
  after : Slots
deriving DecidableEq

/-- A line, the clock last read and the cycles taken. -/
structure LineRun where
  slots : Slots
  clock : Int
  takes : List Take := []
deriving DecidableEq

/-- What the loop does with a line; `again`, the controller repeats it. -/
inductive LineCall
  | deadline (now : Int)
  | take (now : Int) (draw : Nat)
  | again (schedule : PostSchedule) (draw : Nat)

def LineRun.step (r : LineRun) : LineCall → LineRun
  | .deadline now => { r with slots := (lineDeadline r.slots now).1, clock := now }
  | .take now draw =>
    match takeDueLine r.slots now draw with
    | some s => ⟨s, now, r.takes ++ [⟨r.slots, now, s⟩]⟩
    | none => { r with clock := now }
  | .again schedule draw =>
    { r with slots := (setHttppostLine (some r.slots) true schedule r.clock draw).getD r.slots }

/-- The clock does not go back, and a repeated line has the line's cycles. -/
def Forward (r : LineRun) : LineCall → Prop
  | .deadline now => r.clock ≤ now
  | .take now _ => r.clock ≤ now
  | .again schedule _ => r.slots.sameCycles schedule = true

instance : ∀ r call, Decidable (Forward r call)
  | _, .deadline _ => inferInstanceAs (Decidable (_ ≤ _))
  | _, .take _ _ => inferInstanceAs (Decidable (_ ≤ _))
  | _, .again _ _ => inferInstanceAs (Decidable (_ = _))

/-- The clock stays within its limit, and no repeated line gets ahead of it. -/
def LineCall.Fits : LineCall → Prop
  | .deadline now => now < clockLimit
  | .take now _ => now < clockLimit
  | .again schedule _ => NeverAhead schedule

def Permitted (r : LineRun) (call : LineCall) : Prop := Forward r call ∧ call.Fits

/-- What a take left behind it: the line's cycle is past it. -/
structure Behind (r : LineRun) (t : Take) : Prop where
  later : t.before.cycle < t.after.cycle
  slotAfter : t.after.slot t.after.cycle =
    slotAt r.slots.schedule.startTime r.slots.schedule.interval t.after.cycle
  ahead : t.now < slotAt r.slots.schedule.startTime r.slots.schedule.interval t.after.cycle
  cycle : t.after.cycle ≤ r.slots.cycle
  clock : t.now ≤ r.clock
  /-- It was due, at most nine intervals early. -/
  early : t.before.cycle ≤ (t.now - r.slots.schedule.startTime) / r.slots.schedule.interval + 9

structure Inv (r : LineRun) : Prop where
  taken : Taken r.slots.schedule
  clock : 0 ≤ r.clock ∧ r.clock < clockLimit
  offset : ∃ draw, r.slots.offset = uniformOffset r.slots.schedule.spread draw
  pos : 0 < slotAt r.slots.schedule.startTime r.slots.schedule.interval r.slots.cycle
  near : slotAt r.slots.schedule.startTime r.slots.schedule.interval r.slots.cycle ≤
    r.clock + 10 * r.slots.schedule.interval
  behind : ∀ t ∈ r.takes, Behind r t
  order : r.takes.Pairwise fun a b => a.after.cycle ≤ b.before.cycle

variable {r : LineRun} {now : Int}

/-- The guard leaves the line alone. -/
theorem checkClock_eq (h : Inv r) (hnow : r.clock ≤ now) (hlim : now < clockLimit) :
    r.slots.checkClock now = r.slots := by
  have hi := h.taken.interval_bounds
  have hst := h.taken.start_nonneg
  have hclock := h.clock
  have hpos := h.pos
  have hnear := h.near
  unfold clockLimit at hlim
  rw [Slots.checkClock]
  refine if_neg fun hfire => ?_
  obtain ⟨hstart, hlt⟩ := hfire
  -- the products are those of the invariant, ten intervals less
  have hmul : (r.slots.cycle - 10) * (r.slots.schedule.interval : Int) =
      r.slots.cycle * r.slots.schedule.interval - 10 * r.slots.schedule.interval := Int.sub_mul _ _ _
  have hcycle : -(r.slots.schedule.startTime) < r.slots.cycle := by
    unfold slotAt at hpos
    by_contra hc
    have : r.slots.cycle * (r.slots.schedule.interval : Int) ≤ r.slots.cycle * 1 :=
      Int.mul_le_mul_of_nonpos_left (by omega) (by omega)
    omega
  have hcycle' : r.slots.cycle ≤ r.clock + 10 * r.slots.schedule.interval := by
    unfold slotAt at hnear
    by_contra hc
    have : r.slots.cycle * 1 ≤ r.slots.cycle * (r.slots.schedule.interval : Int) :=
      Int.mul_le_mul_of_nonneg_left (by omega) (by omega)
    omega
  unfold slotAt at hpos hnear
  rw [h.taken.wrap_interval, wrap64_of_mem (x := r.slots.cycle - 10) (by omega) (by omega), hmul,
    wrap64_of_mem (x := _ - _) (by omega) (by omega), wrap64_of_mem (by omega) (by omega)] at hlt
  omega

theorem inv_deadline (h : Inv r) (hnow : r.clock ≤ now) (hlim : now < clockLimit) :
    Inv (r.step (.deadline now)) := by
  have hstep : r.step (.deadline now) = { r with clock := now } := by
    show ({ r with slots := r.slots.checkClock now, clock := now } : LineRun) = _
    rw [checkClock_eq h hnow hlim]
  rw [hstep]
  have hclock := h.clock
  exact {
    taken := h.taken
    clock := ⟨hclock.1.trans hnow, hlim⟩
    offset := h.offset
    pos := h.pos
    near := h.near.trans (Int.add_le_add_right hnow _)
    behind := fun t ht => { h.behind t ht with clock := (h.behind t ht).clock.trans hnow }
    order := h.order }

/-- A cycle that is due: its slot is at most nine intervals after the clock's. -/
theorem cycle_le_of_due (h : Inv r) (hnow : r.clock ≤ now) (hlim : now < clockLimit)
    (hdue : r.slots.isDue now = true) :
    r.slots.schedule.startTime ≤ now ∧
      r.slots.cycle ≤ (now - r.slots.schedule.startTime) / r.slots.schedule.interval + 9 := by
  have hi := h.taken.interval_bounds
  simp only [Slots.isDue, Bool.and_eq_true, decide_eq_true_eq] at hdue
  obtain ⟨⟨hslot, hstart⟩, hend⟩ := hdue
  refine ⟨hstart, ?_⟩
  have hspread := h.taken.spread_lt (hstart.trans hend)
  obtain ⟨draw, hdraw⟩ := h.offset
  have hspread62 : r.slots.schedule.spread < 2 ^ 62 := by omega
  obtain ⟨hlo, hhi⟩ := uniformOffset_bounds hspread62 draw
  rw [← hdraw] at hlo hhi
  have hpos := h.pos
  have hnear := h.near
  unfold clockLimit at hlim
  rw [slot_eq h.taken hpos (by omega), wrap64_of_mem (by omega) (by omega)] at hslot
  have hahead := h.taken.neverAhead (now - r.slots.schedule.startTime) (by omega) (by omega)
  refine le_trans ?_ hahead
  rw [Int.le_ediv_iff_mul_le (by omega)]
  unfold slotAt at hslot
  omega

/-- A take leads to a later cycle, whose slot is after the clock and no more
than ten intervals ahead of it. -/
theorem advance_spec (h : Inv r) (hnow : r.clock ≤ now) (hlim : now < clockLimit)
    (hdue : r.slots.isDue now = true) (draw : Nat) :
    r.slots.cycle < (r.slots.advance now draw).cycle ∧
      now < slotAt r.slots.schedule.startTime r.slots.schedule.interval (r.slots.advance now draw).cycle ∧
      slotAt r.slots.schedule.startTime r.slots.schedule.interval (r.slots.advance now draw).cycle ≤
        now + 10 * r.slots.schedule.interval := by
  have hi := h.taken.interval_bounds
  have hclock := h.clock
  obtain ⟨hstart, hcycle⟩ := cycle_le_of_due h hnow hlim hdue
  have hpos := h.pos
  have hnear := h.near
  have hsucc := slotAt_succ r.slots.schedule.startTime r.slots.schedule.interval r.slots.cycle
  have hbound : slotAt r.slots.schedule.startTime r.slots.schedule.interval (r.slots.cycle + 1) ≤
      now + 10 * r.slots.schedule.interval := by
    have hmul := Int.ediv_mul_le (now - r.slots.schedule.startTime)
      (show (r.slots.schedule.interval : Int) ≠ 0 by omega)
    have hle : (r.slots.cycle + 1) * (r.slots.schedule.interval : Int) ≤
        ((now - r.slots.schedule.startTime) / r.slots.schedule.interval + 10) * r.slots.schedule.interval :=
      Int.mul_le_mul_of_nonneg_right (by omega) (by omega)
    rw [Int.add_mul (_ / _)] at hle
    unfold slotAt
    omega
  have hs0 := h.taken.start_nonneg
  have hst := h.taken.start64
  unfold clockLimit at hlim
  have hquot : (now - r.slots.schedule.startTime) / (r.slots.schedule.interval : Int) ≤
      now - r.slots.schedule.startTime := Int.ediv_le_self _ (by omega)
  have hneg : -(2 ^ 63) < r.slots.cycle := by
    unfold slotAt at hpos
    by_contra hc
    have : r.slots.cycle * (r.slots.schedule.interval : Int) ≤ r.slots.cycle * 1 :=
      Int.mul_le_mul_of_nonpos_left (by omega) (by omega)
    omega
  have hcyc : (r.slots.advance now draw).cycle =
      if slotAt r.slots.schedule.startTime r.slots.schedule.interval (r.slots.cycle + 1) ≤ now then
        firstCycle now r.slots.schedule else r.slots.cycle + 1 := by
    rw [Slots.advance, wrap64_of_mem (by omega) (by omega), slot_eq h.taken (by omega) (by omega)]
  rw [hcyc]
  split_ifs with hpassed
  · obtain ⟨hafter, hfirst⟩ := firstCycle_spec h.taken (hclock.1.trans hnow) (by unfold clockLimit; omega)
    have hlt := lt_of_slotAt_lt (lt_of_le_of_lt hpassed hafter)
    exact ⟨by omega, hafter, by omega⟩
  · exact ⟨by omega, by omega, hbound⟩

theorem inv_take (h : Inv r) (hnow : r.clock ≤ now) (hlim : now < clockLimit) (draw : Nat) :
    Inv (r.step (.take now draw)) := by
  have hclock := h.clock
  by_cases hdue : r.slots.isDue now = true
  · have hstep : r.step (.take now draw) =
        ⟨r.slots.advance now draw, now, r.takes ++ [⟨r.slots, now, r.slots.advance now draw⟩]⟩ := by
      simp [LineRun.step, takeDueLine, hdue]
    obtain ⟨hlater, hafter, hbound⟩ := advance_spec h hnow hlim hdue draw
    rw [hstep]
    refine ⟨h.taken, ⟨hclock.1.trans hnow, hlim⟩, ⟨draw, rfl⟩, lt_of_le_of_lt (by omega) hafter, hbound, ?_, ?_⟩
    · intro t ht
      rcases List.mem_append.mp ht with ht | ht
      · have hb := h.behind t ht
        exact { hb with
          cycle := hb.cycle.trans (Int.le_of_lt hlater)
          clock := hb.clock.trans hnow }
      · obtain rfl := List.mem_singleton.mp ht
        have hi := h.taken.interval_bounds
        refine ⟨hlater, slot_eq (s := r.slots.advance now draw) h.taken (lt_of_le_of_lt (by omega) hafter) ?_, hafter,
          Int.le_refl _, Int.le_refl _, (cycle_le_of_due h hnow hlim hdue).2⟩
        unfold clockLimit at hlim
        exact lt_of_le_of_lt hbound (by omega)
    · rw [List.pairwise_append]
      refine ⟨h.order, List.pairwise_singleton _ _, fun a ha b hb => ?_⟩
      obtain rfl := List.mem_singleton.mp hb
      exact (h.behind a ha).cycle
  · have hstep : r.step (.take now draw) = { r with clock := now } := by
      simp [LineRun.step, takeDueLine, hdue]
    rw [hstep]
    exact {
      taken := h.taken
      clock := ⟨hclock.1.trans hnow, hlim⟩
      offset := h.offset
      pos := h.pos
      near := h.near.trans (Int.add_le_add_right hnow _)
      behind := fun t ht => { h.behind t ht with clock := (h.behind t ht).clock.trans hnow }
      order := h.order }

theorem inv_again (h : Inv r) {schedule : PostSchedule} (hsame : r.slots.sameCycles schedule = true)
    (hnever : NeverAhead schedule) (draw : Nat) : Inv (r.step (.again schedule draw)) := by
  have hcycles : r.slots.schedule.interval = schedule.interval ∧ r.slots.schedule.startTime = schedule.startTime := by
    simpa [Slots.sameCycles] using hsame
  obtain ⟨hint, hstart⟩ := hcycles
  have hacc : schedule.accepted = true := by
    have := h.taken.accepted
    rwa [PostSchedule.accepted, hint, hstart] at this
  have hstep : r.step (.again schedule draw) = { r with slots := r.slots.carriedOver schedule draw } := by
    simp [LineRun.step, setHttppostLine, hacc, hsame]
  rw [hstep]
  have hpos := h.pos
  have hnear := h.near
  rw [hint, hstart] at hpos hnear
  refine ⟨⟨hacc, hstart ▸ h.taken.start64, hnever⟩, h.clock, ?_, hpos, hnear, ?_, h.order⟩
  · show ∃ d, (if r.slots.schedule.spread = schedule.spread then r.slots.offset else uniformOffset schedule.spread draw) =
      uniformOffset schedule.spread d
    split_ifs with hspread
    · rw [← hspread]
      exact h.offset
    · exact ⟨draw, rfl⟩
  · intro t ht
    obtain ⟨hlater, hslot, hahead, hcycle, hclock, hearly⟩ := h.behind t ht
    rw [hint, hstart] at hslot hahead hearly
    exact ⟨hlater, hslot, hahead, hcycle, hclock, hearly⟩

theorem inv_step (r : LineRun) (call : LineCall) (h : Inv r) (hok : Permitted r call) : Inv (r.step call) := by
  cases call with
  | deadline now => exact inv_deadline h hok.1 hok.2
  | take now draw => exact inv_take h hok.1 hok.2 draw
  | again schedule draw => exact inv_again h hok.1 hok.2 draw

/-- A line just set. -/
def lineSet (schedule : PostSchedule) (now : Int) (draw : Nat) : LineRun := ⟨.new schedule now draw, now, []⟩

theorem inv_lineSet {schedule : PostSchedule} (h : Taken schedule) (h0 : 0 ≤ now) (hlim : now < clockLimit)
    (draw : Nat) : Inv (lineSet schedule now draw) := by
  obtain ⟨hafter, hfirst⟩ := firstCycle_spec h h0 hlim
  have hi := h.interval_bounds
  refine ⟨h, ⟨h0, hlim⟩, ⟨draw, rfl⟩, lt_of_le_of_lt h0 hafter, hfirst.trans ?_, by simp [lineSet], by simp [lineSet]⟩
  show now + 2 * (schedule.interval : Int) ≤ now + 10 * schedule.interval
  omega

/-! ## What holds over a run -/

/-- Rising numbers of an interval of nine. -/
theorem length_le_nine {a : Int} {cs : List Int} (hord : cs.Pairwise (· < ·)) (h : ∀ c ∈ cs, a < c ∧ c ≤ a + 9) :
    cs.length ≤ 9 := by
  have hnd : cs.Nodup := hord.imp Int.ne_of_lt
  have hsub : cs.toFinset ⊆ Finset.Ioc a (a + 9) := fun c hc =>
    Finset.mem_Ioc.mpr (h c (List.mem_toFinset.mp hc))
  calc cs.length = cs.toFinset.card := (List.toFinset_card_of_nodup hnd).symm
    _ ≤ (Finset.Ioc a (a + 9)).card := Finset.card_le_card hsub
    _ = 9 := by simp

theorem pairwise_cycles (h : Inv r) : (r.takes.map (·.before.cycle)).Pairwise (· < ·) := by
  rw [List.pairwise_map]
  exact h.order.imp_of_mem fun ha _ hab => lt_of_lt_of_le (h.behind _ ha).later hab

/-- At one reading of the clock a first cycle, and those in the nine intervals
after it. -/
theorem takes_at_le (h : Inv r) (now : Int) : (r.takes.filter (·.now = now)).length ≤ 10 := by
  have hi := h.taken.interval_bounds
  cases hts : r.takes.filter (·.now = now) with
  | nil => simp
  | cons first rest =>
    have hmem : ∀ t ∈ first :: rest, t ∈ r.takes ∧ t.now = now := fun t ht => by
      rw [← hts] at ht
      simpa using List.mem_filter.mp ht
    have hsub : (first :: rest).Sublist r.takes := hts ▸ List.filter_sublist
    have hrest : (rest.map (·.before.cycle)).Pairwise (· < ·) :=
      (pairwise_cycles h).sublist (((List.sublist_cons_self first rest).trans hsub).map _)
    have horder := h.order.sublist hsub
    have hfirst := (hmem first List.mem_cons_self)
    have hlen := length_le_nine (a := (now - r.slots.schedule.startTime) / r.slots.schedule.interval) hrest (by
      intro c hc
      obtain ⟨t, ht, rfl⟩ := List.mem_map.mp hc
      obtain ⟨htmem, htnow⟩ := hmem t (List.mem_cons_of_mem _ ht)
      have hearly := (h.behind t htmem).early
      rw [htnow] at hearly
      refine ⟨?_, hearly⟩
      -- the first take left the line at a slot after the clock
      have hahead := (h.behind first hfirst.1).ahead
      rw [hfirst.2] at hahead
      have hle := (List.pairwise_cons.mp horder).1 t ht
      have hslot := lt_of_lt_of_le hahead (slotAt_le_slotAt hle)
      unfold slotAt at hslot
      exact Int.ediv_lt_of_lt_mul (by omega) (by omega))
    rw [List.length_map] at hlen
    rw [List.length_cons]
    omega

/-- What the loop may rely on. -/
structure LineKept (r : LineRun) : Prop where
  due : ∀ now, r.slots.isDue now = true ↔ ∃ at_, r.slots.nextRun now = some at_ ∧ at_ ≤ now
  later : ∀ t ∈ r.takes, t.before.cycle < t.after.cycle ∧ t.now < t.after.slot t.after.cycle
  once : (r.takes.map (·.before.cycle)).Nodup
  ends : ∀ now, (r.takes.filter (·.now = now)).length ≤ 10

theorem Inv.kept (h : Inv r) : LineKept r where
  due := isDue_iff r.slots
  later t ht := ⟨(h.behind t ht).later, by rw [(h.behind t ht).slotAfter]; exact (h.behind t ht).ahead⟩
  once := (pairwise_cycles h).imp Int.ne_of_lt
  ends := takes_at_le h

/-- A line is due just when it has a next run that is not ahead, each cycle
taken leads to a later one whose slot is after the clock, no cycle is taken
twice and no more than ten at one reading of the clock. -/
theorem line_kept {schedule : PostSchedule} (h : Taken schedule) {now : Int} (h0 : 0 ≤ now) (hlim : now < clockLimit)
    (draw : Nat) {calls : List LineCall} (hcalls : AllSteps LineRun.step Permitted (lineSet schedule now draw) calls) :
    Always LineRun.step LineKept (lineSet schedule now draw) calls :=
  (always_of_inv inv_step (inv_lineSet h h0 hlim draw) hcalls).mono fun _ h => h.kept

/-- A minute's line, its spread as the controller's, over two slots and a clock
that stands still. -/
theorem line_kept_minute :
    Always LineRun.step LineKept (lineSet ⟨60, 12, 2000000000, 20⟩ 1791871112 3)
      [.deadline 1791871112, .take 1791871150 0, .deadline 1791871150, .take 1791871202 20, .take 1791871202 20] :=
  have hlim : ∀ now : Int, now ≤ 2000000000 → now < clockLimit := fun now h => by
    unfold clockLimit
    omega
  line_kept ⟨by decide, by decide, neverAhead_of_le (by decide)⟩ (by decide) (by decide) 3
    ⟨⟨by decide, hlim _ (by decide)⟩, ⟨by decide, hlim _ (by decide)⟩, ⟨by decide, hlim _ (by decide)⟩,
      ⟨by decide, hlim _ (by decide)⟩, ⟨by decide, hlim _ (by decide)⟩, trivial⟩

/-- Ten cycles taken at one reading of the clock, each ten seconds early; then
the guard, cycle 0, and the first of the ten again. -/
def spinning : List LineCall := List.replicate 10 (.take 1000 0) ++ [.deadline 1000, .take 1000 0, .take 1000 0]

theorem line_not_kept :
    ¬ ∀ (schedule : PostSchedule) (now : Int) (draw : Nat) (calls : List LineCall), schedule.accepted = true →
      AllSteps LineRun.step Forward (lineSet schedule now draw) calls →
      Always LineRun.step LineKept (lineSet schedule now draw) calls := by
  intro h
  have hkept := (h ⟨1, 0, 2000000000, 20⟩ 1000 0 spinning (by decide) (by simp [spinning, AllSteps]; decide)).last
  exact absurd hkept.once (by decide)

end Starla.Proof.Results
