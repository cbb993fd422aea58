import Starla.Framework.Run
import Starla.Impl.Controller.Cronline
import Starla.Impl.Scheduler.Checked
import Starla.Proof.Scheduler.Task

/-!
# A task's arithmetic stays within 64 bits

For a CRONLINE's header and a clock up to `2^40`, with the plain operations
stopping at an overflow and the saturating ones as they are.

* `slot?_eq` : a slot, with the product held at `2^63 - 1`.
* `firstCycleAfter?_spec`, `setCycle?_spec` : the first cycle after a reading of
  the clock, and the run a cycle gets.
* `safe_of_inv`, `taskInv_step` : every operation from a state that keeps the
  invariant stays within 64 bits and keeps it.
* `arithmetic_safe` : so it is over any run, where there is room at both ends.
-/

namespace Starla.Proof.Scheduler

open Starla.Framework Starla.Impl.Scheduler Starla.Impl.Controller

/-! ## Headers -/

/-- The types of a header's numbers, and the interval's bounds. -/
structure HeaderFits (h : CronHeader) : Prop where
  interval : 1 ≤ h.interval ∧ h.interval ≤ 63244800
  start : -2 ^ 63 ≤ h.startTime ∧ h.startTime < 2 ^ 63
  spread : h.spread < 2 ^ 32

theorem digitsUpTo_le {max radix n : ℕ} {cs : List Char} (h : digitsUpTo max radix cs = some n) : n ≤ max := by
  unfold digitsUpTo at h
  split_ifs at h
  obtain ⟨-, hn⟩ := Option.filter_eq_some_iff.mp h
  simpa using hn

theorem parseUnsigned_le {max n : ℕ} {cs : List Char} (h : parseUnsigned max cs = some n) : n ≤ max := by
  unfold parseUnsigned at h
  split at h <;> exact digitsUpTo_le h

theorem parseSigned_bounds {min max : ℕ} {i : ℤ} {cs : List Char} (h : parseSigned min max cs = some i) :
    -min ≤ i ∧ i ≤ max := by
  unfold parseSigned at h
  split at h <;>
  · obtain ⟨j, hj, rfl⟩ := Option.map_eq_some_iff.mp h
    obtain ⟨n, hn, hnj⟩ := Option.bind_eq_some_iff.mp hj
    have hle := digitsUpTo_le hn
    obtain rfl : (n : ℤ) = j := Option.some.inj hnj
    omega

theorem headerFits_of_parse {interval startTime endTime distribution parameter : String} {h : CronHeader}
    (hp : parseHeader interval startTime endTime distribution parameter = some h) (hi : 1 ≤ h.interval) :
    HeaderFits h := by
  simp only [parseHeader, Option.bind_eq_bind, Option.bind_eq_some_iff, Option.pure_def] at hp
  obtain ⟨i, hinterval, s, hstart, e, -, hspread⟩ := hp
  obtain ⟨-, hmax⟩ := Option.filter_eq_some_iff.mp hinterval
  have hmax' : i ≤ 63244800 := of_decide_eq_true hmax
  obtain ⟨hlo, hhi⟩ := parseSigned_bounds hstart
  split_ifs at hspread
  · obtain ⟨spread, hparse, hh⟩ := Option.bind_eq_some_iff.mp hspread
    obtain rfl := Option.some.inj hh
    have hle := parseUnsigned_le hparse
    exact ⟨⟨hi, hmax'⟩, ⟨hlo, Int.lt_of_le_of_lt hhi (by decide)⟩, Nat.lt_of_le_of_lt hle (by decide)⟩
  · obtain rfl := Option.some.inj hspread
    exact ⟨⟨hi, hmax'⟩, ⟨hlo, Int.lt_of_le_of_lt hhi (by decide)⟩, Nat.two_pow_pos 32⟩

/-- Room for an offset and the slack after the start, and for the distance of
the clock from it. -/
def Room (h : CronHeader) : Prop :=
  h.startTime + (h.spread - h.spread / 2 : Nat) + timeSlack < 2 ^ 63 ∧
    2 ^ 40 + (h.spread / 2 : Nat) - h.startTime < 2 ^ 63 - 1

/-- A reading of the clock. -/
def Reading (now : ℤ) : Prop := 0 ≤ now ∧ now ≤ 2 ^ 40

instance (now : ℤ) : Decidable (Reading now) := inferInstanceAs (Decidable (_ ∧ _))

variable {S : Type} {h : CronHeader} {now c : ℤ} {draw : ℕ}

/-! ## Slots -/

/-- The slot of a cycle, with the product held. -/
def slotOf (h : CronHeader) (c : ℤ) : ℤ := h.startTime + min (c * h.interval) (2 ^ 63 - 1)

theorem slotOf_zero (h : CronHeader) : slotOf h 0 = h.startTime := by
  unfold slotOf
  omega

theorem startTime_le_slotOf (hc : 0 ≤ c) : h.startTime ≤ slotOf h c := by
  have : 0 ≤ c * (h.interval : ℤ) := Int.mul_nonneg hc (by omega)
  unfold slotOf
  omega

theorem slotOf_succ_le (h : CronHeader) (c : ℤ) : slotOf h (c + 1) ≤ slotOf h c + h.interval := by
  unfold slotOf
  rw [Int.add_mul, Int.one_mul]
  omega

theorem slot?_eq (hf : HeaderFits h) (hc : 0 ≤ c) (hlt : slotOf h c < 2 ^ 63) :
    slot? h.startTime h.interval c = some (slotOf h c) ∧ slot h.startTime h.interval c = slotOf h c := by
  have hi := hf.interval
  have hs := hf.start
  have hmul : 0 ≤ c * (h.interval : ℤ) := Int.mul_nonneg hc (by omega)
  have hsat : sat64 (c * (h.interval : ℤ)) = min (c * h.interval) (2 ^ 63 - 1) := by
    unfold sat64
    omega
  unfold slotOf at hlt ⊢
  constructor
  · simp only [slot?, checked64_of_mem (x := (h.interval : ℤ)) (by omega) (by omega), Option.bind_eq_bind,
      Option.bind_some, hsat, Option.pure_def]
    rw [sat64_of_mem (by omega) hlt]
  · rw [slot, wrap64_of_mem (x := (h.interval : ℤ)) (by omega) (by omega), hsat, sat64_of_mem (by omega) hlt]

theorem uniformOffset?_spec (hf : HeaderFits h) (draw : ℕ) :
    ∃ o, uniformOffset? h.spread draw = some o ∧ uniformOffset h.spread draw = o ∧
      -((h.spread / 2 : Nat) : ℤ) ≤ o ∧ o ≤ (h.spread - h.spread / 2 : Nat) := by
  have hs := hf.spread
  unfold uniformOffset? uniformOffset
  split_ifs with h0
  · exact ⟨0, rfl, rfl, by omega, by omega⟩
  · have hr : randomRange h.spread draw ≤ h.spread := Nat.lt_succ_iff.mp (Nat.mod_lt _ (by omega))
    refine ⟨(randomRange h.spread draw : ℤ) - (h.spread / 2 : Nat), ?_, ?_, by omega, by omega⟩
    · simp only [checked64_of_mem (x := (randomRange h.spread draw : ℤ)) (by omega) (by omega),
        checked64_of_mem (x := ((h.spread / 2 : Nat) : ℤ)) (by omega) (by omega), Option.bind_eq_bind, Option.bind_some]
      exact checked64_of_mem (by omega) (by omega)
    · rw [wrap64_of_mem (x := (randomRange h.spread draw : ℤ)) (by omega) (by omega),
        wrap64_of_mem (x := ((h.spread / 2 : Nat) : ℤ)) (by omega) (by omega), wrap64_of_mem (by omega) (by omega)]

/-- The first cycle after a reading: its slot is not before it, and no more than
an interval ahead unless it is cycle 0. -/
theorem firstCycleAfter?_spec (hf : HeaderFits h) (hroom : Room h) (hnow : Reading now) :
    ∃ c, firstCycleAfter? now h.startTime h.interval = some c ∧ firstCycleAfter now h.startTime h.interval = c ∧
      0 ≤ c ∧ c < 2 ^ 63 ∧ now ≤ slotOf h c ∧ slotOf h c ≤ max h.startTime (now + h.interval) := by
  obtain ⟨hi, himax⟩ := hf.interval
  have hs := hf.start
  obtain ⟨h0, hmax⟩ := hnow
  obtain ⟨-, hback⟩ := hroom
  unfold firstCycleAfter? firstCycleAfter
  by_cases hlt : now < h.startTime
  · rw [if_pos (.inr hlt), if_pos (.inr hlt)]
    exact ⟨0, rfl, rfl, by omega, by omega, by rw [slotOf_zero]; omega, by rw [slotOf_zero]; omega⟩
  · have hno : ¬ (h.interval = 0 ∨ now < h.startTime) := by omega
    have hpos : (0 : ℤ) < h.interval := by omega
    have hq0 : 0 ≤ (now - h.startTime) / (h.interval : ℤ) := Int.ediv_nonneg (by omega) (by omega)
    have hqle : (now - h.startTime) / (h.interval : ℤ) ≤ now - h.startTime := Int.ediv_le_self _ (by omega)
    have hmul := Int.ediv_mul_le (now - h.startTime) (show (h.interval : ℤ) ≠ 0 by omega)
    have hltmul := Int.lt_ediv_add_one_mul_self (now - h.startTime) hpos
    rw [Int.add_mul, Int.one_mul] at hltmul
    refine ⟨(now - h.startTime) / h.interval + 1, ?_, ?_, by omega, by omega, ?_, ?_⟩
    · rw [if_neg hno, sat64_of_mem (by omega) (by omega)]
      simp only [checked64_of_mem (x := (h.interval : ℤ)) (by omega) (by omega), Option.bind_eq_bind, Option.bind_some]
      rw [Int.tdiv_eq_ediv_of_nonneg (by omega)]
      exact checked64_of_mem (by omega) (by omega)
    · rw [if_neg hno, sat64_of_mem (by omega) (by omega), wrap64_of_mem (x := (h.interval : ℤ)) (by omega) (by omega),
        Int.tdiv_eq_ediv_of_nonneg (by omega), wrap64_of_mem (by omega) (by omega)]
    · unfold slotOf
      rw [Int.add_mul, Int.one_mul]
      omega
    · unfold slotOf
      rw [Int.add_mul, Int.one_mul]
      omega

/-! ## A task's run -/

/-- What keeps the arithmetic within 64 bits. -/
structure TaskInv (h : CronHeader) (t : ScheduledTask S) : Prop where
  startTime : t.startTime = h.startTime
  interval : t.interval = h.interval
  spread : t.spread = h.spread
  cycle : 0 ≤ t.cycle ∧ t.cycle < 2 ^ 63
  slot : slotOf h t.cycle ≤ max h.startTime (2 ^ 40 + (h.spread / 2 : Nat) + h.interval)
  nextRun : slotOf h t.cycle - (h.spread / 2 : Nat) ≤ t.nextRun ∧
    t.nextRun ≤ slotOf h t.cycle + (h.spread - h.spread / 2 : Nat)

/-- The next run is within half the spread of the start and of the clock. -/
def InTime (h : CronHeader) (now : ℤ) (t : ScheduledTask S) : Prop :=
  h.startTime - (h.spread / 2 : Nat) ≤ t.nextRun ∧ now - (h.spread / 2 : Nat) ≤ t.nextRun

/-- The task that a cycle's run is set on. -/
def onCycle (t : ScheduledTask S) (cycle : ℤ) (draw : ℕ) : ScheduledTask S :=
  { t with cycle, nextRun := wrap64 (slot t.startTime t.interval cycle + uniformOffset t.spread draw) }

theorem setCycle?_spec (hf : HeaderFits h) (hroom : Room h) {t : ScheduledTask S} (hst : t.startTime = h.startTime)
    (hint : t.interval = h.interval) (hsp : t.spread = h.spread) (hc : 0 ≤ c ∧ c < 2 ^ 63)
    (hslot : slotOf h c ≤ max h.startTime (2 ^ 40 + (h.spread / 2 : Nat) + h.interval)) (hnow : now ≤ slotOf h c)
    (draw : ℕ) :
    t.setCycle? c draw = some (onCycle t c draw) ∧ TaskInv h (onCycle t c draw) ∧ InTime h now (onCycle t c draw) := by
  have hi := hf.interval
  have hs := hf.start
  have hspread := hf.spread
  obtain ⟨hfront, hback⟩ := hroom
  have hslack : timeSlack = 10 := rfl
  have hstart := startTime_le_slotOf (h := h) hc.1
  obtain ⟨hslot?, hslotw⟩ := slot?_eq hf hc.1 (by omega)
  obtain ⟨o, ho?, how, hlo, hhi⟩ := uniformOffset?_spec hf draw
  have hrun : (onCycle t c draw).nextRun = slotOf h c + o := by
    show wrap64 (slot t.startTime t.interval c + uniformOffset t.spread draw) = _
    rw [hst, hint, hsp, hslotw, how, wrap64_of_mem (by omega) (by omega)]
  refine ⟨?_, ⟨hst, hint, hsp, hc, hslot, ?_⟩, ?_⟩
  · have htask : onCycle t c draw = { t with cycle := c, nextRun := slotOf h c + o } := by
      rw [← hrun]
      rfl
    rw [htask]
    simp only [ScheduledTask.setCycle?, hst, hint, hsp, hslot?, ho?, Option.bind_eq_bind, Option.bind_some,
      checked64_of_mem (x := slotOf h c + o) (by omega) (by omega)]
    rfl
  · rw [hrun]
    show slotOf h c - _ ≤ _ ∧ _ ≤ slotOf h c + _
    omega
  · unfold InTime
    rw [hrun]
    omega

theorem drawCycle?_spec (hf : HeaderFits h) (hroom : Room h) {t : ScheduledTask S} (hst : t.startTime = h.startTime)
    (hint : t.interval = h.interval) (hsp : t.spread = h.spread) (hnow : Reading now) (draw : ℕ) :
    t.drawCycle? now draw = some (t.drawCycle now draw) ∧ TaskInv h (t.drawCycle now draw) ∧
      InTime h now (t.drawCycle now draw) := by
  obtain ⟨c, hc?, hcw, hc0, hclt, hafter, hnear⟩ := firstCycleAfter?_spec hf hroom hnow
  have hmax := hnow.2
  have hset := setCycle?_spec hf hroom hst hint hsp ⟨hc0, hclt⟩ (by omega) hafter draw
  have htask : t.drawCycle now draw = onCycle t c draw := by
    show onCycle t (firstCycleAfter now t.startTime t.interval) draw = _
    rw [hst, hint, hcw]
  rw [htask]
  refine ⟨?_, hset.2⟩
  have hdraw : t.drawCycle? now draw =
      (firstCycleAfter? now t.startTime t.interval).bind fun cycle => t.setCycle? cycle draw := rfl
  rw [hdraw, hst, hint, hc?, Option.bind_some]
  exact hset.1

/-- A cycle that is due has its slot within half the spread of the clock, so the
next is a number. -/
theorem scheduleNext?_spec (hf : HeaderFits h) (hroom : Room h) {t : ScheduledTask S} (ht : TaskInv h t)
    (hnow : Reading now) (hdue : t.nextRun ≤ now) (draw : ℕ) :
    t.scheduleNext? now draw = some (t.scheduleNext now draw) ∧ TaskInv h (t.scheduleNext now draw) ∧
      InTime h now (t.scheduleNext now draw) := by
  have hi := hf.interval
  have hs := hf.start
  have hspread := hf.spread
  have hmax := hnow.2
  have hslack : timeSlack = 10 := rfl
  obtain ⟨hfront, hback⟩ := id hroom
  obtain ⟨hc0, hclt⟩ := ht.cycle
  have hrun := ht.nextRun
  have hcycle : t.cycle + 1 < 2 ^ 63 := by
    -- were the product held, the slot would be too late to be due
    by_contra hlast
    have hmul : t.cycle * 1 ≤ t.cycle * (h.interval : ℤ) := Int.mul_le_mul_of_nonneg_left (by omega) hc0
    have hslot : slotOf h t.cycle = h.startTime + min (t.cycle * h.interval) (2 ^ 63 - 1) := rfl
    omega
  have hsucc := slotOf_succ_le h t.cycle
  have hstart := startTime_le_slotOf (h := h) (c := t.cycle + 1) (by omega)
  have hnear : slotOf h (t.cycle + 1) ≤ max h.startTime (2 ^ 40 + (h.spread / 2 : Nat) + h.interval) := by omega
  obtain ⟨hslot?, hslotw⟩ := slot?_eq (c := t.cycle + 1) hf (by omega) (by omega)
  have hchecked : checked64 (t.cycle + 1) = some (t.cycle + 1) := checked64_of_mem (by omega) hcycle
  have hwrap : wrap64 (t.cycle + 1) = t.cycle + 1 := wrap64_of_mem (by omega) hcycle
  have hnext? : t.scheduleNext? now draw =
      if slotOf h (t.cycle + 1) < now then t.drawCycle? now draw else t.setCycle? (t.cycle + 1) draw := by
    have hbind : t.scheduleNext? now draw = (checked64 (t.cycle + 1)).bind fun cycle =>
        (slot? t.startTime t.interval cycle).bind fun at_ =>
          if at_ < now then t.drawCycle? now draw else t.setCycle? cycle draw := rfl
    rw [hbind, hchecked, Option.bind_some, ht.startTime, ht.interval, hslot?, Option.bind_some]
  have hnext : t.scheduleNext now draw =
      if slotOf h (t.cycle + 1) < now then t.drawCycle now draw else onCycle t (t.cycle + 1) draw := by
    show onCycle t (if slot t.startTime t.interval (wrap64 (t.cycle + 1)) < now then
      firstCycleAfter now t.startTime t.interval else wrap64 (t.cycle + 1)) draw = _
    rw [hwrap, ht.startTime, ht.interval, hslotw]
    split_ifs
    · show _ = onCycle t (firstCycleAfter now t.startTime t.interval) draw
      rw [ht.startTime, ht.interval]
    · rfl
  rw [hnext?, hnext]
  split_ifs with hpassed
  · exact drawCycle?_spec hf hroom ht.startTime ht.interval ht.spread hnow draw
  · exact setCycle?_spec hf hroom ht.startTime ht.interval ht.spread ⟨by omega, hcycle⟩ hnear (by omega) draw

/-- A line whose run is past its end time, and long past the clock, is drawn
again. -/
def Redrawn (t : ScheduledTask S) (now : ℤ) : Prop :=
  t.endTime ≠ 0 ∧ t.nextRun > t.endTime ∧ now > t.nextRun + timeSlack

theorem takeEndTime?_spec (hf : HeaderFits h) (hroom : Room h) {t : ScheduledTask S} (ht : TaskInv h t)
    (endTime : ℤ) (hnow : Reading now) (draw : ℕ) :
    t.takeEndTime? endTime now draw = some (t.takeEndTime endTime now draw) ∧
      TaskInv h (t.takeEndTime endTime now draw) ∧
      (Redrawn t now → InTime h now (t.takeEndTime endTime now draw)) := by
  have hs := hf.start
  have hspread := hf.spread
  have hi := hf.interval
  have hslack : timeSlack = 10 := rfl
  obtain ⟨hfront, hback⟩ := id hroom
  have hrun := ht.nextRun
  have hslot := ht.slot
  have hstart := startTime_le_slotOf (h := h) ht.cycle.1
  have hkept : TaskInv h { t with endTime, job := { t.job with endTime } } :=
    ⟨ht.startTime, ht.interval, ht.spread, ht.cycle, ht.slot, ht.nextRun⟩
  have hchecked : checked64 (t.nextRun + timeSlack) = some (t.nextRun + timeSlack) :=
    checked64_of_mem (by omega) (by omega)
  have hwrap : wrap64 (t.nextRun + timeSlack) = t.nextRun + timeSlack := wrap64_of_mem (by omega) (by omega)
  have hdraw := drawCycle?_spec (t := { t with endTime, job := { t.job with endTime } }) hf hroom ht.startTime
    ht.interval ht.spread hnow draw
  unfold ScheduledTask.takeEndTime? ScheduledTask.takeEndTime Redrawn
  by_cases hstopped : t.endTime ≠ 0 ∧ t.nextRun > t.endTime
  · by_cases hlate : now > t.nextRun + timeSlack
    · simpa [hstopped, hchecked, hwrap, hlate] using hdraw
    · simpa [hstopped, hchecked, hwrap, hlate] using hkept
  · have hno : ¬ (t.endTime ≠ 0 ∧ t.nextRun > t.endTime ∧ now > t.nextRun + timeSlack) :=
      fun hr => hstopped ⟨hr.1, hr.2.1⟩
    have hbool : (t.endTime != 0 && decide (t.nextRun > t.endTime)) = false := by
      rw [← Bool.not_eq_true]
      simpa using hstopped
    simp only [hbool, Bool.false_eq_true, if_false, Bool.false_and]
    exact ⟨trivial, hkept, fun hr => absurd hr hno⟩

/-! ## Over a run -/

/-- What the scheduler has a task do: move on after a run, where it is due, or
take the end time of a line that repeats it. -/
inductive TaskCall
  | next (now : ℤ) (draw : ℕ)
  | again (endTime now : ℤ) (draw : ℕ)

def TaskCall.clock : TaskCall → ℤ
  | .next now _ => now
  | .again _ now _ => now

def taskStep (t : ScheduledTask S) : TaskCall → ScheduledTask S
  | .next now draw => if t.isDue now then t.scheduleNext now draw else t
  | .again endTime now draw => t.takeEndTime endTime now draw

/-- No operation leaves 64 bits, and every run computed is in time. -/
structure Safe (h : CronHeader) (t : ScheduledTask S) : Prop where
  next : ∀ now draw, Reading now → t.isDue now = true →
    t.scheduleNext? now draw = some (t.scheduleNext now draw) ∧ InTime h now (t.scheduleNext now draw)
  again : ∀ endTime now draw, Reading now →
    t.takeEndTime? endTime now draw = some (t.takeEndTime endTime now draw) ∧
      (Redrawn t now → InTime h now (t.takeEndTime endTime now draw))

theorem safe_of_inv (hf : HeaderFits h) (hroom : Room h) {t : ScheduledTask S} (ht : TaskInv h t) : Safe h t where
  next _ draw hnow hdue :=
    have hspec := scheduleNext?_spec hf hroom ht hnow (nextRun_le_of_isDue hdue) draw
    ⟨hspec.1, hspec.2.2⟩
  again endTime _ draw hnow :=
    have hspec := takeEndTime?_spec hf hroom ht endTime hnow draw
    ⟨hspec.1, hspec.2.2⟩

theorem taskInv_step (hf : HeaderFits h) (hroom : Room h) (t : ScheduledTask S) (call : TaskCall) (ht : TaskInv h t)
    (hnow : Reading call.clock) : TaskInv h (taskStep t call) := by
  cases call with
  | next now draw =>
    show TaskInv h (if t.isDue now then t.scheduleNext now draw else t)
    split_ifs with hdue
    · exact (scheduleNext?_spec hf hroom ht hnow (nextRun_le_of_isDue hdue) draw).2.1
    · exact ht
  | again endTime now draw => exact (takeEndTime?_spec hf hroom ht endTime hnow draw).2.1

/-- A task made of a line whose header was read, with room at both ends: its
first run, and every operation of every run of the scheduler's calls, at
readings of the clock up to `2^40` and for any draws. -/
theorem arithmetic_safe {interval startTime endTime distribution parameter : String}
    (hp : parseHeader interval startTime endTime distribution parameter = some h) (hi : 1 ≤ h.interval)
    (hroom : Room h) (hnow : Reading now) (id : UInt64) (job : MeasurementJob S) (draw : ℕ) :
    let t := ScheduledTask.newAt now id h.interval h.startTime h.endTime h.spread job draw
    ScheduledTask.newAt? now id h.interval h.startTime h.endTime h.spread job draw = some t ∧ InTime h now t ∧
      ∀ calls : List TaskCall, (∀ call ∈ calls, Reading call.clock) → Always taskStep (Safe h) t calls := by
  intro t
  have hf := headerFits_of_parse hp hi
  obtain ⟨hnew, hinv, htime⟩ := drawCycle?_spec (t := (⟨id, h.interval, h.startTime, h.endTime, h.spread, job, 0, 0⟩ :
    ScheduledTask S)) hf hroom rfl rfl rfl hnow draw
  refine ⟨hnew, htime, fun calls hcalls => ?_⟩
  have hok : AllSteps taskStep (fun _ call => Reading call.clock) t calls := by
    clear_value t
    induction calls generalizing t with
    | nil => trivial
    | cons call calls ih => exact ⟨hcalls call List.mem_cons_self, ih _ fun c hc => hcalls c (List.mem_cons_of_mem _ hc)⟩
  exact (always_of_inv (taskInv_step hf hroom) hinv hok).mono fun _ ht => safe_of_inv hf hroom ht

/-- The line of a ping, due once, then repeated with another end time. -/
theorem arithmetic_safe_ping :
    let h : CronHeader := ⟨240, 274, 1770761451, 3⟩
    let t := ScheduledTask.newAt 1770000000 7 h.interval h.startTime h.endTime h.spread
      (⟨7, 240, 274, 1770761451, 3, ()⟩ : MeasurementJob Unit) 0
    InTime h 1770000000 t ∧ Always taskStep (Safe h) t [.next 1770000300 3, .again 0 1770000400 1] :=
  have hparse : parseHeader "240" "274" "1770761451" "UNIFORM" "3" = some ⟨240, 274, 1770761451, 3⟩ := by
    decide
  have hnow : Reading 1770000000 := ⟨by decide, by decide⟩
  have hsafe := arithmetic_safe hparse (by decide) ⟨by decide, by decide⟩ hnow 7
    (⟨7, 240, 274, 1770761451, 3, ()⟩ : MeasurementJob Unit) 0
  ⟨hsafe.2.1, hsafe.2.2 _ (by decide)⟩

/-- A line that starts at the last second: half its spread after it is no
number. -/
theorem arithmetic_not_safe :
    ¬ ∀ (interval startTime endTime distribution parameter : String) (h : CronHeader) (now : ℤ) (id : UInt64)
      (job : MeasurementJob Unit) (draw : ℕ),
      parseHeader interval startTime endTime distribution parameter = some h → 1 ≤ h.interval → Reading now →
      (ScheduledTask.newAt? now id h.interval h.startTime h.endTime h.spread job draw).isSome := by
  intro hall
  have hsome := hall "240" "9223372036854775807" "0" "UNIFORM" "3" ⟨240, 9223372036854775807, 0, 3⟩ 0 7
    ⟨7, 240, 9223372036854775807, 0, 3, ()⟩ 3 (by decide) (by decide) ⟨by decide, by decide⟩
  exact absurd hsome (by decide)

end Starla.Proof.Scheduler
