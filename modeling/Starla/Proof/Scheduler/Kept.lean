import Mathlib.Tactic.SplitIfs
import Starla.Framework.Run
import Starla.Impl.Scheduler.Handler
import Starla.Proof.Scheduler.Synchronize

/-!
# What the lines keep

Every recurring job the probe holds has what its measurement's fields are
filed under (`Filed`), so two of them share it exactly where those fields agree.

* `keep_spec` : the job of a new command, and the jobs already held.
* `step_inv` : one event.
* `kept_per_line_iff` : every sequence of events.
-/

namespace Starla.Proof.Scheduler.Kept

open Starla.Framework Starla.Impl.Controller Starla.Impl.Scheduler

/-- The fields a ping or traceroute is told by. -/
def measurementOf (j : Job) : Option (PingLine ⊕ TracerouteLine) :=
  match j.spec.spec with
  | .ping s => some (.inl (pingLine j.msmId j.interval j.startTime s))
  | .traceroute s => some (.inr (tracerouteLine j.msmId j.interval j.startTime s))
  | _ => none

/-- What the tables hold for a measurement's fields. -/
def filedUnder (p : Probe) : PingLine ⊕ TracerouteLine → Option Kept
  | .inl l => (p.pings.lookup l).map .ping
  | .inr l => (p.traceroutes.lookup l).map .traceroute

/-- A recurring job with what its measurement is filed under. -/
structure Filed (p : Probe) (j : Job) : Prop where
  recurring : 0 < j.interval
  kept : j.spec.kept = (measurementOf j).bind (filedUnder p)
  found : ∀ m, measurementOf j = some m → j.spec.kept.isSome

/-! ## A new command's job -/

section
variable {K : Type} [DecidableEq K] {live : Nat → Bool} {next : Nat} {lines : Weak K}

theorem forLine_ok (h : lines.Ok next) (key : K) (interval : Nat) :
    (forLine live next lines key interval).2.Ok (next + 1) := by
  unfold forLine
  split
  · exact h.mono (Nat.le_succ next)
  · dsimp only
    cases (lines.prune live).upgrade live key with
    | some a => exact (h.prune live).mono (Nat.le_succ next)
    | none => exact (h.prune live).insert key

theorem forLine_self (key : K) {interval : Nat} (h : 0 < interval) :
    (forLine live next lines key interval).2.lookup key = some (forLine live next lines key interval).1 := by
  unfold forLine
  rw [if_neg (Nat.ne_of_gt h)]
  dsimp only
  cases hup : (lines.prune live).upgrade live key with
  | some a => exact (Weak.upgrade_eq_some.mp hup).1
  | none => exact AList.lookup_insert _

/-- What is live stays filed. -/
theorem forLine_live (key : K) (interval : Nat) {k : K} {a : Nat} (hk : lines.lookup k = some a)
    (ha : live a = true) : (forLine live next lines key interval).2.lookup k = some a := by
  have hpruned : (lines.prune live).lookup k = some a := by
    rw [Weak.lookup_prune]
    exact Weak.upgrade_eq_some.mpr ⟨hk, ha⟩
  unfold forLine
  split
  · exact hk
  · dsimp only
    cases hup : (lines.prune live).upgrade live key with
    | some b => exact hpruned
    | none =>
      have hne : k ≠ key := by
        rintro rfl
        rw [Weak.upgrade_eq_some.mpr ⟨hpruned, ha⟩] at hup
        cases hup
      show (AList.insert key next (lines.prune live)).lookup k = some a
      rw [AList.lookup_insert_ne hne]
      exact hpruned

end

/-- The tables are in order. -/
structure Tables (p : Probe) : Prop where
  pings : p.pings.Ok p.next
  traceroutes : p.traceroutes.Ok p.next

/-- What a job of the probe's keeps is live. -/
theorem live_of_held {p : Probe} {j : Job} (hj : j ∈ p.held) {k : Kept} (hk : j.spec.kept = some k) :
    p.live k = true :=
  List.any_eq_true.mpr ⟨j, hj, by rw [hk]; exact beq_self_eq_true _⟩

/-- A job that is held stays filed while the tables keep what is live. -/
theorem filed_of_live {p p' : Probe}
    (hp : ∀ l a, p.pings.lookup l = some a → p.live (.ping a) = true → p'.pings.lookup l = some a)
    (ht : ∀ l a, p.traceroutes.lookup l = some a → p.live (.traceroute a) = true →
      p'.traceroutes.lookup l = some a)
    {j : Job} (hj : j ∈ p.held) (h : Filed p j) : Filed p' j := by
  refine ⟨h.recurring, ?_, h.found⟩
  cases hm : measurementOf j with
  | none => rw [h.kept, hm]; rfl
  | some m =>
    obtain ⟨k, hk⟩ := Option.isSome_iff_exists.mp (h.found m hm)
    have hfiled : filedUnder p m = some k := by
      have := h.kept
      rw [hm, hk] at this
      exact this.symm
    have hlive := live_of_held hj hk
    rw [hk, Option.bind_some]
    cases m with
    | inl l =>
      obtain ⟨a, ha, rfl⟩ := Option.map_eq_some_iff.mp hfiled
      rw [filedUnder, hp l a ha hlive, Option.map_some]
    | inr l =>
      obtain ⟨a, ha, rfl⟩ := Option.map_eq_some_iff.mp hfiled
      rw [filedUnder, ht l a ha hlive, Option.map_some]

/-- The same job, its specification with what it keeps. -/
def withKept (job : MeasurementJob MeasurementSpec) (kept : Option Kept) : Job :=
  ⟨job.msmId, job.interval, job.startTime, job.endTime, job.spread, ⟨job.spec, kept⟩⟩

section
variable (p : Probe) (job : MeasurementJob MeasurementSpec)

theorem keep_ping {s : PingJobSpec} (h : job.spec = .ping s) :
    p.keep job =
      let r := forLine (fun a => p.live (.ping a)) p.next p.pings
        (pingLine job.msmId job.interval job.startTime s) job.interval
      (withKept job (some (.ping r.1)), { p with pings := r.2, next := p.next + 1 }) := by
  unfold Probe.keep withKept
  simp only [h]

theorem keep_traceroute {s : TracerouteJobSpec} (h : job.spec = .traceroute s) :
    p.keep job =
      let r := forLine (fun a => p.live (.traceroute a)) p.next p.traceroutes
        (tracerouteLine job.msmId job.interval job.startTime s) job.interval
      (withKept job (some (.traceroute r.1)), { p with traceroutes := r.2, next := p.next + 1 }) := by
  unfold Probe.keep withKept
  simp only [h]

theorem keep_other (hp : ∀ s, job.spec ≠ .ping s) (ht : ∀ s, job.spec ≠ .traceroute s) :
    p.keep job = (withKept job none, p) := by
  unfold Probe.keep withKept
  split
  · rename_i s h
    exact absurd h (hp s)
  · rename_i s h
    exact absurd h (ht s)
  · rfl

end

theorem measurementOf_ping {job : MeasurementJob MeasurementSpec} {s : PingJobSpec} (h : job.spec = .ping s)
    (kept : Option Kept) :
    measurementOf (withKept job kept) = some (.inl (pingLine job.msmId job.interval job.startTime s)) := by
  simp only [measurementOf, withKept, h]

theorem measurementOf_traceroute {job : MeasurementJob MeasurementSpec} {s : TracerouteJobSpec}
    (h : job.spec = .traceroute s) (kept : Option Kept) :
    measurementOf (withKept job kept) = some (.inr (tracerouteLine job.msmId job.interval job.startTime s)) := by
  simp only [measurementOf, withKept, h]

theorem measurementOf_other {job : MeasurementJob MeasurementSpec} (hp : ∀ s, job.spec ≠ .ping s)
    (ht : ∀ s, job.spec ≠ .traceroute s) (kept : Option Kept) : measurementOf (withKept job kept) = none := by
  unfold measurementOf
  split
  · rename_i s h
    exact absurd h (hp s)
  · rename_i s h
    exact absurd h (ht s)
  · rfl

/-- A new job is filed, and so stays every job that is held. -/
theorem keep_spec {p : Probe} (h : Tables p) (job : MeasurementJob MeasurementSpec) :
    Tables (p.keep job).2 ∧ (0 < job.interval → Filed (p.keep job).2 (p.keep job).1) ∧
      (∀ j ∈ p.held, Filed p j → Filed (p.keep job).2 j) := by
  by_cases hp : ∃ s, job.spec = .ping s
  · obtain ⟨s, hs⟩ := hp
    rw [keep_ping p job hs]
    dsimp only
    refine ⟨⟨forLine_ok h.pings _ _, h.traceroutes.mono (Nat.le_succ _)⟩, fun hi => ⟨hi, ?_, fun _ _ => rfl⟩,
      fun j hj hf => filed_of_live ?_ ?_ hj hf⟩
    · rw [measurementOf_ping hs, Option.bind_some, filedUnder]
      dsimp only
      rw [forLine_self _ hi]
      rfl
    · exact fun l a hl ha => forLine_live _ _ hl ha
    · exact fun _ _ hl _ => hl
  · by_cases ht : ∃ s, job.spec = .traceroute s
    · obtain ⟨s, hs⟩ := ht
      rw [keep_traceroute p job hs]
      dsimp only
      refine ⟨⟨h.pings.mono (Nat.le_succ _), forLine_ok h.traceroutes _ _⟩,
        fun hi => ⟨hi, ?_, fun _ _ => rfl⟩, fun j hj hf => filed_of_live ?_ ?_ hj hf⟩
      · rw [measurementOf_traceroute hs, Option.bind_some, filedUnder]
        dsimp only
        rw [forLine_self _ hi]
        rfl
      · exact fun _ _ hl _ => hl
      · exact fun l a hl ha => forLine_live _ _ hl ha
    · have hp : ∀ s, job.spec ≠ .ping s := fun s hs => hp ⟨s, hs⟩
      have ht : ∀ s, job.spec ≠ .traceroute s := fun s hs => ht ⟨s, hs⟩
      rw [keep_other p job hp ht]
      have hnone := measurementOf_other hp ht none
      refine ⟨h, fun hi => ⟨hi, by rw [hnone]; rfl, fun m hm => ?_⟩, fun j _ hf => hf⟩
      rw [hnone] at hm
      cases hm

/-- Nothing but the tables changes. -/
theorem keep_frame (p : Probe) (job : MeasurementJob MeasurementSpec) :
    (p.keep job).2 = { p with
      pings := (p.keep job).2.pings
      traceroutes := (p.keep job).2.traceroutes
      next := (p.keep job).2.next } := by
  obtain ⟨msmId, interval, startTime, endTime, spread, spec⟩ := job
  cases spec <;> rfl

theorem keep_interval (p : Probe) (job : MeasurementJob MeasurementSpec) :
    (p.keep job).1.interval = job.interval := by
  obtain ⟨msmId, interval, startTime, endTime, spread, spec⟩ := job
  cases spec <;> rfl

/-! ## The invariant -/

/-- The recurring jobs a command brings. -/
def recurring : SchedulerCommand → List Job
  | .schedule job => [job]
  | .crontab c => c.lines.map (·.job)
  | .stop _ => []
  | .executeNow _ => []

structure Inv (p : Probe) : Prop where
  tables : Tables p
  lines : ∀ k t, p.lines.lines.lookup k = some t → Filed p t.job
  channel : ∀ c ∈ p.channel, ∀ j ∈ recurring c, Filed p j
  crontab : ∀ c, p.crontab = some c → ∀ l ∈ c.lines, Filed p l.job

theorem inv_init : Inv {} where
  tables := ⟨Weak.ok_empty _, Weak.ok_empty _⟩
  lines k t h := by cases h
  channel c hc := absurd hc List.not_mem_nil
  crontab c hc := by cases hc

/-- Whether a job is filed depends on the tables, and not on its end time. -/
theorem filed_congr {p p' : Probe} (hp : p'.pings = p.pings) (ht : p'.traceroutes = p.traceroutes) {j : Job}
    (h : Filed p j) (endTime : Int) : Filed p' { j with endTime } := by
  refine ⟨h.recurring, ?_, h.found⟩
  have hf : filedUnder p' = filedUnder p := funext fun m => by
    cases m <;> simp only [filedUnder, hp, ht]
  rw [hf]
  exact h.kept

/-! ## The scheduler's lines -/

theorem takeEndTime_job {S : Type} (t : ScheduledTask S) (endTime now : Int) (draw : Nat) :
    (t.takeEndTime endTime now draw).job = { t.job with endTime } := by
  unfold ScheduledTask.takeEndTime
  dsimp only
  split <;> rfl

/-- However often a crontab lists a line, its job's end time is all it takes. -/
theorem foldl_takeEndTime_job {S : Type} (now : Int) (draw : Nat → Nat) (is : List (Impl.Scheduler.CrontabLine S × Nat))
    (t : ScheduledTask S) :
    ∃ endTime, (is.foldl (fun t i => t.takeEndTime i.1.job.endTime now (draw i.2)) t).job =
      { t.job with endTime } := by
  induction is generalizing t with
  | nil => exact ⟨t.job.endTime, rfl⟩
  | cons i is ih =>
    obtain ⟨endTime, h⟩ := ih (t.takeEndTime i.1.job.endTime now (draw i.2))
    exact ⟨endTime, by rw [List.foldl_cons, h, takeEndTime_job]⟩

/-- The jobs after a crontab: those of the lines before it, and its own. -/
theorem synchronize_job {S : Type} {lines : Lines S} {c : Crontab S} {now : Int} {draw : Nat → Nat}
    {k : LineKey} {t : ScheduledTask S} (h : (lines.synchronize c now draw).2.lines.lookup k = some t) :
    ∃ endTime, (∃ t', lines.lines.lookup k = some t' ∧ t.job = { t'.job with endTime }) ∨
      ∃ l ∈ c.lines, t.job = { l.job with endTime } := by
  cases hk : k.inFile c.file with
  | false =>
    rw [synchronize_others lines c now draw hk] at h
    exact ⟨t.job.endTime, .inl ⟨t, h, rfl⟩⟩
  | true =>
    have hlisted : k ∈ listed c := (synchronize_keys lines c now draw hk).mp (AList.lookup_isSome.mp (by rw [h]; rfl))
    cases hold : lines.lines.lookup k with
    | some t' =>
      rw [synchronize_keeps lines c now draw hlisted hold] at h
      obtain ⟨endTime, hjob⟩ := foldl_takeEndTime_job now draw (occurrences c k) t'
      rw [Option.some.inj h] at hjob
      exact ⟨endTime, .inl ⟨t', rfl, hjob⟩⟩
    | none =>
      cases hocc : occurrences c k with
      | nil => exact absurd hocc (mem_listed_iff.mp hlisted)
      | cons first rest =>
        rw [synchronize_starts lines c now draw hold hocc] at h
        obtain ⟨endTime, hjob⟩ := foldl_takeEndTime_job now draw rest (start first.1.job now (draw first.2))
        rw [Option.some.inj h] at hjob
        have hmem : first ∈ c.lines.zipIdx := List.mem_of_mem_filter (hocc ▸ List.mem_cons_self)
        exact ⟨endTime, .inr ⟨first.1, List.fst_mem_of_mem_zipIdx hmem, hjob⟩⟩

theorem afterDue_cases {S : Type} (now : Int) (draw : LineKey → Nat) (k : LineKey) (t : ScheduledTask S) :
    Lines.afterDue now draw k t = none ∨ Lines.afterDue now draw k t = some t ∨
      Lines.afterDue now draw k t = some (t.scheduleNext now (draw k)) := by
  unfold Lines.afterDue
  dsimp only
  split_ifs
  · exact .inl rfl
  · exact .inr (.inl rfl)
  · exact .inl rfl
  · exact .inr (.inr rfl)

theorem takeDue_job {S : Type} {lines : Lines S} {now : Int} {draw : LineKey → Nat} {k : LineKey}
    {t : ScheduledTask S} (h : (lines.takeDue now draw).2.lines.lookup k = some t) :
    ∃ t', lines.lines.lookup k = some t' ∧ t.job = t'.job := by
  have h : (lines.lines.retain (Lines.afterDue now draw)).lookup k = some t := h
  rw [Assoc.lookup_retain] at h
  obtain ⟨t', hold, ht⟩ := Option.bind_eq_some_iff.mp h
  refine ⟨t', hold, ?_⟩
  rcases afterDue_cases now draw k t' with hc | hc | hc <;> rw [hc] at ht
  · cases ht
  · rw [Option.some.inj ht]
  · rw [← Option.some.inj ht]
    rfl

theorem stop_job {S : Type} {lines : Lines S} {msmId : UInt64} {k : LineKey} {t : ScheduledTask S}
    (h : (lines.stop msmId).lines.lookup k = some t) : lines.lines.lookup k = some t := by
  unfold Lines.stop at h
  rw [Assoc.lookup_retain] at h
  obtain ⟨t', hold, ht⟩ := Option.bind_eq_some_iff.mp h
  split at ht
  · rw [hold, ht]
  · cases ht

/-! ## One event -/

/-- Where the tables stay, filed jobs up to their end time stay filed. -/
theorem inv_of_jobs {p p' : Probe} (h : Inv p) (hp : p'.pings = p.pings)
    (ht : p'.traceroutes = p.traceroutes) (hn : p'.next = p.next)
    (hl : ∀ k t, p'.lines.lines.lookup k = some t → ∃ j endTime, Filed p j ∧ t.job = { j with endTime })
    (hc : ∀ c ∈ p'.channel, ∀ j ∈ recurring c, Filed p j)
    (hg : ∀ c, p'.crontab = some c → ∀ l ∈ c.lines, Filed p l.job) : Inv p' := by
  have hsame : ∀ j, Filed p j → Filed p' j := fun j hj => filed_congr hp ht hj j.endTime
  refine ⟨⟨?_, ?_⟩, ?_, ?_, ?_⟩
  · rw [hp, hn]; exact h.tables.pings
  · rw [ht, hn]; exact h.tables.traceroutes
  · intro k t hk
    obtain ⟨j, endTime, hj, heq⟩ := hl k t hk
    rw [heq]
    exact filed_congr hp ht hj endTime
  · exact fun c hc' j hj => hsame j (hc c hc' j hj)
  · exact fun c hc' l hl => hsame _ (hg c hc' l hl)

theorem send_inv {p : Probe} (h : Inv p) (c : SchedulerCommand) (hc : ∀ j ∈ recurring c, Filed p j) :
    Inv (p.send c) := by
  refine inv_of_jobs h rfl rfl rfl (fun k t hk => ⟨t.job, t.job.endTime, h.lines k t hk, rfl⟩) ?_ h.crontab
  intro c' hc'
  rcases List.mem_append.mp hc' with hc' | hc'
  · exact h.channel c' hc'
  · rw [List.mem_singleton.mp hc']
    exact hc

theorem mem_held_of_lines {p : Probe} {k : LineKey} {t : ScheduledTask JobSpec}
    (h : p.lines.lines.lookup k = some t) : t.job ∈ p.held := by
  refine List.mem_append_left _ (List.mem_append_left _ (List.mem_append_left _ ?_))
  exact List.mem_map.mpr ⟨⟨k, t⟩, AList.mem_lookup_iff.mp h, rfl⟩

theorem mem_held_of_channel {p : Probe} {c : SchedulerCommand} (hc : c ∈ p.channel) {j : Job}
    (hj : j ∈ recurring c) : j ∈ p.held := by
  refine List.mem_append_left _ (List.mem_append_left _ (List.mem_append_right _ ?_))
  refine List.mem_flatMap.mpr ⟨c, hc, ?_⟩
  cases c with
  | schedule job => exact hj
  | crontab c => exact hj
  | stop msmId => exact hj
  | executeNow job => exact absurd hj List.not_mem_nil

theorem mem_held_of_crontab {p : Probe} {c : Crontab JobSpec} (hc : p.crontab = some c)
    {l : Impl.Scheduler.CrontabLine JobSpec} (hl : l ∈ c.lines) : l.job ∈ p.held := by
  refine List.mem_append_left _ (List.mem_append_right _ ?_)
  rw [hc]
  refine List.mem_flatMap.mpr ⟨c, List.mem_singleton_self c, List.mem_map_of_mem hl⟩

theorem keep_inv {p : Probe} (h : Inv p) (job : MeasurementJob MeasurementSpec) : Inv (p.keep job).2 := by
  obtain ⟨htables, -, hheld⟩ := keep_spec h.tables job
  have hf := keep_frame p job
  have hlines : (p.keep job).2.lines = p.lines := by rw [hf]
  have hchannel : (p.keep job).2.channel = p.channel := by rw [hf]
  have hcrontab : (p.keep job).2.crontab = p.crontab := by rw [hf]
  refine ⟨htables, ?_, ?_, ?_⟩
  · intro k t hk
    rw [hlines] at hk
    exact hheld _ (mem_held_of_lines hk) (h.lines k t hk)
  · intro c hc j hj
    rw [hchannel] at hc
    exact hheld j (mem_held_of_channel hc hj) (h.channel c hc j hj)
  · intro c hc l hl
    rw [hcrontab] at hc
    exact hheld _ (mem_held_of_crontab hc hl) (h.crontab c hc l hl)

/-- A new job goes to its crontab or to the scheduler. -/
theorem take_inv {p : Probe} (h : Inv p) (command : TelnetCommand) (shell : Option String) :
    Inv (p.take command shell) := by
  unfold Probe.take
  dsimp only
  split
  · rename_i job hjob
    have h' := keep_inv h job
    have hnew := (keep_spec h.tables job).2.1
    have hi := keep_interval p job
    split
    · rename_i hpos
      rw [hi] at hpos
      split
      · rename_i crontab shell hc
        refine inv_of_jobs h' rfl rfl rfl (fun k t hk => ⟨t.job, t.job.endTime, h'.lines k t hk, rfl⟩)
          h'.channel ?_
        intro c' hc' l hl
        obtain rfl := Option.some.inj hc'
        rcases List.mem_append.mp hl with hl | hl
        · exact h'.crontab crontab hc l hl
        · rw [List.mem_singleton.mp hl]
          exact hnew hpos
      · refine send_inv h' _ fun j hj => ?_
        rw [List.mem_singleton.mp hj]
        exact hnew hpos
    · exact send_inv h' _ fun j hj => absurd hj List.not_mem_nil
  · split
    · exact send_inv h _ fun j hj => absurd hj List.not_mem_nil
    · exact h

/-- What is received: a crontab's lines are taken one by one. -/
theorem received_inv {q : Probe} (hq : Inv q) (received : Option TelnetCommand) :
    Inv (match received with
      | some (.crontab spec) =>
        { q with
          crontabLines := spec.lines.map fun line => (line.command, line.shell)
          crontab := some ⟨spec.dir, []⟩ }
      | some command => q.take command none
      | none => q) := by
  split
  · refine inv_of_jobs hq rfl rfl rfl (fun k t hk => ⟨t.job, t.job.endTime, hq.lines k t hk, rfl⟩)
      hq.channel fun c hc l hl => ?_
    obtain rfl := Option.some.inj hc
    exact absurd hl List.not_mem_nil
  · exact take_inv hq _ none
  · exact hq

theorem pass_inv {p : Probe} (h : Inv p) (received : Option TelnetCommand) : Inv (p.pass received) := by
  unfold Probe.pass
  split
  · rename_i command shell rest hrest
    have h' : Inv { p with crontabLines := rest } :=
      inv_of_jobs h rfl rfl rfl (fun k t hk => ⟨t.job, t.job.endTime, h.lines k t hk, rfl⟩) h.channel h.crontab
    exact take_inv h' command (some shell)
  · have hsent : ∀ crontab, p.crontab = some crontab →
        Inv { p.send (.crontab crontab) with crontab := none } := fun crontab hc => by
      have hs : Inv (p.send (.crontab crontab)) := send_inv h _ fun j hj => by
        obtain ⟨l, hl, rfl⟩ := List.mem_map.mp hj
        exact h.crontab crontab hc l hl
      exact inv_of_jobs hs rfl rfl rfl (fun k t hk => ⟨t.job, t.job.endTime, hs.lines k t hk, rfl⟩)
        hs.channel fun c hc => by cases hc
    cases hc : p.crontab with
    | some crontab => exact received_inv (hsent crontab hc) received
    | none => exact received_inv h received

theorem schedule_inv {p : Probe} (h : Inv p) (now : Int) (draw : Nat → Nat) : Inv (p.schedule now draw) := by
  unfold Probe.schedule
  split
  · exact h
  · rename_i command channel hch
    have hmem : ∀ c ∈ channel, c ∈ p.channel := fun c hc => hch ▸ List.mem_cons_of_mem _ hc
    have hcmd : ∀ j ∈ recurring command, Filed p j := h.channel command (hch ▸ List.mem_cons_self)
    have hchannel : ∀ c ∈ channel, ∀ j ∈ recurring c, Filed p j := fun c hc => h.channel c (hmem c hc)
    have hlines : ∀ k t, p.lines.lines.lookup k = some t →
        ∃ j endTime, Filed p j ∧ t.job = { j with endTime } := fun k t hk =>
      ⟨t.job, t.job.endTime, h.lines k t hk, rfl⟩
    dsimp only
    cases command with
    | schedule job =>
      dsimp only
      split
      · exact inv_of_jobs h rfl rfl rfl hlines hchannel h.crontab
      · refine inv_of_jobs h rfl rfl rfl (fun k t hk => ?_) hchannel h.crontab
        have hk : (p.lines.lines.insert (LineKey.own job.msmId) (start job now (draw 0))).lookup k = some t := hk
        by_cases hkey : k = LineKey.own job.msmId
        · rw [hkey, AList.lookup_insert] at hk
          obtain rfl := Option.some.inj hk
          exact ⟨job, job.endTime, hcmd job (List.mem_singleton_self job), rfl⟩
        · rw [AList.lookup_insert_ne hkey] at hk
          exact hlines k t hk
    | crontab crontab =>
      refine inv_of_jobs h rfl rfl rfl (fun k t hk => ?_) hchannel h.crontab
      obtain ⟨endTime, ⟨t', ht', hjob⟩ | ⟨l, hl, hjob⟩⟩ := synchronize_job hk
      · exact ⟨t'.job, endTime, h.lines k t' ht', hjob⟩
      · exact ⟨l.job, endTime, hcmd l.job (List.mem_map_of_mem hl), hjob⟩
    | stop msmId =>
      exact inv_of_jobs h rfl rfl rfl (fun k t hk => hlines k t (stop_job hk)) hchannel h.crontab
    | executeNow job => exact inv_of_jobs h rfl rfl rfl hlines hchannel h.crontab

theorem step_inv {p : Probe} (h : Inv p) (e : Probe.Event) : Inv (p.step e) := by
  cases e with
  | pass received => exact pass_inv h received
  | schedule now draw => exact schedule_inv h now draw
  | due now draw =>
    refine inv_of_jobs h rfl rfl rfl (fun k t hk => ?_) h.channel h.crontab
    obtain ⟨t', ht', hjob⟩ := takeDue_job hk
    exact ⟨t'.job, t'.job.endTime, h.lines k t' ht', hjob⟩
  | finish i =>
    exact inv_of_jobs h rfl rfl rfl (fun k t hk => ⟨t.job, t.job.endTime, h.lines k t hk, rfl⟩)
      h.channel h.crontab

/-! ## Which lines share -/

/-- No two distinct lines that are scheduled share what they keep. -/
def PerLine (p : Probe) : Prop :=
  ∀ k k' t t', p.lines.lines.lookup k = some t → p.lines.lines.lookup k' = some t' → k ≠ k' →
    ∀ kept, t.job.spec.kept = some kept → t'.job.spec.kept ≠ some kept

/-- No two distinct lines that are scheduled are the same measurement: a ping
or a traceroute of the same id, target and options, interval and start time. -/
def Distinct (p : Probe) : Prop :=
  ∀ k k' t t', p.lines.lines.lookup k = some t → p.lines.lines.lookup k' = some t' → k ≠ k' →
    ∀ m, measurementOf t.job = some m → measurementOf t'.job ≠ some m

/-- A line that a crontab repeats keeps what it has. -/
def Repeats (p : Probe) : Probe.Event → Prop
  | .schedule now draw => ∀ c rest, p.channel = .crontab c :: rest → ∀ k ∈ listed c,
      ∀ t, p.lines.lines.lookup k = some t →
        ∃ t', (p.step (.schedule now draw)).lines.lines.lookup k = some t' ∧ t'.job.spec = t.job.spec
  | _ => True

theorem step_repeats (p : Probe) (e : Probe.Event) : Repeats p e := by
  cases e with
  | schedule now draw =>
    intro c rest hch k hk t ht
    have hs := synchronize_keeps p.lines c now draw hk ht
    obtain ⟨endTime, hjob⟩ := foldl_takeEndTime_job now draw (occurrences c k) t
    refine ⟨(occurrences c k).foldl (fun t i => t.takeEndTime i.1.job.endTime now (draw i.2)) t, ?_, ?_⟩
    · show (p.schedule now draw).lines.lines.lookup k = _
      unfold Probe.schedule
      rw [hch]
      exact hs
    · rw [hjob]
  | pass received => trivial
  | due now draw => trivial
  | finish i => trivial

theorem filedUnder_inj {p : Probe} (h : Tables p) {m m' : PingLine ⊕ TracerouteLine} {kept : Kept}
    (hm : filedUnder p m = some kept) (hm' : filedUnder p m' = some kept) : m = m' := by
  cases m with
  | inl l =>
    obtain ⟨a, ha, rfl⟩ := Option.map_eq_some_iff.mp hm
    cases m' with
    | inl l' =>
      obtain ⟨a', ha', heq⟩ := Option.map_eq_some_iff.mp hm'
      obtain rfl : a' = a := by injection heq
      rw [h.pings.inj l l' a' ha ha']
    | inr l' =>
      obtain ⟨a', -, heq⟩ := Option.map_eq_some_iff.mp hm'
      cases heq
  | inr l =>
    obtain ⟨a, ha, rfl⟩ := Option.map_eq_some_iff.mp hm
    cases m' with
    | inl l' =>
      obtain ⟨a', -, heq⟩ := Option.map_eq_some_iff.mp hm'
      cases heq
    | inr l' =>
      obtain ⟨a', ha', heq⟩ := Option.map_eq_some_iff.mp hm'
      obtain rfl : a' = a := by injection heq
      rw [h.traceroutes.inj l l' a' ha ha']

/-- What a filed job has is what its measurement is filed under. -/
theorem Filed.measurement {p : Probe} {j : Job} (h : Filed p j) {kept : Kept} (hk : j.spec.kept = some kept) :
    ∃ m, measurementOf j = some m ∧ filedUnder p m = some kept := by
  have hf := h.kept
  rw [hk] at hf
  exact Option.bind_eq_some_iff.mp hf.symm

theorem perLine_iff {p : Probe} (h : Inv p) : PerLine p ↔ Distinct p := by
  constructor
  · intro hp k k' t t' ht ht' hne m hm hm'
    have hf := h.lines k t ht
    have hf' := h.lines k' t' ht'
    obtain ⟨kept, hkept⟩ := Option.isSome_iff_exists.mp (hf.found m hm)
    refine hp k k' t t' ht ht' hne kept hkept ?_
    rw [hf'.kept, hm', ← hm, ← hf.kept, hkept]
  · intro hd k k' t t' ht ht' hne kept hk hk'
    obtain ⟨m, hm, hfm⟩ := (h.lines k t ht).measurement hk
    obtain ⟨m', hm', hfm'⟩ := (h.lines k' t' ht').measurement hk'
    obtain rfl := filedUnder_inj h.tables hfm hfm'
    exact hd k k' t t' ht ht' hne m hm hm'

/-- Lines share nothing all along a run exactly if no two that are scheduled
at once are the same measurement; a repeated line always keeps what it has. -/
theorem kept_per_line_iff (es : List Probe.Event) :
    Always Probe.step PerLine {} es ∧ AllSteps Probe.step Repeats {} es ↔
      Always Probe.step Distinct {} es := by
  have hinv : Always Probe.step Inv {} es := always_of_step (fun p e h => step_inv h e) inv_init
  have hrep : AllSteps Probe.step Repeats {} es :=
    allSteps_of_always (P := Inv) (fun p e _ _ => step_repeats p e) hinv
  constructor
  · rintro ⟨hp, -⟩
    exact (hinv.and hp).mono fun p h => (perLine_iff h.1).mp h.2
  · intro hd
    exact ⟨(hinv.and hd).mono fun p h => (perLine_iff h.1).mpr h.2, hrep⟩

/-- A crontab with one ping twice, its options in another order. -/
def reordered : List Probe.Event :=
  let lines := ["240 274 0 UNIFORM 3 evping -4 -A 1001 192.0.2.1", "240 274 0 UNIFORM 3 evping -A 1001 -4 192.0.2.1"]
  [.pass (some (.crontab ⟨"crons/7", lines.map (cronline fun _ => none)⟩)), .pass none, .pass none, .pass none,
    .schedule 0 fun _ => 0]

theorem reordered_lines_share : ¬ Always Probe.step PerLine {} reordered := by
  have hboth : ∀ command ∈ ["evping -4 -A 1001 192.0.2.1", "evping -A 1001 -4 192.0.2.1"],
      ((run Probe.step {} reordered).lines.lines.lookup (.crontab "crons/7" 240 274 command)).any
        (·.job.spec.kept == some (.ping 0)) = true := by decide +kernel
  intro h
  obtain ⟨t, ht, hk⟩ := (Option.any_eq_true _ _).mp (hboth _ List.mem_cons_self)
  obtain ⟨t', ht', hk'⟩ := (Option.any_eq_true _ _).mp (hboth _ (List.mem_cons_of_mem _ List.mem_cons_self))
  exact h.last _ _ t t' ht ht' (by decide) (.ping 0) (beq_iff_eq.mp hk) (beq_iff_eq.mp hk')

end Starla.Proof.Scheduler.Kept
