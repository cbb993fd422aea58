import Mathlib.Data.List.ModifyLast
import Mathlib.Tactic.Common
import Starla.Framework.Run
import Starla.Impl.Traceroute.Net

/-!
# The course of a trace

A run with the probes it was asked for, and what was written while each of
them was waited for (`Log`). `Inv` says which hop each probe went to and what
the numbers of the trace are, so that none of them wraps.

* `nextProbe_cases` : the next probe, at the hop or at a new one.
* `reply_spec` : what a reply writes; it does not change the course.
* `step_inv` : one event.
* `trace_law` : a whole run.
-/

namespace Starla.Proof.Traceroute

open Starla.Framework Starla.Impl.Controller Starla.Impl.Traceroute

/-- The hop numbers of the result, in order. -/
def hopNumbers (t : Trace) : List Nat := t.hops.map fun h => h.hop.toNat

/-- What the result's hops hold, in order. -/
def entriesOf (t : Trace) : List Entry := t.hops.flatMap Hop.entries

/-! ## What writes an entry -/

theorem exists_last {t : Trace} (h : t.hops ≠ []) : ∃ init last, t.hops = init ++ [last] :=
  (List.eq_nil_or_concat' t.hops).resolve_left h

theorem push_spec {t : Trace} (h : t.hops ≠ []) (e : Entry) :
    (t.push e).hops ≠ [] ∧ hopNumbers (t.push e) = hopNumbers t ∧
      entriesOf (t.push e) = entriesOf t ++ [e] := by
  obtain ⟨init, last, heq⟩ := exists_last h
  unfold Trace.push hopNumbers entriesOf
  simp only [heq, List.modifyLast_concat]
  simp

/-- A smaller MTU changes only the size of the next probes. -/
theorem shrink_eq (t : Trace) (mtu headers : UInt32) :
    ∃ size, t.shrink mtu headers = { t with curpacksize := size } := by
  unfold Trace.shrink
  split
  · exact ⟨_, rfl⟩
  · exact ⟨t.curpacksize, rfl⟩

/-- What a reply says about the trace is in three fields. -/
theorem learn_eq (t : Trace) (a : Answer) (late dup : Bool) :
    ∃ size done notDone,
      t.learn a late dup = { t with curpacksize := size, done := done, notDone := notDone } := by
  have hid : ∃ size done notDone, t = { t with curpacksize := size, done := done, notDone := notDone } :=
    ⟨t.curpacksize, t.done, t.notDone, rfl⟩
  unfold Trace.learn
  split
  · split
    · exact ⟨t.curpacksize, t.done, true, rfl⟩
    · exact hid
  · split
    · exact ⟨t.curpacksize, t.done, true, rfl⟩
    · exact hid
  · split
    · obtain ⟨size, heq⟩ := shrink_eq t _ (20 + a.innerL4Len)
      exact ⟨size, true, true, by rw [heq]⟩
    · exact hid
  · split
    · obtain ⟨size, heq⟩ := shrink_eq t _ (40 + a.innerL4Len)
      exact ⟨size, t.done, true, by rw [heq]⟩
    · exact hid
  · split
    · exact ⟨t.curpacksize, true, t.notDone, rfl⟩
    · exact hid
  · split
    · exact ⟨t.curpacksize, true, t.notDone, rfl⟩
    · exact hid
  · exact ⟨t.curpacksize, true, t.notDone, rfl⟩

/-- What the trace does next is the same for both. -/
structure SameCourse (t t' : Trace) : Prop where
  count : t'.count = t.count
  hop : t'.hop = t.hop
  sent : t'.sent = t.sent
  seq : t'.seq = t.seq
  lastditch : t'.lastditch = t.lastditch
  finished : t'.finished = t.finished
  hops : t'.hops ≠ []
  hopNumbers : hopNumbers t' = hopNumbers t

/-- An entry that answers the probe in flight: neither late nor a duplicate. -/
def isAnswer : Entry → Bool
  | .reply _ late dup _ _ => late.isNone && !dup
  | _ => false

def isTimeout : Entry → Bool
  | .timeout => true
  | _ => false

def isError : Entry → Bool
  | .error _ => true
  | _ => false

variable (since : Duration → Duration → Millis)

/-- A reply writes one entry or none. It answers the probe in flight exactly
if its entry is neither late nor a duplicate, and then ends the wait. -/
theorem reply_spec {t : Trace} (h : t.hops ≠ []) (a : Answer) (now : Duration) :
    SameCourse t (t.reply since a now).2 ∧
    (((t.reply since a now) = (none, t)) ∨
      ∃ e, entriesOf (t.reply since a now).2 = entriesOf t ++ [e] ∧ isTimeout e = false ∧ isError e = false ∧
        isAnswer e = (t.reply since a now).1.isSome ∧ (isAnswer e → t.gotresp = false) ∧
        (t.reply since a now).2.gotresp = (t.gotresp || isAnswer e)) := by
  unfold Trace.reply
  dsimp only
  split
  · exact ⟨⟨rfl, rfl, rfl, rfl, rfl, rfl, h, rfl⟩, Or.inl rfl⟩
  generalize hlate : (if t.stale a = true then some (t.seq.toUInt32 - a.seq).toInt32.toInt else none) = late
  generalize he : Entry.reply a late (late.isNone && t.gotresp)
    (t.rtt since a late now) t.tos = e
  obtain ⟨hne, hnum, hent⟩ := push_spec h e
  obtain ⟨size, done, notDone, hlearn⟩ := learn_eq (t.push e) a late.isSome (late.isNone && t.gotresp)
  have hisAnswer : isAnswer e = (late.isNone && !(late.isNone && t.gotresp)) := by rw [← he]; rfl
  have hkinds : isTimeout e = false ∧ isError e = false := by rw [← he]; exact ⟨rfl, rfl⟩
  rw [hlearn, ← hisAnswer]
  have hgot : (t.push e).gotresp = t.gotresp := rfl
  have hanswer : isAnswer e = true → t.gotresp = false := by
    rw [hisAnswer]
    cases late <;> simp
  cases hfresh : isAnswer e with
  | true =>
    have hcourse (lastResponseHop : UInt8) : SameCourse t { t.push e with
        curpacksize := size, done := done, notDone := notDone, lastResponseHop := lastResponseHop
        gotresp := true } := ⟨rfl, rfl, rfl, rfl, rfl, rfl, hne, hnum⟩
    rw [hfresh] at hanswer
    simp only [if_true, Bool.true_and]
    refine ⟨?_, Or.inr ⟨e, ?_, hkinds.1, hkinds.2, by rw [hfresh]; rfl, fun _ => hanswer rfl, ?_⟩⟩
    · split
      · exact hcourse _
      · exact hcourse (t.push e).lastResponseHop
    · split <;> exact hent
    · rw [hfresh, Bool.or_true]
  | false =>
    simp only [Bool.false_and, Bool.false_eq_true, if_false]
    refine ⟨⟨rfl, rfl, rfl, rfl, rfl, rfl, hne, hnum⟩, Or.inr ⟨e, hent, hkinds.1, hkinds.2, by rw [hfresh]; rfl, ?_, ?_⟩⟩
    · rw [hfresh]
      simp
    · rw [hfresh, Bool.or_false]
      rfl

theorem timeout_spec {t : Trace} (h : t.hops ≠ []) :
    SameCourse t t.timeout ∧
      entriesOf t.timeout = entriesOf t ++ (if t.gotresp then [] else [.timeout]) := by
  unfold Trace.timeout
  split
  · exact ⟨⟨rfl, rfl, rfl, rfl, rfl, rfl, h, rfl⟩, (List.append_nil _).symm⟩
  · obtain ⟨hne, hnum, hent⟩ := push_spec h .timeout
    exact ⟨⟨rfl, rfl, rfl, rfl, rfl, rfl, hne, hnum⟩, hent⟩

/-! ## The next probe -/

/-- Where the next probe goes: the hop it is at, the one after it, or hop 255. -/
inductive NextHop (t t' : Trace) : Prop
  | same (sent : t.sent < t.count) (sent' : t'.sent = t.sent) (hop : t'.hop = t.hop)
      (lastditch : t'.lastditch = t.lastditch) (numbers : hopNumbers t' = hopNumbers t)
  | next (sent : t.count ≤ t.sent) (limit : t.hop < t.maxHops) (sent' : t'.sent = 0) (hop : t'.hop = t.hop + 1)
      (lastditch : t'.lastditch = t.lastditch) (numbers : hopNumbers t' = hopNumbers t ++ [(t.hop + 1).toNat])
  | last (sent : t.count ≤ t.sent) (limit : t.hop < t.maxHops) (sent' : t'.sent = 0) (hop : t'.hop = 255)
      (lastditch : t.lastditch = false) (lastditch' : t'.lastditch = true)
      (numbers : hopNumbers t' = hopNumbers t ++ [255])

/-- The next probe goes to the next hop, with the next sequence number. -/
structure NextProbe (t t' : Trace) (p : Probe) : Prop where
  count : t'.count = t.count
  maxHops : t'.maxHops = t.maxHops
  hops : t'.hops ≠ []
  gotresp : t'.gotresp = false
  finished : t'.finished = false
  entries : entriesOf t' = entriesOf t
  seq : t.seq + 1 ≠ 0 → p.seq = t.seq + 1
  seq' : t'.seq = p.seq
  hop : p.hop = t'.hop
  next : NextHop t t'

theorem nextHop_cases (t : Trace) (h : t.count ≤ t.sent) :
    ((t.nextHop.1 = false ∧ t.nextHop.2.hops = t.hops)) ∨
    t.nextHop.1 = true ∧ NextHop t t.nextHop.2 ∧ t.nextHop.2.hops ≠ [] ∧
      entriesOf t.nextHop.2 = entriesOf t ∧ t.nextHop.2.count = t.count ∧ t.nextHop.2.maxHops = t.maxHops ∧
      t.nextHop.2.gotresp = t.gotresp ∧ t.nextHop.2.finished = t.finished ∧ t.nextHop.2.seq = t.seq := by
  unfold Trace.nextHop
  split
  · exact Or.inl ⟨rfl, rfl⟩
  rename_i hgo
  have hlimit : t.hop < t.maxHops := by
    rw [not_or, ge_iff_le, UInt8.not_le] at hgo
    exact hgo.1
  dsimp only
  split
  · split
    · exact Or.inl ⟨rfl, rfl⟩
    · rename_i hditch
      refine Or.inr ⟨rfl, .last h hlimit rfl rfl (by simpa using hditch) rfl ?_, ?_, ?_, rfl, rfl, rfl, rfl, rfl⟩
      · simp [hopNumbers]
      · simp
      · simp [entriesOf]
  · refine Or.inr ⟨rfl, .next h hlimit rfl rfl rfl ?_, ?_, ?_, rfl, rfl, rfl, rfl, rfl⟩
    · simp [hopNumbers]
    · simp
    · simp [entriesOf]

theorem nextSeq_spec (t : Trace) (now : Duration) (h : t.seq + 1 ≠ 0) :
    (t.nextSeq now).1.seq = t.seq + 1 := by
  unfold Trace.nextSeq
  simp [h]

/-- The next probe: the trace is over, or there is one. -/
theorem nextProbe_cases {t : Trace} (hne : t.hops ≠ []) (hfin : t.finished = false) (now : Duration) :
    ((t.nextProbe now).1 = none ∧ (t.nextProbe now).2.hops = t.hops ∧ t.count ≤ t.sent) ∨
    ∃ p, (t.nextProbe now).1 = some p ∧ NextProbe t (t.nextProbe now).2 p := by
  unfold Trace.nextProbe
  dsimp only
  rw [if_neg (by simp [hfin])]
  by_cases hsent : t.sent ≥ t.count
  · rw [if_pos hsent]
    rcases nextHop_cases { t with gotresp := false } hsent with ⟨hend, hhops⟩ | ⟨hgo, hnext, hne', hent, hc, hm, hg, hf, hs⟩
    · rw [hend]
      exact Or.inl ⟨rfl, hhops, hsent⟩
    · rw [if_pos hgo]
      refine Or.inr ⟨_, rfl, ⟨hc, hm, hne', hg, hf.trans hfin, hent, fun h => ?_, rfl, rfl, ?_⟩⟩
      · have := nextSeq_spec (Trace.nextHop { t with gotresp := false }).2 now (by rw [hs]; exact h)
        rw [hs] at this
        exact this
      · cases hnext with
        | same s s' h l n => exact .same s s' h l n
        | next s m s' h l n => exact .next s m s' h l n
        | last s m s' h l l' n => exact .last s m s' h l l' n
  · rw [if_neg hsent, if_pos rfl]
    refine Or.inr ⟨_, rfl, ⟨rfl, rfl, hne, rfl, hfin, rfl, fun h => ?_, rfl, rfl, ?_⟩⟩
    · exact nextSeq_spec { t with gotresp := false } now h
    · exact .same (UInt8.not_le.mp hsent) rfl rfl rfl rfl

/-! ## A run -/

/-- A run, with the passes of its loop, the probes it was asked for, and what
was written while each of them was waited for: those whose wait is over, and
the one in flight. -/
structure Log where
  run : Run
  passes : Nat := 0
  probes : List Probe := []
  waits : List (List Entry) := []
  current : List Entry := []

def Log.start (v6 : Bool) (opts : TracerouteOptions) (paris : Option UInt16) : Log :=
  { run := .start v6 opts paris }

/-- The entries of `t'` that `t` has not. -/
def written (t t' : Trace) : List Entry := (entriesOf t').drop (entriesOf t).length

def Log.step (s : Log) (e : RunEvent) : Log :=
  let run := s.run.step since e
  match s.run.phase, e with
  | .next, .send xmit _ =>
    { s with run, passes := s.passes + 1, probes := s.probes ++ (s.run.trace.nextProbe xmit).1.toList }
  | .waiting, .reply _ _ => { s with run, current := s.current ++ written s.run.trace run.trace }
  | .waiting, .deadline =>
    { s with run, waits := s.waits ++ [s.current ++ written s.run.trace run.trace], current := [] }
  | _, _ => s

/-- Probes sent to the hops in order, `count` to each but the last. -/
def hopsOf (count : Nat) (numbers : List Nat) (last : Nat) : List Nat :=
  numbers.dropLast.flatMap (List.replicate count) ++ List.replicate last (numbers.getLastD 0)

/-- Hops one by one from `first`, and at most one jump, to hop 255 at the end. -/
def OneByOne (first : Nat) (numbers : List Nat) : Prop :=
  ∃ n, first + n ≤ 255 ∧ (numbers = List.range' first (n + 1) ∨
    first + n < 255 ∧ numbers = List.range' first (n + 1) ++ [255])

/-- A wait that is over: one answer, or one timeout. -/
def Settled (wait : List Entry) : Prop := wait.countP isAnswer + wait.countP isTimeout = 1

structure Inv (opts : TracerouteOptions) (s : Log) : Prop where
  count : s.run.phase ≠ .ended → s.run.trace.count = opts.count
  hops : s.run.trace.hops ≠ []
  finished : s.run.phase ≠ .ended → s.run.trace.finished = false
  last : s.run.phase ≠ .ended → (hopNumbers s.run.trace).getLastD 0 = s.run.trace.hop.toNat
  oneByOne : OneByOne opts.firstHop.toNat (hopNumbers s.run.trace)
  counting : s.run.phase ≠ .ended → s.run.trace.lastditch = false →
    ∃ n, hopNumbers s.run.trace = List.range' opts.firstHop.toNat (n + 1)
  lastditch : s.run.phase ≠ .ended → s.run.trace.lastditch = true → s.run.trace.hop = 255
  sent : s.run.phase ≠ .ended → s.run.trace.sent ≤ s.run.trace.count
  seq : s.run.phase ≠ .ended → s.run.trace.seq.toNat = s.probes.length
  seqs : s.probes.map (·.seq.toNat) = List.range' 1 s.probes.length
  /-- The probes of the last hop: all of them, unless one could not be sent. -/
  probes : ∃ k, k ≤ opts.count.toNat ∧
    s.probes.map (·.hop.toNat) = hopsOf opts.count.toNat (hopNumbers s.run.trace) k ∧
    (s.run.phase ≠ .ended → k = s.run.trace.sent.toNat) ∧
    (s.run.phase = .ended → k = opts.count.toNat ∨ (entriesOf s.run.trace).any isError)
  passes : s.run.phase ≠ .ended → s.passes = s.probes.length
  waits : ∀ w ∈ s.waits, Settled w
  waited : s.run.phase ≠ .ended →
    s.probes.length = s.waits.length + if s.run.phase = .waiting then 1 else 0
  current : s.run.phase = .waiting → s.current.countP isTimeout = 0 ∧
    s.current.countP isAnswer = if s.run.trace.gotresp then 1 else 0
  idle : s.run.phase = .next → s.current = []

theorem length_hopsOf (count : Nat) (numbers : List Nat) (last : Nat) :
    (hopsOf count numbers last).length = (numbers.length - 1) * count + last := by
  simp [hopsOf, List.length_flatMap, Nat.mul_comm]

theorem OneByOne.length_le {first : Nat} {numbers : List Nat} (h : OneByOne first numbers) :
    1 ≤ numbers.length ∧ numbers.length ≤ 256 := by
  obtain ⟨n, hn, rfl | ⟨hn', rfl⟩⟩ := h
  · rw [List.length_range']
    omega
  · rw [List.length_append, List.length_range', List.length_singleton]
    omega

/-- No hop is given more probes than there is room for. -/
theorem Inv.length_le {opts : TracerouteOptions} {s : Log} (h : Inv opts s) :
    s.probes.length ≤ 256 * opts.count.toNat := by
  obtain ⟨k, hk, hprobes, -, -⟩ := h.probes
  have hlen := congrArg List.length hprobes
  rw [List.length_map, length_hopsOf] at hlen
  have hhops := h.oneByOne.length_le
  rw [hlen]
  calc ((hopNumbers s.run.trace).length - 1) * opts.count.toNat + k
      ≤ 255 * opts.count.toNat + opts.count.toNat :=
        Nat.add_le_add (Nat.mul_le_mul_right _ (by omega)) hk
    _ = 256 * opts.count.toNat := by ring

theorem inv_start (v6 : Bool) (opts : TracerouteOptions) (paris : Option UInt16) :
    Inv opts (.start v6 opts paris) := by
  refine ⟨fun _ => rfl, by simp [Log.start, Run.start, Trace.new], fun _ => rfl, fun _ => rfl, ?_,
    fun _ _ => ⟨0, rfl⟩, fun _ h => (by cases h), fun _ => UInt8.zero_le, fun _ => rfl, rfl, ⟨0, Nat.zero_le _, rfl, fun _ => rfl, fun h => (by cases h)⟩,
    fun _ => rfl, by simp [Log.start], fun _ => rfl, fun h => (by cases h), fun _ => rfl⟩
  exact ⟨0, Nat.le_of_lt_succ opts.firstHop.toNat_lt, Or.inl rfl⟩

/-! ### The next probe of a run -/

theorem hopsOf_same (count : Nat) (numbers : List Nat) (k : Nat) :
    hopsOf count numbers (k + 1) = hopsOf count numbers k ++ [numbers.getLastD 0] := by
  rw [hopsOf, List.replicate_succ', ← List.append_assoc]
  rfl

theorem hopsOf_next (count : Nat) {numbers : List Nat} (h : numbers ≠ []) (hop : Nat) :
    hopsOf count (numbers ++ [hop]) 1 = hopsOf count numbers count ++ [hop] := by
  obtain ⟨init, last, rfl⟩ := (List.eq_nil_or_concat' numbers).resolve_left h
  simp [hopsOf]

/-- What a run that goes on knows once the next probe is `p`. -/
structure Asked (opts : TracerouteOptions) (s : Log) (t : Trace) (p : Probe) : Prop where
  last : (hopNumbers t).getLastD 0 = t.hop.toNat
  oneByOne : OneByOne opts.firstHop.toNat (hopNumbers t)
  counting : t.lastditch = false → ∃ n, hopNumbers t = List.range' opts.firstHop.toNat (n + 1)
  lastditch : t.lastditch = true → t.hop = 255
  sent : t.sent < opts.count
  seq : t.seq.toNat = s.probes.length + 1
  seqs : (s.probes ++ [p]).map (·.seq.toNat) = List.range' 1 (s.probes ++ [p]).length
  probes : (s.probes ++ [p]).map (·.hop.toNat) = hopsOf opts.count.toNat (hopNumbers t) (t.sent.toNat + 1)

theorem asked {opts : TracerouteOptions} (hcount : 1 ≤ opts.count) {s : Log} (hs : Inv opts s)
    (hphase : s.run.phase ≠ .ended) {t : Trace} {p : Probe} (h : NextProbe s.run.trace t p) :
    Asked opts s t p := by
  have hlen := hs.length_le
  have hc255 : opts.count.toNat < 256 := opts.count.toNat_lt
  have hseq : s.run.trace.seq.toNat = s.probes.length := hs.seq hphase
  have hnext : (s.run.trace.seq + 1).toNat = s.probes.length + 1 := by
    rw [UInt16.toNat_add, hseq]
    show (s.probes.length + 1) % 65536 = _
    omega
  have hpseq : p.seq.toNat = s.probes.length + 1 := by
    rw [h.seq (fun h0 => by rw [h0] at hnext; cases hnext), hnext]
  have hcnt := hs.count hphase
  have hlast := hs.last hphase
  obtain ⟨k, -, hprobes, hk, -⟩ := hs.probes
  have hk := hk hphase
  have hnumbers : hopNumbers s.run.trace ≠ [] := by simpa [hopNumbers] using hs.hops
  have hseqs : (s.probes ++ [p]).map (·.seq.toNat) = List.range' 1 (s.probes ++ [p]).length := by
    rw [List.map_append, List.length_append, List.length_singleton, hs.seqs, List.range'_concat]
    simp [hpseq, Nat.add_comm]
  cases h.next with
  | same hsent hsent' hhop hditch hnum =>
    refine ⟨?_, ?_, ?_, ?_, ?_, ?_, hseqs, ?_⟩
    · rw [hnum, hlast, hhop]
    · rw [hnum]; exact hs.oneByOne
    · rw [hnum, hditch]; exact hs.counting hphase
    · rw [hhop, hditch]; exact hs.lastditch hphase
    · rw [hsent', ← hcnt]; exact hsent
    · rw [h.seq', hpseq]
    · rw [List.map_append, hprobes, hnum, hsent', hk, hopsOf_same, hlast, List.map_singleton, h.hop, hhop]
  | next hsent hlimit hsent' hhop hditch hnum =>
    have hlt : s.run.trace.hop.toNat < 255 := by
      have h1 := UInt8.lt_iff_toNat_lt.mp hlimit
      have h2 := s.run.trace.maxHops.toNat_lt
      omega
    have hhop' : (s.run.trace.hop + 1).toNat = s.run.trace.hop.toNat + 1 := by
      rw [UInt8.toNat_add]
      show (s.run.trace.hop.toNat + 1) % 256 = _
      omega
    have hnoditch : s.run.trace.lastditch = false := by
      rw [← Bool.not_eq_true]
      intro hd
      rw [hs.lastditch hphase hd] at hlt
      exact absurd hlt (by decide)
    obtain ⟨n, hn⟩ := hs.counting hphase hnoditch
    have hfirst : s.run.trace.hop.toNat = opts.firstHop.toNat + n := by
      rw [← hlast, hn, List.range'_concat]
      simp
    have hnum' : hopNumbers t = List.range' opts.firstHop.toNat (n + 2) := by
      rw [hnum, hhop', hn, hfirst, List.range'_concat (n := n + 1)]
      simp [Nat.add_assoc]
    have hfull : k = opts.count.toNat := by
      have h1 := UInt8.le_iff_toNat_le.mp hsent
      have h2 := UInt8.le_iff_toNat_le.mp (hs.sent hphase)
      rw [hcnt] at h1 h2
      omega
    refine ⟨?_, ⟨n + 1, by omega, Or.inl hnum'⟩, fun _ => ⟨n + 1, hnum'⟩, ?_, ?_, ?_, hseqs, ?_⟩
    · rw [hnum, hhop]; simp
    · rw [hditch, hnoditch]; simp
    · rw [hsent']; exact UInt8.lt_iff_toNat_lt.mpr (UInt8.le_iff_toNat_le.mp hcount)
    · rw [h.seq', hpseq]
    · rw [List.map_append, hprobes, hnum, hsent', hfull, UInt8.toNat_zero, Nat.zero_add, hopsOf_next _ hnumbers,
        List.map_singleton, h.hop, hhop]
  | last hsent hlimit hsent' hhop hnoditch hditch hnum =>
    have hlt : s.run.trace.hop.toNat < 255 := by
      have h1 := UInt8.lt_iff_toNat_lt.mp hlimit
      have h2 := s.run.trace.maxHops.toNat_lt
      omega
    obtain ⟨n, hn⟩ := hs.counting hphase hnoditch
    have hfirst : s.run.trace.hop.toNat = opts.firstHop.toNat + n := by
      rw [← hlast, hn, List.range'_concat]
      simp
    have hfull : k = opts.count.toNat := by
      have h1 := UInt8.le_iff_toNat_le.mp hsent
      have h2 := UInt8.le_iff_toNat_le.mp (hs.sent hphase)
      rw [hcnt] at h1 h2
      omega
    refine ⟨?_, ⟨n, by omega, Or.inr ⟨by omega, by rw [hnum, hn]⟩⟩, ?_, fun _ => hhop, ?_, ?_, hseqs, ?_⟩
    · rw [hnum, hhop]; simp
    · rw [hditch]; simp
    · rw [hsent']; exact UInt8.lt_iff_toNat_lt.mpr (UInt8.le_iff_toNat_le.mp hcount)
    · rw [h.seq', hpseq]
    · rw [List.map_append, hprobes, hnum, hsent', hfull, UInt8.toNat_zero, Nat.zero_add, hopsOf_next _ hnumbers,
        List.map_singleton, h.hop, hhop]
      rfl

/-! ### One event -/

theorem written_of_append {t t' : Trace} {new : List Entry} (h : entriesOf t' = entriesOf t ++ new) :
    written t t' = new := by
  rw [written, h, List.drop_left]

/-- A wait: its replies and its end leave the course as it is. -/
theorem inv_wait {opts : TracerouteOptions} {s s' : Log} (hs : Inv opts s) (hphase : s.run.phase = .waiting)
    (hc : SameCourse s.run.trace s'.run.trace) (hphase' : s'.run.phase ≠ .ended) (hpasses : s'.passes = s.passes)
    (hprobes : s'.probes = s.probes) (hwaits : ∀ w ∈ s'.waits, Settled w)
    (hwaited : s'.probes.length = s'.waits.length + if s'.run.phase = .waiting then 1 else 0)
    (hcurrent : s'.run.phase = .waiting → s'.current.countP isTimeout = 0 ∧
      s'.current.countP isAnswer = if s'.run.trace.gotresp then 1 else 0)
    (hidle : s'.run.phase = .next → s'.current = []) : Inv opts s' := by
  have hlive : s.run.phase ≠ .ended := by rw [hphase]; simp
  refine ⟨fun _ => hc.count.trans (hs.count hlive), hc.hops, fun _ => hc.finished.trans (hs.finished hlive), fun _ => ?_,
    ?_, fun _ hd => ?_, fun _ hd => ?_, fun _ => ?_, fun _ => ?_, ?_, ?_, fun _ => ?_, hwaits, fun _ => hwaited, hcurrent, hidle⟩
  · rw [hc.hopNumbers, hc.hop]; exact hs.last hlive
  · rw [hc.hopNumbers]; exact hs.oneByOne
  · rw [hc.hopNumbers]; exact hs.counting hlive (hc.lastditch ▸ hd)
  · rw [hc.hop]; exact hs.lastditch hlive (hc.lastditch ▸ hd)
  · rw [hc.sent, hc.count]; exact hs.sent hlive
  · rw [hc.seq, hprobes]; exact hs.seq hlive
  · rw [hprobes]; exact hs.seqs
  · obtain ⟨k, hk, hp, hsent, -⟩ := hs.probes
    refine ⟨k, hk, ?_, fun _ => ?_, fun h => absurd h hphase'⟩
    · rw [hprobes, hc.hopNumbers]; exact hp
    · rw [hc.sent]; exact hsent hlive
  · rw [hpasses, hprobes]; exact hs.passes hlive

theorem inv_reply {opts : TracerouteOptions} {s : Log} (hs : Inv opts s) (hphase : s.run.phase = .waiting)
    (a : Answer) (now : Duration) : Inv opts (s.step since (.reply a now)) := by
  have hlive : s.run.phase ≠ .ended := by rw [hphase]; simp
  obtain ⟨hc, hwrite⟩ := reply_spec since hs.hops a now
  have hstep : s.step since (.reply a now) = { s with
      run := ⟨(s.run.trace.reply since a now).2, .waiting⟩
      current := s.current ++ written s.run.trace (s.run.trace.reply since a now).2 } := by
    unfold Log.step Run.step
    rw [hphase]
  have hcurrent := hs.current hphase
  rw [hstep]
  refine inv_wait hs hphase hc (by simp) rfl rfl hs.waits (by rw [hs.waited hlive, if_pos hphase]; rfl) (fun _ => ?_)
    fun h => (by cases h)
  show (s.current ++ written s.run.trace (s.run.trace.reply since a now).2).countP isTimeout = 0 ∧ _
  rcases hwrite with hnone | ⟨e, hent, htime, -, -, hfresh, hgot⟩
  · rw [hnone, written_of_append (List.append_nil _).symm, List.append_nil]
    exact hcurrent
  · rw [written_of_append hent, List.countP_append, List.countP_append, hcurrent.1, hcurrent.2]
    refine ⟨by simp [htime], ?_⟩
    show _ = if (s.run.trace.reply since a now).2.gotresp = true then 1 else 0
    rw [hgot]
    cases hans : isAnswer e with
    | true => simp [hans, hfresh hans]
    | false => simp [hans]

theorem inv_deadline {opts : TracerouteOptions} {s : Log} (hs : Inv opts s) (hphase : s.run.phase = .waiting) :
    Inv opts (s.step since .deadline) := by
  have hlive : s.run.phase ≠ .ended := by rw [hphase]; simp
  obtain ⟨hc, hent⟩ := timeout_spec hs.hops
  have hstep : s.step since .deadline = { s with
      run := ⟨s.run.trace.timeout, .next⟩
      waits := s.waits ++ [s.current ++ written s.run.trace s.run.trace.timeout]
      current := [] } := by
    unfold Log.step Run.step
    rw [hphase]
  obtain ⟨htimeouts, hanswers⟩ := hs.current hphase
  rw [hstep]
  refine inv_wait hs hphase hc (by simp) rfl rfl ?_ ?_ (fun h => (by cases h)) fun _ => rfl
  · intro w hw
    rcases List.mem_append.mp hw with hw | hw
    · exact hs.waits w hw
    · rw [List.mem_singleton.mp hw, written_of_append hent, Settled, List.countP_append, List.countP_append,
        htimeouts, hanswers]
      cases s.run.trace.gotresp <;> rfl
  · show s.probes.length = (s.waits ++ [_]).length + 0
    rw [hs.waited hlive, if_pos hphase, List.length_append]
    rfl

theorem inv_send {opts : TracerouteOptions} (hcount : 1 ≤ opts.count) {s : Log} (hs : Inv opts s)
    (hphase : s.run.phase = .next) (xmit : Duration) (sent : Except String Unit) :
    Inv opts (s.step since (.send xmit sent)) := by
  have hlive : s.run.phase ≠ .ended := by rw [hphase]; simp
  obtain ⟨k, hk, hprobes, hsent, -⟩ := hs.probes
  have hwaited := hs.waited hlive
  rw [hphase] at hwaited
  rcases nextProbe_cases hs.hops (hs.finished hlive) xmit with ⟨hnone, hhops, hfull⟩ | ⟨p, hsome, hnext⟩
  · generalize htr : (s.run.trace.nextProbe xmit).2 = t at hhops
    have hpair : s.run.trace.nextProbe xmit = (none, t) := by rw [← hnone, ← htr]
    have hstep : s.step since (.send xmit sent) = { s with
        run := ⟨t, .ended⟩, passes := s.passes + 1 } := by
      unfold Log.step Run.step
      rw [hphase]
      simp [hpair]
    have hnum : hopNumbers t = hopNumbers s.run.trace := by
      rw [hopNumbers, hhops]
      rfl
    rw [hstep]
    refine ⟨fun h => absurd rfl h, ?_, fun h => absurd rfl h, fun h => absurd rfl h, ?_, fun h => absurd rfl h,
      fun h => absurd rfl h, fun h => absurd rfl h, fun h => absurd rfl h, hs.seqs, ?_, fun h => absurd rfl h, hs.waits,
      fun h => absurd rfl h, fun h => (by cases h), fun h => (by cases h)⟩
    · show t.hops ≠ []
      rw [hhops]
      exact hs.hops
    · show OneByOne _ (hopNumbers t)
      rw [hnum]
      exact hs.oneByOne
    · refine ⟨k, hk, ?_, fun h => absurd rfl h, fun _ => Or.inl ?_⟩
      · show _ = hopsOf _ (hopNumbers t) k
        rw [hnum]
        exact hprobes
      · have h1 := UInt8.le_iff_toNat_le.mp hfull
        rw [hs.count hlive] at h1
        rw [hsent hlive] at hk ⊢
        omega
  · have hasked := asked hcount hs hlive hnext
    generalize htr : (s.run.trace.nextProbe xmit).2 = t at hnext hasked
    have hpair : s.run.trace.nextProbe xmit = (some p, t) := by rw [← hsome, ← htr]
    have hle : t.sent.toNat + 1 ≤ opts.count.toNat := UInt8.lt_iff_toNat_lt.mp hasked.sent
    have hcnt := hnext.count.trans (hs.count hlive)
    have hlength : (s.probes ++ [p]).length = s.probes.length + 1 := by
      rw [List.length_append, List.length_singleton]
    cases sent with
    | error text =>
      have hstep : s.step since (.send xmit (.error text)) = { s with
          run := ⟨t.sendFailed text, .ended⟩, passes := s.passes + 1, probes := s.probes ++ [p] } := by
        unfold Log.step Run.step
        rw [hphase]
        simp [hpair]
      obtain ⟨hne, hnum, hent⟩ := push_spec hnext.hops (.error text)
      have hnum' : hopNumbers (t.sendFailed text) = hopNumbers t := hnum
      rw [hstep]
      refine ⟨fun h => absurd rfl h, hne, fun h => absurd rfl h, fun h => absurd rfl h, hnum' ▸ hasked.oneByOne,
        fun h => absurd rfl h, fun h => absurd rfl h, fun h => absurd rfl h, fun h => absurd rfl h, hasked.seqs, ?_,
        fun h => absurd rfl h, hs.waits, fun h => absurd rfl h, fun h => (by cases h), fun h => (by cases h)⟩
      refine ⟨t.sent.toNat + 1, hle, ?_, fun h => absurd rfl h, fun _ => Or.inr ?_⟩
      · show _ = hopsOf _ (hopNumbers (t.sendFailed text)) _
        rw [hnum']
        exact hasked.probes
      · show (entriesOf (t.push (.error text))).any isError
        rw [hent]
        simp [isError]
    | ok u =>
      have hstep : s.step since (.send xmit (.ok u)) = { s with
          run := ⟨t.probeSent, .waiting⟩, passes := s.passes + 1, probes := s.probes ++ [p] } := by
        unfold Log.step Run.step
        rw [hphase]
        simp [hpair]
      have hsent' : t.probeSent.sent.toNat = t.sent.toNat + 1 := by
        have h255 : t.sent ≠ 255 := by
          intro h
          have := opts.count.toNat_lt
          rw [h] at hle
          exact absurd hle (by simp; omega)
        show (if t.sent = 255 then 255 else t.sent + 1).toNat = _
        rw [if_neg h255, UInt8.toNat_add]
        show (t.sent.toNat + 1) % 256 = _
        have := opts.count.toNat_lt
        omega
      rw [hstep]
      refine ⟨fun _ => hcnt, hnext.hops, fun _ => hnext.finished, fun _ => hasked.last, hasked.oneByOne,
        fun _ => hasked.counting, fun _ => hasked.lastditch, fun _ => ?_, fun _ => hasked.seq.trans hlength.symm,
        hasked.seqs, ?_, fun _ => ?_, hs.waits, fun _ => ?_, fun _ => ?_,
        fun h => (by cases h)⟩
      · rw [UInt8.le_iff_toNat_le]
        show t.probeSent.sent.toNat ≤ t.count.toNat
        rw [hsent', hcnt]
        exact hle
      · exact ⟨t.sent.toNat + 1, hle, hasked.probes, fun _ => hsent'.symm, fun h => (by cases h)⟩
      · show s.passes + 1 = _
        rw [hs.passes hlive, hlength]
      · show (s.probes ++ [p]).length = s.waits.length + 1
        rw [hlength, hwaited]
        rfl
      · have hgot : t.probeSent.gotresp = false := hnext.gotresp
        show s.current.countP isTimeout = 0 ∧ s.current.countP isAnswer = if t.probeSent.gotresp = true then 1 else 0
        rw [hs.idle hphase, hgot]
        exact ⟨rfl, rfl⟩

theorem step_inv {opts : TracerouteOptions} (hcount : 1 ≤ opts.count) (s : Log) (e : RunEvent) (hs : Inv opts s) :
    Inv opts (s.step since e) := by
  have hsame (h : s.step since e = s) : Inv opts (s.step since e) := by rw [h]; exact hs
  cases hphase : s.run.phase with
  | next =>
    cases e with
    | send xmit sent => exact inv_send since hcount hs hphase xmit sent
    | reply a now => exact hsame (by simp [Log.step, hphase])
    | deadline => exact hsame (by simp [Log.step, hphase])
  | waiting =>
    cases e with
    | send xmit sent => exact hsame (by simp [Log.step, hphase])
    | reply a now => exact inv_reply since hs hphase a now
    | deadline => exact inv_deadline since hs hphase
  | ended =>
    cases e with
    | send xmit sent => exact hsame (by simp [Log.step, hphase])
    | reply a now => exact hsame (by simp [Log.step, hphase])
    | deadline => exact hsame (by simp [Log.step, hphase])

/-! ### Whole runs -/

/-- A run of a trace with `count` at least 1, whatever replies come when: no
more than 256 * count probes are asked for, and the run has ended once its
loop has turned more often; the sequence numbers are 1, 2, 3 and so on; the
hop numbers go up one by one from the first, but for one jump to 255; the
probes go to the hops in order, `count` to each but the last, and to the last
as well once the run has ended, unless a probe could not be sent; and each
wait that is over has one answer or one timeout. -/
theorem trace_law (v6 : Bool) (opts : TracerouteOptions) (paris : Option UInt16) (hcount : 1 ≤ opts.count)
    (es : List RunEvent) :
    let s := run (Log.step since) (.start v6 opts paris) es
    (s.probes.length ≤ 256 * opts.count.toNat ∧ (s.run.phase ≠ .ended → s.passes ≤ 256 * opts.count.toNat)) ∧
    s.probes.map (·.seq.toNat) = List.range' 1 s.probes.length ∧
    OneByOne opts.firstHop.toNat (hopNumbers s.run.trace) ∧
    (∃ k, k ≤ opts.count.toNat ∧
      s.probes.map (·.hop.toNat) = hopsOf opts.count.toNat (hopNumbers s.run.trace) k ∧
      (s.run.phase = .ended → k = opts.count.toNat ∨ (entriesOf s.run.trace).any isError)) ∧
    ((s.run.phase ≠ .ended → s.probes.length = s.waits.length + if s.run.phase = .waiting then 1 else 0) ∧
      ∀ w ∈ s.waits, Settled w) := by
  have hs : Inv opts (run (Log.step since) (.start v6 opts paris) es) :=
    run_of_step (step_inv since hcount) (inv_start v6 opts paris)
  obtain ⟨k, hk, hprobes, -, hended⟩ := hs.probes
  refine ⟨⟨hs.length_le, fun h => ?_⟩, hs.seqs, hs.oneByOne, ⟨k, hk, hprobes, hended⟩, hs.waited, hs.waits⟩
  rw [hs.passes h]
  exact hs.length_le

/-- A silent hop of a default trace. -/
theorem trace_law_silent_hop :
    let s := run (Log.step fun _ _ => ⟨false, 0⟩) (.start true {} (some 1))
      [.send 0 (.ok ()), .deadline, .send 1 (.ok ()), .deadline, .send 2 (.ok ()), .deadline, .send 3 (.ok ())]
    s.probes.length ≤ 256 * 3 ∧ s.probes.map (·.hop.toNat) = [1, 1, 1, 2] :=
  ⟨(trace_law (fun _ _ => ⟨false, 0⟩) true {} (some 1) (by decide) _).1.1, by decide⟩

end Starla.Proof.Traceroute
