import Starla.Framework.Run
import Starla.Impl.Measurements.Session

/-!
# A ping's replies and timeouts

* `replay_answered` : where each request is answered once, before its interval
  ends and before the next request goes out, a replayed run is its requests
  and replies in order, none a duplicate, however many times the sequence
  number wraps.
* `no_timeout_after` : whatever a session is told, it records no timeout after
  a reply that is no duplicate or a request that could not be sent.
-/

namespace Starla.Proof.Measurements.Ping

open Starla.Framework Starla.Framework.Checked Starla.Impl.Measurements Starla.Impl.Measurements.Ping

variable {ρ : Type}

/-! ## Timeouts -/

/-- What ends the timeouts of a run. -/
def Decisive : PingEvent ρ → Prop
  | .sent _ error => error.isSome
  | .reply dup _ _ _ _ => dup = false
  | .timeout => False

/-- What is recorded has no timeout after what ends them, and the session knows
whether they have ended. -/
structure Settled (s : Session ρ) : Prop where
  known : ∀ e ∈ s.events, Decisive e → s.gotReply = true ∨ s.sendError = true
  order : ∀ before e after, s.events = before ++ e :: after → Decisive e → .timeout ∉ after

theorem settled_new (v6 : Bool) : Settled ({ v6 } : Session ρ) where
  known _ he := nomatch he
  order before e after h := absurd h (by simp)

/-- An event more, where it is no timeout after what ends them. -/
theorem Settled.push {s s' : Session ρ} (h : Settled s) {e : PingEvent ρ} (hevents : s'.events = s.events ++ [e])
    (hkept : s.gotReply = true ∨ s.sendError = true → s'.gotReply = true ∨ s'.sendError = true)
    (hdecisive : Decisive e → s'.gotReply = true ∨ s'.sendError = true)
    (htimeout : e = .timeout → ¬(s.gotReply = true ∨ s.sendError = true)) : Settled s' where
  known d hd hdec := by
    rw [hevents, List.mem_append, List.mem_singleton] at hd
    rcases hd with hd | rfl
    · exact hkept (h.known d hd hdec)
    · exact hdecisive hdec
  order before d after heq hdec hmem := by
    rw [hevents] at heq
    rcases List.eq_nil_or_concat after with rfl | ⟨init, last, rfl⟩
    · exact absurd hmem (by simp)
    rw [List.concat_eq_append, ← List.cons_append, ← List.append_assoc] at heq
    obtain ⟨hinit, hlast⟩ := List.append_inj' heq rfl
    rw [List.concat_eq_append, List.mem_append, List.mem_singleton] at hmem
    rcases hmem with hmem | rfl
    · exact h.order before d init hinit hdec hmem
    · have hd : d ∈ s.events := hinit ▸ by simp
      exact htimeout (List.cons.inj hlast).1 (h.known d hd hdec)

/-- A call keeps what is settled. -/
theorem settled_call (s : Session ρ) (c : Call ρ) (h : Settled s) : Settled (s.call c) := by
  cases c with
  | sent loc error =>
    refine h.push (e := .sent loc error) rfl (fun hs => ?_) (fun he => .inr ?_) (by simp)
    · exact hs.imp_right fun hs => by simp [Session.call, Session.sent, hs]
    · have : error.isSome = true := he
      simp [Session.call, Session.sent, this]
  | reply seq rtt ttl size dst =>
    refine h.push (e := .reply (seq != s.seq.toUInt16) rtt ttl size dst) rfl (fun hs => ?_) (fun he => .inl ?_) (by simp)
    · exact hs.imp_left fun hs => by simp [Session.call, Session.reply, hs]
    · have : (seq != s.seq.toUInt16) = false := he
      simp [Session.call, Session.reply, this]
  | intervalOver =>
    show Settled s.intervalOver
    rw [Session.intervalOver]
    by_cases hopen : (!s.gotReply && !s.sendError) = true
    · rw [if_pos hopen]
      exact h.push (e := .timeout) rfl id (fun he => he.elim) fun _ => by simp_all
    · rw [if_neg hopen]
      exact h

theorem no_timeout_after (v6 : Bool) (calls : List (Call ρ)) (before after : List (PingEvent ρ)) {e : PingEvent ρ}
    (he : Decisive e) (h : (run Session.call { v6 } calls).events = before ++ e :: after) : .timeout ∉ after :=
  (run_of_inv settled_call (settled_new v6)).order before e after h he

/-! ## A run answered in time -/

/-- Each request from the `i`th on has one reply, which comes before the
request's interval ends and before the next request goes out. -/
def Answered (interval : Nat) : List Probe → Prop
  | [] => True
  | probe :: probes => (∃ reply, probe.replies = [reply] ∧ reply.rtt < interval ∧
      ∀ next ∈ probes.head?, probe.sent + reply.rtt < next.sent) ∧ Answered interval probes

/-- What a run that is answered in time records of a request. -/
def answered (ms : Nat → ρ) (probe : Probe) : List (PingEvent ρ) :=
  .sent probe.loc none :: probe.replies.map fun reply => .reply false (ms reply.rtt) reply.ttl reply.size none

/-- The timeline of such a run, in order. -/
def ordered (interval : Nat) (i : Nat) : List Probe → List Moment
  | [] => []
  | probe :: probes =>
    ⟨probe.sent, 1, i, 0⟩ :: (replyMoments probe i 0 probe.replies ++
      ⟨intervalEnd interval probe probes.head?, 0, i, 0⟩ :: ordered interval (i + 1) probes)

theorem ordered_perm (interval : Nat) (i : Nat) (probes : List Probe) :
    (timeline interval i probes).Perm (ordered interval i probes) := by
  induction probes generalizing i with
  | nil => exact .refl _
  | cons probe probes ih =>
    exact .cons _ (List.perm_middle.symm.trans (.append_left _ (.cons _ (ih (i + 1)))))

theorem key_le {a b : Moment} (h : a.time < b.time ∨ a.time = b.time ∧ a.what < b.what) : a.key ≤ b.key := by
  rw [Moment.key, Moment.key, Prod.Lex.toLex_le_toLex]
  refine h.imp id fun ⟨ht, hw⟩ => ⟨ht, ?_⟩
  rw [Prod.Lex.toLex_le_toLex]
  exact .inl hw

/-- A reply comes before the interval it is in is over, and the interval is over
by the time the next request goes out. -/
theorem over_bounds {interval : Nat} {probe : Probe} {probes : List Probe} {reply : ProbeReply}
    (hrtt : reply.rtt < interval) (hnext : ∀ next ∈ probes.head?, probe.sent + reply.rtt < next.sent) :
    probe.sent + reply.rtt < intervalEnd interval probe probes.head? ∧
      ∀ next ∈ probes.head?, intervalEnd interval probe probes.head? ≤ next.sent := by
  cases probes with
  | nil =>
    refine ⟨?_, fun next h => nomatch h⟩
    show _ < probe.sent + interval
    omega
  | cons next probes =>
    have hlt := hnext next rfl
    refine ⟨?_, fun next' h => ?_⟩
    · show _ < min (probe.sent + interval) (max next.sent probe.sent)
      omega
    · obtain rfl := Option.some.inj h
      show min (probe.sent + interval) (max next.sent probe.sent) ≤ next.sent
      omega

theorem ordered_chain {interval : Nat} (i : Nat) {probes : List Probe} (h : Answered interval probes) :
    (ordered interval i probes).IsChain fun a b => a.key ≤ b.key := by
  induction probes generalizing i with
  | nil => exact .nil
  | cons probe probes ih =>
    obtain ⟨⟨reply, hreplies, hrtt, hnext⟩, hrest⟩ := h
    obtain ⟨hover, hover'⟩ := over_bounds hrtt hnext
    have hchain := ih (i + 1) hrest
    have hsent : (⟨probe.sent, 1, i, 0⟩ : Moment).key ≤ (⟨probe.sent + reply.rtt, 2, i, 0⟩ : Moment).key :=
      key_le (by
        show probe.sent < probe.sent + reply.rtt ∨ probe.sent = probe.sent + reply.rtt ∧ 1 < 2
        omega)
    have hreply : (⟨probe.sent + reply.rtt, 2, i, 0⟩ : Moment).key ≤
        (⟨intervalEnd interval probe probes.head?, 0, i, 0⟩ : Moment).key := key_le (.inl hover)
    rw [ordered, hreplies]
    refine .cons_cons hsent (.cons_cons hreply ?_)
    cases probes with
    | nil => exact .singleton _
    | cons next probes =>
      refine .cons_cons (key_le ?_) hchain
      have := hover' next rfl
      show intervalEnd interval probe (some next) < next.sent ∨ intervalEnd interval probe (some next) = next.sent ∧ 0 < 1
      exact (Nat.lt_or_eq_of_le this).imp id fun h => ⟨h, by decide⟩

theorem key_inj {a b : Moment} (h : a.key = b.key) : a = b := by
  obtain ⟨time, what, i, j⟩ := a
  obtain ⟨time', what', i', j'⟩ := b
  simpa [Moment.key] using h

/-- The timeline of a run answered in time, once sorted. -/
theorem mergeSort_timeline {interval : Nat} {probes : List Probe} (h : Answered interval probes) :
    ((timeline interval 0 probes).mergeSort fun a b => a.key ≤ b.key) = ordered interval 0 probes := by
  have : Trans (fun a b : Moment => a.key ≤ b.key) (fun a b : Moment => a.key ≤ b.key)
      (fun a b : Moment => a.key ≤ b.key) := ⟨le_trans⟩
  have hsorted := @List.pairwise_mergeSort Moment (fun a b => decide (a.key ≤ b.key))
    (fun a b c hab hbc => by
      simp only [decide_eq_true_eq] at hab hbc ⊢
      exact le_trans hab hbc)
    (fun a b => by
      simp only [Bool.or_eq_true, decide_eq_true_eq]
      exact le_total a.key b.key) (timeline interval 0 probes)
  refine @List.Perm.eq_of_pairwise Moment (fun a b => a.key ≤ b.key) _ _
    (fun a b _ _ hab hba => key_inj (le_antisymm hab hba))
    (hsorted.imp fun h => by simpa using h) (List.isChain_iff_pairwise.mp (ordered_chain 0 h)) ?_
  exact (List.mergeSort_perm _ _).trans (ordered_perm interval 0 probes)

theorem play_sent (ms : Nat → ρ) {all : List Probe} (s : Session ρ) {seqOf : List UInt8} (time : Nat) {i : Nat}
    {probe : Probe} (rest : List Moment) (hi : i < seqOf.length) (hprobe : index all i = .ok probe) :
    play ms all s seqOf (⟨time, 1, i, 0⟩ :: rest) =
      play ms all (s.sent probe.loc none) (seqOf.set i s.seq) rest := by
  rw [play, if_neg Nat.one_ne_zero, if_pos rfl, check_eq hi, ok_bind, hprobe, ok_bind]

theorem play_reply (ms : Nat → ρ) {all : List Probe} (s : Session ρ) {seqOf : List UInt8} (time : Nat) {i j : Nat}
    {probe : Probe} {reply : ProbeReply} {seq : UInt8} (rest : List Moment) (hprobe : index all i = .ok probe)
    (hreply : index probe.replies j = .ok reply) (hseq : index seqOf i = .ok seq) :
    play ms all s seqOf (⟨time, 2, i, j⟩ :: rest) =
      play ms all (s.reply seq.toUInt16 (ms reply.rtt) reply.ttl reply.size none) seqOf rest := by
  rw [play, if_neg (Nat.succ_ne_zero 1), if_neg (Nat.succ_succ_ne_one 0), hprobe, ok_bind, hreply, ok_bind, hseq,
    ok_bind]

/-- A reply to the request in flight moves on to the next number. -/
theorem reply_current (s : Session ρ) (rtt : ρ) (ttl : Option UInt8) (size : Nat) (dst : Option IpAddr) :
    s.reply s.seq.toUInt16 rtt ttl size dst =
      { s with events := s.events ++ [.reply false rtt ttl size dst], gotReply := true, seq := s.seq + 1 } := by
  simp [Session.reply]

/-- Played from the `i`th request on, a run answered in time records its
requests and replies. -/
theorem play_ordered (ms : Nat → ρ) {interval : Nat} {all : List Probe} (done : List Probe) {probes : List Probe}
    (h : Answered interval probes) (hall : all = done ++ probes) (s : Session ρ) {seqOf : List UInt8}
    (hseq : seqOf.length = all.length) :
    ∃ s', play ms all s seqOf (ordered interval done.length probes) = .ok s' ∧
      s'.events = s.events ++ probes.flatMap (answered ms) := by
  induction probes generalizing done s seqOf with
  | nil => exact ⟨s, rfl, by simp⟩
  | cons probe probes ih =>
    obtain ⟨⟨reply, hreplies, -, -⟩, hrest⟩ := h
    have hlen : all.length = done.length + (probes.length + 1) := by rw [hall, List.length_append, List.length_cons]
    have hprobe : index all done.length = .ok probe := by
      rw [index, hall, List.getElem?_append_right (Nat.le_refl _), Nat.sub_self]
      rfl
    have hget : index (seqOf.set done.length s.seq) done.length = .ok s.seq := by
      rw [index, List.getElem?_set_self (by omega)]
    have hreply : index probe.replies 0 = .ok reply := by rw [hreplies]; rfl
    -- the session once the reply to this request has come
    let s₁ : Session ρ := { s.sent probe.loc none with
      events := (s.sent probe.loc none).events ++ [.reply false (ms reply.rtt) reply.ttl reply.size none]
      gotReply := true
      seq := s.seq + 1 }
    have hstep : play ms all s seqOf (ordered interval done.length (probe :: probes)) =
        play ms all s₁ (seqOf.set done.length s.seq)
          (⟨intervalEnd interval probe probes.head?, 0, done.length, 0⟩ :: ordered interval (done.length + 1) probes) := by
      have hfit : done.length < seqOf.length := by omega
      rw [ordered, hreplies, play_sent ms s _ _ hfit hprobe]
      refine (play_reply ms _ _ _ hprobe hreply hget).trans ?_
      exact congrArg (play ms all · _ _) (reply_current (s.sent probe.loc none) _ _ _ _)
    have hover : s₁.intervalOver = s₁ := rfl
    have hevents : s₁.events = s.events ++ answered ms probe := by
      show (s.events ++ [PingEvent.sent probe.loc none]) ++ [_] = _
      rw [answered, hreplies, List.append_assoc]
      rfl
    rw [hstep, play, if_pos rfl, hover]
    by_cases hlast : done.length + 1 = all.length
    · obtain rfl : probes = [] := List.length_eq_zero_iff.mp (by omega)
      rw [if_pos hlast]
      exact ⟨s₁, rfl, by simp [hevents]⟩
    · have hall' : all = (done ++ [probe]) ++ probes := by rw [hall, List.append_assoc]; rfl
      obtain ⟨s', hplay, hs'⟩ := ih (done ++ [probe]) hrest hall' s₁
        (show (seqOf.set done.length s.seq).length = all.length by rw [List.length_set, hseq])
      rw [List.length_append, List.length_singleton] at hplay
      rw [if_neg hlast]
      exact ⟨s', hplay, by rw [hs', hevents, List.flatMap_cons, List.append_assoc]⟩

/-- Replayed, a run answered in time is each request and its reply. -/
theorem replay_answered (ms : Nat → ρ) (v6 : Bool) {interval : Nat} {probes : List Probe} (h : Answered interval probes) :
    replay ms v6 interval probes = .ok (probes.flatMap (answered ms)) := by
  obtain ⟨s, hplay, hs⟩ := play_ordered ms [] h (show probes = [] ++ probes from rfl) { v6 }
    (show (List.replicate probes.length (0 : UInt8)).length = probes.length from List.length_replicate)
  have hsort := mergeSort_timeline h
  rw [replay, hsort]
  show (play ms probes { v6 } _ (ordered interval ([] : List Probe).length probes) >>= _) = _
  rw [hplay, ok_bind, hs]
  rfl

theorem sequence_bookkeeping (ms : Nat → ρ) (v6 : Bool) :
    (∀ interval probes, Answered interval probes →
      replay ms v6 interval probes = .ok (probes.flatMap (answered ms))) ∧
    ∀ (calls : List (Call ρ)) (before after : List (PingEvent ρ)) (e : PingEvent ρ), Decisive e →
      (run Session.call { v6 } calls).events = before ++ e :: after → .timeout ∉ after :=
  ⟨fun _ _ h => replay_answered ms v6 h, fun calls before after _ he h => no_timeout_after v6 calls before after he h⟩

/-- The second request goes out as the first one's interval ends. -/
theorem sequence_bookkeeping_two :
    replay (fun nanos => nanos) true 1000 [⟨0, none, [⟨10, none, 32⟩]⟩, ⟨1000, none, [⟨20, none, 32⟩]⟩] =
      .ok [.sent none none, .reply false 10 none 32 none, .sent none none, .reply false 20 none 32 none] ∧
    .timeout ∉ ([] : List (PingEvent Nat)) := by
  have h := sequence_bookkeeping (fun nanos => nanos) true
  refine ⟨h.1 1000 _ ⟨⟨⟨10, none, 32⟩, rfl, by decide, ?_⟩, ⟨⟨20, none, 32⟩, rfl, by decide, ?_⟩, trivial⟩,
    h.2 [.reply 1 10 none 32 none, .intervalOver] [] [] (.reply false 10 none 32 none) rfl rfl⟩
  · rintro next ⟨⟩
    decide
  · rintro next ⟨⟩

end Starla.Proof.Measurements.Ping
