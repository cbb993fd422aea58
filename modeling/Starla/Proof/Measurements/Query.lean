import Starla.Proof.Measurements.Resolver

/-!
# The life of a query

In every run the table holds the running queries, each under an ID of its own,
and no query goes out more often than its bound (`query_lifecycle`).
-/

namespace Starla.Proof.Measurements.Resolver

open Starla.Framework Starla.Impl.Measurements Starla.Impl.Measurements.Resolver

variable {Name : Type} {dns : Hickory Name} {b b' : Base Name}

/-! ## The bounds of one query -/

/-- What a query sent and how many of its waits ended, within its bounds. -/
def Within (query : Query Name) (sends waits : ℕ) : Prop :=
  match query.stage with
  | .sending false => sends = 1 ∧ waits = 0 ∧ query.reissues = 0
  | .sending true =>
    waits + 1 = sends + query.reissues ∧ query.txCount < query.conf.attempts ∧
      (query.reissues = 0 ∧ sends = query.txCount + 1 ∨
        query.reissues = 1 ∧ sends ≤ max 1 query.conf.attempts + query.txCount + 1)
  | .waiting =>
    waits + 1 = sends + query.reissues ∧
      (query.reissues = 0 ∧ sends = query.txCount ∧ 1 ≤ sends ∧ sends ≤ max 1 query.conf.attempts ∨
        query.reissues = 1 ∧ query.txCount ≤ query.conf.attempts ∧
          sends ≤ max 1 query.conf.attempts + query.txCount)
  | .finished _ =>
    query.reissues ≤ 1 ∧ waits ≤ sends + query.reissues ∧
      sends ≤ max 1 query.conf.attempts + query.conf.attempts

theorem within_moved {query query' : Query Name} {servers : List ℕ} {ended : Bool} {sends waits : ℕ}
    (h : Within query sends waits) (hm : Moved query servers ended query') :
    Within query' (sends + servers.length) (waits + ended.toNat) := by
  cases hm with
  | arrived inbox => exact h
  | sent hs =>
    simp only [Within, hs] at h
    simp only [Within, List.length_nil, Bool.toNat_false, true_and]
    omega
  | sentAgain hs =>
    simp only [Within, hs] at h
    simp only [Within, List.length_nil, Bool.toNat_false]
    omega
  | retransmitted hs ht server inbox =>
    simp only [Within, hs] at h
    simp only [Within, List.length_singleton, Bool.toNat_true]
    omega
  | reissued hs hr server inbox =>
    simp only [Within, hs] at h
    simp only [Within, List.length_nil, Bool.toNat_true]
    have hr : query.reissues < 1 := hr
    omega

theorem within_finished {query : Query Name} {ended : Bool} {sends waits : ℕ}
    (h : Within query sends waits) (hr : query.running = true)
    (he : ended = true → query.stage = .waiting) (inbox : List (List UInt8)) (answer : Option Answer) :
    Within { query with inbox, stage := .finished answer } sends (waits + ended.toNat) := by
  have hends : ended = false ∨ query.stage = .waiting := by
    cases ended with
    | false => exact .inl rfl
    | true => exact .inr (he rfl)
  show query.reissues ≤ 1 ∧ waits + ended.toNat ≤ sends + query.reissues ∧
    sends ≤ max 1 query.conf.attempts + query.conf.attempts
  have hle := Bool.toNat_le ended
  unfold Within at h
  split at h
  · rename_i hs
    obtain rfl : ended = false := hends.resolve_right (by simp [hs])
    simp only [Bool.toNat_false]
    omega
  · rename_i hs
    obtain rfl : ended = false := hends.resolve_right (by simp [hs])
    simp only [Bool.toNat_false]
    omega
  · omega
  · rename_i hs
    simp [Query.running, hs] at hr

/-! ## Every run -/

/-- The bytes a query handed out so far. -/
def sentBy (b : Base Name) (q : ℕ) : List Transmission := b.transmissions.filter (·.query == q)

/-- A run from a new base, and how many waits of each query ended in it. -/
inductive Run (dns : Hickory Name) (conf : ResolvConf) : (ℕ → ℕ) → Base Name → Prop
  | start : Run dns conf (fun _ => 0) (.new conf)
  | step {waits : ℕ → ℕ} {b b' : Base Name} {e : Event} (h : Run dns conf waits b)
      (hs : b.step dns e = some b') :
      Run dns conf (fun q => waits q + (endsWait dns b e q).toNat) b'

/-- The table is the running queries', each under an ID of its own. -/
structure Table (b : Base Name) : Prop where
  nodup : (b.inflight.map (·.1)).Nodup
  valid : ∀ entry ∈ b.inflight, entry.1 ≠ 0xffff
  running : ∀ id q, (id, q) ∈ b.inflight ↔
    ∃ query, b.queries[q]? = some query ∧ query.running = true ∧ query.id = id

/-- Every query is within its bounds, and repeats its bytes. -/
structure Counted (waits : ℕ → ℕ) (b : Base Name) : Prop where
  within : ∀ q query, b.queries[q]? = some query → Within query (sentBy b q).length (waits q)
  packet : ∀ q query, b.queries[q]? = some query → ∀ t ∈ sentBy b q, t.packet = query.packet
  unborn : ∀ q, b.queries.length ≤ q → sentBy b q = [] ∧ waits q = 0

theorem getElem?_concat_eq_some {α : Type} {l : List α} {a a' : α} {i : ℕ}
    (h : (l ++ [a])[i]? = some a') : l[i]? = some a' ∧ i < l.length ∨ i = l.length ∧ a' = a := by
  rcases Nat.lt_trichotomy i l.length with hlt | rfl | hgt
  · rw [List.getElem?_append_left hlt] at h
    exact .inl ⟨h, hlt⟩
  · rw [List.getElem?_concat_length] at h
    exact .inr ⟨rfl, (Option.some.inj h).symm⟩
  · rw [List.getElem?_eq_none (by simp; omega)] at h
    cases h

theorem sentBy_append {l : List Transmission} (h : b'.transmissions = b.transmissions ++ l) (q : ℕ) :
    sentBy b' q = sentBy b q ++ l.filter (·.query == q) := by
  rw [sentBy, h, List.filter_append]
  rfl

/-! ### A query starts -/

theorem mem_of_fresh {id : UInt16} (h : b.fresh id = true) :
    id ≠ 0xffff ∧ id ∉ b.inflight.map (·.1) := by
  simp only [Base.fresh, Bool.and_eq_true, bne_iff_ne, Option.isNone_iff_eq_none] at h
  refine ⟨h.1, fun hmem => ?_⟩
  obtain ⟨entry, hentry, rfl⟩ := List.mem_map.mp hmem
  exact absurd (List.lookup_eq_none_iff.mp h.2 entry hentry) (by simp)

theorem table_started (h : Table b) {query : Query Name} (hs : query.stage = .sending false)
    (hid : b.fresh query.id = true) (hq : b'.queries = b.queries ++ [query])
    (hi : b'.inflight = (query.id, b.queries.length) :: b.inflight) : Table b' := by
  obtain ⟨hne, hnotin⟩ := mem_of_fresh hid
  constructor
  · rw [hi]
    exact List.nodup_cons.mpr ⟨hnotin, h.nodup⟩
  · rw [hi]
    exact List.forall_mem_cons.mpr ⟨hne, h.valid⟩
  · intro id q
    rw [hi, List.mem_cons, h.running, hq]
    constructor
    · rintro (heq | ⟨query', hq', hrun, rfl⟩)
      · cases heq
        exact ⟨query, List.getElem?_concat_length, by simp [Query.running, hs], rfl⟩
      · refine ⟨query', ?_, hrun, rfl⟩
        rw [List.getElem?_append_left (List.getElem?_eq_some_iff.mp hq').1, hq']
    · rintro ⟨query', hq', hrun, rfl⟩
      rcases getElem?_concat_eq_some hq' with ⟨hq', -⟩ | ⟨rfl, rfl⟩
      · exact .inr ⟨query', hq', hrun, rfl⟩
      · exact .inl rfl

theorem counted_started {waits : ℕ → ℕ} (h : Counted waits b) {query : Query Name}
    (hs : query.stage = .sending false) (hr : query.reissues = 0)
    (hq : b'.queries = b.queries ++ [query])
    (ht : b'.transmissions = b.transmissions ++ [⟨b.queries.length, query.server, query.packet⟩]) :
    Counted waits b' := by
  have hsent : ∀ q, q ≠ b.queries.length → sentBy b' q = sentBy b q := by
    intro q hne
    rw [sentBy_append ht]
    simp [hne.symm]
  have hnew : sentBy b' b.queries.length = [⟨b.queries.length, query.server, query.packet⟩] := by
    rw [sentBy_append ht, (h.unborn _ le_rfl).1]
    simp
  constructor
  · intro q query' hq'
    rcases getElem?_concat_eq_some (hq ▸ hq') with ⟨hq', hlt⟩ | ⟨rfl, rfl⟩
    · rw [hsent q (by omega)]
      exact h.within q query' hq'
    · rw [hnew, (h.unborn _ le_rfl).2]
      simp [Within, hs, hr]
  · intro q query' hq' t ht'
    rcases getElem?_concat_eq_some (hq ▸ hq') with ⟨hq', hlt⟩ | ⟨rfl, rfl⟩
    · rw [hsent q (by omega)] at ht'
      exact h.packet q query' hq' t ht'
    · rw [hnew, List.mem_singleton] at ht'
      rw [ht']
  · intro q hlen
    rw [hq, List.length_append, List.length_singleton] at hlen
    rw [hsent q (by omega)]
    exact h.unborn q (by omega)

/-! ### A query moves, or ends -/

theorem moved_same {query query' : Query Name} {servers : List ℕ} {ended : Bool}
    (h : Moved query servers ended query') :
    query'.running = query.running ∧ query'.id = query.id ∧ query'.packet = query.packet := by
  cases h with
  | arrived => exact ⟨rfl, rfl, rfl⟩
  | sent hs => exact ⟨by simp [Query.running, hs], rfl, rfl⟩
  | sentAgain hs => exact ⟨by simp [Query.running, hs], rfl, rfl⟩
  | retransmitted hs => exact ⟨by simp [Query.running, hs], rfl, rfl⟩
  | reissued hs => exact ⟨by simp [Query.running, hs], rfl, rfl⟩

section
variable {q : ℕ} {query query' : Query Name} (hq₀ : b.queries[q]? = some query)
  (hq : b'.queries = b.queries.set q query')
include hq₀ hq

theorem table_moved (h : Table b) (hr : query'.running = query.running) (hid : query'.id = query.id)
    (hi : b'.inflight = b.inflight) : Table b' := by
  refine ⟨hi ▸ h.nodup, hi ▸ h.valid, fun id q' => ?_⟩
  rw [hi, h.running, hq, getElem?_set_some hq₀]
  by_cases hqq : q = q'
  · subst hqq
    rw [if_pos rfl, hq₀]
    constructor
    · rintro ⟨_, heq, hrun, rfl⟩
      cases heq
      exact ⟨query', rfl, hr.trans hrun, hid⟩
    · rintro ⟨_, heq, hrun, rfl⟩
      cases heq
      exact ⟨query, rfl, hr.symm.trans hrun, hid.symm⟩
  · rw [if_neg hqq]

theorem table_finished (h : Table b) (hrun : query.running = true) (hr : query'.running = false)
    (hi : b'.inflight = b.inflight.filter (·.1 != query.id)) : Table b' := by
  have hmem : (query.id, q) ∈ b.inflight := (h.running _ _).mpr ⟨query, hq₀, hrun, rfl⟩
  have honly : ∀ id q', (id, q') ∈ b.inflight → (id = query.id ↔ q' = q) := by
    intro id q' hin
    constructor
    · rintro rfl
      exact congrArg Prod.snd (List.inj_on_of_nodup_map h.nodup hin hmem rfl)
    · rintro rfl
      obtain ⟨_, heq, -, rfl⟩ := (h.running id q').mp hin
      rw [hq₀] at heq
      cases heq
      rfl
  refine ⟨?_, ?_, fun id q' => ?_⟩
  · rw [hi]
    exact h.nodup.sublist (List.filter_sublist.map _)
  · rw [hi]
    exact fun entry hin => h.valid entry (List.mem_of_mem_filter hin)
  · rw [hi, List.mem_filter, hq, getElem?_set_some hq₀]
    by_cases hqq : q = q'
    · subst hqq
      rw [if_pos rfl]
      constructor
      · rintro ⟨hin, hne⟩
        exact absurd ((honly id q hin).mpr rfl) (by simpa using hne)
      · rintro ⟨_, heq, hrun', -⟩
        cases heq
        rw [hr] at hrun'
        cases hrun'
    · rw [if_neg hqq, ← h.running]
      exact and_iff_left_of_imp fun hin => by
        simpa using fun heq => hqq ((honly id q' hin).mp heq).symm

theorem counted_updated {waits : ℕ → ℕ} {ended : ℕ → Bool} {servers : List ℕ} (h : Counted waits b)
    (hp : query'.packet = query.packet)
    (ht : b'.transmissions = b.transmissions ++ servers.map fun server => ⟨q, server, query.packet⟩)
    (he : ∀ q', q' ≠ q → ended q' = false)
    (hw : Within query' ((sentBy b q).length + servers.length) (waits q + (ended q).toNat)) :
    Counted (fun q => waits q + (ended q).toNat) b' := by
  have hsent : ∀ q', q' ≠ q → sentBy b' q' = sentBy b q' := by
    intro q' hne
    rw [sentBy_append ht, List.filter_map]
    simp [Function.comp_def, hne.symm]
  have hsame : sentBy b' q = sentBy b q ++ servers.map fun server => ⟨q, server, query.packet⟩ := by
    rw [sentBy_append ht, List.filter_map]
    simp [Function.comp_def]
  constructor
  · intro q' query₁ hq'
    rw [hq, getElem?_set_some hq₀] at hq'
    by_cases hqq : q = q'
    · subst hqq
      rw [if_pos rfl] at hq'
      cases hq'
      rw [hsame, List.length_append, List.length_map]
      exact hw
    · rw [if_neg hqq] at hq'
      simp only [hsent q' (Ne.symm hqq), he q' (Ne.symm hqq)]
      exact h.within q' query₁ hq'
  · intro q' query₁ hq' t ht'
    rw [hq, getElem?_set_some hq₀] at hq'
    by_cases hqq : q = q'
    · subst hqq
      rw [if_pos rfl] at hq'
      cases hq'
      rw [hsame, List.mem_append] at ht'
      rcases ht' with ht' | ht'
      · exact (h.packet q query hq₀ t ht').trans hp.symm
      · obtain ⟨server, -, rfl⟩ := List.mem_map.mp ht'
        exact hp.symm
    · rw [if_neg hqq] at hq'
      rw [hsent q' (Ne.symm hqq)] at ht'
      exact h.packet q' query₁ hq' t ht'
  · intro q' hlen
    have hlt := (List.getElem?_eq_some_iff.mp hq₀).1
    rw [hq, List.length_set] at hlen
    simp only [hsent q' (by omega), he q' (by omega)]
    exact h.unborn q' hlen

end

theorem table_changed {ended : ℕ → Bool} (h : Table b) (hc : Changed b ended b') : Table b' := by
  cases hc with
  | same hs he =>
    obtain ⟨h1, h2, h3⟩ := h
    exact ⟨hs.inflight ▸ h1, hs.inflight ▸ h2, by rw [hs.inflight, hs.queries]; exact h3⟩
  | started query hs _ hid hq hi => exact table_started h hs hid hq hi
  | moved hq₀ hm hq hi =>
    obtain ⟨hr, hid, -⟩ := moved_same hm
    exact table_moved hq₀ hq h hr hid hi
  | finished hq₀ hr _ inbox answer hq hi => exact table_finished hq₀ hq h hr rfl hi

theorem counted_changed {waits : ℕ → ℕ} {ended : ℕ → Bool} (h : Counted waits b)
    (hc : Changed b ended b') : Counted (fun q => waits q + (ended q).toNat) b' := by
  cases hc with
  | same hs he =>
    have hsent : ∀ q, sentBy b' q = sentBy b q := fun q => by rw [sentBy, hs.transmissions]; rfl
    have hwaits : (fun q => waits q + (ended q).toNat) = waits := funext fun q => by simp [he q]
    obtain ⟨h1, h2, h3⟩ := h
    rw [hwaits]
    exact ⟨by rw [hs.queries]; simpa only [hsent] using h1, by rw [hs.queries]; simpa only [hsent] using h2,
      by rw [hs.queries]; simpa only [hsent] using h3⟩
  | started query hs hr _ hq _ ht he =>
    have hwaits : (fun q => waits q + (ended q).toNat) = waits := funext fun q => by simp [he q]
    rw [hwaits]
    exact counted_started h hs hr hq ht
  | @moved q query _ servers hq₀ hm hq _ ht he =>
    exact counted_updated hq₀ hq h (moved_same hm).2.2 ht he (within_moved (h.within q query hq₀) hm)
  | @finished q query hq₀ hr hw inbox answer hq _ ht he =>
    have ht' : b'.transmissions = b.transmissions ++
        ([] : List ℕ).map fun server => ⟨q, server, query.packet⟩ := by simpa using ht
    exact counted_updated hq₀ hq h rfl ht' he
      (within_finished (h.within q query hq₀) hr hw inbox answer)

theorem run_table {conf : ResolvConf} {waits : ℕ → ℕ} (h : Run dns conf waits b) : Table b := by
  induction h with
  | start => exact ⟨List.nodup_nil, by simp [Base.new], by simp [Base.new]⟩
  | step _ hs ih => exact table_changed ih (step_changed hs)

theorem run_counted {conf : ResolvConf} {waits : ℕ → ℕ} (h : Run dns conf waits b) : Counted waits b := by
  induction h with
  | start => exact ⟨by simp [Base.new], by simp [Base.new], by simp [Base.new, sentBy]⟩
  | step _ hs ih => exact counted_changed ih (step_changed hs)

/-! ## Whose turn it is -/

/-- The turn is one of the servers'. -/
def InTurn (b : Base Name) : Prop := b.servers ≠ [] → b.head < b.servers.length

/-- Picking a server always ends. -/
theorem pick_isSome (h : InTurn b) (hne : b.servers ≠ []) : b.pick.isSome = true := by
  unfold Base.pick
  rw [if_neg hne]
  split
  · rfl
  · rename_i hall
    have hhead := h hne
    obtain ⟨s, hmem, hup⟩ : ∃ s ∈ b.servers, s.state.down = false := by
      simpa using hall
    obtain ⟨i, hi⟩ := List.getElem?_of_mem hmem
    have hlt := (List.getElem?_eq_some_iff.mp hi).1
    have hturn : (b.head + (i + b.servers.length - b.head) % b.servers.length) % b.servers.length = i := by
      rw [Nat.add_mod_mod, show b.head + (i + b.servers.length - b.head) = i + b.servers.length by omega,
        Nat.add_mod_right, Nat.mod_eq_of_lt hlt]
    exact pickFrom_isSome hhead (Nat.mod_lt _ (by omega)) (hturn ▸ hi) hup

theorem run_inTurn {conf : ResolvConf} {waits : ℕ → ℕ} (h : Run dns conf waits b) : InTurn b := by
  induction h with
  | start => exact fun hne => List.length_pos_iff.mpr hne
  | @step _ b b' _ _ hs ih =>
    intro hne
    obtain ⟨hlen, hhead⟩ := length_changes (step_changes hs)
    have hpos : 0 < b.servers.length := hlen ▸ List.length_pos_iff.mpr hne
    rcases hhead with heq | hlt
    · rw [heq, hlen]
      exact ih (List.length_pos_iff.mp hpos)
    · exact hlen ▸ hlt

/-! ## The life of a query -/

theorem exists_fresh (h : b.inflight.length < 65535) : ∃ id, b.fresh id = true := by
  by_contra hnone
  have hall : ∀ id : UInt16, id ≠ 0xffff → id ∈ b.inflight.map (·.1) := by
    intro id hne
    by_contra hnotin
    refine hnone ⟨id, ?_⟩
    simp only [Base.fresh, Bool.and_eq_true, bne_iff_ne, Option.isNone_iff_eq_none]
    refine ⟨hne, List.lookup_eq_none_iff.mpr fun entry hin => ?_⟩
    simpa using fun heq : id = entry.1 => hnotin (heq ▸ List.mem_map_of_mem hin)
  have hnodup : ((List.range 65535).map UInt16.ofNat).Nodup := by
    refine List.Nodup.map_on (fun i hi j hj hij => ?_) List.nodup_range
    have h := congrArg UInt16.toNat hij
    simp only [UInt16.toNat_ofNat'] at h
    have hi := List.mem_range.mp hi
    have hj := List.mem_range.mp hj
    omega
  have hsub : (List.range 65535).map UInt16.ofNat ⊆ b.inflight.map (·.1) := by
    intro id hid
    obtain ⟨i, hi, rfl⟩ := List.mem_map.mp hid
    refine hall _ fun heq => ?_
    have h := congrArg UInt16.toNat heq
    have hi := List.mem_range.mp hi
    simp only [UInt16.toNat_ofNat'] at h
    change i % 65536 = 65535 at h
    omega
  have hlen := (List.subperm_of_subset hnodup hsub).length_le
  rw [List.length_map, List.length_map, List.length_range] at hlen
  omega

/-- A running query goes on when its bytes went out, or when its wait runs out. -/
theorem step_of_running {q : ℕ} {query : Query Name} (hq : b.queries[q]? = some query)
    (hr : query.running = true) :
    (b.step dns (.sent q true)).isSome = true ∨ (b.step dns (.timeout q)).isSome = true := by
  cases hs : query.stage with
  | sending again => exact .inl (by simp [Base.step, hq, hs])
  | waiting => exact .inr (by simp [Base.step, hq, hs])
  | finished answer => simp [Query.running, hs] at hr

theorem bounds_of_within {query : Query Name} {sends waits : ℕ} (h : Within query sends waits) :
    sends ≤ max 1 query.conf.attempts + query.conf.attempts ∧ query.reissues ≤ 1 ∧
      waits ≤ max 1 query.conf.attempts + query.conf.attempts + 1 ∧
      (query.running = true → waits ≤ max 1 query.conf.attempts + query.conf.attempts) := by
  unfold Within at h
  split at h
  · omega
  · omega
  · omega
  · rename_i hs
    refine ⟨h.2.2, h.1, by omega, fun hr => ?_⟩
    simp [Query.running, hs] at hr

/-! ## A run on its events -/

/-- Names as their text, and as labels on the wire. -/
def plainNames : Hickory String where
  fromAscii := some
  toAscii := id
  eqIgnoreRoot name name' := trimEndDots name.toLower == trimEndDots name'.toLower
  queryPacket id name qtype :=
    some ([(id >>> 8).toUInt8, id.toUInt8, 1, 0, 0, 1, 0, 0, 0, 0, 0, 0] ++
      (words (· == '.') name.toList).flatMap (fun label =>
        UInt8.ofNat label.length :: label.map fun c => UInt8.ofNat c.toNat) ++
      [0, 0, if qtype = .A then 1 else 28, 0, 1])
  fromVec _ := none

theorem exists_run (dns : Hickory Name) (conf : ResolvConf) (events : List Event) {p : Base Name → Bool}
    (h : (events.foldlM (Base.step dns) (.new conf)).any p = true) :
    ∃ waits b, Run dns conf waits b ∧ p b = true := by
  have hrun : ∀ (events : List Event) (b b' : Base Name) (waits : ℕ → ℕ), Run dns conf waits b →
      events.foldlM (Base.step dns) b = some b' → ∃ waits', Run dns conf waits' b' := by
    intro events
    induction events with
    | nil =>
      intro b b' waits hb hf
      cases hf
      exact ⟨waits, hb⟩
    | cons e events ih =>
      intro b b' waits hb hf
      rw [List.foldlM_cons] at hf
      obtain ⟨b₁, hs, hf⟩ := Option.bind_eq_some_iff.mp hf
      exact ih b₁ b' _ (hb.step hs) hf
  cases hf : events.foldlM (Base.step dns) (.new conf) with
  | none =>
    rw [hf] at h
    cases h
  | some b =>
    rw [hf] at h
    obtain ⟨waits, hb⟩ := hrun events _ b _ .start hf
    exact ⟨waits, b, hb, h⟩

/-- In every run the table holds the running queries, each under an ID of its
own; no query sends more than its bound, or other bytes than at first, or is
reissued twice, and it is over after as many waits; picking a server always ends. -/
theorem query_lifecycle {conf : ResolvConf} {waits : ℕ → ℕ} (h : Run dns conf waits b) :
    ((b.inflight.map (·.1)).Nodup ∧ (∀ entry ∈ b.inflight, entry.1 ≠ 0xffff) ∧
      ∀ id q, (id, q) ∈ b.inflight ↔
        ∃ query, b.queries[q]? = some query ∧ query.running = true ∧ query.id = id) ∧
    (∀ q query, b.queries[q]? = some query →
      (sentBy b q).length ≤ max 1 query.conf.attempts + query.conf.attempts ∧
      (∀ t ∈ sentBy b q, t.packet = query.packet) ∧ query.reissues ≤ 1 ∧
      waits q ≤ max 1 query.conf.attempts + query.conf.attempts + 1 ∧
      (query.running = true → waits q ≤ max 1 query.conf.attempts + query.conf.attempts ∧
        ((b.step dns (.sent q true)).isSome = true ∨ (b.step dns (.timeout q)).isSome = true))) ∧
    (b.inflight.length < 65535 → ∃ id, b.fresh id = true) ∧
    (b.servers ≠ [] → b.pick.isSome = true) := by
  have ht := run_table h
  have hc := run_counted h
  refine ⟨⟨ht.nodup, ht.valid, ht.running⟩, fun q query hq => ?_, exists_fresh, pick_isSome (run_inTurn h)⟩
  obtain ⟨hsends, hre, hwaits, hrun⟩ := bounds_of_within (hc.within q query hq)
  exact ⟨hsends, hc.packet q query hq, hre, hwaits, fun hr => ⟨hrun hr, step_of_running hq hr⟩⟩

/-- A server that does not answer: the query goes out as often as it may, skipping
an ID that is taken. -/
theorem query_lifecycle_timedOut : ∃ waits b,
    Run plainNames { nameservers := [ResolvConf.localhost] } waits b ∧
      (b.queries.map (·.stage)) = [.finished (some .timedOut), .waiting] ∧ b.inflight = [(8, 1)] ∧
      (sentBy b 0).length ≤ max 1 3 + 3 ∧ waits 0 ≤ max 1 3 + 3 + 1 := by
  obtain ⟨waits, b, hrun, hp⟩ := exists_run plainNames { nameservers := [ResolvConf.localhost] }
    [.lookup {} "example.org" .A [0, 0] [0xffff, 7], .lookup {} "example.org" .AAAA [0, 0] [7, 8],
      .sent 0 true, .sent 1 true, .timeout 0, .sent 0 true, .timeout 0, .sent 0 true, .timeout 0]
    (p := fun b => decide (b.queries.map (·.stage) = [.finished (some .timedOut), .waiting] ∧
      b.inflight = [(8, 1)] ∧ b.queries.map (·.conf.attempts) = [3, 3])) (by decide)
  obtain ⟨hstages, hin, hattempts⟩ := of_decide_eq_true hp
  obtain ⟨query, rest, hq⟩ : ∃ query rest, b.queries = query :: rest := by
    cases hq : b.queries with
    | nil => simp [hq] at hstages
    | cons query rest => exact ⟨query, rest, rfl⟩
  have hquery := (query_lifecycle hrun).2.1 0 query (by rw [hq]; rfl)
  have ha : query.conf.attempts = 3 := by simpa [hq] using congrArg List.head? hattempts
  rw [ha] at hquery
  exact ⟨waits, b, hrun, hstages, hin, hquery.1, hquery.2.2.2.1⟩

end Starla.Proof.Measurements.Resolver
