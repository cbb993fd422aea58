import Mathlib.Logic.Relation
import Starla.Impl.Measurements.Resolver

/-!
# What a step of a resolver does

Every event of a `Base`'s tasks as what it does to the queries and to their table
(`step_changed`), and as a few kinds of change to the servers and the probes
(`step_changes`).
-/

namespace Starla.Proof.Measurements.Resolver

open Starla.Framework Starla.Impl.Measurements Starla.Impl.Measurements.Resolver

variable {Name : Type} {dns : Hickory Name} {b b' : Base Name}

theorem getElem?_set_some {α : Type} {l : List α} {i : ℕ} {a₀ : α} (h : l[i]? = some a₀) (a : α) (j : ℕ) :
    (l.set i a)[j]? = if i = j then some a else l[j]? := by
  rw [List.getElem?_set, if_pos (List.getElem?_eq_some_iff.mp h).1]

/-! ## What leaves the queries alone -/

/-- The queries, their table and what they sent are the same. -/
structure SameQueries (b b' : Base Name) : Prop where
  queries : b'.queries = b.queries
  inflight : b'.inflight = b.inflight
  transmissions : b'.transmissions = b.transmissions

theorem SameQueries.trans {b₁ b₂ b₃ : Base Name} (h : SameQueries b₁ b₂) (h' : SameQueries b₂ b₃) :
    SameQueries b₁ b₃ :=
  ⟨h'.queries.trans h.queries, h'.inflight.trans h.inflight, h'.transmissions.trans h.transmissions⟩

theorem sameQueries_setServer (b : Base Name) (i : ℕ) (state : ServerState) :
    SameQueries b (b.setServer i state) := by
  unfold Base.setServer
  split <;> exact ⟨rfl, rfl, rfl⟩

theorem sameQueries_serverFailed (b : Base Name) (i : ℕ) : SameQueries b (b.serverFailed i) := by
  unfold Base.serverFailed
  split
  · exact ⟨rfl, rfl, rfl⟩
  · split
    · exact ⟨rfl, rfl, rfl⟩
    · exact (sameQueries_setServer b i _).trans ⟨rfl, rfl, rfl⟩

theorem sameQueries_serverUp (b : Base Name) (i : ℕ) : SameQueries b (b.serverUp i) := by
  unfold Base.serverUp
  split
  · exact ⟨rfl, rfl, rfl⟩
  · split
    · exact sameQueries_setServer ..
    · exact ⟨rfl, rfl, rfl⟩

theorem sameQueries_probed (b : Base Name) (p : ℕ) (probe : Probe) (answer : Option Answer) :
    SameQueries b (b.probed p probe answer) := by
  have hup : SameQueries b ((b.serverUp probe.server).setProbe p { probe with stage := .ended }) :=
    (sameQueries_serverUp b probe.server).trans ⟨rfl, rfl, rfl⟩
  unfold Base.probed
  split
  · exact hup
  · exact hup
  · split
    · exact ⟨rfl, rfl, rfl⟩
    · split
      · exact (sameQueries_setServer ..).trans ⟨rfl, rfl, rfl⟩
      · exact ⟨rfl, rfl, rfl⟩

/-! ## What a step does to the queries -/

/-- What moves a query that goes on: to which servers it sends again, and whether
that ends its wait. -/
inductive Moved (query : Query Name) : List ℕ → Bool → Query Name → Prop
  | arrived (inbox : List (List UInt8)) : Moved query [] false { query with inbox }
  | sent (h : query.stage = .sending false) :
      Moved query [] false { query with txCount := 1, reissues := 0, stage := .waiting }
  | sentAgain (h : query.stage = .sending true) :
      Moved query [] false { query with txCount := query.txCount + 1, stage := .waiting }
  | retransmitted (h : query.stage = .waiting) (ht : query.txCount < query.conf.attempts)
      (server : ℕ) (inbox : List (List UInt8)) :
      Moved query [server] true { query with server, inbox, stage := .sending true }
  | reissued (h : query.stage = .waiting) (hr : query.reissues < MAX_REISSUES) (server : ℕ)
      (inbox : List (List UInt8)) :
      Moved query [] true
        { query with server, inbox, reissues := query.reissues + 1, txCount := 0, stage := .waiting }

/-- What a step does to the queries, where it ends these waits. -/
inductive Changed (b : Base Name) (ended : ℕ → Bool) (b' : Base Name) : Prop
  | same (h : SameQueries b b') (he : ∀ q, ended q = false)
  | started (query : Query Name) (hs : query.stage = .sending false) (hr : query.reissues = 0)
      (hid : b.fresh query.id = true) (hq : b'.queries = b.queries ++ [query])
      (hi : b'.inflight = (query.id, b.queries.length) :: b.inflight)
      (ht : b'.transmissions = b.transmissions ++ [⟨b.queries.length, query.server, query.packet⟩])
      (he : ∀ q, ended q = false)
  | moved {q : ℕ} {query query' : Query Name} {servers : List ℕ} (h : b.queries[q]? = some query)
      (hm : Moved query servers (ended q) query') (hq : b'.queries = b.queries.set q query')
      (hi : b'.inflight = b.inflight)
      (ht : b'.transmissions = b.transmissions ++ servers.map fun server => ⟨q, server, query.packet⟩)
      (he : ∀ q', q' ≠ q → ended q' = false)
  | finished {q : ℕ} {query : Query Name} (h : b.queries[q]? = some query) (hr : query.running = true)
      (hw : ended q = true → query.stage = .waiting) (inbox : List (List UInt8)) (answer : Option Answer)
      (hq : b'.queries = b.queries.set q { query with inbox, stage := .finished answer })
      (hi : b'.inflight = b.inflight.filter (·.1 != query.id))
      (ht : b'.transmissions = b.transmissions) (he : ∀ q', q' ≠ q → ended q' = false)

/-- The event ends the wait of this query. -/
def endsWait (dns : Hickory Name) (b : Base Name) (e : Event) (q : ℕ) : Bool :=
  match e with
  | .timeout q' => q' == q
  | .recv q' =>
    q' == q && match b.queries[q]? with
      | none => false
      | some query =>
        match query.inbox with
        | [] => false
        | bytes :: _ =>
          (parseReply dns bytes query.id query.qname query.qtype query.conf.randomizeCase).isSome
  | _ => false

theorem Changed.of_same {b₁ : Base Name} {ended : ℕ → Bool} (h : SameQueries b b₁)
    (hc : Changed b₁ ended b') : Changed b ended b' := by
  obtain ⟨hqueries, hinflight, htrans⟩ := h
  cases hc with
  | same h he => exact .same (.trans ⟨hqueries, hinflight, htrans⟩ h) he
  | started query hs hr hid hq hi ht he =>
    rw [Base.fresh, hinflight] at hid
    exact .started query hs hr hid (hqueries ▸ hq) (by rw [hi, hqueries, hinflight])
      (by rw [ht, hqueries, htrans]) he
  | moved h hm hq hi ht he =>
    exact .moved (hqueries ▸ h) hm (hqueries ▸ hq) (hinflight ▸ hi) (htrans ▸ ht) he
  | finished h hr hw inbox answer hq hi ht he =>
    exact .finished (hqueries ▸ h) hr hw inbox answer (hqueries ▸ hq) (hinflight ▸ hi) (htrans ▸ ht) he

/-- A step that leaves the queries alone after one that does not. -/
theorem Changed.then_same {b₁ : Base Name} {ended : ℕ → Bool} (hc : Changed b ended b₁)
    (h : SameQueries b₁ b') : Changed b ended b' := by
  obtain ⟨hqueries, hinflight, htrans⟩ := h
  cases hc with
  | same h he => exact .same (h.trans ⟨hqueries, hinflight, htrans⟩) he
  | started query hs hr hid hq hi ht he =>
    exact .started query hs hr hid (hqueries.trans hq) (hinflight.trans hi) (htrans.trans ht) he
  | moved h hm hq hi ht he =>
    exact .moved h hm (hqueries.trans hq) (hinflight.trans hi) (htrans.trans ht) he
  | finished h hr hw inbox answer hq hi ht he =>
    exact .finished h hr hw inbox answer (hqueries.trans hq) (hinflight.trans hi) (htrans.trans ht) he

section
variable {q : ℕ} {query : Query Name} {ended : ℕ → Bool}

theorem finish_changed (h : b.queries[q]? = some query) (hr : query.running = true)
    (hw : ended q = true → query.stage = .waiting) (he : ∀ q', q' ≠ q → ended q' = false)
    (inbox : List (List UInt8)) (answer : Option Answer) :
    Changed b ended (b.finish q { query with inbox } answer) :=
  .finished h hr hw inbox answer rfl rfl rfl he

theorem arrived_changed (h : b.queries[q]? = some query) (he : ∀ q, ended q = false)
    (inbox : List (List UInt8)) : Changed b ended (b.setQuery q { query with inbox }) := by
  have hm : Moved query [] (ended q) { query with inbox } := he q ▸ .arrived inbox
  exact .moved h hm rfl rfl (by simp [Base.setQuery]) fun q' _ => he q'

theorem retransmit_changed (h : b.queries[q]? = some query) (hs : query.stage = .waiting)
    (hw : ended q = true) (he : ∀ q', q' ≠ q → ended q' = false) (inbox : List (List UInt8)) :
    Changed b ended (b.retransmit q { query with inbox }) := by
  have hr : query.running = true := by simp [Query.running, hs]
  unfold Base.retransmit
  split
  · have hf := sameQueries_serverFailed b query.server
    exact .of_same hf (finish_changed (hf.queries ▸ h) hr (fun _ => hs) he inbox _)
  · rename_i ht
    split
    · exact finish_changed h hr (fun _ => hs) he inbox _
    · rename_i server head _
      have hm : Moved query [server] (ended q) { query with server, inbox, stage := .sending true } :=
        hw ▸ .retransmitted hs (by simpa using ht) server inbox
      exact .moved h hm rfl rfl rfl he

theorem reply_changed (h : b.queries[q]? = some query) (hs : query.stage = .waiting)
    (hw : ended q = true) (he : ∀ q', q' ≠ q → ended q' = false) (inbox : List (List UInt8))
    (reply : Reply) : Changed b ended (b.reply q { query with inbox } reply) := by
  have hr : query.running = true := by simp [Query.running, hs]
  unfold Base.reply
  split
  · have hf := sameQueries_serverUp b query.server
    exact .of_same hf (finish_changed (hf.queries ▸ h) hr (fun _ => hs) he inbox _)
  · split
    · exact finish_changed h hr (fun _ => hs) he inbox _
    · rename_i hmax
      have hf := sameQueries_serverFailed b query.server
      have h' : (b.serverFailed query.server).queries[q]? = some query := hf.queries ▸ h
      refine .of_same hf ?_
      dsimp only
      split
      · exact finish_changed h' hr (fun _ => hs) he inbox _
      · rename_i next head _
        split
        · exact .finished h' hr (fun _ => hs) inbox _ rfl rfl rfl he
        · have hm : Moved query [] (ended q) { query with
              server := next, inbox, reissues := query.reissues + 1, txCount := 0, stage := .waiting } :=
            hw ▸ .reissued hs (by simpa using hmax) next inbox
          exact .moved h' hm rfl rfl (by simp [Base.setQuery]) he
  · exact retransmit_changed h hs hw he inbox

theorem afterTransmit_changed (h : b.queries[q]? = some query) {again : Bool}
    (hs : query.stage = .sending again) (he : ∀ q, ended q = false) (ok : Bool) :
    Changed b ended (b.afterTransmit q query again ok) := by
  have hf : SameQueries b (if ok then b else b.serverFailed query.server) := by
    split
    · exact ⟨rfl, rfl, rfl⟩
    · exact sameQueries_serverFailed ..
  have h' := hf.queries ▸ h
  unfold Base.afterTransmit
  refine .of_same hf ?_
  generalize (if ok then b else b.serverFailed query.server) = b₁ at h'
  cases again with
  | false =>
    have hm : Moved query [] (ended q) { query with txCount := 1, reissues := 0, stage := .waiting } :=
      he q ▸ .sent hs
    exact .moved h' hm rfl rfl (by simp [Base.setQuery]) fun q' _ => he q'
  | true =>
    have hm : Moved query [] (ended q) { query with txCount := query.txCount + 1, stage := .waiting } :=
      he q ▸ .sentAgain hs
    have hc : Changed b₁ ended
        (b₁.setQuery q { query with txCount := query.txCount + 1, stage := .waiting }) :=
      .moved h' hm rfl rfl (by simp [Base.setQuery]) fun q' _ => he q'
    rw [if_pos rfl]
    dsimp only
    split
    · exact hc
    · split
      · exact hc.then_same ((sameQueries_setServer ..).trans (sameQueries_serverFailed ..))
      · exact hc.then_same (sameQueries_setServer ..)

end

theorem ask_changed {conf : ResolvConf} {name : String} {qtype : RecordType} {first : Option ℕ}
    {bits : List UInt8} {draws : List UInt16} {ended : ℕ → Bool} (he : ∀ q, ended q = false)
    {r : Base Name × Option ℕ} (h : b.ask dns conf name qtype first bits draws = some r) :
    Changed b ended r.1 := by
  unfold Base.ask at h
  split at h
  · cases h
    exact .same ⟨rfl, rfl, rfl⟩ he
  · rename_i server head _
    dsimp only at h
    split at h
    · cases h
      exact .same ⟨rfl, rfl, rfl⟩ he
    · rename_i qname _
      split at h
      · cases h
      · rename_i id hid
        split at h
        · cases h
          exact .same ⟨rfl, rfl, rfl⟩ he
        · rename_i packet _
          cases h
          have hfresh := List.find?_some hid
          exact .started { conf, qname, qtype, id, packet, server, probing := first.isSome } rfl rfl hfresh
            rfl rfl rfl he

theorem wake_changed {p : ℕ} {probe : Probe} {bits : List UInt8} {draws : List UInt16}
    {ended : ℕ → Bool} (he : ∀ q, ended q = false) (h : b.wake dns p probe bits draws = some b') :
    Changed b ended b' := by
  unfold Base.wake at h
  split at h
  · obtain ⟨⟨b₁, query⟩, hask, rfl⟩ := Option.map_eq_some_iff.mp h
    have hc := ask_changed he hask
    cases query with
    | none => exact hc.then_same (sameQueries_probed ..)
    | some q => exact hc.then_same ⟨rfl, rfl, rfl⟩
  · cases h
    exact .same ⟨rfl, rfl, rfl⟩ he

theorem received_changed {ended : ℕ → Bool} (he : ∀ q, ended q = false) (b : Base Name) (server : ℕ)
    (source : IpAddr) (bytes : List UInt8) : Changed b ended (b.received server source bytes) := by
  unfold Base.received
  split
  · exact .same ⟨rfl, rfl, rfl⟩ he
  · rename_i s _
    split
    · exact .same ⟨rfl, rfl, rfl⟩ he
    · dsimp only
      refine .of_same (sameQueries_setServer b server { s.state with timedout := 0 }) ?_
      split
      · split
        · exact .same ⟨rfl, rfl, rfl⟩ he
        · split
          · exact .same ⟨rfl, rfl, rfl⟩ he
          · rename_i hq
            exact arrived_changed hq he _
      · exact .same ⟨rfl, rfl, rfl⟩ he

/-- What one step does to the queries. -/
theorem step_changed {e : Event} (h : b.step dns e = some b') : Changed b (endsWait dns b e) b' := by
  cases e with
  | lookup conf name qtype bits draws =>
    obtain ⟨r, hask, rfl⟩ := Option.map_eq_some_iff.mp h
    exact ask_changed (fun _ => rfl) hask
  | sent q ok =>
    simp only [Base.step] at h
    split at h
    · cases h
    · rename_i query hq
      split at h
      · rename_i again hs
        cases h
        exact afterTransmit_changed hq hs (fun _ => rfl) ok
      · cases h
  | received server source bytes =>
    cases h
    exact received_changed (fun _ => rfl) ..
  | readError server =>
    cases h
    exact .same (sameQueries_serverFailed ..) fun _ => rfl
  | recv q =>
    simp only [Base.step] at h
    split at h
    · cases h
    · rename_i query hq
      split at h
      · rename_i bytes inbox hs hin
        split at h
        · rename_i hparse
          cases h
          have hends : ∀ q', endsWait dns b (.recv q) q' = false := by
            intro q'
            by_cases hqq : q = q'
            · subst hqq
              simp [endsWait, hq, hin, hparse]
            · simp [endsWait, hqq]
          exact arrived_changed hq hends inbox
        · rename_i reply hparse
          cases h
          exact reply_changed hq hs (by simp [endsWait, hq, hin, hparse])
            (fun q' hne => by simp [endsWait, hne.symm]) inbox reply
      · cases h
  | timeout q =>
    simp only [Base.step] at h
    split at h
    · cases h
    · rename_i query hq
      split at h
      · rename_i hs
        cases h
        exact retransmit_changed hq hs (by simp [endsWait]) (fun q' hne => by simp [endsWait, hne.symm])
          query.inbox
      · cases h
  | cancel q =>
    simp only [Base.step] at h
    split at h
    · cases h
    · rename_i query hq
      split at h
      · rename_i hr
        cases h
        simp only [Bool.and_eq_true] at hr
        exact finish_changed hq hr.1 (fun hw => by cases hw) (fun _ _ => rfl) query.inbox none
      · cases h
  | wake p bits draws =>
    simp only [Base.step] at h
    split at h
    · cases h
    · split at h
      · exact wake_changed (fun _ => rfl) h
      · cases h
  | resume p =>
    simp only [Base.step] at h
    split at h
    · cases h
    · split at h
      · split at h
        · cases h
        · split at h
          · cases h
            exact .same (sameQueries_probed ..) fun _ => rfl
          · cases h
      · cases h

/-! ## Whose turn it is -/

theorem pickFrom_isSome {servers : List NameServer} {n head j : ℕ} {s : NameServer}
    (hhead : head < servers.length) (hj : j < n) (hs : servers[(head + j) % servers.length]? = some s)
    (hup : s.state.down = false) : (Base.pickFrom servers n head).isSome = true := by
  induction n generalizing head j with
  | zero => omega
  | succ n ih =>
    unfold Base.pickFrom
    rw [List.getElem?_eq_getElem hhead]
    dsimp only
    split
    · rename_i hdown
      cases j with
      | zero =>
        rw [Nat.add_zero, Nat.mod_eq_of_lt hhead, List.getElem?_eq_getElem hhead] at hs
        cases hs
        rw [hup] at hdown
        cases hdown
      | succ j =>
        refine ih (Nat.mod_lt _ (by omega)) (Nat.lt_of_succ_lt_succ hj) ?_
        rw [Nat.mod_add_mod, Nat.add_assoc, Nat.add_comm 1 j]
        exact hs
    · rfl

theorem pickFrom_lt {servers : List NameServer} {n head server head' : ℕ}
    (h : Base.pickFrom servers n head = some (server, head')) : head' < servers.length := by
  induction n generalizing head with
  | zero => cases h
  | succ n ih =>
    unfold Base.pickFrom at h
    split at h
    · cases h
    · rename_i hs
      split at h
      · exact ih h
      · cases h
        exact Nat.mod_lt _ (by have := (List.getElem?_eq_some_iff.mp hs).1; omega)

theorem pick_lt {server head : ℕ} (h : b.pick = some (server, head)) : head < b.servers.length := by
  unfold Base.pick at h
  split at h
  · cases h
  · rename_i hne
    split at h
    · cases h
      exact Nat.mod_lt _ (List.length_pos_iff.mpr hne)
    · exact pickFrom_lt h

/-! ## Servers and probes -/

theorem setServer_servers {i : ℕ} {s : NameServer} (hs : b.servers[i]? = some s) (state : ServerState)
    (j : ℕ) : (b.setServer i state).servers[j]? = if i = j then some { s with state } else b.servers[j]? := by
  unfold Base.setServer
  rw [hs]
  exact getElem?_set_some hs _ j

theorem setServer_probes (i : ℕ) (state : ServerState) :
    (b.setServer i state).probes = b.probes ∧ (b.setServer i state).conf = b.conf := by
  unfold Base.setServer
  split <;> exact ⟨rfl, rfl⟩

theorem stillDown_iff {p : Probe} : b.stillDown p = true ↔
    ∃ s, b.servers[p.server]? = some s ∧ s.state.down = true ∧ s.state.generation = p.generation := by
  unfold Base.stillDown
  cases b.servers[p.server]? <;> simp

theorem serverUp_probes (b : Base Name) (i : ℕ) :
    (b.serverUp i).probes = b.probes ∧ (b.serverUp i).conf = b.conf := by
  unfold Base.serverUp
  split
  · exact ⟨rfl, rfl⟩
  · split
    · exact setServer_probes ..
    · exact ⟨rfl, rfl⟩

theorem not_stillDown_serverUp (b : Base Name) (p : Probe) : (b.serverUp p.server).stillDown p = false := by
  rw [← Bool.not_eq_true, stillDown_iff]
  rintro ⟨s', hs', hdown, -⟩
  unfold Base.serverUp at hs'
  split at hs'
  · rename_i hs
    rw [hs] at hs'
    cases hs'
  · rename_i s hs
    split at hs'
    · rw [setServer_servers hs, if_pos rfl] at hs'
      cases hs'
      cases hdown
    · rename_i hup
      rw [hs] at hs'
      cases hs'
      exact hup hdown

/-! ## What a step does to the servers and the probes -/

/-- One change to the servers, their turn and their probes. -/
inductive Change : Base Name → Base Name → Prop
  /-- The queries alone, or the turn with them. -/
  | turn {b b' : Base Name} (hs : b'.servers = b.servers) (hp : b'.probes = b.probes)
      (hc : b'.conf = b.conf) (hh : b'.head = b.head ∨ b'.head < b.servers.length) : Change b b'
  /-- A server's state but for its generation; it does not go down. -/
  | server {b : Base Name} {i : ℕ} {s : NameServer} (hs : b.servers[i]? = some s) (state : ServerState)
      (hg : state.generation = s.state.generation) (hd : state.down = true → s.state.down = true)
      (hf : state.down = true → s.state.failedTimes ≤ state.failedTimes) :
      Change b (b.setServer i state)
  | failed {b : Base Name} {i : ℕ} {s : NameServer} (hs : b.servers[i]? = some s)
      (hup : s.state.down = false) : Change b (b.serverFailed i)
  | asking {b : Base Name} {k : ℕ} {p : Probe} (hp : b.probes[k]? = some p) (hs : p.stage = .sleeping)
      (q : ℕ) : Change b (b.setProbe k { p with stage := .asking q })
  | rescheduled {b : Base Name} {k : ℕ} {p : Probe} {s : NameServer} (hp : b.probes[k]? = some p)
      (hne : p.stage ≠ .ended) (hs : b.servers[p.server]? = some s) (hstill : b.stillDown p = true) :
      Change b ((b.setServer p.server { s.state with failedTimes := s.state.failedTimes + 1 }).setProbe k
        { p with delay := Base.probeBackoff b.conf.probeTimeout s.state.failedTimes, stage := .sleeping })
  | ended {b : Base Name} {k : ℕ} {p : Probe} (hp : b.probes[k]? = some p)
      (hl : b.stillDown p = false) : Change b (b.setProbe k { p with stage := .ended })

/-- A step's changes. -/
def Changes : Base Name → Base Name → Prop := Relation.ReflTransGen Change

theorem Changes.trans {b₁ b₂ b₃ : Base Name} (h : Changes b₁ b₂) (h' : Changes b₂ b₃) : Changes b₁ b₃ :=
  Relation.ReflTransGen.trans h h'

theorem changes_one (h : Change b b') : Changes b b' := .single h

/-- The servers, their turn and their probes are the same. -/
theorem changes_same (hs : b'.servers = b.servers) (hp : b'.probes = b.probes) (hc : b'.conf = b.conf)
    (hh : b'.head = b.head) : Changes b b' :=
  changes_one (.turn hs hp hc (.inl hh))

theorem changes_pick {server head : ℕ} (h : b.pick = some (server, head)) (hs : b'.servers = b.servers)
    (hp : b'.probes = b.probes) (hc : b'.conf = b.conf) (hh : b'.head = head) : Changes b b' :=
  changes_one (.turn hs hp hc (.inr (hh ▸ pick_lt h)))

theorem changes_serverUp (b : Base Name) (i : ℕ) : Changes b (b.serverUp i) := by
  unfold Base.serverUp
  split
  · exact changes_same rfl rfl rfl rfl
  · rename_i s hs
    split
    · exact changes_one (.server hs _ rfl (fun h => by cases h) (fun h => by cases h))
    · exact changes_same rfl rfl rfl rfl

theorem changes_serverFailed (b : Base Name) (i : ℕ) : Changes b (b.serverFailed i) := by
  cases hs : b.servers[i]? with
  | none =>
    have heq : b.serverFailed i = b := by simp [Base.serverFailed, hs]
    rw [heq]
    exact changes_same rfl rfl rfl rfl
  | some s =>
    cases hd : s.state.down with
    | false => exact changes_one (.failed hs hd)
    | true =>
      have heq : b.serverFailed i = b := by simp [Base.serverFailed, hs, hd]
      rw [heq]
      exact changes_same rfl rfl rfl rfl

theorem changes_probed {k : ℕ} {p : Probe} (hp : b.probes[k]? = some p) (hne : p.stage ≠ .ended)
    (answer : Option Answer) : Changes b (b.probed k p answer) := by
  have hup : Changes b ((b.serverUp p.server).setProbe k { p with stage := .ended }) :=
    (changes_serverUp b p.server).trans
      (changes_one (.ended ((serverUp_probes b p.server).1 ▸ hp) (not_stillDown_serverUp b p)))
  unfold Base.probed
  split
  · exact hup
  · exact hup
  · split
    · rename_i hs
      exact changes_one (.ended hp (by simp [Base.stillDown, hs]))
    · rename_i s hs
      split
      · rename_i hstill
        exact changes_one (.rescheduled hp hne hs hstill)
      · rename_i hstill
        exact changes_one (.ended hp (by simpa using hstill))

theorem changes_ask {conf : ResolvConf} {name : String} {qtype : RecordType} {first : Option ℕ}
    {bits : List UInt8} {draws : List UInt16} {r : Base Name × Option ℕ}
    (h : b.ask dns conf name qtype first bits draws = some r) :
    Changes b r.1 ∧ r.1.probes = b.probes := by
  unfold Base.ask at h
  split at h
  · cases h
    exact ⟨changes_same rfl rfl rfl rfl, rfl⟩
  · rename_i server head hfirst
    have hturn : ∀ {b' : Base Name}, b'.servers = b.servers → b'.probes = b.probes → b'.conf = b.conf →
        b'.head = head → Changes b b' ∧ b'.probes = b.probes := by
      intro b' hs hp hc hh
      cases first with
      | none => exact ⟨changes_pick (by simpa using hfirst) hs hp hc hh, hp⟩
      | some first =>
        have heq := Option.some.inj hfirst
        cases heq
        exact ⟨changes_same hs hp hc hh, hp⟩
    dsimp only at h
    split at h
    · cases h
      exact hturn rfl rfl rfl rfl
    · split at h
      · cases h
      · split at h
        all_goals
          cases h
          exact hturn rfl rfl rfl rfl

theorem changes_wake {k : ℕ} {p : Probe} {bits : List UInt8} {draws : List UInt16}
    (hp : b.probes[k]? = some p) (hs : p.stage = .sleeping) (h : b.wake dns k p bits draws = some b') :
    Changes b b' := by
  unfold Base.wake at h
  split at h
  · obtain ⟨⟨b₁, query⟩, hask, rfl⟩ := Option.map_eq_some_iff.mp h
    obtain ⟨hchanges, hprobes⟩ := changes_ask hask
    have hp' : b₁.probes[k]? = some p := hprobes ▸ hp
    refine hchanges.trans ?_
    cases query with
    | none => exact changes_probed hp' (by simp [hs]) _
    | some q => exact changes_one (.asking hp' hs q)
  · rename_i hstill
    cases h
    exact changes_one (.ended hp (by simpa using hstill))

theorem changes_retransmit (b : Base Name) (q : ℕ) (query : Query Name) :
    Changes b (b.retransmit q query) := by
  unfold Base.retransmit
  split
  · exact (changes_serverFailed b query.server).trans (changes_same rfl rfl rfl rfl)
  · split
    · exact changes_same rfl rfl rfl rfl
    · rename_i hpick
      exact changes_pick hpick rfl rfl rfl rfl

theorem changes_reply (b : Base Name) (q : ℕ) (query : Query Name) (reply : Reply) :
    Changes b (b.reply q query reply) := by
  unfold Base.reply
  split
  · exact (changes_serverUp b query.server).trans (changes_same rfl rfl rfl rfl)
  · split
    · exact changes_same rfl rfl rfl rfl
    · refine (changes_serverFailed b query.server).trans ?_
      dsimp only
      split
      · exact changes_same rfl rfl rfl rfl
      · rename_i hpick
        split <;> exact changes_pick hpick rfl rfl rfl rfl
  · exact changes_retransmit ..

theorem changes_afterTransmit (b : Base Name) (q : ℕ) (query : Query Name) (again ok : Bool) :
    Changes b (b.afterTransmit q query again ok) := by
  have hsent : Changes b (if ok then b else b.serverFailed query.server) := by
    split
    · exact changes_same rfl rfl rfl rfl
    · exact changes_serverFailed ..
  unfold Base.afterTransmit
  refine hsent.trans ?_
  generalize (if ok then b else b.serverFailed query.server) = b₁
  cases again with
  | false => exact changes_same rfl rfl rfl rfl
  | true =>
    rw [if_pos rfl]
    have hquery : Changes b₁
        (b₁.setQuery q { query with txCount := query.txCount + 1, stage := .waiting }) :=
      changes_same rfl rfl rfl rfl
    refine hquery.trans ?_
    dsimp only
    split
    · exact changes_same rfl rfl rfl rfl
    · rename_i s hs
      split
      · exact (changes_one (.server hs { s.state with timedout := 0 } rfl id fun _ => le_rfl)).trans
          (changes_serverFailed ..)
      · exact changes_one (.server hs _ rfl id fun _ => le_rfl)

theorem changes_received (b : Base Name) (i : ℕ) (source : IpAddr) (bytes : List UInt8) :
    Changes b (b.received i source bytes) := by
  unfold Base.received
  split
  · exact changes_same rfl rfl rfl rfl
  · rename_i s hs
    split
    · exact changes_same rfl rfl rfl rfl
    · dsimp only
      refine (changes_one (.server hs { s.state with timedout := 0 } rfl id fun _ => le_rfl)).trans ?_
      split
      · split
        · exact changes_same rfl rfl rfl rfl
        · split <;> exact changes_same rfl rfl rfl rfl
      · exact changes_same rfl rfl rfl rfl

/-- What one step does to the servers and the probes. -/
theorem step_changes {e : Event} (h : b.step dns e = some b') : Changes b b' := by
  cases e with
  | lookup conf name qtype bits draws =>
    obtain ⟨r, hask, rfl⟩ := Option.map_eq_some_iff.mp h
    exact (changes_ask hask).1
  | sent q ok =>
    simp only [Base.step] at h
    split at h
    · cases h
    · split at h
      · cases h
        exact changes_afterTransmit ..
      · cases h
  | received i source bytes =>
    cases h
    exact changes_received ..
  | readError i =>
    cases h
    exact changes_serverFailed ..
  | recv q =>
    simp only [Base.step] at h
    split at h
    · cases h
    · split at h
      · split at h
        · cases h
          exact changes_same rfl rfl rfl rfl
        · cases h
          exact changes_reply ..
      · cases h
  | timeout q =>
    simp only [Base.step] at h
    split at h
    · cases h
    · split at h
      · cases h
        exact changes_retransmit ..
      · cases h
  | cancel q =>
    simp only [Base.step] at h
    split at h
    · cases h
    · split at h
      · cases h
        exact changes_same rfl rfl rfl rfl
      · cases h
  | wake k bits draws =>
    simp only [Base.step] at h
    split at h
    · cases h
    · rename_i p hp
      split at h
      · rename_i hs
        exact changes_wake hp hs h
      · cases h
  | resume k =>
    simp only [Base.step] at h
    split at h
    · cases h
    · rename_i p hp
      split at h
      · rename_i q hs
        split at h
        · cases h
        · split at h
          · cases h
            exact changes_probed hp (by simp [hs]) _
          · cases h
      · cases h

theorem length_changes (h : Changes b b') :
    b'.servers.length = b.servers.length ∧ (b'.head = b.head ∨ b'.head < b.servers.length) := by
  have hset : ∀ (b : Base Name) (i : ℕ) (state : ServerState),
      (b.setServer i state).servers.length = b.servers.length ∧ (b.setServer i state).head = b.head := by
    intro b i state
    unfold Base.setServer
    split
    · exact ⟨List.length_set, rfl⟩
    · exact ⟨rfl, rfl⟩
  induction h with
  | refl => exact ⟨rfl, .inl rfl⟩
  | @tail b₁ b₂ _ hc ih =>
    have hone : b₂.servers.length = b₁.servers.length ∧
        (b₂.head = b₁.head ∨ b₂.head < b₁.servers.length) := by
      cases hc with
      | turn hs hp hc hh => exact ⟨by rw [hs], hh⟩
      | server hs state => exact ⟨(hset ..).1, .inl (hset ..).2⟩
      | failed hs hup =>
        unfold Base.serverFailed
        simp only [hs, hup, Bool.false_eq_true, if_false]
        exact ⟨(hset ..).1, .inl (hset ..).2⟩
      | asking => exact ⟨rfl, .inl rfl⟩
      | rescheduled => exact ⟨(hset ..).1, .inl (hset ..).2⟩
      | ended => exact ⟨rfl, .inl rfl⟩
    obtain ⟨hlen, hhead⟩ := ih
    refine ⟨hone.1.trans hlen, ?_⟩
    rcases hone.2 with heq | hlt
    · rw [heq]
      exact hhead
    · exact .inr (hlen ▸ hlt)

end Starla.Proof.Measurements.Resolver
