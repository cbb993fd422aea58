import Starla.Proof.Measurements.Query

/-!
# The probes of a server that is down

In every run a server that is down has one unfinished probe of its current
generation, and a probe's delays only grow, to an hour (`down_server_probed`).
-/

namespace Starla.Proof.Measurements.Resolver

open Starla.Framework Starla.Impl.Measurements Starla.Impl.Measurements.Resolver

variable {Name : Type} {dns : Hickory Name} {b b' : Base Name}

/-! ## The back-off -/

theorem backoffFrom_mono (timeout : ℕ) : Monotone (Base.backoffFrom timeout) := by
  refine monotone_nat_of_le_succ fun n => ?_
  induction n generalizing timeout with
  | zero =>
    unfold Base.backoffFrom
    split
    · exact le_rfl
    · exact Nat.le_mul_of_pos_right _ (by decide)
  | succ n ih =>
    unfold Base.backoffFrom
    split
    · exact le_rfl
    · exact ih _

theorem probeBackoff_mono (timeout : ℕ) : Monotone (Base.probeBackoff timeout) := fun _ _ h =>
  min_le_min_right _ (backoffFrom_mono timeout h)

theorem le_probeBackoff {timeout : ℕ} (h : timeout ≤ MAX_PROBE_TIMEOUT) (n : ℕ) :
    timeout ≤ Base.probeBackoff timeout n :=
  le_min (backoffFrom_mono timeout n.zero_le) h

theorem probeBackoff_le (timeout n : ℕ) : Base.probeBackoff timeout n ≤ MAX_PROBE_TIMEOUT :=
  min_le_right ..

/-! ## The invariant -/

/-- Every server that is down is being probed. -/
structure Probing (b : Base Name) : Prop where
  timeout : b.conf.probeTimeout ≤ MAX_PROBE_TIMEOUT
  bounded : ∀ p ∈ b.probes, ∃ s, b.servers[p.server]? = some s ∧ p.generation ≤ s.state.generation
  ordered : b.probes.Pairwise fun p p' => p.server = p'.server → p.generation < p'.generation
  live : ∀ i s, b.servers[i]? = some s → s.state.down = true →
    ∃ p ∈ b.probes, p.server = i ∧ p.generation = s.state.generation ∧ p.stage ≠ .ended
  delay : ∀ p ∈ b.probes, p.delay ≤ MAX_PROBE_TIMEOUT ∧
    ∀ s, b.servers[p.server]? = some s → s.state.down = true → p.generation = s.state.generation →
      p.delay ≤ Base.probeBackoff b.conf.probeTimeout s.state.failedTimes

/-- What a server was, and what it is later. -/
def ServerOnward (s s' : ServerState) : Prop :=
  s.generation ≤ s'.generation ∧ (s'.down = true → s'.generation = s.generation → s.down = true)

/-- What a probe was, and what it is later. -/
structure ProbeOnward (p p' : Probe) : Prop where
  server : p'.server = p.server
  generation : p'.generation = p.generation
  delay : p.delay ≤ p'.delay
  ended : p.stage = .ended → p'.stage = .ended

/-- Servers and probes go on. -/
structure Onward (b b' : Base Name) : Prop where
  servers : ∀ (i : ℕ) (s : NameServer), b.servers[i]? = some s →
    ∃ s' : NameServer, b'.servers[i]? = some s' ∧ ServerOnward s.state s'.state
  probes : ∀ (k : ℕ) (p : Probe), b.probes[k]? = some p →
    ∃ p' : Probe, b'.probes[k]? = some p' ∧ ProbeOnward p p'

/-- A change that keeps the servers probed. -/
structure Keeps (b b' : Base Name) : Prop where
  keep : Probing b → Probing b' ∧ Onward b b'

theorem Onward.refl (b : Base Name) : Onward b b :=
  ⟨fun _ s h => ⟨s, h, le_rfl, fun hd _ => hd⟩, fun _ p h => ⟨p, h, rfl, rfl, le_rfl, id⟩⟩

theorem Onward.trans {b₁ b₂ b₃ : Base Name} (h : Onward b₁ b₂) (h' : Onward b₂ b₃) : Onward b₁ b₃ := by
  constructor
  · intro i s hs
    obtain ⟨s', hs', hg, hd⟩ := h.servers i s hs
    obtain ⟨s'', hs'', hg', hd'⟩ := h'.servers i s' hs'
    exact ⟨s'', hs'', hg.trans hg', fun hdown heq =>
      hd (hd' hdown (le_antisymm (heq ▸ hg) hg')) (le_antisymm (heq ▸ hg') hg)⟩
  · intro k p hp
    obtain ⟨p', hp', h1, h2, h3, h4⟩ := h.probes k p hp
    obtain ⟨p'', hp'', h1', h2', h3', h4'⟩ := h'.probes k p' hp'
    exact ⟨p'', hp'', h1'.trans h1, h2'.trans h2, h3.trans h3', fun he => h4' (h4 he)⟩

theorem Keeps.trans {b₁ b₂ b₃ : Base Name} (h : Keeps b₁ b₂) (h' : Keeps b₂ b₃) : Keeps b₁ b₃ := by
  refine ⟨fun hp => ?_⟩
  obtain ⟨hp₂, ho⟩ := h.keep hp
  obtain ⟨hp₃, ho'⟩ := h'.keep hp₂
  exact ⟨hp₃, ho.trans ho'⟩

/-! ## What keeps the servers probed -/

theorem keeps_same (hs : b'.servers = b.servers) (hp : b'.probes = b.probes) (hc : b'.conf = b.conf) :
    Keeps b b' := by
  refine ⟨?_⟩
  rintro ⟨h1, h2, h3, h4, h5⟩
  refine ⟨⟨by rwa [hc], by rwa [hp, hs], by rwa [hp], by rwa [hp, hs], by rwa [hp, hs, hc]⟩, ?_⟩
  have h := Onward.refl b
  exact ⟨by rw [hs]; exact h.servers, by rw [hp]; exact h.probes⟩

/-- A server's state changes but for its generation; it does not go down. -/
theorem keeps_setServer {i : ℕ} {s : NameServer} (hs : b.servers[i]? = some s) (state : ServerState)
    (hg : state.generation = s.state.generation) (hd : state.down = true → s.state.down = true)
    (hf : state.down = true → s.state.failedTimes ≤ state.failedTimes) :
    Keeps b (b.setServer i state) := by
  refine ⟨?_⟩
  rintro ⟨h1, h2, h3, h4, h5⟩
  obtain ⟨hp, hc⟩ := setServer_probes (b := b) i state
  have hget := setServer_servers hs state
  refine ⟨⟨by rwa [hc], ?_, by rwa [hp], ?_, ?_⟩, ?_, ?_⟩
  · rw [hp]
    intro p hmem
    obtain ⟨s₀, hs₀, hle⟩ := h2 p hmem
    rw [hget]
    split
    · rename_i heq
      rw [← heq, hs] at hs₀
      cases hs₀
      exact ⟨_, rfl, hg ▸ hle⟩
    · exact ⟨s₀, hs₀, hle⟩
  · rw [hp]
    intro j s' hs' hdown
    rw [hget] at hs'
    split at hs'
    · rename_i heq
      cases hs'
      obtain ⟨p, hmem, hserver, hgen, hstage⟩ := h4 i s hs (hd hdown)
      exact ⟨p, hmem, hserver.trans heq, hgen.trans hg.symm, hstage⟩
    · exact h4 j s' hs' hdown
  · rw [hp, hc]
    intro p hmem
    obtain ⟨hmax, hdelay⟩ := h5 p hmem
    refine ⟨hmax, fun s' hs' hdown hgen => ?_⟩
    rw [hget] at hs'
    split at hs'
    · rename_i heq
      cases hs'
      exact (hdelay s (heq ▸ hs) (hd hdown) (hgen.trans hg)).trans (probeBackoff_mono _ (hf hdown))
    · exact hdelay s' hs' hdown hgen
  · intro j s' hs'
    rw [hget]
    split
    · rename_i heq
      rw [← heq, hs] at hs'
      cases hs'
      exact ⟨_, rfl, hg.ge, fun hdown _ => hd hdown⟩
    · exact ⟨s', hs', le_rfl, fun hdown _ => hdown⟩
  · rw [hp]
    exact (Onward.refl b).probes

theorem keeps_serverFailed (b : Base Name) (i : ℕ) : Keeps b (b.serverFailed i) := by
  unfold Base.serverFailed
  split
  · exact keeps_same rfl rfl rfl
  · rename_i s hs
    split
    · exact keeps_same rfl rfl rfl
    · rename_i hup
      refine ⟨?_⟩
      dsimp only
      rintro ⟨h1, h2, h3, h4, h5⟩
      obtain ⟨hp, hc⟩ := setServer_probes (b := b) i
        { s.state with down := true, failedTimes := 1, generation := s.state.generation + 1 }
      have hget := setServer_servers hs
        { s.state with down := true, failedTimes := 1, generation := s.state.generation + 1 }
      -- the generation is new: no probe has it yet
      have hnew : ∀ p ∈ b.probes, p.server = i → p.generation < s.state.generation + 1 := by
        rintro p hmem rfl
        obtain ⟨s₀, hs₀, hle⟩ := h2 p hmem
        rw [hs] at hs₀
        cases hs₀
        omega
      refine ⟨⟨by simpa only [hc] using h1, ?_, ?_, ?_, ?_⟩, ?_, ?_⟩
      · simp only [hp, hget]
        intro p hmem
        rcases List.mem_append.mp hmem with hmem | hmem
        · obtain ⟨s₀, hs₀, hle⟩ := h2 p hmem
          split
          · rename_i heq
            exact ⟨_, rfl, (hnew p hmem heq.symm).le⟩
          · exact ⟨s₀, hs₀, hle⟩
        · cases List.mem_singleton.mp hmem
          exact ⟨_, if_pos rfl, le_rfl⟩
      · simp only [hp]
        refine List.pairwise_append.mpr ⟨h3, List.pairwise_singleton .., fun p hmem p' hmem' hserver => ?_⟩
        cases List.mem_singleton.mp hmem'
        exact hnew p hmem hserver
      · simp only [hp, hget]
        intro j s' hs' hdown
        split at hs'
        · rename_i heq
          cases hs'
          exact ⟨_, List.mem_append_right _ (List.mem_singleton_self _), heq, rfl, by simp⟩
        · obtain ⟨p, hmem, hprobe⟩ := h4 j s' hs' hdown
          exact ⟨p, List.mem_append_left _ hmem, hprobe⟩
      · simp only [hp, hget, hc]
        intro p hmem
        rcases List.mem_append.mp hmem with hmem | hmem
        · obtain ⟨hmax, hdelay⟩ := h5 p hmem
          refine ⟨hmax, fun s' hs' hdown hgen => ?_⟩
          split at hs'
          · rename_i heq
            cases hs'
            exact absurd hgen (hnew p hmem heq.symm).ne
          · exact hdelay s' hs' hdown hgen
        · cases List.mem_singleton.mp hmem
          exact ⟨h1, fun _ _ _ _ => le_probeBackoff h1 _⟩
      · simp only [hget]
        intro j s' hs'
        split
        · rename_i heq
          rw [← heq, hs] at hs'
          cases hs'
          exact ⟨_, rfl, Nat.le_succ _, fun _ heq => absurd heq (Nat.succ_ne_self _)⟩
        · exact ⟨s', hs', le_rfl, fun hdown _ => hdown⟩
      · simp only [hp]
        intro k p hk
        refine ⟨p, ?_, rfl, rfl, le_rfl, id⟩
        rw [List.getElem?_append_left (List.getElem?_eq_some_iff.mp hk).1, hk]

/-- A probe changes; if it ends its server is not down with its generation. -/
theorem keeps_setProbe {k : ℕ} {p p' : Probe} (hp : b.probes[k]? = some p) (ho : ProbeOnward p p')
    (hl : p'.stage = .ended → b.stillDown p = false)
    (hd : p'.delay = p.delay ∨ p'.delay ≤ MAX_PROBE_TIMEOUT ∧ ∀ s, b.servers[p.server]? = some s →
      p'.delay ≤ Base.probeBackoff b.conf.probeTimeout s.state.failedTimes) :
    Keeps b (b.setProbe k p') := by
  refine ⟨?_⟩
  rintro ⟨h1, h2, h3, h4, h5⟩
  have hpmem : p ∈ b.probes := List.mem_of_getElem? hp
  have hmap : (b.probes.set k p').map (fun p => (p.server, p.generation)) =
      b.probes.map fun p => (p.server, p.generation) := by
    refine List.ext_getElem? fun j => ?_
    rw [List.getElem?_map, List.getElem?_map, getElem?_set_some hp]
    split
    · rename_i heq
      rw [← heq, hp, Option.map_some, Option.map_some, ho.server, ho.generation]
    · rfl
  refine ⟨⟨h1, ?_, ?_, ?_, ?_⟩, (Onward.refl b).servers, ?_⟩
  · intro p₀ hmem
    rcases List.mem_or_eq_of_mem_set hmem with hmem | rfl
    · exact h2 p₀ hmem
    · rw [ho.server, ho.generation]
      exact h2 p hpmem
  · have h3' := List.pairwise_map (f := fun p : Probe => (p.server, p.generation))
      (R := fun x y => x.1 = y.1 → x.2 < y.2) |>.mpr h3
    rw [← hmap] at h3'
    exact List.pairwise_map.mp h3'
  · intro i s hs hdown
    have hs : b.servers[i]? = some s := hs
    obtain ⟨p₀, hmem, hserver, hgen, hstage⟩ := h4 i s hs hdown
    obtain ⟨j, hj⟩ := List.getElem?_of_mem hmem
    by_cases hkj : k = j
    · subst hkj
      rw [hp] at hj
      cases hj
      refine ⟨p', List.mem_of_getElem? (by rw [Base.setProbe, getElem?_set_some hp, if_pos rfl]),
        ho.server.trans hserver, ho.generation.trans hgen, fun hended => ?_⟩
      have hstill : b.stillDown p = true := stillDown_iff.mpr ⟨s, hserver ▸ hs, hdown, hgen.symm⟩
      rw [hl hended] at hstill
      cases hstill
    · exact ⟨p₀, List.mem_of_getElem? (by rw [Base.setProbe, getElem?_set_some hp, if_neg hkj, hj]),
        hserver, hgen, hstage⟩
  · intro p₀ hmem
    rcases List.mem_or_eq_of_mem_set hmem with hmem | rfl
    · exact h5 p₀ hmem
    · rw [ho.server, ho.generation]
      rcases hd with hd | ⟨hmax, hd⟩
      · rw [hd]
        exact h5 p hpmem
      · exact ⟨hmax, fun s hs _ _ => hd s hs⟩
  · intro j p₀ hj
    rw [Base.setProbe, getElem?_set_some hp]
    split
    · rename_i heq
      rw [← heq, hp] at hj
      cases hj
      exact ⟨p', rfl, ho⟩
    · exact ⟨p₀, hj, rfl, rfl, le_rfl, id⟩

theorem keeps_change (h : Change b b') : Keeps b b' := by
  cases h with
  | turn hs hp hc _ => exact keeps_same hs hp hc
  | server hs state hg hd hf => exact keeps_setServer hs state hg hd hf
  | failed => exact keeps_serverFailed ..
  | asking hp hs q =>
    exact keeps_setProbe hp ⟨rfl, rfl, le_rfl, fun h => by simp [hs] at h⟩ (fun h => by cases h) (.inl rfl)
  | @rescheduled k p s hp hne hs hstill =>
    refine ⟨fun hprobing => ?_⟩
    obtain ⟨s', hs', hdown, hgen⟩ := stillDown_iff.mp hstill
    rw [hs] at hs'
    cases hs'
    have hdelay := (hprobing.delay p (List.mem_of_getElem? hp)).2 s hs hdown hgen.symm
    have hserver : Keeps b
        (b.setServer p.server { s.state with failedTimes := s.state.failedTimes + 1 }) :=
      keeps_setServer hs _ rfl id fun _ => Nat.le_succ _
    obtain ⟨hprobes, hconf⟩ := setServer_probes (b := b) p.server
      { s.state with failedTimes := s.state.failedTimes + 1 }
    have hgrow : ProbeOnward p { p with
        delay := Base.probeBackoff b.conf.probeTimeout s.state.failedTimes, stage := .sleeping } :=
      ⟨rfl, rfl, hdelay, fun h => absurd h hne⟩
    refine (hserver.trans (keeps_setProbe (by rw [hprobes, hp]) hgrow (by simp)
      (.inr ⟨probeBackoff_le .., fun s' hs' => ?_⟩))).keep hprobing
    rw [setServer_servers hs, if_pos rfl] at hs'
    cases hs'
    rw [hconf]
    exact probeBackoff_mono _ (Nat.le_succ _)
  | ended hp hl => exact keeps_setProbe hp ⟨rfl, rfl, le_rfl, fun _ => rfl⟩ (fun _ => hl) (.inl rfl)

theorem keeps_changes (h : Changes b b') : Keeps b b' := by
  induction h with
  | refl => exact keeps_same rfl rfl rfl
  | tail _ hc ih => exact ih.trans (keeps_change hc)

theorem keeps_step {e : Event} (h : b.step dns e = some b') : Keeps b b' := keeps_changes (step_changes h)

theorem probing_reaches {conf : ResolvConf} (hconf : conf.probeTimeout ≤ MAX_PROBE_TIMEOUT)
    (h : Reaches dns conf b) : Probing b := by
  induction h with
  | start =>
    refine ⟨hconf, by simp [Base.new], by simp [Base.new], ?_, by simp [Base.new]⟩
    intro i s hs hdown
    obtain ⟨addr, -, rfl⟩ := List.mem_map.mp (List.mem_of_getElem? hs)
    cases hdown
  | step _ hs ih => exact ((keeps_step hs).keep ih).1

/-! ## Every run -/

theorem Probing.existsUnique (h : Probing b) {i : ℕ} {s : NameServer} (hs : b.servers[i]? = some s)
    (hdown : s.state.down = true) :
    ∃! k : ℕ, ∃ p : Probe, b.probes[k]? = some p ∧ p.server = i ∧
      p.generation = s.state.generation ∧ p.stage ≠ .ended := by
  obtain ⟨p, hmem, hserver, hgen, hstage⟩ := h.live i s hs hdown
  obtain ⟨k, hk⟩ := List.getElem?_of_mem hmem
  refine ⟨k, ⟨p, hk, hserver, hgen, hstage⟩, ?_⟩
  rintro k' ⟨p', hk', hserver', hgen', -⟩
  obtain ⟨hlt, rfl⟩ := List.getElem?_eq_some_iff.mp hk
  obtain ⟨hlt', rfl⟩ := List.getElem?_eq_some_iff.mp hk'
  have hordered := List.pairwise_iff_getElem.mp h.ordered
  rcases Nat.lt_trichotomy k k' with hkk | rfl | hkk
  · have hgrow := hordered k k' hlt hlt' hkk (hserver.trans hserver'.symm)
    omega
  · rfl
  · have hgrow := hordered k' k hlt' hlt hkk (hserver'.trans hserver.symm)
    omega

/-- A probe whose server came up, or went down again, is behind for good. -/
theorem stillDown_onward (h : Probing b) (ho : Onward b b') {p p' : Probe} (hmem : p ∈ b.probes)
    (hp : ProbeOnward p p') (hstill : b.stillDown p = false) : b'.stillDown p' = false := by
  rw [← Bool.not_eq_true, stillDown_iff]
  rintro ⟨s₁, hs₁, hdown, hgen⟩
  obtain ⟨s, hs, hle⟩ := h.bounded p hmem
  obtain ⟨s', hs', hgrow, hback⟩ := ho.servers _ s hs
  rw [hp.server, hs'] at hs₁
  obtain rfl := Option.some.inj hs₁
  rw [hp.generation] at hgen
  have heq : s'.state.generation = s.state.generation := by omega
  have hon : b.stillDown p = true := stillDown_iff.mpr ⟨s, hs, hback hdown heq, by omega⟩
  rw [hstill] at hon
  cases hon

/-- A query's answer shows that a server is up. -/
def isUp (answer : Option Answer) : Bool :=
  match answer with
  | some (.addrs _) | some .notExist => true
  | _ => false

/-- The end of a probe that failed. -/
theorem probe_failed_of_not_stillDown {k : ℕ} {p : Probe} (hstill : b.stillDown p = false) :
    (match b.servers[p.server]? with
      | none => b.setProbe k { p with stage := .ended }
      | some s =>
        if b.stillDown p then
          (b.setServer p.server { s.state with failedTimes := s.state.failedTimes + 1 }).setProbe k { p with
            delay := Base.probeBackoff b.conf.probeTimeout s.state.failedTimes, stage := .sleeping }
        else b.setProbe k { p with stage := .ended }) = b.setProbe k { p with stage := .ended } := by
  split
  · rfl
  · rw [if_neg (by simp [hstill])]

theorem probed_of_not_stillDown {k : ℕ} {p : Probe} (hstill : b.stillDown p = false)
    (answer : Option Answer) :
    b.probed k p answer =
      (if isUp answer then b.serverUp p.server else b).setProbe k { p with stage := .ended } := by
  rcases answer with _ | (_ | _ | _ | _)
  · exact probe_failed_of_not_stillDown hstill
  · rfl
  · rfl
  · exact probe_failed_of_not_stillDown hstill
  · exact probe_failed_of_not_stillDown hstill

/-- In every run a server that is down has exactly one unfinished probe of its
generation; a probe that is behind asks no more, ends when it next wakes or its
query is over, and then marks the server up if that was answered, and nothing
else; delays only grow, to an hour. -/
theorem down_server_probed {conf : ResolvConf} (hconf : conf.probeTimeout ≤ MAX_PROBE_TIMEOUT)
    (h : Reaches dns conf b) :
    (∀ i s, b.servers[i]? = some s → s.state.down = true →
      ∃! k : ℕ, ∃ p : Probe, b.probes[k]? = some p ∧ p.server = i ∧
        p.generation = s.state.generation ∧ p.stage ≠ .ended) ∧
    (∀ (k : ℕ) (p : Probe), b.probes[k]? = some p → b.stillDown p = false →
      (∀ bits draws b', b.step dns (.wake k bits draws) = some b' →
        b' = b.setProbe k { p with stage := .ended }) ∧
      (∀ b', b.step dns (.resume k) = some b' → ∃ q query answer, p.stage = .asking q ∧
        b.queries[q]? = some query ∧ query.stage = .finished answer ∧
          b' = (if isUp answer then b.serverUp p.server else b).setProbe k { p with stage := .ended }) ∧
      ∀ e b', b.step dns e = some b' → ∃ p', b'.probes[k]? = some p' ∧ b'.stillDown p' = false) ∧
    ∀ (e : Event) (b' : Base Name) (k : ℕ) (p : Probe), b.step dns e = some b' → b.probes[k]? = some p →
      ∃ p' : Probe, b'.probes[k]? = some p' ∧ p'.server = p.server ∧ p'.generation = p.generation ∧
        (p.stage = .ended → p'.stage = .ended) ∧ p.delay ≤ p'.delay ∧ p'.delay ≤ MAX_PROBE_TIMEOUT := by
  have hp := probing_reaches hconf h
  refine ⟨fun i s => hp.existsUnique, fun k p hk hstill => ⟨?_, ?_, ?_⟩, ?_⟩
  · intro bits draws b' hs
    simp only [Base.step, hk] at hs
    split at hs
    · rw [Base.wake, if_neg (by simp [hstill])] at hs
      exact (Option.some.inj hs).symm
    · cases hs
  · intro b' hs
    simp only [Base.step, hk] at hs
    split at hs
    · rename_i q hstage
      split at hs
      · cases hs
      · rename_i query hq
        split at hs
        · rename_i answer hfinished
          exact ⟨q, query, answer, hstage, hq, hfinished,
            (Option.some.inj hs).symm.trans (probed_of_not_stillDown hstill answer)⟩
        · cases hs
    · cases hs
  · intro e b' hs
    obtain ⟨-, ho⟩ := (keeps_step hs).keep hp
    obtain ⟨p', hk', hgrow⟩ := ho.probes k p hk
    exact ⟨p', hk', stillDown_onward hp ho (List.mem_of_getElem? hk) hgrow hstill⟩
  · intro e b' k p hs hk
    obtain ⟨hp', ho⟩ := (keeps_step hs).keep hp
    obtain ⟨p', hk', hgrow⟩ := ho.probes k p hk
    exact ⟨p', hk', hgrow.server, hgrow.generation, hgrow.ended, hgrow.delay,
      (hp'.delay p' (List.mem_of_getElem? hk')).1⟩

theorem Run.reaches {conf : ResolvConf} {waits : ℕ → ℕ} (h : Run dns conf waits b) : Reaches dns conf b := by
  induction h with
  | start => exact .start
  | step _ hs ih => exact ih.step hs

/-- Two servers. -/
def twoServers : ResolvConf := { nameservers := [⟨.v4 0xC0000235, 53, 0⟩, ⟨.v4 0xC6336435, 53, 0⟩] }

/-- The first server goes down and is probed, comes up and goes down again; then
the second one answers the first probe, which went there as a retransmission. -/
def behind : List Event :=
  [.lookup {} "a.example" .A [0, 0] [1], .sent 0 false, .wake 0 [0, 0] [2], .sent 1 true,
    .received 0 (.v4 0xC0000235) [0, 1, 0x81, 0x83, 0, 1, 0, 0, 0, 0, 0, 0], .recv 0,
    .lookup {} "b.example" .A [0, 0] [3], .lookup {} "c.example" .A [0, 0] [4], .sent 3 false,
    .timeout 1, .sent 1 true,
    .received 1 (.v4 0xC6336435) [0, 2, 0x81, 0x83, 0, 1, 0, 0, 0, 0, 0, 0], .recv 1]

theorem down_server_probed_behind : ∃ b, Reaches plainNames twoServers b ∧
    b.servers.map (·.state) = [⟨true, 1, 0, 2⟩, ⟨false, 0, 0, 0⟩] ∧
      ∃! k : ℕ, ∃ p : Probe, b.probes[k]? = some p ∧ p.server = 0 ∧ p.generation = 2 ∧
        p.stage ≠ .ended := by
  obtain ⟨waits, b, hrun, hp⟩ := exists_run plainNames twoServers behind
    (p := fun b => decide (b.servers.map (·.state) = [⟨true, 1, 0, 2⟩, ⟨false, 0, 0, 0⟩]))
    (by decide)
  have hstates := of_decide_eq_true hp
  obtain ⟨s, hs, hstate⟩ : ∃ s, b.servers[0]? = some s ∧ s.state = ⟨true, 1, 0, 2⟩ := by
    cases hservers : b.servers with
    | nil => simp [hservers] at hstates
    | cons s rest =>
      rw [hservers] at hstates
      exact ⟨s, rfl, (List.cons.inj hstates).1⟩
  have hone := (down_server_probed (by decide) hrun.reaches).1 0 s hs (by rw [hstate])
  rw [hstate] at hone
  exact ⟨b, hrun.reaches, hstates, hone⟩

/-- Each probe's server, generation and stage, and each server's state. -/
def outline (b : Base Name) : List (ℕ × ℕ × ProbeStage) × List ServerState :=
  (b.probes.map fun p => (p.server, p.generation, p.stage), b.servers.map (·.state))

/-- A probe that is behind takes its answer for its server's: the server is
marked up, and its back-off starts over. -/
theorem behind_brings_up :
    (behind.foldlM (Base.step plainNames) (.new twoServers)).map outline =
      some ([(0, 1, .asking 1), (0, 2, .sleeping)], [⟨true, 1, 0, 2⟩, ⟨false, 0, 0, 0⟩]) ∧
    ((behind ++ [Event.resume 0]).foldlM (Base.step plainNames) (.new twoServers)).map outline =
      some ([(0, 1, .ended), (0, 2, .sleeping)], [⟨false, 0, 0, 2⟩, ⟨false, 0, 0, 0⟩]) := by
  decide

end Starla.Proof.Measurements.Resolver
