import Starla.Framework.Run
import Starla.Impl.Controller.Registration

/-!
# The registration, over answers and restarts

* `parse_render` : what is written is read back, but for the assignment's
  `REREGISTER` seconds, which its timer stands for.
* `follows_run` : the state is the one the last transition leaves.
* `registration_kept` : the round trip, that a forced registration and a wait
  exclude each other, and what each transition has the next step be.
-/

namespace Starla.Proof.Controller

open Starla.Framework Starla.Impl.Controller

/-! ## Numbers of fixed width -/

theorem parseUInt16_toString (n : UInt16) : parseUInt16 (toString n) = some n := by
  have hn : n.toNat ≤ 65535 := Nat.le_of_lt_succ n.toNat_lt
  show (parseUnsigned 65535 (toString n.toNat).toList).map UInt16.ofNat = some n
  rw [Nat.toString_eq_ofList_toDigits, String.toList_ofList, parseUnsigned_toDigits hn, Option.map_some,
    UInt16.ofNat_toNat]

theorem parseUInt32_toString (n : UInt32) : parseUInt32 (toString n) = some n := by
  have hn : n.toNat ≤ 4294967295 := Nat.le_of_lt_succ n.toNat_lt
  show (parseUnsigned 4294967295 (toString n.toNat).toList).map UInt32.ofNat = some n
  rw [Nat.toString_eq_ofList_toDigits, String.toList_ofList, parseUnsigned_toDigits hn, Option.map_some,
    UInt32.ofNat_toNat]

theorem parseInt64_toString (i : Int64) : parseInt64 (toString i) = some i := by
  have hmin : -9223372036854775808 ≤ i.toInt := i.le_toInt
  have hmax : i.toInt ≤ 9223372036854775807 := by have := i.toInt_lt; omega
  show (parseSigned 9223372036854775808 9223372036854775807 (toString i.toInt).toList).map Int64.ofInt = some i
  rw [parseSigned_toString hmin hmax, Option.map_some,
    Int64.ofInt_toInt]

theorem isValue_uInt16 (n : UInt16) : IsValue (toString n).toList := by
  show IsValue (toString n.toNat).toList
  rw [Nat.toString_eq_ofList_toDigits, String.toList_ofList]
  exact (isWord_toDigits _).isValue

theorem isValue_uInt32 (n : UInt32) : IsValue (toString n).toList := by
  show IsValue (toString n.toNat).toList
  rw [Nat.toString_eq_ofList_toDigits, String.toList_ofList]
  exact (isWord_toDigits _).isValue

theorem isValue_int64 (i : Int64) : IsValue (toString i).toList := (isWord_toString i.toInt).isValue

/-! ## The round trip -/

/-- What a file keeps of an assignment. -/
def saved (info : ControllerInfo) : ControllerInfo := { info with reregSecs := none }

def savedState (s : RegState) : RegState := { s with controller := s.controller.map saved }

def savedStep : RegStep → RegStep
  | .cached info => .cached (saved info)
  | step => step

/-- Texts that a file of settings holds. -/
structure Saveable (s : RegState) : Prop where
  host : ∀ c ∈ s.controller, IsWord c.host.toList
  reason : ∀ r ∈ s.forced, IsValue r.toList

theorem isValue_of_mem_map {α : Type} {f : α → String} (hf : ∀ a, IsValue (f a).toList) {o : Option α} :
    ∀ v ∈ o.map f, IsValue v.toList := by
  intro v hv
  obtain ⟨a, -, rfl⟩ := Option.map_eq_some_iff.mp hv
  exact hf a

theorem parse_render {s : RegState} (hs : Saveable s) : RegState.parse s.render = savedState s := by
  have htail : ∀ p : RegState.Settings, p.st = {} →
      (settings (settingLine? "REREG_TIMER" (s.reregAt.map toString) ++
        (settingLine? "REG_WAIT_UNTIL" (s.waitUntil.map toString) ++
        settingLine? "FORCE_REG" s.forced))).foldl RegState.Settings.read p =
      { p with st := { s with controller := none } } := by
    intro p hp
    rw [foldl_settingLine? (by decide) (isValue_of_mem_map isValue_int64),
      foldl_settingLine? (by decide) (isValue_of_mem_map isValue_int64), ← String.append_empty (s := settingLine? _ _),
      foldl_settingLine? (by decide) hs.reason]
    obtain ⟨c, t, w, r⟩ := s
    obtain ⟨host, port, id, st⟩ := p
    cases hp
    cases t <;> cases w <;> cases r <;>
      simp [RegState.Settings.read, parseInt64_toString]
  rw [RegState.parse, RegState.render]
  cases hc : s.controller with
  | none =>
    rw [String.empty_append, htail {} rfl]
    simp [RegState.Settings.state, savedState, hc]
  | some c =>
    have hhost : IsWord c.host.toList := hs.host c hc
    have hne : c.host ≠ "" := fun h => hhost.ne_nil (by rw [h]; rfl)
    simp only [String.append_assoc]
    rw [foldl_settingLine (by decide) hhost.isValue, foldl_settingLine (by decide) (isValue_uInt16 _),
      foldl_settingLine (by decide) (isValue_uInt32 _)]
    have hread : RegState.Settings.read (RegState.Settings.read (RegState.Settings.read {}
        ("CONTROLLER_1_HOST", c.host)) ("CONTROLLER_1_PORT", toString c.port)) ("PROBE_ID", toString c.probeId) =
        ⟨some c.host, some c.port, c.probeId, {}⟩ := by
      simp [RegState.Settings.read, hne, parseUInt16_toString, parseUInt32_toString]
    rw [hread, htail _ rfl]
    simp [RegState.Settings.state, savedState, saved, hc]

theorem nextStep_savedState (s : RegState) (now : Int64) :
    (savedState s).nextStep now = savedStep (s.nextStep now) := by
  obtain ⟨c, t, w, r⟩ := s
  cases r with
  | some r => rfl
  | none =>
    cases w with
    | some w =>
      show (if now < w then RegStep.waitUntil w else .register "WAIT_OVER") =
        savedStep (if now < w then .waitUntil w else .register "WAIT_OVER")
      split_ifs <;> rfl
    | none =>
      cases c with
      | none => rfl
      | some c =>
        cases t with
        | none => rfl
        | some t =>
          show (if now < t then RegStep.cached (saved c) else .register "REREG_TIMER_EXPIRED") =
            savedStep (if now < t then .cached c else .register "REREG_TIMER_EXPIRED")
          split_ifs <;> rfl

/-! ## The state the last transition leaves -/

/-- The transition the last answer applied took. -/
def lastTransition (history : List RegEvent) : Option Transition :=
  (history.filterMap RegEvent.transition).getLast?

theorem lastTransition_append (history : List RegEvent) (e : RegEvent) :
    lastTransition (history ++ [e]) = e.transition.or (lastTransition history) := by
  rw [lastTransition, List.filterMap_append, List.getLast?_append]
  cases h : e.transition <;> simp [h, lastTransition]

/-- What a transition leaves, as far as the next step depends on it. -/
def Follows (s : RegState) : Option Transition → Prop
  | none => s = {}
  | some (.registered info t) => savedState s = savedState (({} : RegState).registered info t)
  | some (.toldToWait secs t) => s.forced = none ∧ s.waitUntil = some (t + clampWait secs)
  | some (.refused reason) => s = ({} : RegState).refused reason

theorem follows_apply (s : RegState) (t : Transition) : Follows (s.apply t) (some t) := by
  cases t with
  | registered info now => rfl
  | toldToWait secs now => exact ⟨rfl, rfl⟩
  | refused reason => rfl

/-- What is written and read back follows the same transition. -/
theorem follows_savedState {s : RegState} {t : Option Transition} (h : Follows s t) :
    Follows (savedState s) t := by
  cases t with
  | none => rw [show s = {} from h]; rfl
  | some t =>
    cases t with
    | registered info now =>
      have hs : savedState s = savedState (({} : RegState).registered info now) := h
      show savedState (savedState s) = _
      rw [hs]
      rfl
    | toldToWait secs now => exact h
    | refused reason => rw [show s = _ from h]; rfl

/-! ## The texts an answer brings -/

theorem isWord_of_mem_wordsOf {line : List Char} {w : String} (hw : w ∈ wordsOf line) : IsWord w.toList := by
  obtain ⟨cs, hcs, rfl⟩ := List.mem_map.mp hw
  rw [String.toList_ofList]
  exact isWord_of_mem_words hcs

theorem isWord_assigned_read {f : Assigned} {line : List Char}
    (h : ∀ host ∈ f.controllerHost, IsWord host.toList) :
    ∀ host ∈ (f.read line).controllerHost, IsWord host.toList := by
  unfold Assigned.read
  split
  · rename_i host port _ _ hline
    intro host' hhost'
    obtain rfl : host = host' := Option.mem_some_iff.mp hhost'
    have hmem : host ∈ wordsOf line := by
      rw [hline]
      simp
    exact isWord_of_mem_wordsOf hmem
  all_goals exact h

theorem isWord_foldl_assigned {rest : List (List Char)} {f : Assigned}
    (h : ∀ host ∈ f.controllerHost, IsWord host.toList) :
    ∀ host ∈ (rest.foldl Assigned.read f).controllerHost, IsWord host.toList := by
  induction rest generalizing f with
  | nil => exact h
  | cons line rest ih => exact ih (isWord_assigned_read h)

theorem isWord_host {text : String} {info : ControllerInfo}
    (h : parseInitResponse text = .ok (.controller info)) : IsWord info.host.toList := by
  unfold parseInitResponse at h
  split at h
  · exact absurd h (by simp)
  · rename_i first rest _
    split at h
    · simp only [Except.ok.injEq, parseOk] at h
      split at h
      · rename_i host port hhost _
        injection h with h
        rw [← h]
        exact isWord_foldl_assigned (f := {}) (by simp) host hhost
      · split at h <;> exact absurd h (by simp)
    all_goals exact absurd h (by simp)

theorem isValue_reason {text reason : String} (h : parseInitResponse text = .ok (.refused reason)) :
    IsValue reason.toList := by
  unfold parseInitResponse at h
  split at h
  · exact absurd h (by simp)
  · rename_i first rest hlines
    split at h
    · simp only [Except.ok.injEq, parseOk] at h
      split at h
      · exact absurd h (by simp)
      · split at h <;> exact absurd h (by simp)
    · exact absurd h (by simp)
    · simp only [Except.ok.injEq, InitResponse.refused.injEq] at h
      rw [← h, String.toList_ofList]
      cases rest with
      | nil => exact isValue_nil
      | cons line rest =>
        have hline : line ∈ lines text.toList := by rw [hlines]; simp
        exact isValue_trim (not_mem_of_mem_lines hline)
    · exact absurd h (by simp)

/-! ## Over a history -/

theorem saveable_savedState {s : RegState} (h : Saveable s) : Saveable (savedState s) where
  host c hc := by
    obtain ⟨d, hd, rfl⟩ := Option.map_eq_some_iff.mp hc
    exact h.host d hd
  reason := h.reason

theorem saveable_apply {server : Server} {text : String} {now : Int64} {s : RegState} {t : Transition}
    (hs : Saveable s) (ht : server.transition (parseInitResponse text) now = some t) :
    Saveable (s.apply t) := by
  unfold Server.transition at ht
  split at ht
  · rename_i info hanswer
    cases ht
    refine ⟨fun c hc => ?_, fun r hr => absurd hr (by simp [RegState.apply, RegState.registered])⟩
    obtain rfl : info = c := Option.some.inj hc
    exact isWord_host hanswer
  · cases ht
    exact ⟨hs.host, fun r hr => absurd hr (by simp [RegState.apply, RegState.toldToWait])⟩
  · cases ht
    exact ⟨hs.host, fun r hr => absurd hr (by simp [RegState.apply, RegState.toldToWait])⟩
  · rename_i reason hanswer
    cases ht
    refine ⟨fun c hc => absurd hc (by simp [RegState.apply, RegState.refused]), fun r hr => ?_⟩
    obtain rfl : reason = r := Option.some.inj hr
    exact isValue_reason hanswer
  · cases ht

/-- A registration is forced or waited for, never both. -/
def Exclusive (s : RegState) : Prop := ¬ (s.forced.isSome ∧ s.waitUntil.isSome)

theorem exclusive_apply (s : RegState) (t : Transition) : Exclusive (s.apply t) := by
  cases t <;> simp [Exclusive, RegState.apply, RegState.registered, RegState.toldToWait, RegState.refused]

/-- What holds of the state after any history. -/
structure Kept (history : List RegEvent) (s : RegState) : Prop where
  saveable : Saveable s
  exclusive : Exclusive s
  follows : Follows s (lastTransition history)

theorem kept_step {history : List RegEvent} {s : RegState} (h : Kept history s) (e : RegEvent) :
    Kept (history ++ [e]) (s.step e) := by
  cases e with
  | restart =>
    have hstep : s.step .restart = savedState s := parse_render h.saveable
    rw [hstep]
    refine ⟨saveable_savedState h.saveable, h.exclusive, ?_⟩
    rw [lastTransition_append]
    exact follows_savedState h.follows
  | answer server text now =>
    have hstep : s.step (.answer server text now) =
        (server.transition (parseInitResponse text) now).elim s s.apply := rfl
    have hlast : lastTransition (history ++ [.answer server text now]) =
        (server.transition (parseInitResponse text) now).or (lastTransition history) :=
      lastTransition_append _ _
    cases ht : server.transition (parseInitResponse text) now with
    | none =>
      rw [ht] at hstep hlast
      rw [hstep]
      exact ⟨h.saveable, h.exclusive, hlast ▸ h.follows⟩
    | some t =>
      rw [ht] at hstep hlast
      rw [hstep]
      exact ⟨saveable_apply h.saveable ht, exclusive_apply s t, hlast ▸ follows_apply s t⟩

theorem kept_run (history : List RegEvent) : Kept history (run RegState.step {} history) := by
  induction history using List.reverseRecOn with
  | nil => exact ⟨⟨by simp, by simp⟩, by simp [Exclusive], rfl⟩
  | append_singleton history e ih =>
    have hrun : run RegState.step {} (history ++ [e]) = (run RegState.step {} history).step e := by
      simp [run]
    rw [hrun]
    exact kept_step ih e

theorem registration_kept (history : List RegEvent) :
    let s := run RegState.step {} history
    RegState.parse s.render = savedState s ∧
    (∀ now, (RegState.parse s.render).nextStep now = savedStep (s.nextStep now)) ∧
    ¬ (s.forced.isSome ∧ s.waitUntil.isSome) ∧
    (∀ secs t, lastTransition history = some (.toldToWait secs t) →
      ∀ now < t + clampWait secs, s.nextStep now = .waitUntil (t + clampWait secs)) ∧
    (∀ reason, lastTransition history = some (.refused reason) →
      ∀ now, s.nextStep now = .register "FORCE_REG") ∧
    ∀ now info, s.nextStep now = .cached info →
      ∃ assigned t secs, lastTransition history = some (.registered assigned t) ∧
        saved info = saved assigned ∧ assigned.reregSecs = some secs ∧ now < t + clampWait secs.toInt64 := by
  intro s
  have h : Kept history s := kept_run history
  have hround : RegState.parse s.render = savedState s := parse_render h.saveable
  refine ⟨hround, fun now => by rw [hround, nextStep_savedState], h.exclusive, ?_, ?_, ?_⟩
  · intro secs t hlast now hnow
    have hf := h.follows
    rw [hlast] at hf
    simp [RegState.nextStep, hf.1, hf.2, hnow]
  · intro reason hlast now
    have hf := h.follows
    rw [hlast] at hf
    rw [show s = ({} : RegState).refused reason from hf]
    rfl
  · intro now info hnext
    have hf := h.follows
    cases hlast : lastTransition history with
    | none =>
      rw [hlast] at hf
      rw [show s = {} from hf] at hnext
      exact absurd hnext (by simp [RegState.nextStep])
    | some last =>
      rw [hlast] at hf
      cases last with
      | registered assigned t =>
        have hs : savedState s = savedState (({} : RegState).registered assigned t) := hf
        have hsaved : (savedState s).nextStep now = .cached (saved info) := by
          rw [nextStep_savedState, hnext]
          rfl
        rw [hs] at hsaved
        cases hsecs : assigned.reregSecs with
        | none => simp [RegState.nextStep, savedState, RegState.registered, hsecs] at hsaved
        | some secs =>
          simp only [RegState.nextStep, savedState, RegState.registered, hsecs, Option.map_some,
            Option.isSome_none, Bool.false_eq_true, if_false] at hsaved
          split_ifs at hsaved with hlt
          exact ⟨assigned, t, secs, rfl, by simpa using hsaved.symm, hsecs, hlt⟩
      | toldToWait secs t =>
        simp only [RegState.nextStep, hf.1, hf.2] at hnext
        split_ifs at hnext
      | refused reason =>
        rw [show s = ({} : RegState).refused reason from hf] at hnext
        exact absurd hnext (by simp [RegState.nextStep, RegState.refused])

end Starla.Proof.Controller
