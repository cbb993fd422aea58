import Starla.Impl.Controller.Cronline

/-!
# evtraceroute's options

Whatever command asks for a traceroute, the bundle it sets is digits.

* `digitBundle_set` : an option of a line.
* `digitBundle_evtracerouteArgs` : a line's arguments.
* `digitBundles_parseCommand` : any command.
-/

namespace Starla.Proof.Controller

open Starla.Impl.Controller

def DigitBundle (opts : TracerouteOptions) : Prop := ∀ b, opts.bundle = some b → ∀ c ∈ b.toList, c.isDigit = true

theorem digitBundle_of_none {opts : TracerouteOptions} (h : opts.bundle = none) : DigitBundle opts := by
  intro b hb
  rw [h] at hb
  cases hb

variable {s s' : EvtracerouteArgs}

theorem digitBundle_of_eq (h : s'.opts.bundle = s.opts.bundle) (hs : DigitBundle s.opts) : DigitBundle s'.opts := by
  intro b hb
  exact hs b (h ▸ hb)

/-! ## Arguments -/

theorem bundle_flag {c : Char} (h : s.flag c = some s') : s'.opts.bundle = s.opts.bundle := by
  unfold EvtracerouteArgs.flag at h
  split at h <;> cases h <;> rfl

/-- An option sets no bundle that is not digits. -/
theorem digitBundle_set {c : Char} {value : String} (hs : DigitBundle s.opts) (h : s.set c value = some s') :
    DigitBundle s'.opts := by
  unfold EvtracerouteArgs.set at h
  dsimp only at h
  split at h
  case h_10 =>
    obtain ⟨n, -, h⟩ := Option.bind_eq_some_iff.mp h
    split_ifs at h
    cases h
    exact digitBundle_of_eq rfl hs
  case h_13 | h_17 =>
    cases h
    exact digitBundle_of_eq rfl hs
  case h_16 =>
    split_ifs at h with hdigits
    cases h
    intro b hb
    cases hb
    simpa using hdigits
  all_goals
    obtain ⟨n, -, rfl⟩ := Option.map_eq_some_iff.mp h
    exact digitBundle_of_eq rfl hs

/-- The options of one argument. -/
theorem digitBundle_bundle {next : Option String} {cs : List Char} {taken : Bool} (hs : DigitBundle s.opts)
    (h : s.bundle next cs = some (s', taken)) : DigitBundle s'.opts := by
  induction cs generalizing s with
  | nil =>
    cases h
    exact hs
  | cons c cs ih =>
    rw [EvtracerouteArgs.bundle] at h
    split_ifs at h
    · obtain ⟨value, -, h⟩ := Option.bind_eq_some_iff.mp h
      obtain ⟨s₁, hset, h⟩ := Option.map_eq_some_iff.mp h
      cases h
      exact digitBundle_set hs hset
    · obtain ⟨s₁, hset, h⟩ := Option.map_eq_some_iff.mp h
      cases h
      exact digitBundle_set hs hset
    · obtain ⟨s₁, hflag, h⟩ := Option.bind_eq_some_iff.mp h
      exact ih (digitBundle_of_eq (bundle_flag hflag) hs) h

theorem digitBundle_evtracerouteArgs {args : List String} (hs : DigitBundle s.opts)
    (h : evtracerouteArgs s args = some s') : DigitBundle s'.opts := by
  fun_induction evtracerouteArgs s args with
  | case1 s =>
    cases h
    exact hs
  | case2 s arg args =>
    cases h
    exact digitBundle_of_eq rfl hs
  | case3 s arg harg c cs =>
    obtain ⟨⟨s₁, taken⟩, hbundle, h⟩ := Option.map_eq_some_iff.mp h
    cases h
    exact digitBundle_bundle hs hbundle
  | case4 s arg harg c cs hcs next args ihTaken ihNext =>
    obtain ⟨⟨s₁, taken⟩, hbundle, h⟩ := Option.bind_eq_some_iff.mp h
    have hs₁ := digitBundle_bundle hs hbundle
    cases taken with
    | false => exact ihNext s₁ hs₁ h
    | true => exact ihTaken s₁ hs₁ h
  | case5 s arg args harg hcs ih => exact ih hs h

/-! ## Commands -/

/-- The bundle of the traceroute a command asks for is digits. -/
def DigitBundles : TelnetCommand → Prop
  | .traceroute spec => DigitBundle spec.opts
  | .oneoff (.traceroute spec) => DigitBundle spec.opts
  | _ => True

theorem digitBundles_parseEvtraceroute (args : List String) (interval : Nat) (endTime : Int) (spread : Nat) :
    DigitBundles (parseEvtraceroute args interval endTime spread) := by
  unfold parseEvtraceroute
  split
  · rename_i hargs
    split
    · trivial
    · have hopts := digitBundle_evtracerouteArgs (digitBundle_of_none rfl) hargs
      exact hopts
  · trivial

theorem digitBundles_parseMeasurement (cmd tool : String) (args : List String) (interval : Nat)
    (startTime endTime : Int) (spread : Nat) :
    DigitBundles (parseMeasurement cmd tool args interval startTime endTime spread) := by
  unfold parseMeasurement
  split
  · unfold parseEvping
    dsimp only
    split_ifs <;> trivial
  · exact digitBundles_parseEvtraceroute args interval endTime spread
  · unfold parseEvtdig
    split
    · trivial
    · dsimp only
      split <;> trivial
  · unfold parseEvhttpget
    dsimp only
    split_ifs <;> trivial
  · unfold parseEvsslgetcert
    dsimp only
    split <;> trivial
  · unfold parseEvntp
    dsimp only
    split_ifs <;> trivial
  · trivial
  · trivial
  · unfold parseHttppost
    split_ifs
    · trivial
    · split <;> trivial
  all_goals trivial

/-- A line's start time is no option. -/
theorem digitBundles_setStartTime {command : TelnetCommand} (startTime : Int) (h : DigitBundles command) :
    DigitBundles (setStartTime startTime command) := by
  cases command with
  | traceroute spec => exact h
  | oneoff command => exact h
  | _ => trivial

theorem digitBundles_parseCronline (cmd : String) : DigitBundles (parseCronline cmd) := by
  unfold parseCronline
  split
  · split
    · exact digitBundles_setStartTime _ (digitBundles_parseMeasurement _ _ _ _ _ _ _)
    · trivial
  · trivial

theorem digitBundles_oneoff {command : TelnetCommand} (h : DigitBundles command) : DigitBundles (.oneoff command) := by
  cases command with
  | traceroute spec => exact h
  | _ => trivial

theorem digitBundles_parseTextCommand (cmd : String) : DigitBundles (parseTextCommand cmd) := by
  unfold parseTextCommand
  split
  · trivial
  · split
    · trivial
    · split <;> trivial
    · exact digitBundles_parseCronline cmd
    · split
      · trivial
      · exact digitBundles_oneoff (digitBundles_parseCronline _)
    · trivial
    · trivial

theorem digitBundles_parseJsonCommand (spec : Json) : DigitBundles (parseJsonCommand spec) := by
  unfold parseJsonCommand
  dsimp only
  split
  case h_2 => exact digitBundle_of_none rfl
  all_goals trivial

theorem digitBundles_parseCommand (fromStr : String → Option Json) (cmd : String) :
    DigitBundles (parseCommand fromStr cmd) := by
  unfold parseCommand
  split_ifs
  · split
    · exact digitBundles_parseJsonCommand _
    · exact digitBundles_parseTextCommand cmd
  · exact digitBundles_parseTextCommand cmd

end Starla.Proof.Controller
