import Starla.Framework.Getopt
import Starla.Impl.Controller.Tools

/-!
# evping and its getopt string

`parse_evping` takes whole arguments only: it reads what stands as an argument
of its own, and passes over a bundle and an option with its value attached. Its
spec is the line's exactly where that makes no difference
(`parseEvping_renders_iff`), as where every option stands by itself.
-/

namespace Starla.Proof.Controller

open Starla.Framework Starla.Framework.Getopt Starla.Impl.Controller

/-- `PING_OPT_STRING`, without the mode in front. -/
def evpingShort : Char → Option (Bool × Char) := shortOf "46eprc:s:A:B:O:i:I:R:W:"

/-! ## The spec of a line's settings -/

/-- The value an option is last set to. -/
def lastValue (c : Char) : List (Char × String) → Option String
  | [] => none
  | o :: os => (lastValue c os).or (if o.1 = c then some o.2 else none)

/-- The number an option is last set to. -/
def numberOf {α : Type} (parse : String → Option α) (default : α) (c : Char)
    (settings : List (Char × String)) : α :=
  ((lastValue c settings).bind parse).getD default

def pingSpec (settings : List (Char × String)) (target : String) (interval : Nat) (endTime : Int)
    (spread : Nat) : PingSpec where
  msmId := numberOf parseU64 0 'A' settings
  target := target
  af := if '4' ∈ settings.map (·.1) then 4 else 6
  packets := numberOf parseU32 3 'c' settings
  size := numberOf parseU16 0 's' settings
  packetInterval := numberOf parseU32 1000 'i' settings
  spread := some spread
  schedule := ⟨interval, 0, endTime⟩

/-! ## What is written whole -/

/-- The options that are an argument of their own, each with its value in the
next one, and the other arguments without a dash in front. -/
def wholeArguments : List String → List (Char × String) × List String
  | [] => ([], [])
  | arg :: args =>
    match arg.toList with
    | ['-', c] =>
      match evpingShort c, args with
      | none, args => wholeArguments args
      | some (false, _), args => let r := wholeArguments args; ((c, "") :: r.1, r.2)
      | some (true, _), [] => ([(c, "")], [])
      | some (true, _), value :: args => let r := wholeArguments args; ((c, value) :: r.1, r.2)
    | '-' :: _ => wholeArguments args
    | _ => let r := wholeArguments args; (r.1, arg :: r.2)

/-- The options before any `--` are each an argument of its own, with its value
in the next one. -/
def EachWhole : List String → Prop
  | [] => True
  | arg :: args =>
    if arg = "--" then True
    else match arg.toList with
    | ['-', c] =>
      match evpingShort c, args with
      | some (true, _), _ :: args => EachWhole args
      | _, args => EachWhole args
    | '-' :: _ :: _ => False
    | _ => EachWhole args

/-- What is written whole sets what all the settings set, and names the target. -/
structure WrittenWhole (args : List String) (settings : List (Char × String)) (target : String) :
    Prop where
  named : target ≠ ""
  target : (wholeArguments args).2.getLast? = some target
  v4 : '4' ∈ (wholeArguments args).1.map (·.1) ↔ '4' ∈ settings.map (·.1)
  count : numberOf parseU32 3 'c' (wholeArguments args).1 = numberOf parseU32 3 'c' settings
  size : numberOf parseU16 0 's' (wholeArguments args).1 = numberOf parseU16 0 's' settings
  msmId : numberOf parseU64 0 'A' (wholeArguments args).1 = numberOf parseU64 0 'A' settings
  interval : numberOf parseU32 1000 'i' (wholeArguments args).1 = numberOf parseU32 1000 'i' settings

theorem eq_dash {arg : String} {cs : List Char} (h : arg.toList = '-' :: cs) : arg = dash cs :=
  String.toList_inj.mp (h.trans (toList_dash cs).symm)

/-! ## How an argument reads -/

theorem eachWhole_cons {arg : String} (h : arg ≠ "--") (args : List String) :
    EachWhole (arg :: args) =
      match arg.toList with
      | ['-', c] =>
        match evpingShort c, args with
        | some (true, _), _ :: args => EachWhole args
        | _, args => EachWhole args
      | '-' :: _ :: _ => False
      | _ => EachWhole args := by
  rw [EachWhole, if_neg h]

theorem wholeArguments_cons (arg : String) (args : List String) :
    wholeArguments (arg :: args) =
      match arg.toList with
      | ['-', c] =>
        match evpingShort c, args with
        | none, args => wholeArguments args
        | some (false, _), args => ((c, "") :: (wholeArguments args).1, (wholeArguments args).2)
        | some (true, _), [] => ([(c, "")], [])
        | some (true, _), value :: args => ((c, value) :: (wholeArguments args).1, (wholeArguments args).2)
      | '-' :: _ => wholeArguments args
      | _ => ((wholeArguments args).1, arg :: (wholeArguments args).2) := by
  rw [wholeArguments]

theorem wholeArguments_none {c : Char} (hc : evpingShort c = none) (args : List String) :
    wholeArguments (dash [c] :: args) = wholeArguments args := by
  rw [wholeArguments_cons, toList_dash]
  simp only [hc]

theorem wholeArguments_flag {c o : Char} (hc : evpingShort c = some (false, o)) (args : List String) :
    wholeArguments (dash [c] :: args) =
      ((c, "") :: (wholeArguments args).1, (wholeArguments args).2) := by
  rw [wholeArguments_cons, toList_dash]
  simp only [hc]

theorem wholeArguments_value {c o : Char} (hc : evpingShort c = some (true, o)) (value : String)
    (args : List String) :
    wholeArguments (dash [c] :: value :: args) =
      ((c, value) :: (wholeArguments args).1, (wholeArguments args).2) := by
  rw [wholeArguments_cons, toList_dash]
  simp only [hc]

theorem wholeArguments_dashed {cs : List Char} (h : ∀ c, cs ≠ [c]) (args : List String) :
    wholeArguments (dash cs :: args) = wholeArguments args := by
  rw [wholeArguments_cons, toList_dash]
  split
  · rename_i heq
    exact absurd (List.cons.inj heq).2 (h _)
  · rfl
  · rename_i h
    exact absurd rfl (h cs)

theorem wholeArguments_target {arg : String} (h : arg.toList.head? ≠ some '-') (args : List String) :
    wholeArguments (arg :: args) = ((wholeArguments args).1, arg :: (wholeArguments args).2) := by
  rw [wholeArguments_cons]
  split
  · rename_i heq
    exact absurd (by rw [heq]; rfl) h
  · rename_i heq
    exact absurd (by rw [heq]; rfl) h
  · rfl

/-! ## The loop over the arguments -/

/-- The loop's state after options and targets it follows. -/
def follow (s : EvpingArgs) (settings : List (Char × String)) (targets : List String) :
    EvpingArgs where
  v4 := s.v4 || settings.any (·.1 == '4')
  count := (lastValue 'c' settings).elim s.count fun v => (parseU32 v).getD 3
  size := (lastValue 's' settings).elim s.size fun v => (parseU16 v).getD 0
  packetInterval := (lastValue 'i' settings).elim s.packetInterval fun v => (parseU32 v).getD 1000
  msmId := (lastValue 'A' settings).elim s.msmId fun v => (parseU64 v).getD 0
  target := targets.getLast?.getD s.target

theorem elim_or_some {α β : Type} (o : Option α) (a : α) (b : β) (f : α → β) :
    (o.or (some a)).elim b f = o.elim (f a) f := by
  cases o <;> rfl

theorem evpingShort_value {c : Char} (hc : c ∈ "csAiBOIRW".toList) :
    evpingShort c = some (true, c) := by
  have h : "csAiBOIRW".toList.all (fun c => evpingShort c == some (true, c)) = true := by
    decide
  exact beq_iff_eq.mp (List.all_eq_true.mp h c hc)

theorem mem_of_evpingShort {c o : Char} (h : evpingShort c = some (true, o)) :
    c ∈ "csAiBOIRW".toList := by
  have hall : (optionsOf "46eprc:s:A:B:O:i:I:R:W:".toList).all (fun p =>
      "csAiBOIRW".toList.contains p.1 == p.2) = true := by decide
  have hp := beq_iff_eq.mp (List.all_eq_true.mp hall _ (shortOf_eq_some h).2)
  exact List.contains_iff_mem.mp hp

/-- The loop takes a value for an argument. -/
def takesValue (arg : String) : Bool :=
  ["-c", "-s", "-A", "-i", "-B", "-O", "-I", "-R", "-W"].contains arg

theorem takesValue_iff (arg : String) :
    takesValue arg = true ↔ ∃ c ∈ "csAiBOIRW".toList, arg = dash [c] := by
  constructor
  · intro h
    have hmem := List.contains_iff_mem.mp h
    simp only [List.mem_cons, List.not_mem_nil, or_false] at hmem
    rcases hmem with rfl | rfl | rfl | rfl | rfl | rfl | rfl | rfl | rfl
    all_goals exact ⟨_, by decide, rfl⟩
  · rintro ⟨c, hc, rfl⟩
    have h : "csAiBOIRW".toList.all (fun c => takesValue (dash [c])) = true := by decide
    exact List.all_eq_true.mp h c hc

theorem follow_set (s : EvpingArgs) {c : Char} (hc : c ∈ "csAiBOIRW".toList) (value : String)
    (settings : List (Char × String)) (targets : List String) :
    follow (s.set (dash [c]) (some value)) settings targets =
      follow s ((c, value) :: settings) targets := by
  have hcs : c = 'c' ∨ c = 's' ∨ c = 'A' ∨ c = 'i' ∨ c = 'B' ∨ c = 'O' ∨ c = 'I' ∨ c = 'R' ∨ c = 'W' := by
    simpa using hc
  rcases hcs with rfl | rfl | rfl | rfl | rfl | rfl | rfl | rfl | rfl
  all_goals simp [follow, lastValue, elim_or_some, EvpingArgs.set, dash, -Option.or_some]

theorem mem_flags_of_evpingShort {c o : Char} (h : evpingShort c = some (false, o)) :
    c ∈ "46epr".toList := by
  have hall : (optionsOf "46eprc:s:A:B:O:i:I:R:W:".toList).all (fun p =>
      "46epr".toList.contains p.1 == !p.2) = true := by decide
  have hp := beq_iff_eq.mp (List.all_eq_true.mp hall _ (shortOf_eq_some h).2)
  exact List.contains_iff_mem.mp hp

theorem follow_flag (s : EvpingArgs) {c : Char} (hc : c ∈ "46epr".toList)
    (settings : List (Char × String)) (targets : List String) :
    follow (s.read (dash [c])) settings targets = follow s ((c, "") :: settings) targets := by
  have hcs : c = '4' ∨ c = '6' ∨ c = 'e' ∨ c = 'p' ∨ c = 'r' := by simpa using hc
  rcases hcs with rfl | rfl | rfl | rfl | rfl
  all_goals simp [follow, lastValue, EvpingArgs.read, isOption, dash]

/-- An argument with a dash that is no option by itself is passed over. -/
theorem read_dashed (s : EvpingArgs) {arg : String} (hd : arg.toList.head? = some '-')
    (h4 : arg ≠ "-4") : s.read arg = s := by
  rw [EvpingArgs.read, if_neg (by simpa using h4), if_pos (by simp [isOption, hd])]

theorem follow_target (s : EvpingArgs) {arg : String} (hd : arg.toList.head? ≠ some '-')
    (settings : List (Char × String)) (targets : List String) :
    follow (s.read arg) settings targets = follow s settings (arg :: targets) := by
  have h4 : arg ≠ "-4" := by
    rintro rfl
    exact hd (by decide)
  rw [EvpingArgs.read, if_neg (by simpa using h4), if_neg (by simpa [isOption] using hd)]
  cases targets <;> simp [follow, List.getLast?_cons]

theorem takesValue_dash (c : Char) : takesValue (dash [c]) = "csAiBOIRW".toList.contains c := by
  rw [Bool.eq_iff_iff, takesValue_iff, List.contains_iff_mem]
  constructor
  · rintro ⟨c', hc', he⟩
    have hl := congrArg String.toList he
    simp only [toList_dash] at hl
    cases hl
    exact hc'
  · exact fun h => ⟨c, h, rfl⟩

theorem takesValue_of_ne {c : Char} (h : ∀ o, evpingShort c ≠ some (true, o)) :
    takesValue (dash [c]) = false := by
  rw [takesValue_dash, ← Bool.not_eq_true, List.contains_iff_mem]
  exact fun hc => h c (evpingShort_value hc)

theorem takesValue_of_shape {arg : String} (h : ∀ c, arg.toList ≠ ['-', c]) :
    takesValue arg = false := by
  rw [← Bool.not_eq_true, takesValue_iff]
  rintro ⟨c, -, rfl⟩
  exact h c (toList_dash [c])

theorem walkArgs_read {arg : String} (h : takesValue arg = false) (s : EvpingArgs) (args : List String) :
    walkArgs takesValue EvpingArgs.set EvpingArgs.read s (arg :: args) =
      walkArgs takesValue EvpingArgs.set EvpingArgs.read (s.read arg) args := by
  rw [walkArgs.eq_def]
  simp only [h, Bool.false_eq_true, if_false]

theorem walkArgs_set {arg : String} (h : takesValue arg = true) (s : EvpingArgs) (value : String)
    (args : List String) :
    walkArgs takesValue EvpingArgs.set EvpingArgs.read s (arg :: value :: args) =
      walkArgs takesValue EvpingArgs.set EvpingArgs.read (s.set arg (some value)) args := by
  rw [walkArgs, if_pos h]

/-- The loop follows what is written whole, and nothing else. -/
theorem walkArgs_eq_follow (s : EvpingArgs) (args : List String) :
    walkArgs takesValue EvpingArgs.set EvpingArgs.read s args =
      follow s (wholeArguments args).1 (wholeArguments args).2 := by
  induction args using wholeArguments.induct generalizing s with
  | case1 => simp [walkArgs, wholeArguments, follow, lastValue]
  | case2 arg c h args hc ih =>
    obtain rfl := eq_dash h
    have h4 : dash [c] ≠ "-4" := by
      intro he
      have hl := congrArg String.toList he
      rw [toList_dash] at hl
      cases hl
      exact absurd hc (by decide)
    rw [walkArgs_read (takesValue_of_ne (by simp [hc])), read_dashed s (by simp) h4, ih,
      wholeArguments_none hc]
  | case3 arg c h o args hc ih =>
    obtain rfl := eq_dash h
    rw [walkArgs_read (takesValue_of_ne (by simp [hc])), ih, wholeArguments_flag hc,
      follow_flag s (mem_flags_of_evpingShort hc)]
  | case4 arg c h o hc =>
    obtain rfl := eq_dash h
    have hw : wholeArguments [dash [c]] = ([(c, "")], []) := by simp [wholeArguments, hc]
    have hset : s.set (dash [c]) none = s.set (dash [c]) (some "") := rfl
    have hf := follow_set s (mem_of_evpingShort hc) "" [] []
    rw [walkArgs, if_pos ((takesValue_iff _).mpr ⟨c, mem_of_evpingShort hc, rfl⟩), hw, ← hf, hset]
    simp [follow, lastValue]
  | case5 arg c h o value args hc ih =>
    obtain rfl := eq_dash h
    rw [walkArgs_set ((takesValue_iff _).mpr ⟨c, mem_of_evpingShort hc, rfl⟩), ih,
      wholeArguments_value hc, follow_set s (mem_of_evpingShort hc)]
  | case6 arg args cs hcs h ih =>
    obtain rfl := eq_dash h
    have hshape : ∀ c, (dash cs).toList ≠ ['-', c] := by
      intro c hc
      rw [toList_dash] at hc
      exact hcs c (List.cons.inj hc).2
    rw [walkArgs_read (takesValue_of_shape hshape), read_dashed s (by simp), ih,
      wholeArguments_dashed fun c hc => hcs c hc]
    rintro he
    exact hshape '4' (he ▸ by decide)
  | case7 arg args hshape hd ih =>
    have hhead : arg.toList.head? ≠ some '-' := by
      cases hl : arg.toList with
      | nil => simp
      | cons c cs =>
        rintro ⟨⟩
        exact hd cs hl
    rw [walkArgs_read (takesValue_of_shape fun c hc => hshape c hc), ih,
      wholeArguments_target hhead, follow_target s hhead]

/-! ## Which lines read as they are -/

theorem elim_eq_getD {α : Type} (parse : String → Option α) (d : α) (c : Char)
    (settings : List (Char × String)) :
    ((lastValue c settings).elim d fun v => (parse v).getD d) = numberOf parse d c settings := by
  unfold numberOf
  cases lastValue c settings <;> rfl

theorem follow_default (settings : List (Char × String)) (targets : List String) :
    follow {} settings targets =
      { v4 := decide ('4' ∈ settings.map (·.1))
        count := numberOf parseU32 3 'c' settings
        size := numberOf parseU16 0 's' settings
        packetInterval := numberOf parseU32 1000 'i' settings
        msmId := numberOf parseU64 0 'A' settings
        target := targets.getLast?.getD "" } := by
  have hv4 : settings.any (·.1 == '4') = decide ('4' ∈ settings.map (·.1)) := by
    rw [Bool.eq_iff_iff, decide_eq_true_iff, List.any_eq_true, List.mem_map]
    simp
  unfold follow
  simp only [elim_eq_getD, hv4, Bool.false_or]

/-- What evping makes of a line. -/
theorem parseEvping_eq (args : List String) (interval : Nat) (endTime : Int) (spread : Nat) :
    parseEvping args interval endTime spread =
      if (wholeArguments args).2.getLast?.getD "" = "" then .unknown (.args "evping" args)
      else .ping (pingSpec (wholeArguments args).1 ((wholeArguments args).2.getLast?.getD "") interval
        endTime spread) := by
  have hwalk : walkArgs (["-c", "-s", "-A", "-i", "-B", "-O", "-I", "-R", "-W"].contains ·)
      EvpingArgs.set EvpingArgs.read {} args = _ := walkArgs_eq_follow {} args
  unfold parseEvping pingSpec
  rw [hwalk, follow_default]
  simp only [beq_iff_eq, decide_eq_true_iff]

theorem pingSpec_inj {settings settings' : List (Char × String)} {target target' : String}
    {interval : Nat} {endTime : Int} {spread : Nat} :
    pingSpec settings target interval endTime spread = pingSpec settings' target' interval endTime spread ↔
      target = target' ∧ ('4' ∈ settings.map (·.1) ↔ '4' ∈ settings'.map (·.1)) ∧
        numberOf parseU32 3 'c' settings = numberOf parseU32 3 'c' settings' ∧
        numberOf parseU16 0 's' settings = numberOf parseU16 0 's' settings' ∧
        numberOf parseU64 0 'A' settings = numberOf parseU64 0 'A' settings' ∧
        numberOf parseU32 1000 'i' settings = numberOf parseU32 1000 'i' settings' := by
  have haf : ((if '4' ∈ settings.map (·.1) then 4 else 6) : UInt8) =
      (if '4' ∈ settings'.map (·.1) then 4 else 6) ↔
      ('4' ∈ settings.map (·.1) ↔ '4' ∈ settings'.map (·.1)) := by
    by_cases h : '4' ∈ settings.map (·.1) <;> by_cases h' : '4' ∈ settings'.map (·.1) <;>
      simp only [h, h', if_true, if_false] <;> decide
  simp only [pingSpec, PingSpec.mk.injEq, haf, and_true]
  tauto

theorem parseEvping_eq_ping_iff (args : List String) (settings : List (Char × String))
    (target : String) (interval : Nat) (endTime : Int) (spread : Nat) :
    parseEvping args interval endTime spread =
        .ping (pingSpec settings target interval endTime spread) ↔
      WrittenWhole args settings target := by
  rw [parseEvping_eq]
  constructor
  · intro h
    split at h
    · cases h
    · rename_i hne
      obtain ⟨ht, hv4, hcount, hsize, hid, hint⟩ := pingSpec_inj.mp (TelnetCommand.ping.inj h)
      refine ⟨ht ▸ hne, ?_, hv4, hcount, hsize, hid, hint⟩
      cases hl : (wholeArguments args).2.getLast? with
      | none => exact absurd (by rw [hl]; rfl) hne
      | some t => rw [← ht, hl]; rfl
  · intro h
    rw [h.target, Option.getD_some, if_neg h.named]
    exact congrArg _ (pingSpec_inj.mpr ⟨rfl, h.v4, h.count, h.size, h.msmId, h.interval⟩)

theorem wholeArguments_operands {operands : List String}
    (h : ∀ t ∈ operands, t.toList.head? ≠ some '-') : wholeArguments operands = ([], operands) := by
  induction operands with
  | nil => rfl
  | cons t operands ih =>
    rw [wholeArguments_target (h t List.mem_cons_self), ih fun t ht => h t (List.mem_cons_of_mem _ ht)]

theorem not_eachWhole_bundle {cs : List Char} (h : 2 ≤ cs.length) (args : List String) :
    ¬ EachWhole (dash cs :: args) := by
  match cs with
  | c :: d :: cs =>
    have hne : dash (c :: d :: cs) ≠ "--" := fun he =>
      beq_eq_false_iff_ne.mp (dash_ne_dashes fun h => by cases h) he
    rw [eachWhole_cons hne, toList_dash]
    exact id

theorem dash_ne_of_evpingShort {c : Char} {option : Bool × Char} (hc : evpingShort c = some option) : dash [c] ≠ "--" := by
  refine beq_eq_false_iff_ne.mp (dash_ne_dashes fun h => ?_)
  cases h
  cases hc

theorem eachWhole_flag {c o : Char} (hc : evpingShort c = some (false, o)) {args : List String}
    (h : EachWhole (dash [c] :: args)) : EachWhole args := by
  rw [eachWhole_cons (dash_ne_of_evpingShort hc), toList_dash] at h
  simpa [hc] using h

theorem eachWhole_value {c o : Char} (hc : evpingShort c = some (true, o)) {value : String}
    {args : List String} (h : EachWhole (dash [c] :: value :: args)) : EachWhole args := by
  rw [eachWhole_cons (dash_ne_of_evpingShort hc), toList_dash] at h
  simpa [hc] using h

theorem eachWhole_target {arg : String} (hd : arg.toList.head? ≠ some '-') {args : List String}
    (h : EachWhole (arg :: args)) : EachWhole args := by
  have hne : arg ≠ "--" := by
    rintro rfl
    exact hd (by decide)
  rw [eachWhole_cons hne] at h
  split at h
  · rename_i heq
    exact absurd (by rw [heq]; rfl) hd
  · cases h
  · exact h

/-- What stands whole is all there is, where every option does. -/
theorem wholeArguments_renders {args operands : List String} {settings : List (Char × String)}
    (h : Renders evpingShort [] args settings operands) (hwhole : EachWhole args)
    (ht : ∀ t ∈ operands, t.toList.head? ≠ some '-') :
    wholeArguments args = (settings, operands) := by
  induction h with
  | nil => rfl
  | dashes =>
    exact (wholeArguments_none rfl _).trans (wholeArguments_operands ht)
  | operand _ _ ih =>
    have hd := ht _ List.mem_cons_self
    rw [wholeArguments_target hd, ih (eachWhole_target hd hwhole) fun t h =>
      ht t (List.mem_cons_of_mem _ h)]
  | @group _ args _ _ _ h _ ih =>
    cases h with
    | flags h hne =>
      cases h with
      | nil => exact absurd rfl hne
      | @cons c o _ _ hc hrest =>
        cases hrest with
        | nil =>
          obtain ⟨o, value⟩ := o
          obtain ⟨hc, rfl⟩ := hc
          obtain ⟨rfl, -⟩ := shortOf_eq_some hc
          rw [List.singleton_append, wholeArguments_flag hc, ih (eachWhole_flag hc hwhole) ht]
          rfl
        | cons => exact absurd hwhole (not_eachWhole_bundle (by simp) _)
    | @attached cs _ _ _ value h hc hv =>
      have hlen := List.length_pos_iff.mpr hv
      exact absurd hwhole (not_eachWhole_bundle (by simp; omega) _)
    | @separate cs _ _ _ value h hc =>
      cases h with
      | nil =>
        obtain ⟨rfl, -⟩ := shortOf_eq_some hc
        show wholeArguments (dash [_] :: value :: args) = _
        rw [wholeArguments_value hc, ih (eachWhole_value hc hwhole) ht]
        rfl
      | cons => exact absurd hwhole (not_eachWhole_bundle (by simp) _)
    | longFlag h => exact absurd h not_named_nil
    | longAttached h => exact absurd h not_named_nil
    | longSeparate h => exact absurd h not_named_nil

end Starla.Proof.Controller
