import Starla.Framework.Getopt
import Starla.Impl.Controller.Evtdig

/-!
# The getopt loops of evtdig and evtraceroute

Every way getopt allows to write an evtdig line's options and operands reads as
those options and operands, and every way to write an evtraceroute line's gives
one command (`getopt_renders`).
-/

namespace Starla.Proof.Controller

open Starla.Framework Starla.Framework.Getopt Starla.Impl.Controller

/-! ## evtdig -/

theorem evtdigBundle_flags (next : Option String) {cs rest : List Char}
    {os : List (DigOpt × String)} (h : Flags evtdigShortopt cs os) :
    evtdigBundle next (cs ++ rest) =
      (evtdigBundle next rest).map fun (opts, taken) => (os ++ opts, taken) := by
  induction h with
  | nil => cases h : evtdigBundle next rest <;> simp [h, Except.map]
  | @cons c o cs os hc _ ih =>
    obtain ⟨o, value⟩ := o
    obtain ⟨hc, rfl⟩ := hc
    rw [List.cons_append, evtdigBundle, hc]
    simp only [ih]
    cases evtdigBundle next rest <;> rfl

theorem filter_eq_singleton {α : Type} {l : List α} {p : α → Bool} {a : α} (hl : l.Nodup)
    (ha : a ∈ l) (hp : p a = true) (honly : ∀ b ∈ l, p b = true → b = a) : l.filter p = [a] := by
  refine List.perm_singleton.mp ((List.perm_ext_iff_of_nodup (hl.filter p) (by simp)).mpr fun b => ?_)
  rw [List.mem_filter, List.mem_singleton]
  exact ⟨fun h => honly b h.1 h.2, fun h => h ▸ ⟨ha, hp⟩⟩

/-- The names of the table are all different, not empty and without a `=`. -/
theorem longopts_names : EVTDIG_LONGOPTS.Nodup ∧
    (EVTDIG_LONGOPTS.all fun p =>
      EVTDIG_LONGOPTS.find? (·.1.toList == p.1.toList) == some p &&
        !p.1.toList.isEmpty && !p.1.toList.contains '=') = true := by
  decide

theorem find_longopts {p : String × Bool × DigOpt} (h : p ∈ EVTDIG_LONGOPTS) :
    EVTDIG_LONGOPTS.find? (·.1.toList == p.1.toList) = some p ∧ p.1.toList ≠ [] ∧ '=' ∉ p.1.toList := by
  simpa [and_assoc] using List.all_eq_true.mp longopts_names.2 p h

theorem evtdigLongopt_of_named (arg : String) {given : List Char} {o : Bool × DigOpt}
    (h : Named EVTDIG_LONGOPTS given o) : evtdigLongopt arg given = .ok o := by
  unfold evtdigLongopt
  cases h with
  | exact h =>
    rw [(find_longopts h).1]
  | @abbreviated _ name _ h hg _ honly =>
    cases hf : EVTDIG_LONGOPTS.find? (·.1.toList == given) with
    | some p =>
      have hp := List.find?_some hf
      have : p = (name, o) := honly p (List.mem_of_find?_eq_some hf) (beq_iff_eq.mp hp ▸ List.prefix_rfl)
      rw [this]
    | none =>
      rw [filter_eq_singleton longopts_names.1 h (List.isPrefixOf_iff_prefix.mpr hg)
        fun b hb hp => honly b hb (List.isPrefixOf_iff_prefix.mp hp)]

theorem name_of_named {given : List Char} {o : Bool × DigOpt}
    (h : Named EVTDIG_LONGOPTS given o) : given ≠ [] ∧ '=' ∉ given := by
  cases h with
  | exact h => exact (find_longopts h).2
  | abbreviated h hg hne => exact ⟨hne, fun hin => (find_longopts h).2.2 (hg.subset hin)⟩


theorem evtdigGetoptFrom_operand {arg : String} (h : IsOperand arg) (opts : List (DigOpt × String))
    (operands args : List String) :
    evtdigGetoptFrom opts operands (arg :: args) =
      evtdigGetoptFrom opts (operands ++ [arg]) args := by
  rw [evtdigGetoptFrom, if_neg (by simp [h.ne_dashes])]
  rcases h with rfl | h
  · rfl
  · cases hcs : arg.toList with
    | nil => rfl
    | cons c cs =>
      have hc : c ≠ '-' := fun hc => h (by rw [hcs, hc]; rfl)
      split
      · rename_i heq; exact absurd (List.cons.inj heq).1 hc
      · rename_i heq; exact absurd (List.cons.inj heq).1 hc
      · rfl

theorem evtdigGetoptFrom_bundle {c : Char} {cs : List Char} (hc : c ≠ '-')
    (opts : List (DigOpt × String)) (operands args : List String) :
    evtdigGetoptFrom opts operands (dash (c :: cs) :: args) =
      match evtdigBundle args.head? (c :: cs), args with
      | .error e, _ => .error e
      | .ok (os, true), _ :: args => evtdigGetoptFrom (opts ++ os) operands args
      | .ok (os, _), args => evtdigGetoptFrom (opts ++ os) operands args := by
  rw [evtdigGetoptFrom, if_neg (by simp [dash_ne_dashes fun h => hc (List.cons.inj h).1]),
    toList_dash]
  split
  · rename_i heq; exact absurd (List.cons.inj (List.cons.inj heq).2).1 hc
  · rename_i heq
    obtain ⟨rfl, rfl⟩ := List.cons.inj (List.cons.inj heq).2
    rfl
  · rename_i h; exact absurd rfl (h c cs)


theorem evtdigGetoptFrom_long {long : List Char} (hne : long ≠ []) (opts : List (DigOpt × String))
    (operands args : List String) :
    evtdigGetoptFrom opts operands (dash ('-' :: long) :: args) =
      match evtdigLong args.head? (dash ('-' :: long)) long, args with
      | .error e, _ => .error e
      | .ok (o, true), _ :: args => evtdigGetoptFrom (opts ++ [o]) operands args
      | .ok (o, _), args => evtdigGetoptFrom (opts ++ [o]) operands args := by
  rw [evtdigGetoptFrom,
    if_neg (by simp [dash_ne_dashes fun h => hne (List.cons.inj h).2]), toList_dash]
  rfl

theorem evtdigLong_of_named (next : Option String) (arg : String) {name : List Char}
    {hasArg : Bool} {opt : DigOpt} (h : Named EVTDIG_LONGOPTS name (hasArg, opt)) :
    evtdigLong next arg name =
      match hasArg, next with
      | true, some value => .ok ((opt, value), true)
      | true, none => .error (arg ++ " needs an argument")
      | false, _ => .ok ((opt, ""), false) := by
  unfold evtdigLong
  rw [splitOnce_of_notMem (name_of_named h).2]
  simp only [evtdigLongopt_of_named arg h]
  cases hasArg <;> cases next <;> rfl

theorem evtdigLong_attached (next : Option String) (arg : String) {name value : List Char}
    {opt : DigOpt} (h : Named EVTDIG_LONGOPTS name (true, opt)) :
    evtdigLong next arg (name ++ '=' :: value) = .ok ((opt, String.ofList value), false) := by
  unfold evtdigLong
  rw [splitOnce_append (name_of_named h).2]
  simp only [evtdigLongopt_of_named arg h]

/-- A bundle in front of a whole argument list. -/
theorem evtdigGetoptFrom_flags (taken : Bool) (args : List String) {cs rest : List Char}
    {os os' opts : List (DigOpt × String)} {operands args' : List String}
    (h : Flags evtdigShortopt cs os) (hne : cs ++ rest ≠ [])
    (hrest : ∀ c ∈ rest.head?, evtdigShortopt c ≠ none)
    (hb : evtdigBundle args.head? rest = .ok (os', taken))
    (hargs : args' = if taken then args.tail else args) (htaken : taken = true → args ≠ []) :
    evtdigGetoptFrom opts operands (dash (cs ++ rest) :: args) =
      evtdigGetoptFrom (opts ++ (os ++ os')) operands args' := by
  obtain ⟨c, cs', hcs, hc⟩ := h.ne_dash rfl hne hrest
  have hbundle : evtdigBundle args.head? (c :: cs') = .ok (os ++ os', taken) := by
    rw [← hcs, evtdigBundle_flags _ h, hb]
    rfl
  rw [hcs, evtdigGetoptFrom_bundle hc, hbundle, hargs]
  cases taken with
  | false => cases args <;> rfl
  | true =>
    cases args with
    | nil => exact absurd rfl (htaken rfl)
    | cons => rfl

theorem evtdigGetoptFrom_group {group : List String} {os : List (DigOpt × String)}
    (h : Group evtdigShortopt EVTDIG_LONGOPTS group os) (opts : List (DigOpt × String))
    (operands args : List String) :
    evtdigGetoptFrom opts operands (group ++ args) = evtdigGetoptFrom (opts ++ os) operands args := by
  cases h with
  | @flags cs os h hne =>
    have hf : evtdigGetoptFrom opts operands (dash (cs ++ []) :: args) =
        evtdigGetoptFrom (opts ++ (os ++ [])) operands args :=
      evtdigGetoptFrom_flags false args h (by simpa using hne) (by simp) rfl rfl (by simp)
    simpa using hf
  | attached h hc hv =>
    rw [List.singleton_append]
    refine evtdigGetoptFrom_flags false args h (by simp) (by simp [hc]) ?_ rfl (by simp)
    rw [evtdigBundle, hc]
    simp [hv]
  | separate h hc =>
    refine evtdigGetoptFrom_flags true (_ :: args) h (by simp) (by simp [hc]) ?_ rfl
      (by simp)
    rw [evtdigBundle, hc]
    rfl
  | longFlag h =>
    rw [List.singleton_append, evtdigGetoptFrom_long (name_of_named h).1, evtdigLong_of_named _ _ h]
  | longAttached h =>
    rw [List.singleton_append, evtdigGetoptFrom_long (by simp), evtdigLong_attached _ _ h]
  | longSeparate h =>
    rw [List.cons_append, evtdigGetoptFrom_long (name_of_named h).1, evtdigLong_of_named _ _ h]
    rfl

theorem evtdigGetoptFrom_renders {args operands : List String} {settings : List (DigOpt × String)}
    (h : Renders evtdigShortopt EVTDIG_LONGOPTS args settings operands)
    (opts : List (DigOpt × String)) (before : List String) :
    evtdigGetoptFrom opts before args = .ok (opts ++ settings, before ++ operands) := by
  induction h generalizing opts before with
  | nil => simp [evtdigGetoptFrom]
  | dashes => simp [evtdigGetoptFrom]
  | operand h _ ih => rw [evtdigGetoptFrom_operand h, ih]; simp
  | group h _ ih => rw [evtdigGetoptFrom_group h, ih]; simp

/-! ## evtraceroute -/

/-- `TRACEROUTE_OPT_STRING`, without the mode in front. -/
def evtracerouteShort : Char → Option (Bool × Char) :=
  shortOf "46IUFrTa:b:c:f:g:i:m:p:t:w:z:A:B:O:S:H:D:R:W:"

/-- What one setting does to the state; `none` where the line is refused. -/
def applySetting (s : EvtracerouteArgs) (o : Char × String) : Option EvtracerouteArgs :=
  match evtracerouteShort o.1 with
  | some (true, _) => s.set o.1 o.2
  | some (false, _) => s.flag o.1
  | none => none

theorem evtracerouteShort_eq_some {c : Char} {b : Bool} {o : Char}
    (h : evtracerouteShort c = some (b, o)) :
    o = c ∧ "abcfgimptwzABOSHDRW".toList.contains c = b ∧ c ≠ '-' := by
  obtain ⟨rfl, hmem⟩ := shortOf_eq_some h
  have hall : (optionsOf "46IUFrTa:b:c:f:g:i:m:p:t:w:z:A:B:O:S:H:D:R:W:".toList).all (fun p =>
      "abcfgimptwzABOSHDRW".toList.contains p.1 == p.2 && p.1 != '-') = true := by decide
  have hp := List.all_eq_true.mp hall _ hmem
  simp only [Bool.and_eq_true, beq_iff_eq, bne_iff_ne] at hp
  exact ⟨rfl, hp⟩

theorem bundle_flags (next : Option String) {cs rest : List Char} {os : List (Char × String)}
    (h : Flags evtracerouteShort cs os) (s : EvtracerouteArgs) :
    s.bundle next (cs ++ rest) = (os.foldlM applySetting s).bind fun s => s.bundle next rest := by
  induction h generalizing s with
  | nil => rfl
  | @cons c o cs os hc _ ih =>
    obtain ⟨o, value⟩ := o
    obtain ⟨hc, rfl⟩ := hc
    obtain ⟨rfl, hval, -⟩ := evtracerouteShort_eq_some hc
    rw [List.cons_append, EvtracerouteArgs.bundle, if_neg (hval ▸ Bool.false_ne_true), List.foldlM_cons]
    simp only [applySetting, hc, ih]
    exact (Option.bind_assoc ..).symm

theorem evtracerouteArgs_operand {arg : String} (h : IsOperand arg) (s : EvtracerouteArgs)
    (args : List String) :
    evtracerouteArgs s (arg :: args) = evtracerouteArgs { s with targets := s.targets ++ [arg] } args := by
  rw [evtracerouteArgs, if_neg (by simp [h.ne_dashes])]
  rcases h with rfl | h
  · rfl
  · split
    · rename_i heq
      exact absurd (by rw [heq]; rfl) h
    · rfl

/-- A bundle in front: its flags, and then what follows them. -/
theorem evtracerouteArgs_flags {cs rest : List Char} {os : List (Char × String)}
    (h : Flags evtracerouteShort cs os) (hne : cs ++ rest ≠ [])
    (hrest : ∀ c ∈ rest.head?, evtracerouteShort c ≠ none) (s : EvtracerouteArgs)
    (args : List String) :
    evtracerouteArgs s (dash (cs ++ rest) :: args) =
      (os.foldlM applySetting s).bind fun s => (s.bundle args.head? rest).bind fun (s, taken) =>
        evtracerouteArgs s (if taken then args.tail else args) := by
  obtain ⟨c, cs', hcs, hc⟩ := h.ne_dash rfl hne hrest
  have hrun : evtracerouteArgs s (dash (c :: cs') :: args) =
      (s.bundle args.head? (c :: cs')).bind fun (s, taken) =>
        evtracerouteArgs s (if taken then args.tail else args) := by
    rw [evtracerouteArgs, if_neg (by simp [dash_ne_dashes fun h => hc (List.cons.inj h).1]), toList_dash]
    cases args with
    | nil => cases h : s.bundle none (c :: cs') <;> simp [h, evtracerouteArgs]
    | cons next rest =>
      show Option.bind _ _ = Option.bind _ _
      congr 1
      funext ⟨s, taken⟩
      cases taken <;> rfl
  rw [hcs, hrun, ← hcs, bundle_flags _ h, Option.bind_assoc]

theorem bundle_value {c : Char} {o : Char} (hc : evtracerouteShort c = some (true, o))
    (next : Option String) (cs : List Char) (s : EvtracerouteArgs) :
    s.bundle next (c :: cs) =
      if cs.isEmpty then next.bind fun value => (applySetting s (o, value)).map (·, true)
      else (applySetting s (o, String.ofList cs)).map (·, false) := by
  obtain ⟨rfl, hval, -⟩ := evtracerouteShort_eq_some hc
  rw [EvtracerouteArgs.bundle, if_pos hval]
  simp only [applySetting, hc]

theorem foldlM_concat (os : List (Char × String)) (o : Char × String) (s : EvtracerouteArgs) :
    (os ++ [o]).foldlM applySetting s = (os.foldlM applySetting s).bind (applySetting · o) := by
  rw [List.foldlM_append]
  simp

theorem evtracerouteArgs_group {group : List String} {os : List (Char × String)}
    (h : Group evtracerouteShort [] group os) (s : EvtracerouteArgs) (args : List String) :
    evtracerouteArgs s (group ++ args) =
      (os.foldlM applySetting s).bind fun s => evtracerouteArgs s args := by
  cases h with
  | @flags cs os h hne =>
    rw [List.singleton_append, ← List.append_nil cs,
      evtracerouteArgs_flags h (by simpa using hne) (by simp)]
    rfl
  | @attached _ os _ o value h hc hv =>
    rw [List.singleton_append, evtracerouteArgs_flags h (by simp) (by simp [hc]), foldlM_concat,
      Option.bind_assoc]
    congr 1
    funext s
    rw [bundle_value hc, if_neg (by simpa using hv)]
    cases applySetting s (o, String.ofList value) <;> rfl
  | @separate _ os _ o value h hc =>
    rw [List.cons_append, List.singleton_append, evtracerouteArgs_flags h (by simp) (by simp [hc]),
      foldlM_concat, Option.bind_assoc]
    congr 1
    funext s
    rw [bundle_value hc, if_pos List.isEmpty_nil]
    simp only [List.head?_cons, Option.bind_some]
    cases applySetting s (o, value) <;> rfl
  | longFlag h => exact absurd h not_named_nil
  | longAttached h => exact absurd h not_named_nil
  | longSeparate h => exact absurd h not_named_nil

/-- What a setting does has nothing to do with the operands. -/
theorem applySetting_targets (s : EvtracerouteArgs) (targets : List String) (o : Char × String) :
    applySetting { s with targets } o = (applySetting s o).map ({ · with targets }) := by
  have hset : ∀ c v, EvtracerouteArgs.set { s with targets } c v = (s.set c v).map ({ · with targets }) := by
    intro c v
    unfold EvtracerouteArgs.set
    split <;> try simp [Option.map_map, Function.comp_def]
    congr 1
    funext n
    split <;> rfl
  have hflag : ∀ c, EvtracerouteArgs.flag { s with targets } c = (s.flag c).map ({ · with targets }) := by
    intro c
    unfold EvtracerouteArgs.flag
    split <;> rfl
  unfold applySetting
  split
  · exact hset ..
  · exact hflag ..
  · rfl

theorem foldlM_targets (os : List (Char × String)) (s : EvtracerouteArgs) (targets : List String) :
    os.foldlM applySetting { s with targets } = (os.foldlM applySetting s).map ({ · with targets }) := by
  induction os generalizing s with
  | nil => rfl
  | cons o os ih =>
    rw [List.foldlM_cons, List.foldlM_cons, applySetting_targets]
    cases applySetting s o with
    | none => rfl
    | some s => exact ih s

theorem targets_foldlM {os : List (Char × String)} {s s' : EvtracerouteArgs}
    (h : os.foldlM applySetting s = some s') : s'.targets = s.targets := by
  have ht := foldlM_targets os s s.targets
  rw [h, Option.map_some, Option.some.injEq] at ht
  rw [ht]

theorem evtracerouteArgs_renders {args operands : List String} {settings : List (Char × String)}
    (h : Renders evtracerouteShort [] args settings operands) (s : EvtracerouteArgs) :
    evtracerouteArgs s args =
      (settings.foldlM applySetting s).map fun s' => { s' with targets := s.targets ++ operands } := by
  induction h generalizing s with
  | nil => simp [evtracerouteArgs]
  | dashes => simp [evtracerouteArgs]
  | operand h _ ih =>
    rw [evtracerouteArgs_operand h, ih, foldlM_targets, Option.map_map]
    simp [Function.comp_def]
  | @group _ args os settings operands h _ ih =>
    rw [evtracerouteArgs_group h, List.foldlM_append]
    cases hs : os.foldlM applySetting s with
    | none => rfl
    | some s' =>
      show evtracerouteArgs s' args = _
      rw [ih, targets_foldlM hs]
      rfl

/-- What evtraceroute's settings and operands ask for; `none` where they are refused. -/
def evtracerouteCommand (settings : List (Char × String)) (operands : List String) (interval : Nat)
    (endTime : Int) (spread : Nat) : Option TelnetCommand :=
  match settings.foldlM applySetting {}, operands with
  | some s, [target] =>
    if s.v4 && s.v6 then none
    else some (.traceroute {
      msmId := s.msmId
      target
      af := if s.v6 then 6 else 4
      opts := { s.opts with protocol := if s.icmp then .ICMP else if s.tcp then .TCP else .UDP }
      spread := some spread
      schedule := ⟨interval, 0, endTime⟩ })
  | _, _ => none

theorem parseEvtraceroute_renders {args operands : List String} {settings : List (Char × String)}
    (h : Renders evtracerouteShort [] args settings operands) (interval : Nat) (endTime : Int)
    (spread : Nat) :
    parseEvtraceroute args interval endTime spread =
      (evtracerouteCommand settings operands interval endTime spread).getD
        (.unknown (.args "evtraceroute" args)) := by
  unfold parseEvtraceroute evtracerouteCommand
  rw [evtracerouteArgs_renders h]
  cases settings.foldlM applySetting {} with
  | none => rfl
  | some s =>
    match operands with
    | [] => rfl
    | [target] =>
      show (if s.v4 && s.v6 then _ else _) = Option.getD (if s.v4 && s.v6 then _ else _) _
      split <;> rfl
    | _ :: _ :: _ => rfl

/-- Every way to write evtdig's options and operands reads as those; which
traceroute every way to write evtraceroute's asks for, or that it asks for none,
is in the settings and operands alone. -/
theorem getopt_renders :
    (∀ {args operands : List String} {settings : List (DigOpt × String)},
      Renders evtdigShortopt EVTDIG_LONGOPTS args settings operands →
        evtdigGetopt args = .ok (settings, operands)) ∧
    ∀ (settings : List (Char × String)) (operands : List String) (interval : Nat) (endTime : Int)
      (spread : Nat), ∃ command : Option TelnetCommand, ∀ args,
        Renders evtracerouteShort [] args settings operands →
          parseEvtraceroute args interval endTime spread =
            command.getD (.unknown (.args "evtraceroute" args)) :=
  ⟨fun h => (evtdigGetoptFrom_renders h [] []).trans (by simp), fun settings operands interval endTime spread =>
    ⟨evtracerouteCommand settings operands interval endTime spread,
      fun _ h => parseEvtraceroute_renders h interval endTime spread⟩⟩

theorem renders_evtdig : Renders evtdigShortopt EVTDIG_LONGOPTS
    ["-46e512", "192.0.2.1", "--ty", "1", "--qbuf", "--", "-x"]
    [(.v4, ""), (.v6, ""), (.edns0, "512"), (.qtype, "1"), (.qbuf, "")] ["192.0.2.1", "-x"] := by
  have h46 : Flags evtdigShortopt ['4', '6'] [(.v4, ""), (.v6, "")] :=
    .cons ⟨rfl, rfl⟩ (.cons ⟨rfl, rfl⟩ .nil)
  obtain ⟨htype, honly, hin⟩ : ("type", true, DigOpt.qtype) ∈ EVTDIG_LONGOPTS ∧
      (∀ p ∈ EVTDIG_LONGOPTS, ['t', 'y'] <+: p.1.toList → p = ("type", true, DigOpt.qtype)) ∧
      ("qbuf", false, DigOpt.qbuf) ∈ EVTDIG_LONGOPTS := by decide
  have hty : Named EVTDIG_LONGOPTS ['t', 'y'] (true, DigOpt.qtype) :=
    .abbreviated htype (by decide) (by simp) honly
  have hqbuf : Named EVTDIG_LONGOPTS "qbuf".toList (false, DigOpt.qbuf) := .exact hin
  exact .group (.attached h46 rfl (by simp)) (.operand (.inr (by decide))
    (.group (.longSeparate hty) (.group (.longFlag hqbuf) .dashes)))

theorem renders_evtraceroute_bundled :
    Renders evtracerouteShort [] ["-46", "a"] [('4', ""), ('6', "")] ["a"] :=
  .group (.flags (.cons ⟨rfl, rfl⟩ (.cons ⟨rfl, rfl⟩ .nil)) (by simp))
    (.operand (.inr (by decide)) .nil)

theorem renders_evtraceroute_apart :
    Renders evtracerouteShort [] ["-4", "-6", "a"] [('4', ""), ('6', "")] ["a"] :=
  .group (.flags (.cons ⟨rfl, rfl⟩ .nil) (by simp)) (.group (.flags (.cons ⟨rfl, rfl⟩ .nil) (by simp))
    (.operand (.inr (by decide)) .nil))

theorem getopt_renders_both :
    evtdigGetopt ["-46e512", "192.0.2.1", "--ty", "1", "--qbuf", "--", "-x"] =
        .ok ([(.v4, ""), (.v6, ""), (.edns0, "512"), (.qtype, "1"), (.qbuf, "")], ["192.0.2.1", "-x"]) ∧
      ∃ command : Option TelnetCommand,
        parseEvtraceroute ["-46", "a"] 60 0 0 =
            command.getD (.unknown (.args "evtraceroute" ["-46", "a"])) ∧
          parseEvtraceroute ["-4", "-6", "a"] 60 0 0 =
            command.getD (.unknown (.args "evtraceroute" ["-4", "-6", "a"])) := by
  obtain ⟨command, h⟩ := getopt_renders.2 [('4', ""), ('6', "")] ["a"] 60 0 0
  exact ⟨getopt_renders.1 renders_evtdig, command, h _ renders_evtraceroute_bundled,
    h _ renders_evtraceroute_apart⟩

/-- A refused line is kept as it was written. -/
theorem refused_as_written :
    Renders evtracerouteShort [] ["-46", "a"] [('4', ""), ('6', "")] ["a"] ∧
      Renders evtracerouteShort [] ["-4", "-6", "a"] [('4', ""), ('6', "")] ["a"] ∧
      parseEvtraceroute ["-46", "a"] 60 0 0 ≠ parseEvtraceroute ["-4", "-6", "a"] 60 0 0 := by
  refine ⟨renders_evtraceroute_bundled, renders_evtraceroute_apart, fun h => ?_⟩
  rw [parseEvtraceroute_renders renders_evtraceroute_bundled,
    parseEvtraceroute_renders renders_evtraceroute_apart] at h
  have hnone : evtracerouteCommand [('4', ""), ('6', "")] ["a"] 60 0 0 = none := by decide
  rw [hnone] at h
  injection h with h
  injection h with _ h
  exact absurd h (by decide)

end Starla.Proof.Controller
