import Mathlib.Tactic.Linarith
import Mathlib.Tactic.NormNum
import Starla.Impl.Measurements.ResolvConf

/-!
# Whatever resolv.conf holds

A time of `2^64` seconds or more fits no duration, and making one of it panics.
Every other text gives a configuration whose fields keep to their bounds.

* `strtotimeval_eq_none_iff` : which times those are.
* `isSome_readLine`, `normal_readLine` : a line is read unless it names one, and
  keeps the bounds.
* `search_readLines` : the last domain or search line decides.
* `parse_normalised_iff` : the file as a whole.
-/

namespace Starla.Proof.Measurements

open Starla.Framework Starla.Impl.Measurements

/-! ## Folds that may stop -/

section

variable {σ α : Type} {f : σ → α → Option σ} {P : σ → Prop} {ok : α → Prop}

/-- A fold whose steps stop or not whatever the state. -/
theorem isSome_foldlM (h : ∀ s a, (f s a).isSome ↔ ok a) (s : σ) (as : List α) :
    (as.foldlM f s).isSome ↔ ∀ a ∈ as, ok a := by
  induction as generalizing s with
  | nil => simp
  | cons a as ih =>
    have ha := h s a
    rw [List.foldlM_cons, List.forall_mem_cons, ← ha]
    cases hs : f s a with
    | none => simp
    | some s' => simpa using ih s'

/-- What every step keeps. -/
theorem foldlM_keeps (h : ∀ s a s', P s → f s a = some s' → P s') {s s' : σ} {as : List α} (hs : P s)
    (hfold : as.foldlM f s = some s') : P s' := by
  induction as generalizing s with
  | nil =>
    obtain rfl : s = s' := by simpa using hfold
    exact hs
  | cons a as ih =>
    rw [List.foldlM_cons] at hfold
    obtain ⟨s₁, hs₁, hrest⟩ := Option.bind_eq_some_iff.mp hfold
    exact ih (h s a s₁ hs hs₁) hrest

end

/-! ## Times -/

/-- A time that fits no duration. -/
def Huge (val : List Char) : Prop := ∃ secs, parseF64 val = some secs ∧ secs.atLeast (2 ^ 64) = true

theorem strtotimeval_eq_none_iff (val : List Char) : strtotimeval val = none ↔ Huge val := by
  unfold strtotimeval Huge
  cases hp : parseF64 val with
  | none => simp
  | some secs =>
    cases secs with
    | finite q =>
      have hmilli : milli < 2 ^ 64 := by norm_num [milli]
      have hpos : (0 : ℚ) < milli := by norm_num [milli]
      by_cases hq : milli ≤ q
      · have h0 : 0 ≤ q := by linarith
        simp [F64.atLeast, Option.filter, hq, fromSecsF64, h0]
      · have hlt : ¬ 2 ^ 64 ≤ q := fun h => hq (by linarith)
        simp [F64.atLeast, Option.filter, hq, hlt]
    | infinity negative => cases negative <;> simp [F64.atLeast, Option.filter, fromSecsF64]
    | nan => simp [F64.atLeast, Option.filter]

/-- A time that is read is at least a millisecond. -/
theorem le_of_strtotimeval {val : List Char} {t : ℕ} (h : strtotimeval val = some (some t)) : 10 ^ 6 ≤ t := by
  unfold strtotimeval at h
  split at h
  · rename_i secs hsecs
    obtain ⟨ns, hns, hsome⟩ := Option.map_eq_some_iff.mp h
    obtain rfl : ns = t := Option.some.inj hsome
    obtain ⟨-, hleast⟩ := Option.filter_eq_some_iff.mp hsecs
    unfold fromSecsF64 at hns
    split at hns
    · rename_i q
      have hq : milli ≤ q := by simpa [F64.atLeast] using hleast
      split_ifs at hns
      obtain rfl := Option.some.inj hns
      have hle : ((10 ^ 6 : ℤ) : ℚ) ≤ q * 10 ^ 9 := by
        have hm : ((10 ^ 6 : ℤ) : ℚ) ≤ milli * 10 ^ 9 := by norm_num [milli]
        linarith
      have hround := le_roundHalfEven hle
      omega
    · exact absurd hns (by simp)
  · exact absurd h (by simp)

/-! ## Options -/

/-- An option that names such a time. -/
def HugeOption (token : List Char) : Prop :=
  (String.ofList (ResolvConf.optionOf token).1 = "timeout" ∨
    String.ofList (ResolvConf.optionOf token).1 = "initial-probe-timeout") ∧ Huge (ResolvConf.optionOf token).2

theorem isSome_setOption (conf : ResolvConf) (token : List Char) :
    (conf.setOption (ResolvConf.optionOf token).1 (ResolvConf.optionOf token).2).isSome ↔ ¬ HugeOption token := by
  unfold ResolvConf.setOption HugeOption
  rw [← strtotimeval_eq_none_iff]
  split
  · rename_i hname
    rw [hname]
    split <;> simp
  · rename_i hname
    rw [hname]
    simp [← Option.ne_none_iff_isSome]
  · rename_i hname
    rw [hname]
    split <;> simp
  · rename_i hname
    rw [hname]
    simp
  · rename_i hname
    rw [hname]
    split <;> simp
  · rename_i hname
    rw [hname]
    simp [← Option.ne_none_iff_isSome]
  · rename_i htimeout _ _ _ hprobe
    simp only [Option.isSome_some, true_iff]
    rintro ⟨hname | hname, -⟩
    · exact htimeout hname
    · exact hprobe hname

/-- The bounds of a configuration's fields. -/
structure Normal (conf : ResolvConf) : Prop where
  distinct : conf.nameservers.Nodup
  ports : ∀ n ∈ conf.nameservers, 1 ≤ n.port.toNat ∧ n.port.toNat ≤ 65535
  search : ∀ d ∈ conf.search, d.toList.head? ≠ some '.'
  timeout : 10 ^ 6 ≤ conf.timeout
  attempts : conf.attempts ≤ 255
  maxTimeouts : 1 ≤ conf.maxTimeouts ∧ conf.maxTimeouts ≤ 255
  probeTimeout : conf.probeTimeout ≤ 3600 * nanosPerSec

theorem normal_default : Normal {} where
  distinct := List.nodup_nil
  ports := by simp
  search := by simp
  timeout := by decide
  attempts := by decide
  maxTimeouts := by decide
  probeTimeout := by decide

theorem normal_setOption {conf conf' : ResolvConf} {name val : List Char} (h : Normal conf)
    (hset : conf.setOption name val = some conf') : Normal conf' := by
  unfold ResolvConf.setOption at hset
  split at hset
  · split at hset <;> (obtain rfl := Option.some.inj hset; exact { h with })
  · obtain ⟨t, ht, rfl⟩ := Option.map_eq_some_iff.mp hset
    refine { h with timeout := ?_ }
    cases t with
    | none => exact h.timeout
    | some t => exact le_of_strtotimeval ht
  · split at hset <;> obtain rfl := Option.some.inj hset
    · exact { h with attempts := Nat.min_le_right _ _ }
    · exact h
  · obtain rfl := Option.some.inj hset
    exact { h with }
  · split at hset <;> obtain rfl := Option.some.inj hset
    · exact { h with maxTimeouts := by dsimp only; omega }
    · exact h
  · obtain ⟨t, -, rfl⟩ := Option.map_eq_some_iff.mp hset
    refine { h with probeTimeout := ?_ }
    cases t with
    | none => exact h.probeTimeout
    | some t => exact Nat.min_le_right _ _
  · obtain rfl := Option.some.inj hset
    exact h

theorem search_setOption {conf conf' : ResolvConf} {name val : List Char}
    (hset : conf.setOption name val = some conf') : conf'.search = conf.search := by
  unfold ResolvConf.setOption at hset
  split at hset
  · split at hset <;> (obtain rfl := Option.some.inj hset; rfl)
  · obtain ⟨t, -, rfl⟩ := Option.map_eq_some_iff.mp hset
    rfl
  · split at hset <;> (obtain rfl := Option.some.inj hset; rfl)
  · obtain rfl := Option.some.inj hset
    rfl
  · split at hset <;> (obtain rfl := Option.some.inj hset; rfl)
  · obtain ⟨t, -, rfl⟩ := Option.map_eq_some_iff.mp hset
    rfl
  · obtain rfl := Option.some.inj hset
    rfl

/-! ## Servers and domains -/

theorem port_parsePort {port : List Char} {p : UInt16} (h : parsePort port = some p) : 1 ≤ p.toNat := by
  obtain ⟨n, hn, rfl⟩ := Option.map_eq_some_iff.mp h
  obtain ⟨-, hbounds⟩ := Option.filter_eq_some_iff.mp hn
  have hb : 1 ≤ n ∧ n ≤ 65535 := of_decide_eq_true hbounds
  have hval : (UInt16.ofNat n).toNat = n := UInt16.toNat_ofNat_of_lt' (Nat.lt_succ_of_le hb.2)
  omega

variable {interfaceIndex : String → Option UInt32}

theorem port_parseNameserver {s : List Char} {n : Nameserver} (h : parseNameserver interfaceIndex s = some n) :
    1 ≤ n.port.toNat := by
  unfold parseNameserver at h
  obtain ⟨⟨addr, port, v6⟩, -, h⟩ := Option.bind_eq_some_iff.mp h
  obtain ⟨p, hp, h⟩ := Option.bind_eq_some_iff.mp h
  have hport : 1 ≤ p.toNat := by
    cases port with
    | none =>
      obtain rfl := Option.some.inj hp
      decide
    | some port => exact port_parsePort hp
  split_ifs at h
  · obtain ⟨ip, -, h⟩ := Option.bind_eq_some_iff.mp h
    obtain rfl := Option.some.inj h
    exact hport
  · split at h
    · obtain ⟨ip, -, h⟩ := Option.bind_eq_some_iff.mp h
      obtain ⟨scope, -, h⟩ := Option.bind_eq_some_iff.mp h
      obtain rfl := Option.some.inj h
      exact hport
    · obtain ⟨ip, -, h⟩ := Option.bind_eq_some_iff.mp h
      obtain rfl := Option.some.inj h
      exact hport

theorem normal_addNameserver {conf : ResolvConf} (h : Normal conf) {addr : Option Nameserver}
    (haddr : ∀ a ∈ addr, 1 ≤ a.port.toNat) : Normal (conf.addNameserver addr) := by
  cases addr with
  | none => exact h
  | some a =>
    show Normal (if a ∈ conf.nameservers then conf else { conf with nameservers := conf.nameservers ++ [a] })
    split_ifs with hmem
    · exact h
    · have hport := a.port.toNat_lt
      have ha := haddr a rfl
      refine { h with distinct := ?_, ports := ?_ }
      · exact List.nodup_append.mpr ⟨h.distinct, List.nodup_singleton a, fun x hx y hy => by
          obtain rfl := List.mem_singleton.mp hy
          exact fun hxy => hmem (hxy ▸ hx)⟩
      · intro n hn
        rcases List.mem_append.mp hn with hn | hn
        · exact h.ports n hn
        · obtain rfl := List.mem_singleton.mp hn
          omega

theorem head?_searchPostfix (domain : List Char) : (searchPostfix domain).toList.head? ≠ some '.' := by
  intro h
  rw [searchPostfix, String.toList_ofList] at h
  have hdot := List.head?_dropWhile_not (· = '.') domain
  rw [h] at hdot
  simp at hdot

/-! ## Lines -/

/-- A line of options that names a time that fits no duration. -/
def HugeLine (line : List Char) : Prop :=
  ∃ tokens, words isBlank line = "options".toList :: tokens ∧ ∃ token ∈ tokens, HugeOption token

/-- The search list a line gives: a domain line its domain, a search line all of
its own. -/
def searchOf (line : List Char) : Option (List String) :=
  match words isBlank line with
  | [] => none
  | keyword :: tokens =>
    match String.ofList keyword, tokens with
    | "domain", domain :: _ => some [searchPostfix domain]
    | "search", tokens => some (tokens.map searchPostfix)
    | _, _ => none

theorem ofList_eq_iff {cs : List Char} {s : String} : String.ofList cs = s ↔ cs = s.toList := by
  constructor
  · rintro rfl
    rw [String.toList_ofList]
  · rintro rfl
    rw [String.ofList_toList]

theorem isSome_readLine (conf : ResolvConf) (line : List Char) :
    (conf.readLine interfaceIndex line).isSome ↔ ¬ HugeLine line := by
  unfold ResolvConf.readLine HugeLine
  cases words isBlank line with
  | nil => simp
  | cons keyword tokens =>
    dsimp only
    by_cases hoptions : String.ofList keyword = "options"
    · have hkeyword := ofList_eq_iff.mp hoptions
      subst hkeyword
      show Option.isSome (tokens.foldlM
        (fun conf token => conf.setOption (ResolvConf.optionOf token).1 (ResolvConf.optionOf token).2) conf) ↔ _
      rw [isSome_foldlM isSome_setOption]
      simp
    · have hno : ¬ ∃ tokens', keyword :: tokens = "options".toList :: tokens' ∧ ∃ token ∈ tokens', HugeOption token := by
        rintro ⟨tokens', heq, -⟩
        exact hoptions (ofList_eq_iff.mpr (List.cons.inj heq).1)
      simp only [hno, not_false_iff, iff_true]
      split
      · rfl
      · split <;> rfl
      · rfl
      · exact absurd (by assumption) hoptions
      · rfl

theorem normal_readLine {conf conf' : ResolvConf} {line : List Char} (h : Normal conf)
    (hread : conf.readLine interfaceIndex line = some conf') : Normal conf' := by
  unfold ResolvConf.readLine at hread
  split at hread
  · obtain rfl := Option.some.inj hread
    exact h
  · rename_i keyword tokens _
    split at hread
    · obtain rfl := Option.some.inj hread
      refine normal_addNameserver h fun a ha => ?_
      obtain ⟨s, -, hs⟩ := Option.bind_eq_some_iff.mp ha
      exact port_parseNameserver hs
    · split at hread <;> obtain rfl := Option.some.inj hread
      · exact { h with search := by simpa using head?_searchPostfix _ }
      · exact h
    · obtain rfl := Option.some.inj hread
      refine { h with search := fun d hd => ?_ }
      obtain ⟨domain, -, rfl⟩ := List.mem_map.mp hd
      exact head?_searchPostfix domain
    · exact foldlM_keeps (fun _ _ _ hc hset => normal_setOption hc hset) h hread
    · obtain rfl := Option.some.inj hread
      exact h

theorem search_readLine {conf conf' : ResolvConf} {line : List Char}
    (hread : conf.readLine interfaceIndex line = some conf') :
    conf'.search = (searchOf line).getD conf.search := by
  unfold ResolvConf.readLine at hread
  unfold searchOf
  revert hread
  cases words isBlank line with
  | nil =>
    intro hread
    exact congrArg ResolvConf.search (Option.some.inj hread).symm
  | cons keyword tokens =>
    intro hread
    dsimp only at hread ⊢
    split at hread
    · rename_i hkeyword
      obtain rfl := Option.some.inj hread
      rw [hkeyword]
      cases tokens.head?.bind (parseNameserver interfaceIndex) with
      | none => rfl
      | some a =>
        show (if a ∈ conf.nameservers then conf else { conf with nameservers := conf.nameservers ++ [a] }).search = _
        split_ifs <;> rfl
    · rename_i hkeyword
      rw [hkeyword]
      split at hread <;> (obtain rfl := Option.some.inj hread; rfl)
    · rename_i hkeyword
      obtain rfl := Option.some.inj hread
      rw [hkeyword]
      rfl
    · rename_i hkeyword
      rw [hkeyword]
      exact foldlM_keeps (P := fun c => c.search = conf.search)
        (fun _ _ _ hc hset => (search_setOption hset).trans hc) rfl hread
    · rename_i hdomain hsearch _
      obtain rfl := Option.some.inj hread
      split
      · exact absurd (by assumption) hdomain
      · exact absurd (by assumption) hsearch
      · rfl

/-- The last line that gives a search list. -/
theorem search_readLines {conf conf' : ResolvConf} {lines : List (List Char)}
    (hread : lines.foldlM (ResolvConf.readLine interfaceIndex) conf = some conf') :
    conf'.search = ((lines.filterMap searchOf).getLast?).getD conf.search := by
  induction lines generalizing conf with
  | nil =>
    obtain rfl : conf = conf' := by simpa using hread
    rfl
  | cons line lines ih =>
    rw [List.foldlM_cons] at hread
    obtain ⟨c, hc, hrest⟩ := Option.bind_eq_some_iff.mp hread
    rw [ih hrest, search_readLine hc, List.filterMap_cons]
    cases searchOf line with
    | none => rfl
    | some s =>
      rw [List.getLast?_cons]
      rfl

/-! ## The file -/

/-- A configuration as the file is to be read: its bounds, and its search list
from the last domain or search line, or else from the host's name. -/
structure Normalised (text : String) (hostname : Option String) (conf : ResolvConf) : Prop where
  normal : Normal conf
  servers : conf.nameservers ≠ []
  search : conf.search =
    let given := (((text.toList.splitOn '\n').filterMap searchOf).getLast?).getD []
    if given = [] then ResolvConf.searchOfHostname hostname else given

theorem head?_searchOfHostname (hostname : Option String) :
    ∀ d ∈ ResolvConf.searchOfHostname hostname, d.toList.head? ≠ some '.' := by
  intro d hd
  unfold ResolvConf.searchOfHostname at hd
  split at hd
  · rw [List.mem_singleton.mp hd]
    exact head?_searchPostfix _
  · exact absurd hd List.not_mem_nil

theorem normal_complete {conf : ResolvConf} (h : Normal conf) (hostname : Option String) :
    Normal (conf.complete hostname) := by
  refine { h with distinct := ?_, ports := ?_, search := ?_ }
  · unfold ResolvConf.complete
    dsimp only
    split_ifs
    · exact List.nodup_singleton _
    · exact h.distinct
  · unfold ResolvConf.complete
    dsimp only
    split_ifs
    · intro n hn
      rw [List.mem_singleton.mp hn]
      decide
    · exact h.ports
  · unfold ResolvConf.complete
    dsimp only
    split_ifs
    · exact head?_searchOfHostname hostname
    · exact h.search

/-- The file is read, and as it is to be, unless one of its options is a time
of `2^64` seconds or more. -/
theorem parse_normalised_iff (interfaceIndex : String → Option UInt32) (text : String) (hostname : Option String) :
    (∃ conf, ResolvConf.parse interfaceIndex text hostname = some conf ∧ Normalised text hostname conf) ↔
      ¬ ∃ line ∈ text.toList.splitOn '\n', HugeLine line := by
  have hline : ∀ conf line, (ResolvConf.readLine interfaceIndex conf line).isSome ↔ ¬ HugeLine line := isSome_readLine
  have hsome := isSome_foldlM hline {} (text.toList.splitOn '\n')
  simp only [not_exists, not_and]
  rw [← hsome, Option.isSome_iff_exists]
  constructor
  · rintro ⟨conf, hparse, -⟩
    obtain ⟨c, hc, -⟩ := Option.map_eq_some_iff.mp hparse
    exact ⟨c, hc⟩
  · rintro ⟨c, hc⟩
    have hnormal := foldlM_keeps (fun _ _ _ h hread => normal_readLine h hread) normal_default hc
    refine ⟨c.complete hostname, by rw [ResolvConf.parse, hc]; rfl, normal_complete hnormal hostname, ?_, ?_⟩
    · unfold ResolvConf.complete
      dsimp only
      split_ifs with hnil
      · simp
      · exact hnil
    · show (if c.search = [] then _ else c.search) = _
      rw [search_readLines hc]

/-- A timeout without end. -/
theorem parse_panics :
    ¬ ∀ (interfaceIndex : String → Option UInt32) (text : String) (hostname : Option String),
      ∃ conf, ResolvConf.parse interfaceIndex text hostname = some conf ∧ Normalised text hostname conf := by
  intro h
  obtain ⟨conf, hparse, -⟩ := h (fun _ => none) "nameserver 192.0.2.53\noptions timeout:inf\n" none
  have hnone : ResolvConf.parse (fun _ => none) "nameserver 192.0.2.53\noptions timeout:inf\n" none = none := by
    decide
  rw [hnone] at hparse
  exact absurd hparse (by simp)

end Starla.Proof.Measurements
