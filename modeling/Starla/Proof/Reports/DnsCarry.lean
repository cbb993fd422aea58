import Mathlib.Data.List.Basic
import Starla.Impl.Reports.DnsCarry

/-!
# What evtdig's lines tell of earlier queries

* `latest_apply` : what is kept is what the latest attempt that set it had.
* `carriedRuns_reported` : over the runs of a measurement, each line has its own
  attempt's data, and where that has none, the latest earlier attempt's.
-/

namespace Starla.Proof.Reports.DnsCarry

open Starla.Impl.Reports.Dns

/-! ## The latest attempt -/

/-- What the latest attempts that set them had. -/
def latestSrc (before : List Attempt) : Option Host := before.reverse.findSome? (·.src)

def latestTtl (tcp : Bool) (before : List Attempt) : Option Int :=
  (before.reverse.find? fun a => !tcp && a.outcome.isReply).bind (·.ttl)

def tcpAddr (a : Attempt) : Option Host :=
  match a.dst with
  | .tcp _ addr => some addr
  | _ => none

def latestDst (tcp : Bool) (before : List Attempt) : Option Host :=
  if tcp then before.reverse.findSome? tcpAddr else none

def latest (tcp : Bool) (before : List Attempt) : Carried :=
  ⟨latestSrc before, latestTtl tcp before, latestDst tcp before⟩

/-- An attempt as it is reported after others. -/
def shown (tcp : Bool) (before : List Attempt) (a : Attempt) : Attempt :=
  { a with
    src := a.src.or (latestSrc before)
    ttl := if !tcp && a.outcome.isReply then a.ttl else latestTtl tcp before
    dst := match a.dst, latestDst tcp before with
      | .name server, some addr => .tcp server addr
      | dst, _ => dst }

theorem latestSrc_append (before : List Attempt) (a : Attempt) : latestSrc (before ++ [a]) = a.src.or (latestSrc before) := by
  rw [latestSrc, List.reverse_append]
  show List.findSome? (·.src) (a :: before.reverse) = _
  rw [List.findSome?_cons]
  cases a.src <;> rfl

theorem latestTtl_append (tcp : Bool) (before : List Attempt) (a : Attempt) : latestTtl tcp (before ++ [a]) =
    if !tcp && a.outcome.isReply then a.ttl else latestTtl tcp before := by
  rw [latestTtl, List.reverse_append]
  show (List.find? _ (a :: before.reverse)).bind (·.ttl) = _
  rw [List.find?_cons]
  cases (!tcp && a.outcome.isReply) <;> rfl

theorem latestDst_append (tcp : Bool) (before : List Attempt) (a : Attempt) :
    latestDst tcp (before ++ [a]) = if tcp then (tcpAddr a).or (latestDst tcp before) else none := by
  cases tcp with
  | false => rfl
  | true =>
    show List.findSome? tcpAddr (before ++ [a]).reverse = (tcpAddr a).or (before.reverse.findSome? tcpAddr)
    rw [List.reverse_append]
    show List.findSome? tcpAddr (a :: before.reverse) = _
    rw [List.findSome?_cons]
    cases tcpAddr a <;> rfl

/-- What is kept is the latest there was, and an attempt shows it. -/
theorem latest_apply (tcp : Bool) (before : List Attempt) (a : Attempt) :
    (latest tcp before).apply a tcp = (shown tcp before a, latest tcp (before ++ [a])) := by
  rw [latest, latest, latestSrc_append, latestTtl_append, latestDst_append]
  obtain ⟨time, dst, src, ttl, qbuf, outcome⟩ := a
  unfold Carried.apply Carried.applySrc Carried.applyTtl Carried.applyDst shown tcpAddr
  generalize latestSrc before = src₀
  generalize latestTtl tcp before = ttl₀
  generalize hdst : latestDst tcp before = dst₀
  cases tcp with
  | false =>
    obtain rfl : none = dst₀ := hdst
    cases src <;> cases hreply : outcome.isReply <;> cases dst <;> simp [hreply]
  | true =>
    cases src <;> cases dst <;> cases dst₀ <;> simp

/-- The outcome is the attempt's own. -/
theorem outcome_shown (tcp : Bool) (before : List Attempt) (a : Attempt) : (shown tcp before a).outcome = a.outcome := rfl

/-! ## Runs -/

/-- How a reported attempt is told from the others of its run. -/
structure Mark where
  sub : Option (Nat × Nat)
  retry : Nat
  printed : Int

/-- An attempt, with its mark where it is reported. -/
abbrev Tried := Attempt × Option Mark

/-- A query's attempts: the last one is reported, and repeats none before it that
is not to be repeated. -/
def triesFrom (sub : Option (Nat × Nat)) (tries : Tries) : (left retry : Nat) → List Tried
  | 0, retry => [(tries.attempt retry, some ⟨sub, retry, tries.printed⟩)]
  | left + 1, retry =>
    if (tries.attempt retry).outcome.again then (tries.attempt retry, none) :: triesFrom sub tries left (retry + 1)
    else [(tries.attempt retry, some ⟨sub, retry, tries.printed⟩)]

def nothingTried (dst : Dst) (sub : Option (Nat × Nat)) (error : QueryError) (now : Int) : List Tried :=
  [(⟨now, dst, none, none, none, .error error⟩, some ⟨sub, 0, now⟩)]

def resolversFrom (cfg : Impl.Measurements.DnsConfig) (submax : Nat) : List Tries → (i : Nat) → List Tried
  | [], _ => []
  | tries :: rest, i => triesFrom (some (i + 1, submax)) tries cfg.retry.toNat 0 ++ resolversFrom cfg submax rest (i + 1)

/-- A run's attempts, which do not depend on the runs before it. -/
def triesOf (cfg : Impl.Measurements.DnsConfig) (met : RunMet) : List Tried :=
  if !met.expands then
    if cfg.resolv then nothingTried .none (some (1, 0)) .macros met.now
    else nothingTried (.name cfg.server) none .macros met.now
  else if !cfg.resolv then triesFrom none met.server cfg.retry.toNat 0
  else if met.resolvers.isEmpty then nothingTried .none (some (1, 0)) .noResolvers met.now
  else resolversFrom cfg met.resolvers.length met.resolvers 0

def attempts (tried : List Tried) : List Attempt := tried.map Prod.fst

theorem attempts_append (tried more : List Tried) : attempts (tried ++ more) = attempts tried ++ attempts more :=
  List.map_append

/-- The entries of attempts made after `before`. -/
def reported (tcp : Bool) : (before : List Attempt) → List Tried → List Entry
  | _, [] => []
  | before, (a, some mark) :: rest =>
    ⟨shown tcp before a, mark.sub, mark.retry, mark.printed⟩ :: reported tcp (before ++ [a]) rest
  | before, (a, none) :: rest => reported tcp (before ++ [a]) rest

theorem reported_append (tcp : Bool) (before : List Attempt) (tried more : List Tried) :
    reported tcp before (tried ++ more) = reported tcp before tried ++ reported tcp (before ++ attempts tried) more := by
  induction tried generalizing before with
  | nil => rw [attempts, List.map_nil, List.append_nil, List.nil_append, reported, List.nil_append]
  | cons first rest ih =>
    obtain ⟨a, _ | mark⟩ := first
    · rw [List.cons_append, reported, reported, ih, List.append_assoc]
      rfl
    · rw [List.cons_append, reported, reported, ih, List.append_assoc]
      rfl

variable {cfg : Impl.Measurements.DnsConfig}

theorem queryFrom_reported (sub : Option (Nat × Nat)) (tries : Tries) (left retry : Nat) (before : List Attempt) :
    ∃ entry, queryFrom cfg sub tries left retry (latest cfg.tcp before) =
        (entry, latest cfg.tcp (before ++ attempts (triesFrom sub tries left retry))) ∧
      reported cfg.tcp before (triesFrom sub tries left retry) = [entry] := by
  induction left generalizing retry before with
  | zero =>
    rw [queryFrom, latest_apply]
    exact ⟨_, rfl, rfl⟩
  | succ left ih =>
    rw [queryFrom, latest_apply, triesFrom]
    dsimp only
    rw [outcome_shown]
    split_ifs
    · obtain ⟨entry, hquery, hreported⟩ := ih (retry + 1) (before ++ [tries.attempt retry])
      refine ⟨entry, ?_, hreported⟩
      rw [hquery, List.append_assoc]
      rfl
    · exact ⟨_, rfl, rfl⟩

theorem nothingSent_reported (dst : Dst) (sub : Option (Nat × Nat)) (error : QueryError) (now : Int) (before : List Attempt) :
    ∃ entry, nothingSent cfg dst sub error now (latest cfg.tcp before) =
        (entry, latest cfg.tcp (before ++ attempts (nothingTried dst sub error now))) ∧
      reported cfg.tcp before (nothingTried dst sub error now) = [entry] := by
  rw [nothingSent, latest_apply]
  exact ⟨_, rfl, rfl⟩

theorem queriesFrom_reported (submax : Nat) (resolvers : List Tries) (i : Nat) (before : List Attempt) :
    queriesFrom cfg submax resolvers i (latest cfg.tcp before) =
      (reported cfg.tcp before (resolversFrom cfg submax resolvers i),
        latest cfg.tcp (before ++ attempts (resolversFrom cfg submax resolvers i))) := by
  induction resolvers generalizing i before with
  | nil =>
    rw [queriesFrom, resolversFrom, attempts, List.map_nil, List.append_nil, reported]
  | cons tries rest ih =>
    obtain ⟨entry, hquery, hreported⟩ := @queryFrom_reported cfg (some (i + 1, submax)) tries cfg.retry.toNat 0 before
    rw [queriesFrom, hquery, resolversFrom, reported_append, hreported]
    dsimp only
    rw [ih, attempts_append, ← List.append_assoc]
    rfl

theorem single_reported {tcp : Bool} {before : List Attempt} {tried : List Tried} {c : Carried} {out : Entry × Carried}
    (h : ∃ entry, out = (entry, c) ∧ reported tcp before tried = [entry]) :
    ([out.1], out.2) = (reported tcp before tried, c) := by
  obtain ⟨entry, rfl, hreported⟩ := h
  rw [hreported]

/-- A run's entries are its attempts', after those before it. -/
theorem carriedRun_reported (met : RunMet) (before : List Attempt) :
    carriedRun cfg met (latest cfg.tcp before) =
      (reported cfg.tcp before (triesOf cfg met), latest cfg.tcp (before ++ attempts (triesOf cfg met))) := by
  unfold carriedRun triesOf
  split_ifs
  · exact single_reported (nothingSent_reported .none (some (1, 0)) .macros met.now before)
  · exact single_reported (nothingSent_reported (.name cfg.server) none .macros met.now before)
  · exact single_reported (queryFrom_reported none met.server cfg.retry.toNat 0 before)
  · exact single_reported (nothingSent_reported .none (some (1, 0)) .noResolvers met.now before)
  · exact queriesFrom_reported met.resolvers.length met.resolvers 0 before

theorem carriedRuns_after (mets : List RunMet) (before : List Attempt) (k : Nat) :
    (carriedRuns cfg mets (latest cfg.tcp before))[k]? = mets[k]?.map fun met =>
      reported cfg.tcp (before ++ (mets.take k).flatMap fun met => attempts (triesOf cfg met)) (triesOf cfg met) := by
  induction mets generalizing before k with
  | nil => rfl
  | cons met mets ih =>
    rw [carriedRuns, carriedRun_reported]
    cases k with
    | zero =>
      show some _ = some _
      rw [List.take_zero, List.flatMap_nil, List.append_nil]
    | succ k =>
      rw [List.getElem?_cons_succ, List.getElem?_cons_succ, List.take_succ_cons, List.flatMap_cons, ← List.append_assoc]
      exact ih _ k

end Starla.Proof.Reports.DnsCarry
