import Starla.Impl.Reports.Dns

/-!
# What evtdig's queries leave for the next

`Carry`, `query` and `run` of `starla-measurements/src/dns/mod.rs`, over the runs
of one measurement: what an attempt comes to by itself is an argument.
-/

namespace Starla.Impl.Reports.Dns

open Starla.Framework Starla.Impl.Measurements

/-- What earlier queries left. -/
structure Carried where
  src : Option Host := none
  ttl : Option Int := none
  tcpDst : Option Host := none

def Outcome.isReply : Outcome → Bool
  | .reply .. => true
  | _ => false

/-- Whether `--retry` repeats a query after an error. -/
def QueryError.retry : QueryError → Bool
  | .tuDns _ => true
  | .tuBadAddr => true
  | .tuConnect _ => true
  | .tuReadErr => true
  | _ => false

def Outcome.again : Outcome → Bool
  | .timeout => true
  | .error e => e.retry
  | .reply .. => false

namespace Carried

def applySrc (c : Carried) (a : Attempt) : Attempt × Carried :=
  match a.src with
  | some src => (a, { c with src := some src })
  | none => ({ a with src := c.src }, c)

def applyTtl (c : Carried) (a : Attempt) (tcp : Bool) : Attempt × Carried :=
  if !tcp && a.outcome.isReply then (a, { c with ttl := a.ttl }) else ({ a with ttl := c.ttl }, c)

def applyDst (c : Carried) (a : Attempt) (tcp : Bool) : Attempt × Carried :=
  if tcp then
    match a.dst with
    | .tcp _ addr => (a, { c with tcpDst := some addr })
    | .name server =>
      match c.tcpDst with
      | some addr => ({ a with dst := .tcp server addr }, c)
      | none => (a, c)
    | _ => (a, c)
  else (a, c)

/-- What the attempt sets is kept, and what it lacks is an earlier one's. -/
def apply (c : Carried) (a : Attempt) (tcp : Bool) : Attempt × Carried :=
  let (a, c) := c.applySrc a
  let (a, c) := c.applyTtl a tcp
  c.applyDst a tcp

end Carried

/-! ## Runs -/

/-- A server's attempts, and when the last of them is reported. -/
structure Tries where
  attempt : Nat → Attempt
  printed : Int

/-- One server's query, with its repeats: `left` of them may follow. -/
def queryFrom (cfg : DnsConfig) (sub : Option (Nat × Nat)) (tries : Tries) :
    (left retry : Nat) → Carried → Entry × Carried
  | 0, retry, c =>
    let (a, c) := c.apply (tries.attempt retry) cfg.tcp
    (⟨a, sub, retry, tries.printed⟩, c)
  | left + 1, retry, c =>
    let (a, c) := c.apply (tries.attempt retry) cfg.tcp
    if a.outcome.again then queryFrom cfg sub tries left (retry + 1) c else (⟨a, sub, retry, tries.printed⟩, c)

/-- What a run of the measurement meets. -/
structure RunMet where
  /-- Whether the macros of the query's name expand. -/
  expands : Bool
  /-- The configured server's attempts, and those of each resolver. -/
  server : Tries
  resolvers : List Tries
  now : Int

/-- A report with nothing sent. -/
def nothingSent (cfg : DnsConfig) (dst : Dst) (sub : Option (Nat × Nat)) (error : QueryError) (now : Int) (c : Carried) :
    Entry × Carried :=
  let (a, c) := c.apply ⟨now, dst, none, none, none, .error error⟩ cfg.tcp
  (⟨a, sub, 0, now⟩, c)

/-- The resolvers' queries, the `i`th next, of `submax`. -/
def queriesFrom (cfg : DnsConfig) (submax : Nat) : List Tries → (i : Nat) → Carried → List Entry × Carried
  | [], _, c => ([], c)
  | tries :: rest, i, c =>
    let (entry, c) := queryFrom cfg (some (i + 1, submax)) tries cfg.retry.toNat 0 c
    let (entries, c) := queriesFrom cfg submax rest (i + 1) c
    (entry :: entries, c)

def carriedRun (cfg : DnsConfig) (met : RunMet) (c : Carried) : List Entry × Carried :=
  if !met.expands then
    let (entry, c) := if cfg.resolv then nothingSent cfg .none (some (1, 0)) .macros met.now c
      else nothingSent cfg (.name cfg.server) none .macros met.now c
    ([entry], c)
  else if !cfg.resolv then
    let (entry, c) := queryFrom cfg none met.server cfg.retry.toNat 0 c
    ([entry], c)
  else if met.resolvers.isEmpty then
    let (entry, c) := nothingSent cfg .none (some (1, 0)) .noResolvers met.now c
    ([entry], c)
  else queriesFrom cfg met.resolvers.length met.resolvers 0 c

/-- The runs of a measurement, each starting with what the ones before left. -/
def carriedRuns (cfg : DnsConfig) : List RunMet → Carried → List (List Entry)
  | [], _ => []
  | met :: mets, c =>
    let (entries, c) := carriedRun cfg met c
    entries :: carriedRuns cfg mets c

end Starla.Impl.Reports.Dns
