import Starla.Impl.Results.Handler

/-!
# The upload loop

`ResultHandler::run` of `starla-results/src/lib.rs`: one pass of its `select!`
loop, as a function of what the rest of the world did in it (`Pass`). The
controller's httppost lines are read by their deadlines; the posts themselves
by their times and answers.
-/

namespace Starla.Impl.Results

variable {R : Type} [MeasurementResult R]

/-- What other tasks do to the handler while the loop waits. -/
inductive HandlerCall (R : Type)
  | setEndpointPath
  | expectOneoff (msmId : UInt64)
  | submit (result : R) (lts now : Int)
deriving DecidableEq, Repr

def ResultHandler.call (h : ResultHandler R) : HandlerCall R → ResultHandler R
  | .setEndpointPath => h.setEndpointPath
  | .expectOneoff msmId => h.expectOneoff msmId
  | .submit result lts now => h.submit result lts now

def ResultHandler.calls (h : ResultHandler R) (cs : List (HandlerCall R)) : ResultHandler R :=
  cs.foldl ResultHandler.call h

/-- One post as the world sees it: when its branch of the loop runs, when the
post starts and is answered, what other tasks do in between, and the answer. -/
structure PostRun (R : Type) where
  wake : Instant
  started : Instant
  answered : Instant
  during : List (HandlerCall R)
  answer : Except PostError Unit
  /-- The clock a requeue reads. -/
  now : Int

/-- The branch of the `select!` that runs. `due` is whether `take_due_line`
finds the controller's line due. -/
inductive Branch (R : Type)
  | cancelled
  | linesChanged
  | main (due : Bool) (run : PostRun R)
  | timesync (due : Bool) (run : PostRun R)
  | oneoffReady (run : PostRun R)
  | oneoffRepost (run : PostRun R)
  | cleanup (now : Int)
  | status

/-- One pass of the loop: the instant at its top, the deadlines of the
controller's lines (none without a line, `some none` for a line that will not
run again), what other tasks do until a branch runs, and the branch. -/
structure Pass (R : Type) where
  now : Instant
  mainLine : Option (Option Instant)
  timesyncLine : Option (Option Instant)
  before : List (HandlerCall R)
  branch : Branch R

inductive PostKind
  | main
  | timesync
  | oneoffs
deriving DecidableEq, Repr

/-- A post that was made: the tick it was due at, its start and its answer. -/
structure Post where
  kind : PostKind
  tick : Instant
  started : Instant
  answered : Instant
  answer : Except PostError Unit

def PostRun.post (run : PostRun R) (kind : PostKind) (tick : Instant) : Post :=
  ⟨kind, tick, run.started, run.answered, run.answer⟩

/-- `upload_pending_to` with its post: whether there was one, what it returns,
and the handler after it. -/
def ResultHandler.uploadPendingTo (h : ResultHandler R) (run : PostRun R) :
    Bool × Except PostError Nat × ResultHandler R :=
  match h.beginUploadPending with
  | (none, h) => (false, .ok 0, h)
  | (some uploadable, h) =>
    (true, (h.calls run.during).endUploadPending uploadable run.answer run.now)

/-- `upload_oneoffs` with its post. -/
def ResultHandler.uploadOneoffs (h : ResultHandler R) (run : PostRun R) :
    Bool × Except PostError Nat × ResultHandler R :=
  match h.beginUploadOneoffs with
  | (none, h) => (false, .ok 0, h)
  | (some uploadable, h) =>
    (true, (h.calls run.during).endUploadOneoffs uploadable run.answer run.now)

/-- The loop's state between two passes. -/
structure UploadLoop (R : Type) where
  handler : ResultHandler R
  gate : UploadGate
  ownMainAt : Instant
  ownTimesyncAt : Instant
  /-- Whether each kind ran on a controller line on the last pass. -/
  hadMainLine : Bool
  hadTimesyncLine : Bool
  /-- The next tick of the one-offs' re-post timer. -/
  repostAt : Instant
  running : Bool

namespace UploadLoop

def start (handler : ResultHandler R) (started : Instant) : UploadLoop R where
  handler
  gate := {}
  ownMainAt := started + handler.config.uploadInterval
  ownTimesyncAt := started + timesyncInterval
  hadMainLine := false
  hadTimesyncLine := false
  repostAt := started + oneoffRepostInterval
  running := true

/-- The top of a pass: a line that went hands back to Starla's own cadence. -/
def top (s : UploadLoop R) (p : Pass R) : UploadLoop R :=
  { s with
    handler := s.handler.calls p.before
    ownMainAt :=
      if s.hadMainLine && p.mainLine.isNone then p.now + s.handler.config.uploadInterval
      else s.ownMainAt
    ownTimesyncAt :=
      if s.hadTimesyncLine && p.timesyncLine.isNone then p.now + timesyncInterval
      else s.ownTimesyncAt
    hadMainLine := p.mainLine.isSome
    hadTimesyncLine := p.timesyncLine.isSome }

def mainAt (s : UploadLoop R) (p : Pass R) : Option Instant := p.mainLine.getD (some s.ownMainAt)

def timesyncAt (s : UploadLoop R) (p : Pass R) : Option Instant :=
  p.timesyncLine.getD (some s.ownTimesyncAt)

/-- The main upload due at `tick`. -/
def mainBranch (s : UploadLoop R) (tick : Instant) (due : Bool) (run : PostRun R) :
    Option Post × UploadLoop R :=
  if s.hadMainLine && !due then (none, s)
  else
    let s :=
      if s.hadMainLine then s else { s with ownMainAt := tick + s.handler.config.uploadInterval }
    if s.gate.holds tick then (none, s)
    else
      let (posted, sent, handler) := s.handler.uploadPendingTo run
      (if posted then some (run.post .main tick) else none,
        { s with handler, gate := s.gate.afterPost tick (sent.map fun _ => ()) })

/-- The header-only post due at `tick`. Its answer is logged and no more:
without an endpoint there is no post, only an error. -/
def timesyncBranch (s : UploadLoop R) (tick : Instant) (due : Bool) (run : PostRun R) :
    Option Post × UploadLoop R :=
  if s.hadTimesyncLine && !due then (none, s)
  else
    let s := if s.hadTimesyncLine then s else { s with ownTimesyncAt := tick + timesyncInterval }
    if s.gate.holds tick then (none, s)
    else if s.handler.hasEndpoint then
      (some (run.post .timesync tick), { s with handler := s.handler.calls run.during })
    else (none, s)

/-- The one-offs' post due at `tick`. -/
def oneoffsBranch (s : UploadLoop R) (tick : Instant) (run : PostRun R) : Option Post × UploadLoop R :=
  if s.gate.holds tick then (none, s)
  else
    let (posted, sent, handler) := s.handler.uploadOneoffs run
    (if posted then some (run.post .oneoffs tick) else none,
      { s with handler, gate := s.gate.afterOneoffs tick sent })

/-- One pass of the loop, and the post made in it. -/
def pass (s : UploadLoop R) (p : Pass R) : Option Post × UploadLoop R :=
  if !s.running then (none, s)
  else
    let s := s.top p
    match p.branch with
    | .cancelled => (none, { s with running := false })
    | .linesChanged => (none, s)
    | .main due run =>
      match s.mainAt p with
      | none => (none, s)
      | some tick => s.mainBranch tick due run
    | .timesync due run =>
      match s.timesyncAt p with
      | none => (none, s)
      | some tick => s.timesyncBranch tick due run
    | .oneoffReady run => s.oneoffsBranch run.wake run
    | .oneoffRepost run =>
      { s with repostAt := s.repostAt + oneoffRepostInterval }.oneoffsBranch s.repostAt run
    | .cleanup now => (none, { s with handler := s.handler.runCleanup now })
    | .status => (none, s)

end UploadLoop

end Starla.Impl.Results
