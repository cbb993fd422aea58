import Starla.Impl.Results.Loop
import Starla.Proof.Results.Gate

/-!
# A 429 silences the uploader

The upload loop pass by pass, with a log of the posts it made, newest first.
Each post answered 429 asks for silence: no post until its answer plus the
hold of its place among the 429s in a row (`refusals`). The gate holds posts
due before the *due time* of the refused one plus that hold, and it is never
told of a refused timesync post; where neither matters (`Prompt`), no post
breaks the silence (`silent_of_prompt`).

* `pass_made`, `pass_quiet` : what one pass can do.
* `step_inv` : the hold covers every refusal, counted from its due time.
-/

namespace Starla.Proof.Results

open Starla.Framework Starla.Impl.Results

variable {R : Type} [MeasurementResult R]

/-! ## The log of posts -/

/-- The failures since the last success, over a log. -/
def tally : List Post → Tally
  | [] => {}
  | p :: earlier => (tally earlier).count p.answer

/-- A post answered 429, and the silence its answer asks for. -/
structure Refusal where
  tick : Instant
  answered : Instant
  hold : Duration
deriving DecidableEq, Repr

/-- The refusals in a log. -/
def refusals : List Post → List Refusal
  | [] => []
  | p :: earlier =>
    match p.answer with
    | .error (.rateLimited retryAfter) =>
      ⟨p.tick, p.answered, rateLimitHold (UInt32.ofNat (tally (p :: earlier)).refused) retryAfter⟩ ::
        refusals earlier
    | _ => refusals earlier

/-- No post starts before the silence of every earlier refusal has ended. -/
def Silent : List Post → Prop
  | [] => True
  | p :: earlier => (∀ r ∈ refusals earlier, r.answered + r.hold ≤ p.started) ∧ Silent earlier

/-- The posts whose answers the gate is told. -/
def told (posts : List Post) : List Post := posts.filter fun p => p.kind ≠ .timesync

/-- A 429 calls for a hold no shorter than one earlier in a row does. -/
theorem rateLimitHold_mono {m n : Nat} (h : m ≤ n) (hn : n < 2 ^ 32) (retryAfter : Option UInt64) :
    rateLimitHold (UInt32.ofNat m) retryAfter ≤ rateLimitHold (UInt32.ofNat n) retryAfter := by
  have hd : min ((UInt32.ofNat m).toNat - 1) 16 ≤ min ((UInt32.ofNat n).toNat - 1) 16 := by
    rw [UInt32.toNat_ofNat', UInt32.toNat_ofNat', Nat.mod_eq_of_lt hn, Nat.mod_eq_of_lt (by omega)]
    omega
  have hp : rateLimitFirstHold * 2 ^ min ((UInt32.ofNat m).toNat - 1) 16 ≤
      rateLimitFirstHold * 2 ^ min ((UInt32.ofNat n).toNat - 1) 16 :=
    Nat.mul_le_mul_left _ (Nat.pow_le_pow_right (by decide) hd)
  simp only [rateLimitHold]
  exact max_le_max_right _ (min_le_min_right _ hp)

/-! ## What one pass can do -/

/-- The post a pass may make, as the world runs it. -/
def runOf (p : Pass R) : Option (PostRun R) :=
  match p.branch with
  | .main _ run | .timesync _ run | .oneoffReady run | .oneoffRepost run => some run
  | _ => none

def kindOf (p : Pass R) : PostKind :=
  match p.branch with
  | .timesync .. => .timesync
  | .oneoffReady _ | .oneoffRepost _ => .oneoffs
  | _ => .main

/-- The tick the branch of a pass is due at. -/
def tickOf (s : UploadLoop R) (p : Pass R) : Option Instant :=
  match p.branch with
  | .main .. => (s.top p).mainAt p
  | .timesync .. => (s.top p).timesyncAt p
  | .oneoffReady run => some run.wake
  | .oneoffRepost _ => some s.repostAt
  | _ => none

/-- What the gate becomes after a post of a kind. -/
def gateAfter (g : UploadGate) (kind : PostKind) (tick : Instant) (answer : Except PostError Unit) :
    UploadGate :=
  if kind = .timesync then g else g.afterPost tick answer

/-- What a pass of `s` that ends in `s'` did: a post or none. -/
inductive Did (s : UploadLoop R) (p : Pass R) : Option Post → UploadLoop R → Prop
  | made {s' : UploadLoop R} (tick : Instant) (run : PostRun R) (hrun : runOf p = some run)
      (htick : tickOf s p = some tick) (hfree : s.gate.holds tick = false)
      (hgate : s'.gate = gateAfter s.gate (kindOf p) tick run.answer)
      (hend : s'.handler.hasEndpoint = true) : Did s p (some (run.post (kindOf p) tick)) s'
  | quiet {s' : UploadLoop R} (hgate : s'.gate = s.gate)
      (hend : s.handler.hasEndpoint = true → s'.handler.hasEndpoint = true) : Did s p none s'
  /-- Without an endpoint there is no post, but the gate is told of a success. -/
  | reset {s' : UploadLoop R} (tick : Instant) (hgate : s'.gate = s.gate.afterPost tick (.ok ()))
      (hend : s.handler.hasEndpoint = false) : Did s p none s'

/-! ### The endpoint stays -/

theorem hasEndpoint_calls {h : ResultHandler R} (he : h.hasEndpoint = true) :
    ∀ cs, (h.calls cs).hasEndpoint = true := by
  intro cs
  induction cs generalizing h with
  | nil => exact he
  | cons c cs ih =>
    refine ih ?_
    cases c with
    | setEndpointPath => rfl
    | expectOneoff msmId => exact he
    | submit result lts now =>
      simp only [ResultHandler.call, ResultHandler.submit]
      split <;> exact he

omit [MeasurementResult R] in
theorem hasEndpoint_endUploadPending (h : ResultHandler R) (uploadable : List (QueuedResult R))
    (sent : Except PostError Unit) (now : Int) :
    (h.endUploadPending uploadable sent now).2.hasEndpoint = h.hasEndpoint := by
  cases sent <;> rfl

omit [MeasurementResult R] in
theorem hasEndpoint_endUploadOneoffs (h : ResultHandler R) (uploadable : List (QueuedResult R))
    (sent : Except PostError Unit) (now : Int) :
    (h.endUploadOneoffs uploadable sent now).2.hasEndpoint = h.hasEndpoint := by
  cases sent <;> rfl

/-! ### Uploads -/

/-- With an endpoint the main upload posts, and returns its answer. -/
theorem uploadPendingTo_made {h : ResultHandler R} (he : h.hasEndpoint = true) (run : PostRun R) :
    (h.uploadPendingTo run).1 = true ∧
      (h.uploadPendingTo run).2.1.map (fun _ => ()) = run.answer ∧
      (h.uploadPendingTo run).2.2.hasEndpoint = true := by
  simp only [ResultHandler.uploadPendingTo, ResultHandler.beginUploadPending, he]
  refine ⟨rfl, ?_, ?_⟩
  · cases run.answer <;> rfl
  · exact (hasEndpoint_endUploadPending ..).trans (hasEndpoint_calls rfl _)

theorem uploadPendingTo_quiet {h : ResultHandler R} (he : h.hasEndpoint = false) (run : PostRun R) :
    h.uploadPendingTo run = (false, .ok 0, h) := by
  simp [ResultHandler.uploadPendingTo, ResultHandler.beginUploadPending, he]

omit [MeasurementResult R] in
/-- A one-offs' upload that begins carries a result. -/
theorem beginUploadOneoffs_cases (h : ResultHandler R) :
    (∃ h', h.beginUploadOneoffs = (none, h') ∧ h'.hasEndpoint = h.hasEndpoint) ∨
      ∃ r rs h', h.beginUploadOneoffs = (some (r :: rs), h') ∧ h'.hasEndpoint = true := by
  cases he : h.hasEndpoint with
  | false => exact Or.inl ⟨h, by simp [ResultHandler.beginUploadOneoffs, he], he⟩
  | true =>
    cases ht : (ResultHandler.takeUploadable h.oneoffQueue h.config.maxAttempts).1.1 with
    | nil =>
      refine Or.inl ⟨{ h with
        oneoffQueue := (ResultHandler.takeUploadable h.oneoffQueue h.config.maxAttempts).2 }, ?_, he⟩
      simp [ResultHandler.beginUploadOneoffs, he, ht]
    | cons r rs =>
      refine Or.inr ⟨r, rs, { h with
        oneoffQueue := (ResultHandler.takeUploadable h.oneoffQueue h.config.maxAttempts).2 }, ?_, he⟩
      simp [ResultHandler.beginUploadOneoffs, he, ht]

/-- The gate is told the answer to a one-offs' post, and nothing without one. -/
theorem uploadOneoffs_cases (h : ResultHandler R) (run : PostRun R) (g : UploadGate) (tick : Instant) :
    ((h.uploadOneoffs run).1 = true ∧ (h.uploadOneoffs run).2.2.hasEndpoint = true ∧
      g.afterOneoffs tick (h.uploadOneoffs run).2.1 = g.afterPost tick run.answer) ∨
    ((h.uploadOneoffs run).1 = false ∧ (h.uploadOneoffs run).2.2.hasEndpoint = h.hasEndpoint ∧
      g.afterOneoffs tick (h.uploadOneoffs run).2.1 = g) := by
  rcases beginUploadOneoffs_cases h with ⟨h', e, he⟩ | ⟨r, rs, h', e, he⟩ <;>
    simp only [ResultHandler.uploadOneoffs, e]
  · exact Or.inr ⟨trivial, he, rfl⟩
  · refine Or.inl ⟨trivial, (hasEndpoint_endUploadOneoffs ..).trans (hasEndpoint_calls he _), ?_⟩
    cases run.answer <;> rfl

/-! ### Branches -/

variable {s : UploadLoop R} {p : Pass R}

theorem hasEndpoint_top (h : s.handler.hasEndpoint = true) : (s.top p).handler.hasEndpoint = true :=
  hasEndpoint_calls h _

/-- A branch that runs from a state `s₁` with the gate of `s`, before it makes
its post or not. -/
theorem mainBranch_did {s₁ : UploadLoop R} (hg : s₁.gate = s.gate)
    (hs : s.handler.hasEndpoint = true → s₁.handler.hasEndpoint = true) {tick : Instant} {due : Bool}
    {run : PostRun R} (hrun : runOf p = some run) (htick : tickOf s p = some tick)
    (hkind : kindOf p = .main) :
    Did s p (s₁.mainBranch tick due run).1 (s₁.mainBranch tick due run).2 := by
  unfold UploadLoop.mainBranch
  split
  · exact .quiet hg hs
  · simp only
    generalize hs₂ : (if s₁.hadMainLine = true then s₁ else
      { s₁ with ownMainAt := tick + s₁.handler.config.uploadInterval }) = s₂
    have hg₂ : s₂.gate = s.gate := by rw [← hs₂]; split <;> exact hg
    have hh₂ : s₂.handler = s₁.handler := by rw [← hs₂]; split <;> rfl
    split
    · exact .quiet hg₂ (hh₂ ▸ hs)
    · rename_i hfree
      cases he : s₂.handler.hasEndpoint with
      | false =>
        rw [uploadPendingTo_quiet he]
        refine .reset tick (by rw [← hg₂]; rfl) ?_
        cases h : s.handler.hasEndpoint with
        | false => rfl
        | true => rw [hh₂, hs h] at he; exact he
      | true =>
        obtain ⟨h1, h2, h3⟩ := uploadPendingTo_made he run
        simp only [h1, if_true, h2]
        rw [← hkind]
        refine .made tick run hrun htick (by rw [← hg₂]; simpa using hfree) ?_ h3
        rw [gateAfter, hkind, if_neg (by decide), ← hg₂]

theorem timesyncBranch_did {s₁ : UploadLoop R} (hg : s₁.gate = s.gate)
    (hs : s.handler.hasEndpoint = true → s₁.handler.hasEndpoint = true) {tick : Instant} {due : Bool}
    {run : PostRun R} (hrun : runOf p = some run) (htick : tickOf s p = some tick)
    (hkind : kindOf p = .timesync) :
    Did s p (s₁.timesyncBranch tick due run).1 (s₁.timesyncBranch tick due run).2 := by
  unfold UploadLoop.timesyncBranch
  split
  · exact .quiet hg hs
  · simp only
    generalize hs₂ : (if s₁.hadTimesyncLine = true then s₁ else
      { s₁ with ownTimesyncAt := tick + timesyncInterval }) = s₂
    have hg₂ : s₂.gate = s.gate := by rw [← hs₂]; split <;> exact hg
    have hh₂ : s₂.handler = s₁.handler := by rw [← hs₂]; split <;> rfl
    split
    · exact .quiet hg₂ (hh₂ ▸ hs)
    · rename_i hfree
      split
      · rename_i he
        rw [← hkind]
        refine .made tick run hrun htick (by rw [← hg₂]; simpa using hfree) ?_ (hasEndpoint_calls he _)
        rw [gateAfter, if_pos hkind]
        exact hg₂
      · exact .quiet hg₂ (hh₂ ▸ hs)

theorem oneoffsBranch_did {s₁ : UploadLoop R} (hg : s₁.gate = s.gate)
    (hs : s.handler.hasEndpoint = true → s₁.handler.hasEndpoint = true) {tick : Instant}
    {run : PostRun R} (hrun : runOf p = some run) (htick : tickOf s p = some tick)
    (hkind : kindOf p = .oneoffs) :
    Did s p (s₁.oneoffsBranch tick run).1 (s₁.oneoffsBranch tick run).2 := by
  unfold UploadLoop.oneoffsBranch
  split
  · exact .quiet hg hs
  · rename_i hfree
    simp only
    rcases uploadOneoffs_cases s₁.handler run s₁.gate tick with ⟨h1, h2, h3⟩ | ⟨h1, h2, h3⟩
    · simp only [h1, if_true, h3]
      rw [← hkind]
      refine .made tick run hrun htick (by rw [← hg]; simpa using hfree) ?_ h2
      rw [gateAfter, hkind, if_neg (by decide), ← hg]
    · simp only [h1, Bool.false_eq_true, if_false, h3]
      exact .quiet hg fun h => h2.trans (hs h)

/-- What a pass did. -/
theorem pass_did (s : UploadLoop R) (p : Pass R) : Did s p (s.pass p).1 (s.pass p).2 := by
  unfold UploadLoop.pass
  split
  · exact .quiet rfl id
  · have hs : s.handler.hasEndpoint = true → (s.top p).handler.hasEndpoint = true := hasEndpoint_top
    have hg : (s.top p).gate = s.gate := rfl
    simp only
    split
    · exact .quiet rfl hs
    · exact .quiet rfl hs
    · rename_i due run hb
      have hr : runOf p = some run := by rw [runOf, hb]
      split
      · exact .quiet rfl hs
      · rename_i tick ht
        exact mainBranch_did hg hs hr (by rw [tickOf, hb]; exact ht) (by rw [kindOf, hb])
    · rename_i due run hb
      have hr : runOf p = some run := by rw [runOf, hb]
      split
      · exact .quiet rfl hs
      · rename_i tick ht
        exact timesyncBranch_did hg hs hr (by rw [tickOf, hb]; exact ht) (by rw [kindOf, hb])
    · rename_i run hb
      exact oneoffsBranch_did hg hs (by rw [runOf, hb]) (by rw [tickOf, hb]) (by rw [kindOf, hb])
    · rename_i run hb
      have ht : tickOf s p = some (s.top p).repostAt := by rw [tickOf, hb]; rfl
      have hg : ({ s.top p with repostAt := (s.top p).repostAt + oneoffRepostInterval } :
        UploadLoop R).gate = s.gate := rfl
      exact oneoffsBranch_did hg hs (by rw [runOf, hb]) ht (by rw [kindOf, hb])
    · exact .quiet rfl hs
    · exact .quiet rfl hs

/-! ## Runs of the loop -/

structure LoopWorld (R : Type) where
  loop : UploadLoop R
  /-- The posts made, newest first. -/
  posts : List Post
  /-- When the last pass ended. -/
  clock : Instant

namespace LoopWorld

def start (handler : ResultHandler R) (started : Instant) : LoopWorld R :=
  ⟨.start handler started, [], started⟩

def step (w : LoopWorld R) (p : Pass R) : LoopWorld R :=
  ⟨(w.loop.pass p).2, (w.loop.pass p).1.toList ++ w.posts, ((runOf p).map (·.answered)).getD p.now⟩

/-- The times of a pass are in order: it begins when the one before has ended,
and a branch that waits for a deadline runs once it has passed. -/
def Timed (w : LoopWorld R) (p : Pass R) : Prop :=
  w.clock ≤ p.now ∧ ∀ run ∈ runOf p, p.now ≤ run.wake ∧ run.wake ≤ run.started ∧
    run.started ≤ run.answered ∧ ∃ tick ∈ tickOf w.loop p, tick ≤ run.wake

/-- What a pass needs beside: a timesync post is not answered 429; a branch is
not due, and run, in the time by which an earlier 429 came after its own post
was due; and the `u32` that counts the 429s in a row does not wrap. -/
structure Prompt (w : LoopWorld R) (p : Pass R) : Prop where
  timesync : kindOf p = .timesync → ∀ run ∈ runOf p, ∀ ra, run.answer ≠ .error (.rateLimited ra)
  due : ∀ run ∈ runOf p, ∀ tick ∈ tickOf w.loop p, ∀ r ∈ refusals w.posts,
    ¬ (r.tick + r.hold ≤ tick ∧ run.wake < r.answered + r.hold)
  count : ∀ run ∈ runOf p, ∀ ra, run.answer = .error (.rateLimited ra) →
    (tally (told w.posts)).refused + 1 < 2 ^ 32

/-- What the gate holds back along a run. -/
structure Inv (w : LoopWorld R) : Prop where
  endpoint : w.posts ≠ [] → w.loop.handler.hasEndpoint = true
  counted : w.loop.gate.rateLimited = UInt32.ofNat (tally (told w.posts)).refused
  refused_le : (tally w.posts).refused ≤ (tally (told w.posts)).refused
  /-- Every refusal is held, from the instant its post was due. -/
  held : ∀ r ∈ refusals w.posts, ∃ t ∈ w.loop.gate.holdUntil, r.tick + r.hold ≤ t
  silent : Silent w.posts

variable {w : LoopWorld R} {p : Pass R}

/-- A post that is not held back is due after every hold. -/
theorem le_of_not_holds {g : UploadGate} {tick t : Instant} (h : g.holds tick = false)
    (ht : t ∈ g.holdUntil) : t ≤ tick := by
  rw [Option.mem_def] at ht
  simp only [UploadGate.holds, ht, Option.any_some, decide_eq_false_iff_not] at h
  exact Nat.not_lt.mp h

/-- Refusals the gate held stay held when it is told of a later post. -/
theorem held_mono {rs : List Refusal} {g g' : UploadGate} {tick : Instant}
    (hheld : ∀ r ∈ rs, ∃ t ∈ g.holdUntil, r.tick + r.hold ≤ t) (hfree : g.holds tick = false)
    (hg : g'.holdUntil = g.holdUntil ∨ ∃ d, g'.holdUntil = some (tick + d)) :
    ∀ r ∈ rs, ∃ t ∈ g'.holdUntil, r.tick + r.hold ≤ t := by
  intro r hr
  obtain ⟨t, ht, hle⟩ := hheld r hr
  rcases hg with e | ⟨d, e⟩
  · exact ⟨t, e ▸ ht, hle⟩
  · exact ⟨tick + d, e, hle.trans ((le_of_not_holds hfree ht).trans (Nat.le_add_right _ _))⟩

/-- After a post the gate is told of. -/
theorem told_inv (hI : Inv w) (hp : Prompt w p) {w' : LoopWorld R} {tick : Instant} {run : PostRun R}
    (hrun : runOf p = some run) (hkind : kindOf p ≠ .timesync)
    (hfree : w.loop.gate.holds tick = false)
    (hgate : w'.loop.gate = w.loop.gate.afterPost tick run.answer)
    (hposts : w'.posts = run.post (kindOf p) tick :: w.posts)
    (hend : w'.loop.handler.hasEndpoint = true) (hsilent : Silent w'.posts) : Inv w' := by
  have htold : told w'.posts = run.post (kindOf p) tick :: told w.posts := by
    rw [hposts, told, List.filter_cons_of_pos (by simp [PostRun.post, hkind])]
    rfl
  have hheld : ∀ r ∈ refusals w.posts, ∃ t ∈ w'.loop.gate.holdUntil, r.tick + r.hold ≤ t := by
    refine held_mono hI.held hfree ?_
    rw [hgate, afterPost_holdUntil]
    cases holdSet w.loop.gate run.answer with
    | none => exact Or.inl rfl
    | some d => exact Or.inr ⟨d, rfl⟩
  refine { endpoint := fun _ => hend, counted := ?_, refused_le := ?_, held := ?_, silent := hsilent }
  · rw [htold, hgate, tally]
    rcases ha : run.answer with (ra | _) | _
    · simp only [UploadGate.afterPost, Tally.count, PostRun.post, ha, hI.counted, GateWorld.ofNat_succ]
    · simp only [UploadGate.afterPost, Tally.count, PostRun.post, ha]
      split <;> exact hI.counted
    · simp [UploadGate.afterPost, Tally.count, PostRun.post, ha]
  · have := hI.refused_le
    rw [htold, hposts, tally, tally]
    rcases ha : run.answer with (ra | _) | _ <;> simp [Tally.count, PostRun.post, ha] <;> omega
  · rw [hposts]
    rcases ha : run.answer with (ra | _) | _
    · -- the gate counts at least as many 429s in a row as the log
      intro r hr
      simp only [refusals, PostRun.post, ha, List.mem_cons] at hr
      rcases hr with rfl | hr
      · refine ⟨_, by rw [hgate, ha]; exact rfl, Nat.add_le_add_left ?_ _⟩
        simp only [tally, Tally.count, hI.counted, GateWorld.ofNat_succ]
        exact rateLimitHold_mono (Nat.succ_le_succ hI.refused_le) (hp.count run hrun ra ha) ra
      · exact hheld r hr
    · simpa only [refusals, PostRun.post, ha] using hheld
    · simpa only [refusals, PostRun.post, ha] using hheld

theorem made_inv (hI : Inv w) (hp : Prompt w p) (ht : Timed w p) {w' : LoopWorld R} {tick : Instant}
    {run : PostRun R} (hrun : runOf p = some run) (htick : tickOf w.loop p = some tick)
    (hfree : w.loop.gate.holds tick = false)
    (hgate : w'.loop.gate = gateAfter w.loop.gate (kindOf p) tick run.answer)
    (hposts : w'.posts = run.post (kindOf p) tick :: w.posts)
    (hend : w'.loop.handler.hasEndpoint = true) : Inv w' := by
  have hsilent : Silent w'.posts := by
    rw [hposts]
    refine ⟨fun r hr => ?_, hI.silent⟩
    obtain ⟨t, hm, hle⟩ := hI.held r hr
    have hdue : r.tick + r.hold ≤ tick := hle.trans (le_of_not_holds hfree hm)
    have hstart : run.wake ≤ run.started := (ht.2 run hrun).2.1
    exact Nat.not_lt.mp fun hlt => hp.due run hrun tick htick r hr ⟨hdue, hstart.trans_lt hlt⟩
  by_cases hkind : kindOf p = .timesync
  · rw [gateAfter, if_pos hkind] at hgate
    have htold : told w'.posts = told w.posts := by
      rw [hposts, told, List.filter_cons_of_neg (by simp [PostRun.post, hkind])]
      rfl
    have hans := hp.timesync hkind run hrun
    have href : refusals w'.posts = refusals w.posts := by
      rw [hposts]
      rcases ha : run.answer with (ra | _) | _
      · exact absurd ha (hans ra)
      · simp only [refusals, PostRun.post, ha]
      · simp only [refusals, PostRun.post, ha]
    refine { endpoint := fun _ => hend, counted := by rw [hgate, htold]; exact hI.counted,
             refused_le := ?_, held := by rw [href, hgate]; exact hI.held, silent := hsilent }
    have := hI.refused_le
    rw [htold, hposts, tally]
    rcases ha : run.answer with (ra | _) | _
    · exact absurd ha (hans ra)
    · simpa [Tally.count, PostRun.post, ha] using this
    · simp [Tally.count, PostRun.post, ha]
  · rw [gateAfter, if_neg hkind] at hgate
    exact told_inv hI hp hrun hkind hfree hgate hposts hend hsilent

theorem step_inv (hI : Inv w) (hp : Prompt w p) (ht : Timed w p) : Inv (w.step p) := by
  have hdid := pass_did w.loop p
  generalize hw : w.loop.pass p = made at hdid
  obtain ⟨post, s'⟩ := made
  have hstep : w.step p = ⟨s', post.toList ++ w.posts, ((runOf p).map (·.answered)).getD p.now⟩ := by
    rw [step, hw]
  rw [hstep]
  cases hdid with
  | made tick run hrun htick hfree hgate hend =>
    exact made_inv hI hp ht hrun htick hfree hgate rfl hend
  | quiet hgate hend =>
    exact { endpoint := fun h => hend (hI.endpoint h), counted := hgate ▸ hI.counted,
            refused_le := hI.refused_le, held := hgate ▸ hI.held, silent := hI.silent }
  | reset tick hgate hend =>
    have hnone : w.posts = [] := by
      by_contra h
      exact absurd (hI.endpoint h) (by simp [hend])
    have e : (none : Option Post).toList ++ w.posts = [] := by rw [hnone]; rfl
    rw [e]
    exact { endpoint := fun h => absurd rfl h, counted := by rw [hgate]; rfl,
            refused_le := Nat.le_refl _, held := fun _ h => absurd h List.not_mem_nil, silent := trivial }

/-- In every run whose passes are prompt, no post breaks the silence that an
earlier 429 asks for. -/
theorem silent_of_prompt (handler : ResultHandler R) (started : Instant) (passes : List (Pass R))
    (h : AllSteps step (fun w p => Timed w p ∧ Prompt w p) (start handler started) passes) :
    Always step (fun w => Silent w.posts) (start handler started) passes := by
  have hI : Always step Inv (start handler started) passes := by
    refine always_of_inv (fun w p hI hok => step_inv hI hok.2 hok.1) ?_ h
    exact { endpoint := fun h => absurd rfl h, counted := rfl, refused_le := Nat.le_refl _,
            held := fun _ h => absurd h List.not_mem_nil, silent := trivial }
  exact hI.mono fun _ hI => hI.silent

/-! ## Runs on fixed inputs -/

instance (w : LoopWorld R) (p : Pass R) : Decidable (Timed w p) :=
  inferInstanceAs (Decidable (_ ∧ _))

instance instDecidableSilent : DecidablePred Silent
  | [] => inferInstanceAs (Decidable True)
  | _ :: earlier =>
    have := instDecidableSilent earlier
    inferInstanceAs (Decidable (_ ∧ _))

/-- A post due at `due` that starts on time and is answered at `answered`. -/
def onTime (due answered : Nat) (answer : Except PostError Unit) : PostRun UInt64 :=
  ⟨secs due, secs due, secs answered, [], answer, 0⟩

/-- A handler that has its endpoint. -/
def ready : ResultHandler UInt64 := (ResultHandler.new {}).setEndpointPath

/-- A main post refused at once, and the next one a minute later. -/
def refusedAtOnce : List (Pass UInt64) :=
  [⟨secs 0, none, none, [], .main true (onTime 60 60 (.error (.rateLimited none)))⟩,
    ⟨secs 60, none, none, [], .main true (onTime 120 121 (.ok ()))⟩]

theorem silent_refusedAtOnce : Always step (fun w => Silent w.posts) (start ready 0) refusedAtOnce :=
  silent_of_prompt ready 0 _
    ⟨⟨by decide, ⟨fun h => absurd h (by decide), by decide, fun _ _ _ _ => by decide⟩⟩,
      ⟨by decide, ⟨fun h => absurd h (by decide), by decide, fun _ _ _ _ => by decide⟩⟩, trivial⟩

/-- A timesync post on the controller's line is refused at 101 s, the main post
on its line starts at 110 s. -/
theorem refused_timesync_not_silent : ¬ ∀ (handler : ResultHandler UInt64) (started : Instant)
    (passes : List (Pass UInt64)), AllSteps step Timed (start handler started) passes →
      Always step (fun w => Silent w.posts) (start handler started) passes := by
  intro h
  have := (h ready 0
    [⟨secs 0, some (some (secs 110)), some (some (secs 100)), [],
        .timesync true (onTime 100 101 (.error (.rateLimited none)))⟩,
      ⟨secs 101, some (some (secs 110)), some (some (secs 1000)), [],
        .main true (onTime 110 111 (.ok ()))⟩]
    ⟨by decide, by decide, trivial⟩).last
  exact absurd this (by decide)

/-- A main post due at 60 s is refused at 90 s; the next one is due when the
hold, counted from 60 s, ends. -/
theorem refused_late_not_silent : ¬ ∀ (handler : ResultHandler UInt64) (started : Instant)
    (passes : List (Pass UInt64)), AllSteps step Timed (start handler started) passes →
      (∀ p ∈ passes, kindOf p ≠ .timesync) →
      Always step (fun w => Silent w.posts) (start handler started) passes := by
  intro h
  have := (h ready 0
    [⟨secs 0, none, none, [], .main true (onTime 60 90 (.error (.rateLimited none)))⟩,
      ⟨secs 90, none, none, [], .main true (onTime 120 121 (.ok ()))⟩]
    ⟨by decide, by decide, trivial⟩ (by decide)).last
  exact absurd this (by decide)

end LoopWorld

end Starla.Proof.Results
