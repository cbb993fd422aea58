import Starla.Framework.Run
import Starla.Impl.Results.PostTarget
import Starla.Proof.Controller.Connect

/-!
# What a controller reads of a post

* `own_posts_read` : whatever controllers answer and however often the probe
  starts again, a session's endpoint is one the uploader takes, and each post of
  Starla's own is read as the one request it is.
* `url_post_read_iff` : a post to a controller's URL is read so if and only if its
  path has no space and its host no blanks around it.
-/

namespace Starla.Proof.Results.PostTarget

open Starla.Framework Starla.Framework.Http Starla.Impl.Results Starla.Impl.Controller
open Starla.Proof.Controller

/-! ## Requests -/

def field (name value : String) : List UInt8 × List UInt8 := (utf8Bytes name, utf8Bytes value)

def unixDate : Option Int64 → List (List UInt8 × List UInt8)
  | some t => [field "Unix-Date" (toString t)]
  | none => []

/-- The request that a post is. -/
def requestOf (target : PostTarget) (localTime : Option Int64) (contentLength : Nat) : Request where
  method := utf8Bytes "POST"
  target := utf8Bytes target.path
  version := utf8Bytes "HTTP/1.1"
  fields := [field "Host" target.host, field "Connection" "close", field "User-Agent" "httppost for atlas.ripe.net",
    field "Content-Type" "application/x-www-form-urlencoded"] ++ unixDate localTime ++
    [field "Content-Length" (toString contentLength)]

theorem requestHead_eq (target : PostTarget) (localTime : Option Int64) (contentLength : Nat) :
    utf8Bytes (requestHead target localTime contentLength) = written (requestOf target localTime contentLength) := by
  cases localTime
  all_goals
    unfold requestHead written requestOf
    simp only [utf8Bytes_append, unixDate, fieldLine, field, List.flatMap_cons, List.flatMap_nil, List.append_assoc,
      List.cons_append, List.nil_append]
    rfl

theorem isWord_nat (n : Nat) : IsWord (toString n).toList := by
  rw [Nat.toString_eq_ofList_toDigits, String.toList_ofList]
  exact isWord_toDigits n

theorem isValueOf_unixDate {localTime : Option Int64} : ∀ f ∈ unixDate localTime, IsName f.1 ∧ IsValueOf f.2 := by
  cases localTime with
  | none => exact fun f hf => by cases hf
  | some t =>
    rw [unixDate, List.forall_mem_singleton]
    constructor
    · show IsName (utf8Bytes "Unix-Date")
      decide
    · exact isValueOf_of_isWord (isWord_toString t.toInt)

theorem isName_requestOf (target : PostTarget) (localTime : Option Int64) (contentLength : Nat) :
    ∀ f ∈ (requestOf target localTime contentLength).fields, IsName f.1 := by
  simp only [requestOf, List.forall_mem_append, List.forall_mem_cons, List.not_mem_nil, false_imp_iff, implies_true,
    and_true]
  refine ⟨⟨⟨?_, ?_, ?_, ?_⟩, fun f hf => (isValueOf_unixDate f hf).1⟩, ?_⟩
  · show IsName (utf8Bytes "Host")
    decide
  · show IsName (utf8Bytes "Connection")
    decide
  · show IsName (utf8Bytes "User-Agent")
    decide
  · show IsName (utf8Bytes "Content-Type")
    decide
  · show IsName (utf8Bytes "Content-Length")
    decide

theorem isValueOf_requestOf {target : PostTarget} {localTime : Option Int64} {contentLength : Nat} :
    (∀ f ∈ (requestOf target localTime contentLength).fields, IsValueOf f.2) ↔ IsValueOf (utf8Bytes target.host) := by
  simp only [requestOf, List.forall_mem_append, List.forall_mem_cons, List.not_mem_nil, false_imp_iff, implies_true,
    and_true]
  constructor
  · exact fun h => h.1.1.1
  · intro h
    refine ⟨⟨⟨h, ?_, ?_, ?_⟩, fun f hf => (isValueOf_unixDate f hf).2⟩, ?_⟩
    · show IsValueOf (utf8Bytes "close")
      decide
    · show IsValueOf (utf8Bytes "httppost for atlas.ripe.net")
      decide
    · show IsValueOf (utf8Bytes "application/x-www-form-urlencoded")
      decide
    · exact isValueOf_of_isWord (isWord_nat contentLength)

theorem contentLength_requestOf (target : PostTarget) (localTime : Option Int64) (n : Nat) :
    contentLength (requestOf target localTime n).fields = some n := by
  cases localTime
  all_goals exact decimal_toString n

/-- The controller reads the post if and only if the path is a word of the request
line and the host a value. -/
theorem readMessage_requestBytes (target : PostTarget) (now : Int64) (body : List UInt8) :
    readMessage (requestBytes target now body) =
        some (requestOf target (if target.localTime then some now else none) body.length, body) ↔
      IsWordOf (utf8Bytes target.path) ∧ IsValueOf (utf8Bytes target.host) := by
  have hmethod : IsWordOf (utf8Bytes "POST") := by decide
  have hversion : IsWordOf (utf8Bytes "HTTP/1.1") := by decide
  rw [requestBytes, requestHead_eq, readMessage_written _ _ hmethod hversion (isName_requestOf target _ _)
    (contentLength_requestOf ..), isValueOf_requestOf]
  exact Iff.rfl

/-! ## The targets of URLs -/

theorem inLine_of_not_hasLineEnd {cs : List Char} (h : hasLineEnd cs = false) :
    InLine (utf8Bytes (String.ofList cs)) := by
  rw [inLine_utf8Bytes, String.toList_ofList]
  constructor
  all_goals
    intro hmem
    have hany : hasLineEnd cs = true := List.any_eq_true.mpr ⟨_, hmem, rfl⟩
    rw [h] at hany
    cases hany

theorem inLine_of_checked {host path : List Char} {setTime : Option Int64} {localTime : Bool} {target : PostTarget}
    (h : checked host path setTime localTime = .ok target) :
    InLine (utf8Bytes target.path) ∧ InLine (utf8Bytes target.host) := by
  unfold checked at h
  split at h
  · cases h
  · rename_i hends
    rw [Bool.or_eq_true, not_or, Bool.not_eq_true, Bool.not_eq_true] at hends
    cases h
    exact ⟨inLine_of_not_hasLineEnd hends.1, inLine_of_not_hasLineEnd hends.2⟩

/-- No end of line is in a target that a URL makes. -/
theorem inLine_of_fromUrl {url : String} {setTime : Option Int64} {localTime : Bool} {target : PostTarget}
    (h : PostTarget.fromUrl url setTime localTime = .ok target) :
    InLine (utf8Bytes target.path) ∧ InLine (utf8Bytes target.host) := by
  unfold PostTarget.fromUrl at h
  dsimp only at h
  split at h
  · cases h
  · split at h
    · cases h
    · split at h
      · cases h
      · split at h
        · cases h
        · split at h
          · cases h
          · exact inLine_of_checked h

/-- A post to a URL is read as the request it is if and only if the path has no
space and the host no blanks around it. -/
theorem url_post_read_iff (url : String) (setTime : Option Int64) (localTime : Bool) {target : PostTarget}
    (h : PostTarget.fromUrl url setTime localTime = .ok target) (now : Int64) (body : List UInt8) :
    readMessage (requestBytes target now body) =
        some (requestOf target (if target.localTime then some now else none) body.length, body) ↔
      ' ' ∉ target.path.toList ∧ trimBlanks (utf8Bytes target.host) = utf8Bytes target.host := by
  obtain ⟨hpath, hhost⟩ := inLine_of_fromUrl h
  rw [readMessage_requestBytes, isWordOf_utf8Bytes]
  constructor
  · exact fun hboth => ⟨hboth.1.2, hboth.2.trimmed⟩
  · exact fun hboth => ⟨⟨hpath, hboth.1⟩, ⟨hhost, hboth.2⟩⟩

theorem url_post_read_iff_quoted :
    readMessage (requestBytes ⟨"127.0.0.1", "/a b", some 2, true⟩ 1000 [79, 75]) =
        some (requestOf ⟨"127.0.0.1", "/a b", some 2, true⟩ (some 1000) 2, [79, 75]) ↔
      ' ' ∉ "/a b".toList ∧ trimBlanks (utf8Bytes "127.0.0.1") = utf8Bytes "127.0.0.1" :=
  url_post_read_iff "HTTP://127.0.0.1:8080/a b" (some 2) true rfl 1000 [79, 75]

/-! ## The session's own posts -/

/-- A text that can stand in a path. -/
structure InPath (cs : List Char) : Prop where
  noCr : '\r' ∉ cs
  noLf : '\n' ∉ cs
  noSpace : ' ' ∉ cs

theorem inPath_append {cs ds : List Char} (hcs : InPath cs) (hds : InPath ds) : InPath (cs ++ ds) where
  noCr := by simp [hcs.noCr, hds.noCr]
  noLf := by simp [hcs.noLf, hds.noLf]
  noSpace := by simp [hcs.noSpace, hds.noSpace]

theorem inPath_of_isWord {cs : List Char} (h : IsWord cs) : InPath cs := by
  have hnot {c : Char} (hc : isWhitespace c = true) : c ∉ cs := by
    intro hmem
    rw [h.noBlank c hmem] at hc
    cases hc
  exact ⟨hnot rfl, hnot rfl, hnot rfl⟩

theorem InPath.isWordOf {s : String} (h : InPath s.toList) : IsWordOf (utf8Bytes s) :=
  isWordOf_utf8Bytes.mpr ⟨inLine_utf8Bytes.mpr ⟨h.noCr, h.noLf⟩, h.noSpace⟩

theorem endpointPath_toList (probeId : UInt32) (sessionId : String) :
    (endpointPath probeId sessionId).toList =
      "/?PROBE_ID=".toList ++ (toString probeId.toNat).toList ++ "&SESSION_ID=".toList ++ sessionId.toList := by
  unfold endpointPath
  simp only [String.toList_append]
  rfl

theorem inPath_endpointPath {sessionId : String} (h : IsWord sessionId.toList) (probeId : UInt32) :
    InPath (endpointPath probeId sessionId).toList := by
  rw [endpointPath_toList]
  apply inPath_append _ (inPath_of_isWord h)
  apply inPath_append _ ⟨by decide, by decide, by decide⟩
  exact inPath_append ⟨by decide, by decide, by decide⟩ (inPath_of_isWord (isWord_nat probeId.toNat))

theorem hasEndpoint_endpointPath (probeId : UInt32) (sessionId : String) :
    ResultUploader.hasEndpoint ⟨endpointPath probeId sessionId⟩ = true := by
  have hne : endpointPath probeId sessionId ≠ "" := by
    intro hempty
    have hlist := congrArg String.toList hempty
    rw [endpointPath_toList] at hlist
    cases hlist
  rw [ResultUploader.hasEndpoint, Bool.not_eq_true', ← Bool.not_eq_true, String.isEmpty_iff]
  exact hne

/-- The uploader takes the session's path. -/
theorem setEndpointPath_endpointPath {sessionId : String} (h : IsWord sessionId.toList) (probeId : UInt32) :
    ResultUploader.setEndpointPath (endpointPath probeId sessionId) = .ok ⟨endpointPath probeId sessionId⟩ := by
  have hin := inPath_endpointPath h probeId
  have hends : hasLineEnd (endpointPath probeId sessionId).toList = false := by
    rw [hasLineEnd, List.any_eq_false]
    intro c hc
    rw [Bool.or_eq_true, beq_iff_eq, beq_iff_eq]
    rintro (rfl | rfl)
    · exact hin.noCr hc
    · exact hin.noLf hc
  unfold ResultUploader.setEndpointPath
  rw [if_neg, hends]
  · rfl
  · rw [endpointPath_toList]
    exact fun hne => hne rfl

theorem inPath_targetOf {u : ResultUploader} (h : InPath u.endpointPath.toList) (p : ResultUploader.OwnPost) :
    InPath (u.targetOf p).path.toList := by
  have hsrc {src : String} (hsrc : InPath src.toList) : InPath (u.defaultTarget (some src)).path.toList := by
    show InPath (u.endpointPath ++ (if '?' ∈ u.endpointPath.toList then "&" else "?") ++ "SRC=" ++ src).toList
    rw [String.toList_append, String.toList_append, String.toList_append]
    apply inPath_append _ hsrc
    apply inPath_append _ ⟨by decide, by decide, by decide⟩
    apply inPath_append h
    split
    · exact ⟨by decide, by decide, by decide⟩
    · exact ⟨by decide, by decide, by decide⟩
  cases p with
  | batch => exact h
  | timesync => exact hsrc ⟨by decide, by decide, by decide⟩
  | oneoff => exact hsrc ⟨by decide, by decide, by decide⟩

/-- A session's own posts are each read as the request they are. -/
theorem own_post_read {u : ResultUploader} (h : InPath u.endpointPath.toList) (p : ResultUploader.OwnPost) (now : Int64)
    (body : List UInt8) :
    readMessage (requestBytes (u.targetOf p) now body) = some (requestOf (u.targetOf p) none body.length, body) := by
  have hhost : (u.targetOf p).host = "127.0.0.1" := by cases p <;> rfl
  have hlocal : (u.targetOf p).localTime = false := by cases p <;> rfl
  have hread := readMessage_requestBytes (u.targetOf p) now body
  rw [hlocal, if_neg Bool.false_ne_true, hhost] at hread
  exact hread.mpr ⟨(inPath_targetOf h p).isWordOf, by decide⟩

/-! ## Sessions over restarts -/

/-- Every session at hand, in the file or in the loops, is one word. -/
structure Worded (p : RegisterAndConnect) : Prop where
  file : ∀ sid ∈ (ConKeep.load p.conKeepFile).sessionId, IsWord sid.toList
  keep : ∀ reg info conKeep wake, p.phase = .initing reg info conKeep wake →
    ∀ sid ∈ conKeep.sessionId, IsWord sid.toList
  session : ∀ info port sid, p.phase = .keeping info port sid → IsWord sid.toList

/-- A pass that leaves the session's file, and enters no loop with a session. -/
theorem worded_of_same {p p' : RegisterAndConnect} (h : Worded p) (hfile : p'.conKeepFile = p.conKeepFile)
    (hinit : ∀ reg info conKeep wake, p'.phase ≠ .initing reg info conKeep wake)
    (hkeep : ∀ info port sid, p'.phase ≠ .keeping info port sid) : Worded p' where
  file := hfile ▸ h.file
  keep reg info conKeep wake hphase := absurd hphase (hinit reg info conKeep wake)
  session info port sid hphase := absurd hphase (hkeep info port sid)

theorem worded_top {p : RegisterAndConnect} (h : Worded p) : Worded p.top :=
  worded_of_same h rfl (by simp [RegisterAndConnect.top]) (by simp [RegisterAndConnect.top])

theorem worded_register {p : RegisterAndConnect} (h : Worded p) (reg : RegState) (met : Met) :
    Worded (p.register reg met) := by
  unfold RegisterAndConnect.register
  split
  · exact worded_of_same h rfl (by simp) (by simp)
  · exact h
  · split
    · unfold RegisterAndConnect.registrationAnswer
      split
      all_goals first | exact h | exact worded_of_same h rfl (by simp) (by simp)
    · exact h

theorem worded_connected {p : RegisterAndConnect} (h : Worded p) (reg : RegState) (info : ControllerInfo) :
    Worded (p.connected reg info) := by
  unfold RegisterAndConnect.connected
  dsimp only
  split
  · exact worded_top h
  · split
    · rename_i port sid hreusable
      refine ⟨h.file, fun _ _ _ _ hphase => by simp at hphase, fun info' port' sid' hphase => ?_⟩
      simp only [Phase.keeping.injEq] at hphase
      obtain ⟨-, -, rfl⟩ := hphase
      exact h.file sid (reusable_eq_some hreusable).2
    · refine ⟨h.file, fun _ _ conKeep _ hphase => ?_, fun _ _ _ hphase => by simp at hphase⟩
      simp only [Phase.initing.injEq] at hphase
      obtain ⟨-, -, rfl, -⟩ := hphase
      exact h.file

/-- What a file reads as, once a session of one word is saved. -/
theorem load_conKeep_render {c : ConKeep} (h : ∀ sid ∈ c.sessionId, IsWord sid.toList) :
    ConKeep.load (some c.render) = c :=
  conKeep_parse_render fun sid hsid => (h sid hsid).isValue

theorem worded_controllerAnswer {p : RegisterAndConnect} (h : Worded p) (reg : RegState) (info : ControllerInfo)
    {conKeep : ConKeep} (hkeep : ∀ sid ∈ conKeep.sessionId, IsWord sid.toList) (text : String) :
    Worded (p.controllerAnswer reg info conKeep text) := by
  have hsaved {p' : RegisterAndConnect} {c : ConKeep} (hfile : p'.conKeepFile = some c.render)
      (hc : ∀ sid ∈ c.sessionId, IsWord sid.toList) :
      ∀ sid ∈ (ConKeep.load p'.conKeepFile).sessionId, IsWord sid.toList := by
    rw [hfile, load_conKeep_render hc]
    exact hc
  unfold RegisterAndConnect.controllerAnswer
  split
  · rename_i port sid hanswer
    have hword := isWord_sessionId hanswer
    refine ⟨hsaved rfl fun sid' hsid' => ?_, fun _ _ _ _ hphase => by simp at hphase, fun _ _ sid' hphase => ?_⟩
    · cases hsid'
      exact hword
    · simp only [Phase.keeping.injEq] at hphase
      obtain ⟨-, -, rfl⟩ := hphase
      exact hword
  · refine ⟨hsaved rfl hkeep, fun _ _ _ _ hphase => ?_, fun _ _ _ hphase => by simp at hphase⟩
    simp only [Phase.initing.injEq] at hphase
    obtain ⟨-, -, rfl, -⟩ := hphase
    exact hkeep
  · refine ⟨h.file, fun _ _ _ _ hphase => ?_, fun _ _ _ hphase => by simp at hphase⟩
    simp only [Phase.initing.injEq] at hphase
    obtain ⟨-, -, rfl, -⟩ := hphase
    exact hkeep
  · have hcleared : ∀ sid ∈ conKeep.clear.sessionId, IsWord sid.toList := fun sid hsid => by cases hsid
    exact ⟨hsaved rfl hcleared, fun _ _ _ _ hphase => by simp [RegisterAndConnect.top] at hphase,
      fun _ _ _ hphase => by simp [RegisterAndConnect.top] at hphase⟩
  · exact worded_top h
  · exact worded_top h

theorem worded_pass {p : RegisterAndConnect} (h : Worded p) (met : Met) : Worded (p.pass met) := by
  unfold RegisterAndConnect.pass
  split
  · exact worded_top h
  · exact worded_register h _ _
  · exact worded_connected h _ _
  · exact worded_top h
  · exact h
  · rename_i reg info conKeep wake _ hphase
    split
    · exact h
    · split
      · exact worded_top h
      · have hsent : Worded (p.did (.initSent info p.clock)) := ⟨h.file, h.keep, h.session⟩
        exact worded_controllerAnswer hsent reg info (h.keep _ _ _ _ hphase) _
      · exact h
  · exact ⟨h.file, h.keep, h.session⟩
  · exact h

theorem worded_step (p : RegisterAndConnect) (e : ConnectEvent) (h : Worded p) : Worded (p.step e) := by
  apply worded_pass
  exact ⟨h.file, h.keep, h.session⟩

theorem worded_init : Worded {} where
  file := by simp [ConKeep.load]
  keep := by simp
  session := by simp

/-- Whatever servers answer and however often the probe starts again, a session that
is kept has an endpoint the uploader takes, and a controller reads each of its own
posts as the one request it is. -/
theorem own_posts_read (events : List ConnectEvent) (info : ControllerInfo) (port : UInt16) (sessionId : String)
    (hkeeping : (run RegisterAndConnect.step {} events).phase = .keeping info port sessionId) (probeId : UInt32) :
    ∃ u, ResultUploader.setEndpointPath (endpointPath probeId sessionId) = .ok u ∧ u.hasEndpoint = true ∧
      ∀ p now body, readMessage (requestBytes (u.targetOf p) now body) =
        some (requestOf (u.targetOf p) none body.length, body) := by
  have hrun : Worded (run RegisterAndConnect.step {} events) := run_of_step worded_step worded_init
  have hword := hrun.session info port sessionId hkeeping
  exact ⟨⟨endpointPath probeId sessionId⟩, setEndpointPath_endpointPath hword probeId,
    hasEndpoint_endpointPath probeId sessionId, own_post_read (inPath_endpointPath hword probeId)⟩

/-- A session kept again by a probe that started again. -/
theorem own_posts_read_restart :
    ∃ u, ResultUploader.setEndpointPath (endpointPath 7 "s1") = .ok u ∧ u.hasEndpoint = true ∧
      ∀ p now body, readMessage (requestBytes (u.targetOf p) now body) =
        some (requestOf (u.targetOf p) none body.length, body) :=
  own_posts_read [ASSIGN_A, ⟨.connected, 1000⟩, READY_A, ⟨.restart, 1010⟩, ⟨.lost, 1020⟩, ⟨.connected, 1030⟩]
    ⟨"a", 443, 0, none⟩ 2000 "s1" (by decide +kernel) 7

end Starla.Proof.Results.PostTarget
