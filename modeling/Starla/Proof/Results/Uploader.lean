import Mathlib.Data.List.Infix
import Starla.Impl.Results.Handler
import Starla.Impl.Results.HostTelemetry
import Starla.Impl.Results.Uploader

/-!
# When a batch counts as delivered

* `readResponse_cases` : what is read is what was received, however it was cut;
  an error or a timeout before the first byte is an error.
* `judgeResponse_ok_iff`, `judgeResponse_rateLimited_iff` : the answers that
  confirm a batch, and those that refuse it.
* `post_delivered_iff` : a post succeeds just at such an answer; after any other
  the results and the telemetry are put back.
-/

namespace Starla.Proof.Results

open Starla.Framework Starla.Impl.Results

/-! ## What was received -/

/-- What is received after `response`: the bytes of the reads up to an empty
one, or up to the first that takes them over the limit. -/
def receivedAfter (response : List UInt8) (reads : List (List UInt8)) : List UInt8 :=
  let data := reads.takeWhile (!·.isEmpty)
  ((data.inits.map (response ++ ·.flatten)).find? (·.length > RESPONSE_LIMIT)).getD (response ++ data.flatten)

def received (reads : List (List UInt8)) : List UInt8 := receivedAfter [] reads

theorem receivedAfter_nil {response : List UInt8} (h : response.length ≤ RESPONSE_LIMIT) :
    receivedAfter response [] = response := by
  simp [receivedAfter, Nat.not_lt.mpr h]

theorem receivedAfter_empty {response : List UInt8} (h : response.length ≤ RESPONSE_LIMIT)
    (reads : List (List UInt8)) : receivedAfter response ([] :: reads) = response := by
  simp [receivedAfter, Nat.not_lt.mpr h]

theorem receivedAfter_cons {response chunk : List UInt8} (h : response.length ≤ RESPONSE_LIMIT) (hc : chunk ≠ [])
    (reads : List (List UInt8)) :
    receivedAfter response (chunk :: reads) =
      if (response ++ chunk).length > RESPONSE_LIMIT then response ++ chunk
      else receivedAfter (response ++ chunk) reads := by
  have hchunk : (!chunk.isEmpty) = true := by simpa using hc
  unfold receivedAfter
  dsimp only
  rw [List.takeWhile_cons, if_pos hchunk, List.inits_cons, List.map_cons,
    List.find?_cons_of_neg (by simpa using h), List.map_map, List.flatten_cons]
  have hmap : (List.map ((fun x => response ++ x.flatten) ∘ fun t => chunk :: t)
      (reads.takeWhile (!·.isEmpty)).inits) =
      (reads.takeWhile (!·.isEmpty)).inits.map (response ++ chunk ++ ·.flatten) := by
    refine List.map_congr_left fun t _ => ?_
    simp
  rw [hmap, List.append_assoc]
  split_ifs with hover
  · -- the shortest of the rest is already over the limit
    cases hinits : (reads.takeWhile (!·.isEmpty)).inits with
    | nil => exact absurd hinits (by cases reads.takeWhile (!·.isEmpty) <;> simp)
    | cons first rest =>
      have hfirst : first = [] := by
        cases hdata : reads.takeWhile (!·.isEmpty) with
        | nil =>
          rw [hdata] at hinits
          simpa using (List.cons.inj hinits).1.symm
        | cons d ds =>
          rw [hdata] at hinits
          simpa using (List.cons.inj hinits).1.symm
      rw [List.map_cons, hfirst, List.find?_cons_of_pos (by simpa using hover)]
      simp
  · rfl

theorem readResponse_cases (timeout : String) (ends : ReadEnd) {response : List UInt8}
    (h : response.length ≤ RESPONSE_LIMIT) (reads : List (List UInt8)) :
    readResponse timeout ends response reads = .ok (receivedAfter response reads) ∨
      ∃ m, readResponse timeout ends response reads = .error (.other m) ∧ receivedAfter response reads = [] := by
  induction reads generalizing response with
  | nil =>
    rw [receivedAfter_nil h]
    cases response with
    | nil =>
      cases ends with
      | closed => exact .inl rfl
      | failed e => exact .inr ⟨e, rfl, rfl⟩
      | timedOut => exact .inr ⟨_, rfl, rfl⟩
    | cons b bs => cases ends <;> exact .inl rfl
  | cons chunk reads ih =>
    rw [readResponse]
    by_cases hc : chunk = []
    · subst hc
      rw [receivedAfter_empty h]
      exact .inl rfl
    · rw [receivedAfter_cons h hc, if_neg (by simpa using hc)]
      split_ifs with hover
      · exact .inl rfl
      · exact ih (by omega)

/-! ## What an answer says -/

/-- The number of the answer's status line. -/
def status (response : List Char) : Option ℕ := (lines response).head?.bind statusCode

/-- A 200, whose body is OK where there is one. -/
def Delivered (response : List Char) : Prop :=
  status response = some 200 ∧ ∀ head body, findSub HEADER_END response = some (head, body) → trim body = ['O', 'K']

theorem judgeResponse_ok_iff (response : List Char) : judgeResponse response = .ok () ↔ Delivered response := by
  unfold judgeResponse Delivered status
  cases lines response with
  | nil => simp
  | cons statusLine rest =>
    simp only [List.head?_cons, Option.bind_some]
    split
    · rename_i hcode
      simp [hcode]
    · rename_i hcode
      rw [hcode]
      cases findSub HEADER_END response with
      | none => simp
      | some s =>
        obtain ⟨head, body⟩ := s
        by_cases hbody : trim body = ['O', 'K'] <;> simp [hbody]
    · rename_i hcode
      exact iff_of_false (by simp) fun h => hcode h.1

theorem judgeResponse_rateLimited_iff (response : List Char) :
    (∃ r, judgeResponse response = .error (.rateLimited r)) ↔ status response = some 429 := by
  unfold judgeResponse status
  cases lines response with
  | nil => simp
  | cons statusLine rest =>
    simp only [List.head?_cons, Option.bind_some]
    split
    · rename_i hcode
      simp [hcode]
    · rename_i hcode
      rw [hcode]
      cases findSub HEADER_END response with
      | none => simp
      | some s =>
        obtain ⟨head, body⟩ := s
        by_cases hbody : trim body = ['O', 'K'] <;> simp [hbody]
    · rename_i hcode _
      exact iff_of_false (by simp) hcode

/-! ## The post -/

/-- The request went out: what was received answers it. -/
def Sent (io : PostIo) : Prop := io.opened = .done () ∧ io.written = .ok ()

def answerOf (io : PostIo) : List Char := decodeUtf8LossyFrom none (received io.reads)

/-- A post is judged by what was received, or fails before. -/
theorem post_cases (timeout : String) (io : PostIo) :
    (Sent io ∧ post timeout io = judgeResponse (answerOf io)) ∨
      ∃ m, post timeout io = .error (.other m) ∧ (Sent io → received io.reads = []) := by
  unfold post Sent
  cases hopened : io.opened with
  | timedOut => exact .inr ⟨_, rfl, fun h => absurd h.1 (by simp)⟩
  | failed e => exact .inr ⟨e, rfl, fun h => absurd h.1 (by simp)⟩
  | done u =>
    cases hwritten : io.written with
    | error e => exact .inr ⟨e, rfl, fun h => absurd h.2 (by simp)⟩
    | ok u' =>
      have hlimit : ([] : List UInt8).length ≤ RESPONSE_LIMIT := Nat.zero_le _
      rcases readResponse_cases timeout io.ends hlimit io.reads with hread | ⟨m, hread, hnil⟩
      · refine .inl ⟨⟨rfl, rfl⟩, ?_⟩
        show (readResponse timeout io.ends [] io.reads >>= fun response => _) = _
        rw [hread]
        rfl
      · refine .inr ⟨m, ?_, fun _ => hnil⟩
        show (readResponse timeout io.ends [] io.reads >>= fun response => _) = _
        rw [hread]
        rfl

theorem status_of_received_nil {io : PostIo} (h : received io.reads = []) : status (answerOf io) = none := by
  rw [answerOf, h]
  rfl

theorem post_ok_iff (timeout : String) (io : PostIo) :
    post timeout io = .ok () ↔ Sent io ∧ Delivered (answerOf io) := by
  rcases post_cases timeout io with ⟨hsent, hpost⟩ | ⟨m, hpost, hnil⟩
  · rw [hpost, judgeResponse_ok_iff]
    exact ⟨fun h => ⟨hsent, h⟩, fun h => h.2⟩
  · rw [hpost]
    refine iff_of_false (by simp) fun h => ?_
    have hstatus := h.2.1
    rw [status_of_received_nil (hnil h.1)] at hstatus
    exact absurd hstatus (by simp)

theorem post_rateLimited_iff (timeout : String) (io : PostIo) :
    (∃ r, post timeout io = .error (.rateLimited r)) ↔ Sent io ∧ status (answerOf io) = some 429 := by
  rcases post_cases timeout io with ⟨hsent, hpost⟩ | ⟨m, hpost, hnil⟩
  · rw [hpost, judgeResponse_rateLimited_iff]
    exact ⟨fun h => ⟨hsent, h⟩, fun h => h.2⟩
  · rw [hpost]
    refine iff_of_false (by simp) fun h => ?_
    have hstatus := h.2
    rw [status_of_received_nil (hnil h.1)] at hstatus
    exact absurd hstatus (by simp)

/-! ## The batch after it -/

/-- What `upload_pending_to` is told of a post. -/
def outcome (sent : Except UploadError Unit) : Except PostError Unit := sent.mapError UploadError.kind

/-- The results and the telemetry of a batch are gone. -/
def Forgotten {R L : Type} (h : ResultHandler R) (s : TelemetryUploads L) (lines : List L)
    (after : ResultHandler R × TelemetryUploads L) : Prop :=
  after.1 = h ∧ after.2 = { s with underWay := none, uploaded := s.uploaded ++ [lines] }

/-- They are back, ahead of what came in since, as far as there is room. -/
def PutBack {R L : Type} (h : ResultHandler R) (uploadable : List (QueuedResult R)) (s : TelemetryUploads L)
    (lines : List L) (after : ResultHandler R × TelemetryUploads L) : Prop :=
  after.1.queue.items.map (·.result) =
      (uploadable.map (·.result) ++ h.queue.items.map (·.result)).take h.queue.maxCapacity ∧
    after.2 = { s with underWay := none, telemetry := s.telemetry.restore lines }

variable {R L : Type}

/-- The handler and the telemetry once a batch's post is answered. -/
def settled (timeout : String) (io : PostIo) (h : ResultHandler R) (uploadable : List (QueuedResult R)) (now : Int)
    (s : TelemetryUploads L) : ResultHandler R × TelemetryUploads L :=
  ((h.endUploadPending uploadable (outcome (post timeout io)) now).2, s.endUpload (post timeout io).isOk)

theorem forgotten_settled {timeout : String} {io : PostIo} (hpost : post timeout io = .ok ()) (h : ResultHandler R)
    (uploadable : List (QueuedResult R)) (now : Int) {s : TelemetryUploads L} {lines : List L}
    (hs : s.underWay = some lines) : Forgotten h s lines (settled timeout io h uploadable now s) := by
  unfold settled
  rw [hpost]
  exact ⟨rfl, by simp [TelemetryUploads.endUpload, hs, Except.isOk, Except.toBool]⟩

theorem putBack_settled {timeout : String} {io : PostIo} {e : UploadError} (hpost : post timeout io = .error e)
    (h : ResultHandler R) (uploadable : List (QueuedResult R)) (now : Int) {s : TelemetryUploads L} {lines : List L}
    (hs : s.underWay = some lines) : PutBack h uploadable s lines (settled timeout io h uploadable now s) := by
  unfold settled
  rw [hpost]
  refine ⟨?_, by simp [TelemetryUploads.endUpload, hs, Except.isOk, Except.toBool]⟩
  have hfront : ∀ f : QueuedResult R → QueuedResult R, (∀ r, (f r).result = r.result) →
      (h.queue.pushFront (uploadable.map f)).items.map (·.result) =
        (uploadable.map (·.result) ++ h.queue.items.map (·.result)).take h.queue.maxCapacity := by
    intro f hf
    have hmap : (uploadable.map f).map (·.result) = uploadable.map (·.result) := by
      rw [List.map_map]
      exact List.map_congr_left fun r _ => hf r
    rw [ResultQueue.pushFront, List.map_take, List.map_append, hmap]
  cases e with
  | rateLimited r => exact hfront _ fun _ => rfl
  | other m => exact hfront _ fun _ => rfl

/-- A post succeeds just where the request went out and what was received has
status 200 and, where its header is complete, the body OK; then the batch is
gone. It is refused just at status 429. After every error the batch is put
back. -/
theorem post_delivered_iff (timeout : String) (io : PostIo) :
    (post timeout io = .ok () ↔ Sent io ∧ Delivered (answerOf io)) ∧
    ((∃ r, post timeout io = .error (.rateLimited r)) ↔ Sent io ∧ status (answerOf io) = some 429) ∧
    ∀ (h : ResultHandler R) (uploadable : List (QueuedResult R)) (now : Int) (s : TelemetryUploads L)
      (lines : List L), s.underWay = some lines →
      (post timeout io = .ok () → Forgotten h s lines (settled timeout io h uploadable now s)) ∧
      (post timeout io ≠ .ok () → PutBack h uploadable s lines (settled timeout io h uploadable now s)) := by
  refine ⟨post_ok_iff timeout io, post_rateLimited_iff timeout io, ?_⟩
  intro h uploadable now s lines hs
  refine ⟨fun hpost => forgotten_settled hpost h uploadable now hs, fun hne => ?_⟩
  cases hpost : post timeout io with
  | ok u => exact absurd hpost hne
  | error e => exact putBack_settled hpost h uploadable now hs

/-- The controller's answer, the connection left open. -/
def confirmed : PostIo :=
  ⟨.done (), .ok (), ["HTTP/1.1 200 OK\r\nServer: x\r\n\r".toUTF8.toList, "\nOK\n".toUTF8.toList], .timedOut⟩

theorem post_delivered_iff_confirmed :
    post "15s" confirmed = .ok () ∧
      Forgotten (R := Unit) (.new {}) ⟨{}, some ["RESULT"], []⟩ ["RESULT"]
        (settled "15s" confirmed (.new {}) [⟨(), 0, 0, none, 0⟩] 0 ⟨{}, some ["RESULT"], []⟩) :=
  have hpost : post "15s" confirmed = .ok () := by decide +kernel
  ⟨hpost, ((post_delivered_iff "15s" confirmed).2.2 _ _ _ _ _ rfl).1 hpost⟩

/-- `HTTP/1.1 200 OK`, in two reads, and a read error. -/
def cutShort : PostIo :=
  ⟨.done (), .ok (), ["HTTP/1.1 ".toUTF8.toList, "200 OK\r\n".toUTF8.toList], .failed "connection reset"⟩

/-- A success without a header's end. -/
theorem post_ok_cutShort :
    ¬ ∀ (timeout : String) (io : PostIo), post timeout io = .ok () →
      status (answerOf io) = some 200 ∧
        ∃ head body, findSub HEADER_END (answerOf io) = some (head, body) ∧ trim body = ['O', 'K'] := by
  intro h
  obtain ⟨-, head, body, hfind, -⟩ := h "15s" cutShort (by decide +kernel)
  have hnone : findSub HEADER_END (answerOf cutShort) = none := by decide +kernel
  rw [hnone] at hfind
  exact absurd hfind (by simp)

end Starla.Proof.Results
