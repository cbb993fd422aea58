import Starla.Impl.Measurements.HttpRequest

/-!
# What a server reads of evhttpget's request

* `request_read_iff` : the request of a URL is read as the one it is, with the
  URL's text in its target and Host, if and only if no space or end of line is in
  the path, and no end of line in the authority or blank around it.
-/

namespace Starla.Proof.Measurements.HttpRequest

open Starla.Framework Starla.Framework.Http Starla.Impl.Measurements Starla.Impl.Measurements.Http

/-- The request that a fetch makes. -/
def requestOf (url : HttpUrl) (http10 : Bool) : Request where
  method := utf8Bytes "GET"
  target := utf8Bytes url.path
  version := utf8Bytes (if http10 then "HTTP/1.0" else "HTTP/1.1")
  fields := [(utf8Bytes "Host", utf8Bytes url.hostport), (utf8Bytes "Connection", utf8Bytes "close"),
    (utf8Bytes "User-Agent", utf8Bytes USER_AGENT)]

theorem request_eq (url : HttpUrl) (http10 : Bool) : utf8Bytes (request url http10) = written (requestOf url http10) := by
  cases http10
  all_goals
    unfold request written requestOf
    simp only [utf8Bytes_append, fieldLine, List.flatMap_cons, List.flatMap_nil, List.append_assoc, List.cons_append,
      List.nil_append]
    rfl

theorem readMessage_request (url : HttpUrl) (http10 : Bool) :
    readMessage (utf8Bytes (request url http10)) = some (requestOf url http10, []) ↔
      IsWordOf (utf8Bytes url.path) ∧ IsValueOf (utf8Bytes url.hostport) := by
  have hmethod : IsWordOf (utf8Bytes "GET") := by decide
  have hversion : IsWordOf (utf8Bytes (if http10 then "HTTP/1.0" else "HTTP/1.1")) := by
    cases http10
    all_goals decide
  have hname : ∀ f ∈ (requestOf url http10).fields, IsName f.1 := by
    simp only [requestOf, List.forall_mem_cons, List.not_mem_nil, false_imp_iff, implies_true, and_true]
    decide
  have hread := readMessage_written (requestOf url http10) [] hmethod hversion hname rfl
  rw [List.append_nil, ← request_eq] at hread
  rw [hread]
  apply and_congr_right'
  simp only [requestOf, List.forall_mem_cons, List.not_mem_nil, false_imp_iff, implies_true, and_true]
  exact and_iff_left (by decide)

/-- What an authority and a path are of a URL. -/
structure IsSplit (url : String) (u : HttpUrl) : Prop where
  authority : '/' ∉ u.hostport.toList
  text : ∃ path, url.toList.drop 7 = u.hostport.toList ++ path ∧
    u.path.toList = if path = [] then ['/'] else path

theorem isSplit_of_parseHttpUrl {url : String} {u : HttpUrl} (h : parseHttpUrl url = .ok u) : IsSplit url u := by
  unfold parseHttpUrl at h
  dsimp only at h
  split at h
  · cases h
  · split at h
    · cases h
    · split at h
      · cases h
      · cases h
        constructor
        · rw [String.toList_ofList]
          intro hmem
          have hne := List.mem_takeWhile_imp hmem
          simp at hne
        · refine ⟨(url.toList.drop 7).dropWhile (· != '/'), ?_, ?_⟩
          · rw [String.toList_ofList, List.takeWhile_append_dropWhile]
          · cases (url.toList.drop 7).dropWhile (· != '/') with
            | nil =>
              show "/".toList = _
              decide
            | cons c cs =>
              show (String.ofList (c :: cs)).toList = _
              rw [String.toList_ofList, if_neg (List.cons_ne_nil c cs)]

/-- A fetch's request has the URL's text in its target and Host, and is read as it is
if and only if no space or end of line is in the path, and no end of line in the
authority or blank around it. -/
theorem request_read_iff (url : String) (u : HttpUrl) (h : parseHttpUrl url = .ok u) (http10 : Bool) :
    IsSplit url u ∧ (readMessage (utf8Bytes (request u http10)) = some (requestOf u http10, []) ↔
      (('\r' ∉ u.path.toList ∧ '\n' ∉ u.path.toList) ∧ ' ' ∉ u.path.toList) ∧
        ('\r' ∉ u.hostport.toList ∧ '\n' ∉ u.hostport.toList) ∧
          trimBlanks (utf8Bytes u.hostport) = utf8Bytes u.hostport) := by
  refine ⟨isSplit_of_parseHttpUrl h, ?_⟩
  rw [readMessage_request, isWordOf_utf8Bytes, inLine_utf8Bytes, ← inLine_utf8Bytes (s := u.hostport)]
  exact and_congr_right' ⟨fun hvalue => ⟨hvalue.inLine, hvalue.trimmed⟩, fun hvalue => ⟨hvalue.1, hvalue.2⟩⟩

theorem request_read_iff_favicon :
    IsSplit "http://[2001:db8::1]:8080/favicon.ico" ⟨"[2001:db8::1]:8080", "2001:db8::1", 8080, "/favicon.ico"⟩ ∧
      (readMessage (utf8Bytes (request ⟨"[2001:db8::1]:8080", "2001:db8::1", 8080, "/favicon.ico"⟩ false)) =
          some (requestOf ⟨"[2001:db8::1]:8080", "2001:db8::1", 8080, "/favicon.ico"⟩ false, []) ↔
        (('\r' ∉ "/favicon.ico".toList ∧ '\n' ∉ "/favicon.ico".toList) ∧ ' ' ∉ "/favicon.ico".toList) ∧
          ('\r' ∉ "[2001:db8::1]:8080".toList ∧ '\n' ∉ "[2001:db8::1]:8080".toList) ∧
            trimBlanks (utf8Bytes "[2001:db8::1]:8080") = utf8Bytes "[2001:db8::1]:8080") :=
  request_read_iff "http://[2001:db8::1]:8080/favicon.ico" ⟨"[2001:db8::1]:8080", "2001:db8::1", 8080, "/favicon.ico"⟩
    (by decide) false

end Starla.Proof.Measurements.HttpRequest
