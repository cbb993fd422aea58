import Starla.Framework.Chunks
import Starla.Impl.Reports.Tls
import Starla.Proof.Reports.Envelope

/-!
# Lines of certificate queries

A certificate query's line has its members if the target's name can stand in a
string, and no address is refused after another failed: the refusal is written
behind the failure without a comma.

* `prescribed_report_iff`, `prescribed_answer_iff` : the two reports.
* `ends` : how a run ends.
* `prescribed_line_iff` : the line of a run.
-/

namespace Starla.Proof.Reports.Tls

open Starla.Framework Starla.Framework.JsonText Starla.Impl.Measurements Starla.Impl.Measurements.Tls Starla.Impl.Reports
  Starla.Impl.Reports.Tls Starla.Impl.Results Starla.Impl.Scheduler Starla.Proof.Results

/-! ## Certificates -/

/-- Every character of a chunk is one of the text's. -/
theorem forall_mem_toChunks {P : Char → Prop} {n : Nat} {cs : List Char} (hcs : ∀ c ∈ cs, P c) :
    ∀ l ∈ cs.toChunks (n + 1), ∀ c ∈ l, P c := by
  intro l hl c hc
  have hmem : c ∈ (cs.toChunks (n + 1)).flatten := List.mem_flatten.mpr ⟨l, hl, hc⟩
  rw [flatten_toChunks] at hmem
  exact hcs c hmem

theorem content_pemText (der : List UInt8) : IsContent (pemText der).toList := by
  have hline : ∀ line ∈ (base64 der).toChunks 64, IsContent (String.ofList line ++ "\\n").toList := by
    intro line hl
    have hplain : ∀ c ∈ line, isPlain c = true :=
      forall_mem_toChunks (fun c hc => (isPlain_of_mem_base64 hc).1) line hl
    rw [String.toList_append]
    exact (PlainText.isContent (plainText_ofList.mpr hplain)).append (by decide)
  have hjoin : ∀ lines : List (List Char), (∀ line ∈ lines, IsContent (String.ofList line ++ "\\n").toList) →
      IsContent (String.join (lines.map fun line => String.ofList line ++ "\\n")).toList := by
    intro lines hlines
    induction lines with
    | nil => rfl
    | cons line lines ih =>
      obtain ⟨hl, hlines⟩ := List.forall_mem_cons.mp hlines
      rw [List.map_cons, String.join_cons, String.toList_append]
      exact hl.append (ih hlines)
  unfold pemText
  rw [String.toList_append, String.toList_append]
  exact (IsContent.append (by decide) (hjoin _ hline)).append (by decide)

/-! ## Reports -/

theorem plainText_methodVer (version : UInt8 × UInt8) :
    PlainText (methodVer version).1 ∧ PlainText (methodVer version).2 := by
  unfold methodVer
  split_ifs
  · decide
  · decide
  · decide
  · decide
  · exact ⟨show PlainText "(unknown)" by decide, plainText_append.mpr ⟨plainText_append.mpr ⟨plainText_int _, by decide⟩, plainText_int _⟩⟩

variable (env : Envelope)

/-- What a line has from the target's quote to the port's. -/
def portText : String := ", \"dst_port\":\"" ++ toString env.dstPort.toNat ++ "\""

theorem members_port : Members (portText env) [("dst_port", Shape.IsString)] :=
  .text (fun _ _ => rfl) rfl (plainText_toString _).isContent

theorem starts_port : StartsMember (portText env) := by
  have hname : StartsMember ", \"dst_port\":\"" := ⟨'d', ['s', 't', '_', 'p', 'o', 'r', 't'], ['"'], rfl, rfl, rfl⟩
  exact hname.append.append

def reportHeadFields : Fields := if env.atlas.isSome then envelopeFields ++ [("time", Shape.IsNumber)] else []

def reportTailFields (dst : Bool) : Fields :=
  (if env.ttr.isSome then [("ttr", Shape.IsNumber)] else []) ++
    if dst then [("dst_addr", Shape.IsString), ("af", Shape.IsNumber)] else []

/-- The members of an error report, `result` its last. -/
def reportFields (dst : Bool) (result : Fields) : Fields :=
  reportHeadFields env ++ ("dst_name", Shape.IsString) ::
    ([("dst_port", Shape.IsString)] ++ (reportTailFields env dst ++ result))

theorem leading_reportHead (gstart : Int) {lts : LtsText} (hlts : IsNumber lts.own.toList) :
    Leading (reportHead env gstart lts) (reportHeadFields env) := by
  have htime : Leading ("\"time\":" ++ toString gstart ++ ", ") [("time", Shape.IsNumber)] :=
    .of_adds (.value (fun _ _ => rfl) (readsAs_number (isNumber_int gstart)))
  exact .getD_map fun id _ => (leading_envelope id.toNat hlts).append htime

theorem leading_reportTail (dst : Option IpAddr) : Leading (reportTail env dst) (reportTailFields env dst.isSome) := by
  have httr : Leading ((env.ttr.map fun ttr => "\"ttr\":" ++ ttr.text ++ ", ").getD "")
      (if env.ttr.isSome then [("ttr", Shape.IsNumber)] else []) :=
    .getD_map fun ttr _ => .of_adds (.value (fun _ _ => rfl) (readsAs_number (isNumber_fixed ttr)))
  refine httr.append (.getD_map fun dst _ => .of_adds ?_)
  have haddr : Adds .member ("\"dst_addr\":\"" ++ dst.text ++ "\"") [("dst_addr", Shape.IsString)] :=
    .text (fun _ _ => rfl) (plainText_ipAddr dst).isContent
  exact haddr.andValue (p := ", \"af\": ") (k := "af") (fun _ _ => rfl) rfl (readsAs_number (isNumber_toString _))

theorem reportBody_eq (gstart : Int) (dst : Option IpAddr) (result : String) (lts : LtsText) :
    reportBody env gstart dst result lts = (reportHead env gstart lts ++ "\"dst_name\":\"") ++ env.dstName ++ "\"" ++
      (portText env ++ ", " ++ (reportTail env dst ++ result)) := by
  simp only [reportBody, portText, String.append_assoc]

theorem prescribed_report_iff (gstart : Int) (dst : Option IpAddr) {result k : String} {rfs : Fields}
    {P : Shape → Prop} (hresult : Adds .member result (rfs ++ [(k, P)])) (hP : ¬ P .number) (lts : Int) :
    Prescribed (uploadedLine (reportBody env gstart dst result .written) lts)
      (reportFields env dst.isSome (rfs ++ [(k, P)])) ↔ NameOk lts env.dstName := by
  have hlts : IsNumber LtsText.written.own.toList := ⟨.zero, rfl, rfl⟩
  have hport : delimited (portText env) = true := delimited_append (delimited_append rfl)
  have hpost := (members_port env).comma hport ((leading_reportTail env dst).append_adds hresult)
  rw [← List.append_assoc, ← List.append_assoc] at hpost
  rw [reportBody_eq, reportFields, ← List.append_assoc, ← List.append_assoc]
  exact prescribed_around_iff ((leading_reportHead env gstart hlts).opensString fun _ _ => rfl) hpost
    (starts_port env).append.append hP

def headHeadFields : Fields := (if env.atlas.isSome then envelopeFields else []) ++ [("time", Shape.IsNumber)]

def headTailFields : Fields :=
  (if env.ttr.isSome then [("ttr", Shape.IsNumber)] else []) ++ [("method", Shape.IsString)] ++ [("ver", Shape.IsString)] ++
    [("dst_addr", Shape.IsString)] ++ [("af", Shape.IsNumber)] ++ [("src_addr", Shape.IsString)] ++
    [("ttc", Shape.IsNumber)] ++ [("rt", Shape.IsNumber)] ++ [("server_cipher", Shape.IsString)]

/-- The members of the report of an answer, `last` its last. -/
def headFields (last : String × (Shape → Prop)) : Fields :=
  headHeadFields env ++ ("dst_name", Shape.IsString) ::
    ([("dst_port", Shape.IsString)] ++ headTailFields env ++ [last])

theorem adds_headHead (now : Int) {lts : LtsText} (hlts : IsNumber lts.own.toList) :
    Adds .member (headHead env now lts) (headHeadFields env) := by
  have henvelope : Leading ((env.atlas.map fun id => envelope (toString id.toNat) lts).getD "")
      (if env.atlas.isSome then envelopeFields else []) := .getD_map fun id _ => leading_envelope id.toNat hlts
  exact henvelope.append_adds (.value (p := "\"time\":") (k := "time") (fun _ _ => rfl) (readsAs_number (isNumber_int now)))

theorem members_headTail (h : Head) : Members (headTail env h) (headTailFields env) := by
  obtain ⟨hmethodText, hverText⟩ := plainText_methodVer h.version
  have httr := members_ttr env.ttr
  have hmethod := httr.andText (p := ", \"method\":\"") (k := "method") (fun _ _ => rfl) rfl hmethodText.isContent
  have hver := hmethod.andText (p := ", \"ver\":\"") (k := "ver") (fun _ _ => rfl) rfl hverText.isContent
  have hdst := hver.andText (p := ", \"dst_addr\":\"") (k := "dst_addr") (fun _ _ => rfl) rfl
    (plainText_ipAddr h.dst).isContent
  have haf := hdst.andValue (p := ", \"af\": ") (k := "af") (fun _ _ => rfl) rfl (readsAs_number (isNumber_toString (afOf h.dst)))
  have hsrc := haf.andText (p := ", \"src_addr\":\"") (k := "src_addr") (fun _ _ => rfl) rfl
    (plainText_addrText h.src).isContent
  have httc := hsrc.andValue (p := ", \"ttc\": ") (k := "ttc") (fun _ _ => rfl) rfl (readsAs_number (isNumber_fixed h.ttc))
  have hrt := httc.andValue (p := ", \"rt\": ") (k := "rt") (fun _ _ => rfl) rfl (readsAs_number (isNumber_fixed h.rt))
  have hcipher : PlainText ("0x" ++ hexText 4 h.cipher.toNat) :=
    plainText_append.mpr ⟨by decide, plainText_hexText 4 _⟩
  exact hrt.andText (p := ", \"server_cipher\": \"") (k := "server_cipher") (fun _ _ => rfl) rfl hcipher.isContent

theorem headBody_eq (now : Int) (h : Head) (suffix : String) (lts : LtsText) :
    headBody env now h lts ++ suffix = (headHead env now lts ++ ", \"dst_name\":\"") ++ env.dstName ++ "\"" ++
      (portText env ++ headTail env h ++ suffix) := by
  simp only [headBody, portText, String.append_assoc]

theorem prescribed_head_iff (now : Int) (h : Head) {suffix k : String} {P : Shape → Prop}
    (hsuffix : Members suffix [(k, P)]) (hP : ¬ P .number) (lts : Int) :
    Prescribed (uploadedLine (headBody env now h .written ++ suffix) lts) (headFields env (k, P)) ↔
      NameOk lts env.dstName := by
  have hlts : IsNumber LtsText.written.own.toList := ⟨.zero, rfl, rfl⟩
  have hpost := ((members_port env).append (members_headTail env h)).append hsuffix
  rw [headBody_eq, headFields]
  exact prescribed_around_iff ((adds_headHead env now hlts).opensString (fun _ _ => rfl) rfl) hpost
    (starts_port env).append.append hP

def alertFields : Fields := [("level", Shape.IsNumber), ("description", Shape.IsNumber)]

theorem members_alert (level description : UInt8) :
    Members (alertSuffix level description) [("alert", Shape.ObjectOf alertFields)] := by
  have hlevel : Adds .member ("\"level\": " ++ toString level.toNat) [("level", Shape.IsNumber)] :=
    .value (fun _ _ => rfl) (readsAs_number (isNumber_toString _))
  have hboth := hlevel.andValue (p := ", \"description\": ") (k := "description") (fun _ _ => rfl) rfl
    (readsAs_number (isNumber_toString description.toNat))
  exact .value (fun _ _ => rfl) rfl (readsAs_object hboth)

theorem members_certs (certs : List (List UInt8)) :
    Members (certsSuffix certs) [("cert", Shape.ArrayOf Shape.IsString)] := by
  refine .value (fun _ _ => rfl) rfl (readsAs_array fun a ha => ?_)
  obtain ⟨der, -, rfl⟩ := List.mem_map.mp ha
  exact readsAs_string (content_pemText der)

theorem plainText_answerError (error : AnswerError) : PlainText error.text := by
  cases error <;> decide

/-! ## Answers -/

/-- The members of the report of an answer's event. -/
def answerFields : Impl.Reports.Tls.Event → Fields
  | .alert _ _ => headFields env ("alert", Shape.ObjectOf alertFields)
  | .certs _ => headFields env ("cert", Shape.ArrayOf Shape.IsString)
  | .err _ => reportFields env true [("err", Shape.IsString)]
  | .timeout _ => reportFields env true [("src_addr", Shape.IsString), ("ttc", Shape.IsNumber), ("err", Shape.IsString)]

theorem prescribed_answer_iff (met : Impl.Reports.Tls.Met) (dst : IpAddr) (lts : Int) :
    Prescribed (uploadedLine (answerBody env met dst .written) lts) (answerFields env met.answer.event) ↔
      NameOk lts env.dstName := by
  have herr {text : String} (htext : PlainText text) :
      Adds .member ("\"err\":\"" ++ text ++ "\"") ([] ++ [("err", Shape.IsString)]) :=
    .text (fun _ _ => rfl) htext.isContent
  unfold answerBody
  dsimp only
  cases met.answer.event with
  | alert level description => exact prescribed_head_iff env _ _ (members_alert level description) id lts
  | certs certs => exact prescribed_head_iff env _ _ (members_certs certs) id lts
  | err error => exact prescribed_report_iff env _ (some dst) (herr (plainText_answerError error)) not_isString_number lts
  | timeout readingCertificates =>
    have hsrc : Adds .member ("\"src_addr\":\"" ++ addrText met.answer.src ++ "\"") [("src_addr", Shape.IsString)] :=
      .text (fun _ _ => rfl) (plainText_addrText _).isContent
    have httc := hsrc.andValue (p := ", \"ttc\": ") (k := "ttc") (fun _ _ => rfl) rfl
      (readsAs_number (isNumber_fixed met.answer.ttc))
    have htext : PlainText (if readingCertificates then "timeout reading certificates" else "timeout reading hello") := by
      split_ifs <;> decide
    have hresult := httc.andText (p := ", \"err\":\"") (k := "err") (fun _ _ => rfl) rfl htext.isContent
    exact prescribed_report_iff env _ (some dst) hresult not_isString_number lts

/-! ## Connections -/

def NOT_ALLOWED : String := "\"error\": \"address not allowed\""

/-- Whether an address is not to be contacted. -/
def refuses (config : TlsConfig) (ip : IpAddr) : Bool := config.checkAddr && !addrAllowed ip

/-- One of the addresses, the `i`th next, is refused before any of them takes
the connection. -/
def RefusedFrom (config : TlsConfig) (connect : Nat → Connect) : List IpAddr → (i : Nat) → Prop
  | [], _ => False
  | ip :: addrs, i => refuses config ip = true ∨ connect i ≠ .connected ∧ RefusedFrom config connect addrs (i + 1)

/-- An attempt that failed. -/
def Failure (result : String) : Prop := ∃ e, PlainText e ∧ result = "\"err\":\"connect: " ++ e ++ "\""

section

variable {config : TlsConfig} {io : TlsIo} {ip : IpAddr} {addrs : List IpAddr} {i : Nat}

theorem connectTo_eq (config : TlsConfig) (io : TlsIo) (ip : IpAddr) (addrs : List IpAddr) (i : Nat) (dst : Option IpAddr)
    (result : String) :
    (connectTo config io (ip :: addrs) i dst result).value =
      if refuses config ip then .report (some ip) (result ++ NOT_ALLOWED)
      else match io.connect i with
        | .connected => .answered ip
        | .failed e => (connectTo config io addrs (i + 1) (some ip) ("\"err\":\"connect: " ++ e ++ "\"")).value
        | .timedOut => (connectTo config io addrs (i + 1) (some ip) "\"err\":\"connect: timeout\"").value := by
  show (if refuses config ip then _ else _ : Logged Contact Outcome).value = _
  split_ifs
  · rfl
  · cases io.connect i <;> rfl

/-- An attempt that fails. -/
theorem connectTo_next (addrs : List IpAddr) (hio : ∀ i e, io.connect i = .failed e → PlainText e) (hrefused : ¬ refuses config ip = true)
    (hconnect : io.connect i ≠ .connected) (dst : Option IpAddr) (result : String) :
    ∃ result', Failure result' ∧ (connectTo config io (ip :: addrs) i dst result).value =
      (connectTo config io addrs (i + 1) (some ip) result').value := by
  rw [connectTo_eq, if_neg hrefused]
  cases hcall : io.connect i with
  | connected => exact absurd hcall hconnect
  | failed e => exact ⟨_, ⟨e, hio i e hcall, rfl⟩, rfl⟩
  | timedOut => exact ⟨_, ⟨"timeout", by decide, rfl⟩, rfl⟩

/-- After an attempt that failed, a refusal is written behind it. -/
theorem connectTo_failed (hio : ∀ i e, io.connect i = .failed e → PlainText e) (addrs : List IpAddr) (i : Nat)
    (dst : IpAddr) {result : String} (hresult : Failure result) :
    (RefusedFrom config io.connect addrs i ∧ ∃ ip result', Failure result' ∧
      (connectTo config io addrs i (some dst) result).value = .report (some ip) (result' ++ NOT_ALLOWED)) ∨
    ¬ RefusedFrom config io.connect addrs i ∧
      ((∃ ip, (connectTo config io addrs i (some dst) result).value = .answered ip) ∨
        ∃ ip result', Failure result' ∧
          (connectTo config io addrs i (some dst) result).value = .report (some ip) result') := by
  induction addrs generalizing i dst result with
  | nil => exact .inr ⟨id, .inr ⟨dst, result, hresult, rfl⟩⟩
  | cons ip addrs ih =>
    by_cases hrefused : refuses config ip = true
    · refine .inl ⟨.inl hrefused, ip, result, hresult, ?_⟩
      rw [connectTo_eq, if_pos hrefused]
    · by_cases hconnect : io.connect i = .connected
      · refine .inr ⟨?_, .inl ⟨ip, ?_⟩⟩
        · rintro (h | ⟨h, -⟩)
          · exact hrefused h
          · exact h hconnect
        · rw [connectTo_eq, if_neg hrefused, hconnect]
      · obtain ⟨result', hresult', hnext⟩ := connectTo_next addrs hio hrefused hconnect (some dst) result
        have hfrom : RefusedFrom config io.connect (ip :: addrs) i ↔ RefusedFrom config io.connect addrs (i + 1) :=
          (or_iff_right hrefused).trans (and_iff_right hconnect)
        rw [hnext, hfrom]
        exact ih (i + 1) ip hresult'

end

/-- An address is refused after others failed. -/
def RefusedLater (config : TlsConfig) (connect : Nat → Connect) : List IpAddr → Prop
  | [] => False
  | ip :: addrs => refuses config ip = false ∧ connect 0 ≠ .connected ∧ RefusedFrom config connect addrs 1

def ioOf (met : Impl.Reports.Tls.Met) : TlsIo := ⟨met.resolved.answer, fun i => (met.connect i).connect⟩

/-- An address of a run's is refused after others failed. -/
def RefusedAfterFailure (spec : TlsJobSpec) (met : Impl.Reports.Tls.Met) : Prop :=
  ∃ addrs, resolve spec.target spec.af met.resolved.answer = .ok addrs ∧
    RefusedLater (Impl.Reports.Tls.config met spec) (ioOf met).connect addrs

/-- How a run ends. -/
inductive Ends (spec : TlsJobSpec) (met : Impl.Reports.Tls.Met) : Prop
  | dnsError (e : String) (he : PlainText e) (h : outcome spec met = .dnsError e) (hno : ¬ RefusedAfterFailure spec met)
  | answered (ip : IpAddr) (h : outcome spec met = .answered ip) (hno : ¬ RefusedAfterFailure spec met)
  | refused (ip : IpAddr) (h : outcome spec met = .report (some ip) NOT_ALLOWED) (hno : ¬ RefusedAfterFailure spec met)
  | failed (ip : IpAddr) (result : String) (hresult : Failure result) (h : outcome spec met = .report (some ip) result)
      (hno : ¬ RefusedAfterFailure spec met)
  | refusedLater (ip : IpAddr) (result : String) (hresult : Failure result)
      (h : outcome spec met = .report (some ip) (result ++ NOT_ALLOWED)) (hlater : RefusedAfterFailure spec met)

/-- A lookup ends with a reason, or with an address. -/
theorem resolve_cases (spec : TlsJobSpec) (resolved : Resolved) :
    (∃ e, PlainText e ∧ resolve spec.target spec.af resolved.answer = .error e) ∨
      ∃ ip addrs, resolve spec.target spec.af resolved.answer = .ok (ip :: addrs) := by
  have hanswer : (∃ e, PlainText e ∧ resolved.answer = .error e) ∨ ∃ ip addrs, resolved.answer = .ok (ip :: addrs) := by
    cases resolved with
    | noName => exact .inl ⟨EAI_NONAME, by decide, rfl⟩
    | fail => exact .inl ⟨EAI_FAIL, by decide, rfl⟩
    | found first rest => exact .inr ⟨first, rest, rfl⟩
  unfold resolve
  cases parseIpAddr spec.target.toList with
  | none => exact hanswer
  | some ip =>
    dsimp only
    split_ifs
    · exact .inr ⟨ip, [], rfl⟩
    · exact hanswer

theorem plainText_failed (met : Impl.Reports.Tls.Met) : ∀ i e, (ioOf met).connect i = .failed e → PlainText e := by
  intro i e h
  replace h : (met.connect i).connect = .failed e := h
  cases hconnect : met.connect i with
  | failed error =>
    rw [hconnect] at h
    cases h
    exact error.plain
  | connected =>
    rw [hconnect] at h
    cases h
  | timedOut =>
    rw [hconnect] at h
    cases h

theorem ends (spec : TlsJobSpec) (met : Impl.Reports.Tls.Met) : Ends spec met := by
  have houtcome : outcome spec met = (sslgetcert (Impl.Reports.Tls.config met spec) (ioOf met)).value := rfl
  unfold sslgetcert at houtcome
  have hresolve : resolve (Impl.Reports.Tls.config met spec).target (Impl.Reports.Tls.config met spec).af
      (ioOf met).answer = resolve spec.target spec.af met.resolved.answer := rfl
  rw [hresolve] at houtcome
  rcases resolve_cases spec met.resolved with ⟨e, he, h⟩ | ⟨ip, addrs, h⟩
  · have hno : ¬ RefusedAfterFailure spec met := by
      rintro ⟨addrs, hok, -⟩
      rw [h] at hok
      cases hok
    rw [h] at houtcome
    exact .dnsError e he houtcome hno
  · have hlater : RefusedAfterFailure spec met ↔
        RefusedLater (Impl.Reports.Tls.config met spec) (ioOf met).connect (ip :: addrs) := by
      constructor
      · rintro ⟨addrs', hok, hlater⟩
        rw [h] at hok
        cases hok
        exact hlater
      · exact fun hlater => ⟨_, h, hlater⟩
    rw [h] at houtcome
    dsimp only at houtcome
    by_cases hrefused : refuses (Impl.Reports.Tls.config met spec) ip = true
    · rw [connectTo_eq, if_pos hrefused] at houtcome
      refine .refused ip houtcome fun hlater' => ?_
      have hno := (hlater.mp hlater').1
      rw [hrefused] at hno
      cases hno
    · by_cases hconnect : (ioOf met).connect 0 = .connected
      · rw [connectTo_eq, if_neg hrefused, hconnect] at houtcome
        exact .answered ip houtcome fun hlater' => (hlater.mp hlater').2.1 hconnect
      · obtain ⟨result, hresult, hnext⟩ := connectTo_next addrs (plainText_failed met)
          hrefused hconnect none ""
        rw [hnext] at houtcome
        have hfrom : RefusedAfterFailure spec met ↔
            RefusedFrom (Impl.Reports.Tls.config met spec) (ioOf met).connect addrs 1 :=
          hlater.trans ⟨fun h => h.2.2, fun h => ⟨by simpa using hrefused, hconnect, h⟩⟩
        rcases connectTo_failed (plainText_failed met) addrs 1 ip hresult with ⟨h, ip, result, hresult, heq⟩ | ⟨h, ⟨ip, heq⟩ | ⟨ip, result, hresult, heq⟩⟩
        · exact .refusedLater ip result hresult (houtcome.trans heq) (hfrom.mpr h)
        · exact .answered ip (houtcome.trans heq) fun h' => h (hfrom.mp h')
        · exact .failed ip result hresult (houtcome.trans heq) fun h' => h (hfrom.mp h')

/-! ## Lines -/

def lineFields (msmId : UInt64) (spec : TlsJobSpec) (met : Impl.Reports.Tls.Met) : Fields :=
  match Impl.Reports.Tls.outcome spec met with
  | .dnsError _ => reportFields (Impl.Reports.Tls.env msmId spec met) false [("dnserr", Shape.IsString)]
  | .answered _ => answerFields (Impl.Reports.Tls.env msmId spec met) met.answer.event
  | .report dst result => reportFields (Impl.Reports.Tls.env msmId spec met) dst.isSome
    [(if result = NOT_ALLOWED then "error" else "err", Shape.IsString)]

theorem leads_failure {e : String} (he : PlainText e) (hs : List Hole) (ms : List (String × Shape)) :
    Leads ⟨hs, .member ms⟩ ("\"err\":\"connect: " ++ e ++ "\"") ⟨hs, .afterMember (ms ++ [("err", .string)])⟩ := by
  have hopen : Leads ⟨hs, .member ms⟩ "\"err\":\"connect: " ⟨hs, .string (.object ms "err") .plain⟩ := rfl
  exact (hopen.content he.isContent).append rfl

theorem ne_notAllowed {result : String} (h : Failure result) (rest : String) : result ++ rest ≠ NOT_ALLOWED := by
  obtain ⟨e, -, rfl⟩ := h
  intro heq
  have hlist := congrArg String.toList heq
  simp only [String.toList_append, List.append_assoc] at hlist
  cases hlist

/-- A refusal behind a failure: no comma is between the two. -/
theorem not_prescribed_refusedLater (env : Envelope) (gstart : Int) (dst : Option IpAddr) {result k : String}
    (hresult : Failure result) {fs : Fields} (lts : Int) :
    ¬ Prescribed (uploadedLine (reportBody env gstart dst (result ++ NOT_ALLOWED) .written) lts)
      (fs ++ [(k, Shape.IsString)]) := by
  obtain ⟨e, he, rfl⟩ := hresult
  have hlts : IsNumber LtsText.written.own.toList := ⟨.zero, rfl, rfl⟩
  have htail := leading_reportTail env dst
  have hmark : Unmarked (", " ++ (reportTail env dst ++ ("\"err\":\"connect: " ++ e ++ "\"" ++ NOT_ALLOWED))) := by
    have herror : Unmarked e := unmarked_of_plainText he
    simp only [unmarked_append]
    exact ⟨by decide, htail.not_mem isControl_mark, ⟨⟨by decide, herror⟩, by decide⟩, by decide⟩
  have hbroken : ∀ hs ms, feed ⟨hs, .afterMember ms⟩
      (", " ++ (reportTail env dst ++ ("\"err\":\"connect: " ++ e ++ "\"" ++ NOT_ALLOWED))).toList = none := by
    intro hs ms
    obtain ⟨ms', -, hleads⟩ := htail
    have hcomma : Leads ⟨hs, .afterMember ms⟩ ", " ⟨hs, .member ms⟩ := rfl
    have hall := (hcomma.append (hleads hs ms)).append (leads_failure he hs _)
    rw [← String.append_assoc, ← String.append_assoc, String.toList_append, feed_append,
      show feed _ _ = _ from hall]
    rfl
  have hparts : portText env ++ ", " ++ (reportTail env dst ++ ("\"err\":\"connect: " ++ e ++ "\"" ++ NOT_ALLOWED)) =
      portText env ++ (", " ++ (reportTail env dst ++ ("\"err\":\"connect: " ++ e ++ "\"" ++ NOT_ALLOWED))) :=
    String.append_assoc
  rw [reportBody_eq, hparts]
  have hpre := (leading_reportHead env gstart hlts).opensString (p := "\"dst_name\":\"") (k := "dst_name") fun _ _ => rfl
  exact not_prescribed_of_broken hpre (members_port env) (starts_port env) (delimited_append rfl) hmark hbroken not_isString_number

/-- The line of a run. -/
theorem prescribed_line_iff (msmId : UInt64) (spec : TlsJobSpec) (met : Impl.Reports.Tls.Met) (lts : Int) :
    Prescribed (uploadedLine (line msmId spec met .written) lts) (lineFields msmId spec met) ↔
      NameOk lts spec.target ∧ ¬ RefusedAfterFailure spec met := by
  unfold line lineFields
  dsimp only
  cases ends spec met with
  | dnsError e he h hno =>
    have hresult : Adds .member ("\"dnserr\":\"" ++ e ++ "\"") ([] ++ [("dnserr", Shape.IsString)]) :=
      .text (fun _ _ => rfl) he.isContent
    rw [h, and_iff_left hno]
    exact prescribed_report_iff _ _ none hresult not_isString_number lts
  | answered ip h hno =>
    rw [h, and_iff_left hno]
    exact prescribed_answer_iff _ met ip lts
  | refused ip h hno =>
    have hresult : Adds .member NOT_ALLOWED ([] ++ [("error", Shape.IsString)]) := .literal fun _ _ => rfl
    rw [h, and_iff_left hno]
    dsimp only
    rw [if_pos rfl]
    exact prescribed_report_iff _ _ (some ip) hresult not_isString_number lts
  | failed ip result hresult h hno =>
    have hne : result ≠ NOT_ALLOWED := by simpa using ne_notAllowed hresult ""
    rw [h, and_iff_left hno]
    dsimp only
    rw [if_neg hne]
    obtain ⟨e, he, rfl⟩ := hresult
    have hresult : Adds .member ("\"err\":\"connect: " ++ e ++ "\"") ([] ++ [("err", Shape.IsString)]) :=
      .literal (leads_failure he)
    exact prescribed_report_iff _ _ (some ip) hresult not_isString_number lts
  | refusedLater ip result hresult h hlater =>
    rw [h]
    refine iff_of_false ?_ fun hok => hok.2 hlater
    dsimp only
    rw [if_neg (ne_notAllowed hresult NOT_ALLOWED), reportFields, ← List.append_assoc, ← List.cons_append,
      ← List.append_assoc]
    exact not_prescribed_refusedLater _ _ (some ip) hresult lts

end Starla.Proof.Reports.Tls
