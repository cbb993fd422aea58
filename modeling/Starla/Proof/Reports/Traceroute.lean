import Starla.Proof.Controller.Evtraceroute
import Starla.Proof.Reports.Hops

/-!
# Lines of traceroutes

A traceroute's line has its members if the target's name can stand in a string,
and the bundle, which is digits, is a number.

* `prescribed_body_iff` : a line with whatever it has between the name and the
  protocol.
* `prescribed_line_iff` : the line of a run.
-/

namespace Starla.Proof.Reports.Traceroute

open Starla.Framework Starla.Framework.JsonText Starla.Impl.Controller Starla.Impl.Measurements Starla.Impl.Reports
  Starla.Impl.Reports.Traceroute Starla.Impl.Results Starla.Impl.Scheduler Starla.Proof.Results
open Starla.Proof.Controller (DigitBundle)

/-! ## Bundles -/

/-- Digits that are not a number are not read as a member's value. -/
theorem feed_digits_eq_none {cs : List Char} (hcs : ∀ c ∈ cs, c.isDigit = true) (hnumber : ¬ IsNumber cs)
    (hs : List Hole) (h : Hole) : feed ⟨hs, .value h⟩ (cs ++ [',', ' ']) = none := by
  cases cs with
  | nil => rfl
  | cons c cs =>
    have hc := hcs c List.mem_cons_self
    by_cases hzero : c = '0'
    · subst hzero
      cases cs with
      | nil => exact absurd ⟨.zero, rfl, rfl⟩ hnumber
      | cons d cs =>
        have hd := hcs d (by simp)
        have hne : ∀ e, e.isDigit = false → d ≠ e := fun e => ne_of_isDigit hd
        have hnext : Numeral.zero.next d = none := by
          simp [Numeral.next, hne '.' rfl, hne 'e' rfl, hne 'E' rfl]
        have hstop : State.next ⟨hs, .number h .zero⟩ d = none := by
          simp only [State.next, hnext, Numeral.ends, if_true]
          exact nextAfter_of_isLetter (isLetter_of_isDigit hd) _
        have hfirst : State.next ⟨hs, .value h⟩ '0' = some ⟨hs, .number h .zero⟩ := next_value_number rfl
        rw [List.cons_append, feed_cons, hfirst, Option.bind_some, List.cons_append, feed_cons, hstop]
        rfl
    · refine absurd ⟨.int, ?_, rfl⟩ hnumber
      have hfirst : Numeral.start.next c = some .int := by
        simp [Numeral.next, hc, hzero, ne_of_isDigit hc (d := '-') rfl]
      show (Numeral.start.next c).bind (fun n => cs.foldlM Numeral.next n) = some .int
      rw [hfirst]
      exact foldlM_next_of_digits (fun c => next_int) fun d hd => hcs d (List.mem_cons_of_mem _ hd)

/-! ## Lines -/

def headFields (opts : TracerouteOptions) : Fields :=
  envelopeFields ++ [("time", Shape.IsNumber)] ++ [("endtime", Shape.IsNumber)] ++
    if opts.bundle.isSome then [("bundle", Shape.IsNumber)] else []

/-- The members after the name, of which `addrs` are those before the protocol. -/
def tailFields (ttr : Bool) (addrs : Fields) (paris : Bool) : Fields :=
  (if ttr then [("ttr", Shape.IsNumber)] else []) ++ addrs ++ [("proto", Shape.IsString)] ++ [("af", Shape.IsNumber)] ++
    [("size", Shape.IsNumber)] ++ if paris then [("paris_id", Shape.IsNumber)] else []

def bodyFields (opts : TracerouteOptions) (ttr : Bool) (addrs : Fields) (paris : Bool) (P : Shape → Prop) : Fields :=
  headFields opts ++ ("dst_name", Shape.IsString) :: (tailFields ttr addrs paris ++ [("result", Shape.ArrayOf P)])

/-- A bundle's digits are a number. -/
def NumberBundle (opts : TracerouteOptions) : Prop := ∀ b, opts.bundle = some b → IsNumber b.toList

/-- What a line has before the bundle. -/
def timesText (c : Config) (time endtime : Int) (lts : LtsText) : String :=
  envelope (toString c.msmId.toNat) lts ++ "\"time\":" ++ toString time ++ ", \"endtime\":" ++ toString endtime ++ ", "

theorem leading_times (c : Config) (time endtime : Int) {lts : LtsText} (hlts : IsNumber lts.own.toList) :
    Leading (timesText c time endtime lts)
      (envelopeFields ++ [("time", Shape.IsNumber)] ++ [("endtime", Shape.IsNumber)]) := by
  have htime : Adds .member ("\"time\":" ++ toString time) [("time", Shape.IsNumber)] :=
    .value (fun _ _ => rfl) (readsAs_number (isNumber_int time))
  have hboth := ((leading_envelope c.msmId.toNat hlts).append_adds htime).andValue (p := ", \"endtime\":") (k := "endtime")
    (fun _ _ => rfl) rfl (readsAs_number (isNumber_int endtime))
  rw [← String.append_assoc] at hboth
  exact .of_adds hboth

theorem leading_head (c : Config) (time endtime : Int) {lts : LtsText} (hlts : IsNumber lts.own.toList)
    (hbundle : NumberBundle c.opts) : Leading (c.head time endtime lts) (headFields c.opts) :=
  (leading_times c time endtime hlts).append
    (.getD_map fun b hb => .of_adds (.value (fun _ _ => rfl) (readsAs_number (hbundle b hb))))

theorem members_tail (c : Config) {addrs : String} {afs : Fields} (haddrs : Members addrs afs) (paris : Option UInt16)
    {result : String} {P : Shape → Prop} (hresult : ReadsAs result (Shape.ArrayOf P)) :
    Members (ttrText c.dstName.ttr ++ addrs ++ c.tail paris result)
      (tailFields c.dstName.ttr.isSome afs paris.isSome ++ [("result", Shape.ArrayOf P)]) := by
  have hproto : PlainText (protoText c.opts.protocol) := by cases c.opts.protocol <;> decide
  have hhead := ((members_ttr c.dstName.ttr).append haddrs).andText (p := ", \"proto\":\"") (k := "proto") (fun _ _ => rfl)
    rfl hproto.isContent
  have haf := hhead.andValue (p := ", \"af\": ") (k := "af") (fun _ _ => rfl) rfl (readsAs_number (isNumber_toString c.af))
  have hsize := haf.andValue (p := ", \"size\":") (k := "size") (fun _ _ => rfl) rfl
    (readsAs_number (isNumber_toString c.opts.size.toNat))
  have hparis : Members ((paris.map fun p => ", \"paris_id\":" ++ toString p.toNat).getD "")
      (if paris.isSome then [("paris_id", Shape.IsNumber)] else []) :=
    .getD_map fun p _ => .value (fun _ _ => rfl) rfl (readsAs_number (isNumber_toString _))
  have hall : Members _ (tailFields c.dstName.ttr.isSome afs paris.isSome ++ [("result", Shape.ArrayOf P)]) :=
    (hsize.append hparis).andValue (p := ", \"result\": ") (k := "result") (fun _ _ => rfl) rfl hresult
  unfold Config.tail
  simpa only [String.append_assoc] using hall

theorem starts_tail (c : Config) {addrs : String} (haddrs : addrs = "" ∨ StartsMember addrs) (paris : Option UInt16)
    (result : String) : StartsMember (ttrText c.dstName.ttr ++ addrs ++ c.tail paris result) := by
  have hproto : StartsMember ", \"proto\":\"" := ⟨'p', ['r', 'o', 't', 'o'], ['"'], rfl, rfl, rfl⟩
  have htail : StartsMember (c.tail paris result) := by
    unfold Config.tail
    simp only [String.append_assoc]
    exact hproto.append
  rw [String.append_assoc]
  refine startsMember_ttr _ ?_
  rcases haddrs with rfl | haddrs
  · rwa [String.empty_append]
  · exact haddrs.append

/-- A line is read with its members exactly when the target's name, its marks
filled, can stand in a string, and the bundle is a number. -/
theorem prescribed_body_iff (c : Config) (time endtime : Int) {addrs : String} {afs : Fields} (haddrs : Members addrs afs)
    (hstarts : addrs = "" ∨ StartsMember addrs) (paris : Option UInt16) {result : String} {P : Shape → Prop}
    (hresult : ReadsAs result (Shape.ArrayOf P)) (hdigits : DigitBundle c.opts) (lts : Int) :
    Prescribed (uploadedLine (c.head time endtime .written ++ c.dstName.fields ++ addrs ++ c.tail paris result) lts)
      (bodyFields c.opts c.dstName.ttr.isSome afs paris.isSome P) ↔ NameOk lts c.dstName.name ∧ NumberBundle c.opts := by
  have hlts : IsNumber LtsText.written.own.toList := ⟨.zero, rfl, rfl⟩
  by_cases hbundle : NumberBundle c.opts
  · have hbody : c.head time endtime .written ++ c.dstName.fields ++ addrs ++ c.tail paris result =
        (c.head time endtime .written ++ "\"dst_name\":\"") ++ c.dstName.name ++ "\"" ++
          (ttrText c.dstName.ttr ++ addrs ++ c.tail paris result) := by
      simp only [DstName.fields, ttrText, String.append_assoc]
    rw [hbody, and_iff_left hbundle]
    exact prescribed_around_iff ((leading_head c time endtime hlts hbundle).opensString fun _ _ => rfl)
      (members_tail c haddrs paris hresult) (starts_tail c hstarts paris result) id
  · refine iff_of_false ?_ fun h => hbundle h.2
    obtain ⟨b, hb, hnumber⟩ : ∃ b, c.opts.bundle = some b ∧ ¬ IsNumber b.toList := by
      simpa [NumberBundle] using hbundle
    have htimes := leading_times c time endtime hlts
    have hhead : c.head time endtime .written = timesText c time endtime .written ++ ("\"bundle\":" ++ b ++ ", ") := by
      rw [Config.head, hb]
      rfl
    have hmark : Unmarked (c.head time endtime .written) := by
      have hdigit : Unmarked b := fun h => by
        have hc := hdigits b hb _ h
        cases hc
      rw [hhead]
      simp only [unmarked_append]
      exact ⟨htimes.not_mem isControl_mark, ⟨by decide, hdigit⟩, by decide⟩
    have hbroken : feed ⟨[.root], .member []⟩ (c.head time endtime .written).toList = none := by
      obtain ⟨ms, -, hleads⟩ := htimes
      have hname : Leads ⟨[.root], .member ([] ++ ms)⟩ "\"bundle\":" ⟨[.root], .value (.object ([] ++ ms) "bundle")⟩ := rfl
      have hto := (hleads [.root] []).append hname
      have hparts : c.head time endtime .written =
          timesText c time endtime .written ++ "\"bundle\":" ++ (b ++ ", ") := by
        rw [hhead]
        simp only [String.append_assoc]
      rw [hparts, String.toList_append, feed_append, show feed _ _ = _ from hto, Option.bind_some, String.toList_append]
      exact feed_digits_eq_none (hdigits b hb) hnumber _ _
    have hrest : c.head time endtime .written ++ c.dstName.fields ++ addrs ++ c.tail paris result =
        c.head time endtime .written ++ (c.dstName.fields ++ addrs ++ c.tail paris result) := by
      simp only [String.append_assoc]
    rw [hrest]
    exact not_prescribed_of_broken_start hmark hbroken

/-! ## Runs -/

/-- The members of a run's line. -/
def lineFields (spec : TracerouteJobSpec) (met : Impl.Reports.Traceroute.Met) : Fields :=
  let fields := bodyFields spec.opts met.lookup.ttr.isSome
  match met.lookup.addr with
  | .ok addr =>
    if addressAllowed met.var addr then
      fields [("dst_addr", Shape.IsString), ("src_addr", Shape.IsString)] (parisId spec.opts (met.runs + 1)).isSome
        HopShape
    else
      fields [("dst_addr", Shape.IsString)] (parisId spec.opts met.runs).isSome (Shape.ObjectOf errorFields)
  | .error _ => fields [] (parisId spec.opts met.runs).isSome (Shape.ObjectOf errorFields)

theorem plainText_lookupFailedText (error : LookupError) : PlainText (lookupFailedText error) := by
  cases error <;> decide

theorem resultBody_eq (c : Config) (time endtime : Int) (srcAddr : Option IpAddr) (paris : Option UInt16)
    (hops : List Impl.Traceroute.Hop) (lts : LtsText) :
    c.resultBody time endtime srcAddr paris hops lts = c.head time endtime lts ++ c.dstName.fields ++
      (", \"dst_addr\":\"" ++ c.target.text ++ "\"" ++ ", \"src_addr\":\"" ++ addrText srcAddr ++ "\"") ++
        c.tail paris (Impl.Traceroute.renderHops IpAddr.text hops) := by
  unfold Config.resultBody
  simp only [String.append_assoc]

/-- The line of a run. -/
theorem prescribed_line_iff (msmId : UInt64) (spec : TracerouteJobSpec) (met : Impl.Reports.Traceroute.Met) (hdigits : DigitBundle spec.opts)
    (lts : Int) :
    Prescribed (uploadedLine (line msmId spec met .written) lts) (lineFields spec met) ↔
      NameOk lts spec.target ∧ NumberBundle spec.opts := by
  have hdst (addr : IpAddr) : Members (", \"dst_addr\":\"" ++ addr.text ++ "\"") [("dst_addr", Shape.IsString)] :=
    .text (fun _ _ => rfl) rfl (plainText_ipAddr addr).isContent
  have hstarts (addr : IpAddr) : StartsMember (", \"dst_addr\":\"" ++ addr.text ++ "\"") := by
    have hname : StartsMember ", \"dst_addr\":\"" := ⟨'d', ['s', 't', '_', 'a', 'd', 'd', 'r'], ['"'], rfl, rfl, rfl⟩
    exact hname.append.append
  have herror {error : String} (herror : PlainText error) :
      ReadsAs ("[ " ++ errorEntry error ++ " ]") (Shape.ArrayOf (Shape.ObjectOf errorFields)) :=
    readsAs_singleton (readsAs_errorEntry herror)
  unfold line lineFields
  dsimp only
  cases met.lookup.addr with
  | error error =>
    exact prescribed_body_iff ⟨msmId, familyOf spec.af, spec.opts, ⟨spec.target, met.lookup.ttr⟩⟩ met.time met.time .nil
      (.inl rfl) (parisId spec.opts met.runs) (herror (plainText_lookupFailedText error)) hdigits lts
  | ok addr =>
    dsimp only
    split_ifs
    · have haddrs := (hdst addr).andText (p := ", \"src_addr\":\"") (k := "src_addr") (fun _ _ => rfl) rfl
        (plainText_addrText met.srcAddr).isContent
      rw [resultBody_eq]
      exact prescribed_body_iff ⟨msmId, addr, spec.opts, ⟨spec.target, met.lookup.ttr⟩⟩ met.time met.endtime haddrs
        (.inr (hstarts addr).append.append.append) (parisId spec.opts (met.runs + 1)) (readsAs_run met.since _ _ met.run)
        hdigits lts
    · exact prescribed_body_iff ⟨msmId, addr, spec.opts, ⟨spec.target, met.lookup.ttr⟩⟩ met.time met.time (hdst addr)
        (.inr (hstarts addr)) (parisId spec.opts met.runs) (herror (by decide)) hdigits lts

end Starla.Proof.Reports.Traceroute
