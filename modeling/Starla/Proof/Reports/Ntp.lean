import Starla.Impl.Reports.Ntp
import Starla.Proof.Reports.Http

/-!
# Lines of NTP queries

The target and the server's reference stand quoted, so that a run's line has its
members whatever they are.

* `readsAs_sampleEntry`, `members_header` : what the answers add.
* `adds_resultBody` : the members of the line.
-/

namespace Starla.Proof.Reports.Ntp

open Starla.Framework Starla.Framework.JsonText Starla.Impl.Measurements Starla.Impl.Reports
  Starla.Impl.Reports.Ntp Starla.Impl.Results Starla.Proof.Results

/-! ## Samples -/

def sampleFields : Fields :=
  [("origin-ts", Shape.IsNumber), ("receive-ts", Shape.IsNumber), ("transmit-ts", Shape.IsNumber),
    ("final-ts", Shape.IsNumber), ("rtt", Shape.IsNumber), ("offset", Shape.IsNumber)]

/-- A request that was answered, or one that was not. -/
def Entry (v : Shape) : Prop := v.ObjectOf sampleFields ∨ v.ObjectOf [("x", Shape.IsString)]

theorem readsAs_sampleEntry (s : Option Sample) : ReadsAs (sampleEntry s) Entry := by
  cases s with
  | none =>
    have hx : Adds .member "\"x\":\"*\"" [("x", Shape.IsString)] := .literal fun _ _ => rfl
    exact (readsAs_object hx).mono fun _ h => .inr h
  | some s =>
    have horigin : Adds .member ("\"origin-ts\":" ++ s.originTs.text) [("origin-ts", Shape.IsNumber)] :=
      .value (fun _ _ => rfl) (readsAs_number (isNumber_fixed _))
    have hreceive := horigin.andValue (p := ", \"receive-ts\":") (k := "receive-ts") (fun _ _ => rfl) rfl
      (readsAs_number (isNumber_fixed s.receiveTs))
    have htransmit := hreceive.andValue (p := ", \"transmit-ts\":") (k := "transmit-ts") (fun _ _ => rfl) rfl
      (readsAs_number (isNumber_fixed s.transmitTs))
    have hfinal := htransmit.andValue (p := ", \"final-ts\":") (k := "final-ts") (fun _ _ => rfl) rfl
      (readsAs_number (isNumber_fixed s.finalTs))
    have hrtt := hfinal.andValue (p := ", \"rtt\":") (k := "rtt") (fun _ _ => rfl) rfl
      (readsAs_number (isNumber_fixed s.rtt))
    have hoffset := hrtt.andValue (p := ", \"offset\":") (k := "offset") (fun _ _ => rfl) rfl
      (readsAs_number (isNumber_fixed s.offset))
    exact (readsAs_object hoffset).mono fun _ h => .inl h

/-! ## The server's header -/

def headerFields : Fields :=
  [("li", Shape.IsString), ("version", Shape.IsNumber), ("mode", Shape.IsString), ("stratum", Shape.IsNumber),
    ("poll", Shape.IsNumber), ("precision", Shape.IsNumber), ("root-delay", Shape.IsNumber),
    ("root-dispersion", Shape.IsNumber), ("ref-id", Shape.IsString), ("ref-ts", Shape.IsNumber)]

theorem plainText_liText (leap : UInt8) : PlainText (liText leap) := by
  unfold liText
  split_ifs <;> decide

theorem plainText_modeText (mode : UInt8) : PlainText (modeText mode) := by
  unfold modeText
  split_ifs <;> decide

theorem members_header (h : Header) : Members h.text headerFields := by
  have hli : Members (", \"li\":\"" ++ liText h.leap ++ "\"") [("li", Shape.IsString)] :=
    .text (fun _ _ => rfl) rfl (plainText_liText h.leap).isContent
  have hversion := hli.andValue (p := ", \"version\":") (k := "version") (fun _ _ => rfl) rfl
    (readsAs_number (isNumber_toString h.version.toNat))
  have hmode := hversion.andText (p := ", \"mode\":\"") (k := "mode") (fun _ _ => rfl) rfl
    (plainText_modeText h.mode).isContent
  have hstratum := hmode.andValue (p := ", \"stratum\":") (k := "stratum") (fun _ _ => rfl) rfl
    (readsAs_number (isNumber_toString h.stratum.toNat))
  have hpoll := hstratum.andValue (p := ", \"poll\":") (k := "poll") (fun _ _ => rfl) rfl
    (readsAs_number (isNumber_toString h.poll.toNat))
  have hprecision := hpoll.andValue (p := ", \"precision\":") (k := "precision") (fun _ _ => rfl) rfl
    (readsAs_number (isNumber_scientific h.precision))
  have hdelay := hprecision.andValue (p := ", \"root-delay\":") (k := "root-delay") (fun _ _ => rfl) rfl
    (readsAs_number (isNumber_shortest h.rootDelay))
  have hdispersion := hdelay.andValue (p := ", \"root-dispersion\":") (k := "root-dispersion") (fun _ _ => rfl) rfl
    (readsAs_number (isNumber_shortest h.rootDispersion))
  have hrefId := hdispersion.andValue (p := ", \"ref-id\":") (k := "ref-id") (fun _ _ => rfl) rfl
    (readsAs_quoted h.refId)
  exact hrefId.andValue (p := ", \"ref-ts\":") (k := "ref-ts") (fun _ _ => rfl) rfl
    (readsAs_number (isNumber_fixed h.refTs))

/-! ## Lines -/

def bodyFields (results : NtpResult) : Fields :=
  envelopeFields ++ [("time", Shape.IsNumber)] ++ [("dst_name", Shape.IsString)] ++ [("dst_addr", Shape.IsString)] ++
    [("src_addr", Shape.IsString)] ++ [("proto", Shape.IsString)] ++ [("af", Shape.IsNumber)] ++
    (if results.header.isSome then headerFields else []) ++ [("result", Shape.ArrayOf Entry)]

theorem adds_resultBody (msmId : UInt64) (dstName : String) (target : IpAddr) (srcAddr : Option IpAddr)
    (timestamp : Int) (results : NtpResult) {lts : LtsText} (hlts : IsNumber lts.own.toList) :
    Adds .member (resultBody msmId dstName target srcAddr timestamp results lts) (bodyFields results) := by
  have htime : Adds .member ("\"time\":" ++ toString timestamp) [("time", Shape.IsNumber)] :=
    .value (fun _ _ => rfl) (readsAs_number (isNumber_int timestamp))
  have hhead := (leading_envelope msmId.toNat hlts).append_adds htime
  have hname := hhead.andValue (p := ", \"dst_name\":") (k := "dst_name") (fun _ _ => rfl) rfl (readsAs_quoted dstName)
  have hdst := hname.andText (p := ", \"dst_addr\":\"") (k := "dst_addr") (fun _ _ => rfl) rfl
    (plainText_ipAddr target).isContent
  have hsrc := hdst.andText (p := ", \"src_addr\":\"") (k := "src_addr") (fun _ _ => rfl) rfl
    (plainText_addrText srcAddr).isContent
  have hproto : Members ", \"proto\":\"UDP\"" [("proto", Shape.IsString)] := .literal rfl fun _ _ => rfl
  have haf := (hsrc.append hproto).andValue (p := ", \"af\": ") (k := "af") (fun _ _ => rfl) rfl
    (readsAs_number (isNumber_toString (if target.isIpv4 then 4 else 6)))
  have hheader : Members ((results.header.map Header.text).getD "")
      (if results.header.isSome then headerFields else []) := .getD_map fun h _ => members_header h
  have hsamples : ∀ a ∈ results.samples.map sampleEntry, ReadsAs a Entry := by
    intro a ha
    obtain ⟨s, -, rfl⟩ := List.mem_map.mp ha
    exact readsAs_sampleEntry s
  exact (haf.append hheader).andValue (p := ", \"result\": ") (k := "result") (fun _ _ => rfl) rfl
    (readsAs_array hsamples)

end Starla.Proof.Reports.Ntp
