import Starla.Impl.Reports.Http
import Starla.Proof.Reports.Envelope

/-!
# Lines of HTTP fetches

Every text of the network's stands between the quotes of `quoted`, so that a
fetch's line has its members whatever it came to.

* `readsAs_quoted` : what `quoted` writes is a string.
* `adds_resultBody` : the members of the line.
-/

namespace Starla.Proof.Reports

open Starla.Framework Starla.Framework.JsonText Starla.Impl.Measurements Starla.Impl.Reports Starla.Impl.Results
  Starla.Proof.Results

/-! ## Quoting -/

theorem isHexDigit_digitChar {n : Nat} (hn : n < 16) : isHexDigit (Nat.digitChar n) = true := by
  interval_cases n <;> rfl

/-- A byte's four hexadecimal digits. -/
theorem hexText_byte {n : Nat} (hn : n < 256) :
    (hexText 4 n).toList = ['0', '0', Nat.digitChar (n / 16), Nat.digitChar (n % 16)] := by
  by_cases hsmall : n < 16
  · rw [hexText, Nat.toDigits_of_lt_base hsmall, zeroPadded, String.toList_append, String.toList_ofList,
      String.toList_ofList, Nat.div_eq_of_lt hsmall, Nat.mod_eq_of_lt hsmall]
    simp
  · have hdiv : n / 16 < 16 := by omega
    rw [hexText, Nat.toDigits_of_base_le (by decide) (by omega), Nat.toDigits_of_lt_base hdiv, zeroPadded,
      String.toList_append, String.toList_ofList, String.toList_ofList]
    simp

theorem content_quotedByte (b : UInt8) : IsContent (quotedByte b) := by
  unfold quotedByte
  split_ifs with hescape hprint
  · rcases hescape with rfl | rfl <;> decide
  · simp only [UInt8.le_iff_toNat_le] at hprint
    simp only [not_or, ← UInt8.toNat_inj] at hescape
    have hplain := (plain_ofNat b.toNat (Nat.lt_succ_of_le hprint.2) hprint.1 hescape.1 hescape.2).1
    exact isContent_of_plain (by simpa using hplain)
  · have hn : b.toNat < 256 := b.toNat_lt
    have hhi := isHexDigit_digitChar (show b.toNat / 16 < 16 by omega)
    have hlo := isHexDigit_digitChar (show b.toNat % 16 < 16 by omega)
    have hzero : isHexDigit '0' = true := rfl
    rw [hexText_byte hn]
    simp [IsContent, Within.next, hhi, hlo, hzero]

theorem content_quotedText (s : String) : IsContent (quotedText s).toList := by
  rw [quotedText, String.toList_ofList]
  induction s.toUTF8.data.toList with
  | nil => rfl
  | cons b bytes ih => exact (content_quotedByte b).append ih

/-- Whatever a text is, quoted it is a string. -/
theorem readsAs_quoted (s : String) : ReadsAs (quoted s) Shape.IsString := readsAs_string (content_quotedText s)

namespace Http

open Starla.Impl.Reports.Http

/-! ## Entries -/

def doneFields : Fields :=
  [("rt", Shape.IsNumber), ("res", Shape.IsNumber), ("ver", Shape.IsString), ("hsize", Shape.IsNumber),
    ("bsize", Shape.IsNumber)]

/-- The members of the result's entry. -/
def entryFields (out : RawHttpOutcome) : Fields :=
  (if out.header.isSome then [("header", Shape.ArrayOf Shape.IsString)] else []) ++
    (if out.err.isSome then [("err", Shape.IsString)] else []) ++
    [("method", Shape.IsString), ("af", Shape.IsNumber)] ++
    (if out.dstAddr.isSome then [("dst_addr", Shape.IsString)] else []) ++
    (if out.srcAddr.isSome then [("src_addr", Shape.IsString)] else []) ++ if out.done.isSome then doneFields else []

def bodyFields (out : RawHttpOutcome) : Fields :=
  envelopeFields ++ [("time", Shape.IsNumber)] ++ (if out.ttr.isSome then [("ttr", Shape.IsNumber)] else []) ++
    [("result", Shape.ArrayOf (Shape.ObjectOf (entryFields out)))]

theorem plainText_version (ver : Version) : PlainText ver.text := by
  cases ver with
  | parsed major minor =>
    simp only [Version.text, plainText_append]
    exact ⟨⟨plainText_toString _, by decide⟩, plainText_toString _⟩
  | _ => decide

theorem members_done (r : Response) : Members r.fields doneFields := by
  have hrt : Members (", \"rt\":" ++ r.rt.text) [("rt", Shape.IsNumber)] :=
    .value (fun _ _ => rfl) rfl (readsAs_number (isNumber_fixed r.rt))
  have hres := hrt.andValue (p := ", \"res\":") (k := "res") (fun _ _ => rfl) rfl
    (readsAs_number (isNumber_toString r.res.toNat))
  have hver := hres.andText (p := ", \"ver\":\"") (k := "ver") (fun _ _ => rfl) rfl (plainText_version r.ver).isContent
  have hhsize := hver.andValue (p := ", \"hsize\":") (k := "hsize") (fun _ _ => rfl) rfl
    (readsAs_number (isNumber_toString r.hsize))
  exact hhsize.andValue (p := ", \"bsize\":") (k := "bsize") (fun _ _ => rfl) rfl
    (readsAs_number (isNumber_toString r.bsize))

theorem adds_entry (out : RawHttpOutcome) : Adds .member (entry out) (entryFields out) := by
  have hheader : Leading ((out.header.map fun lines => "\"header\": " ++
      ("[" ++ spaced true (lines.map quoted) ++ " ]") ++ ", ").getD "")
      (if out.header.isSome then [("header", Shape.ArrayOf Shape.IsString)] else []) := by
    refine .getD_map fun lines _ => .of_adds (.value (fun _ _ => rfl) ?_)
    have hlines : ∀ a ∈ lines.map quoted, ReadsAs a Shape.IsString := by
      intro a ha
      obtain ⟨line, -, rfl⟩ := List.mem_map.mp ha
      exact readsAs_quoted line
    exact String.append_assoc.symm ▸ readsAs_spaced hlines
  have herr : Leading ((out.err.map fun err => "\"err\":" ++ quoted err ++ ", ").getD "")
      (if out.err.isSome then [("err", Shape.IsString)] else []) :=
    .getD_map fun err _ => .of_adds (.value (fun _ _ => rfl) (readsAs_quoted err))
  have hget : Adds .member "\"method\":\"GET\"" [("method", Shape.IsString)] := .literal fun _ _ => rfl
  have hmethod := hget.andValue (p := ", \"af\": ") (k := "af") (fun _ _ => rfl) rfl
    (readsAs_number (isNumber_toString out.af.toNat))
  have hdst : Members ((out.dstAddr.map fun dst => ", \"dst_addr\":\"" ++ dst.text ++ "\"").getD "")
      (if out.dstAddr.isSome then [("dst_addr", Shape.IsString)] else []) :=
    .getD_map fun dst _ => .text (fun _ _ => rfl) rfl (plainText_ipAddr dst).isContent
  have hsrc : Members ((out.srcAddr.map fun src => ", \"src_addr\":\"" ++ src.text ++ "\"").getD "")
      (if out.srcAddr.isSome then [("src_addr", Shape.IsString)] else []) :=
    .getD_map fun src _ => .text (fun _ _ => rfl) rfl (plainText_ipAddr src).isContent
  have hdone : Members ((out.done.map Response.fields).getD "") (if out.done.isSome then doneFields else []) :=
    .getD_map fun r _ => members_done r
  exact ((((hheader.append herr).append_adds hmethod).append hdst).append hsrc).append hdone

/-! ## Lines -/

theorem adds_resultBody (msmId : UInt64) (gstart : Int) (out : RawHttpOutcome) {lts : LtsText}
    (hlts : IsNumber lts.own.toList) : Adds .member (resultBody msmId gstart out lts) (bodyFields out) := by
  have htime : Leading ("\"time\":" ++ toString gstart ++ ", ") [("time", Shape.IsNumber)] :=
    .of_adds (.value (fun _ _ => rfl) (readsAs_number (isNumber_int gstart)))
  have httr : Leading ((out.ttr.map fun ttr => "\"ttr\":" ++ ttr.text ++ ", ").getD "")
      (if out.ttr.isSome then [("ttr", Shape.IsNumber)] else []) :=
    .getD_map fun ttr _ => .of_adds (.value (fun _ _ => rfl) (readsAs_number (isNumber_fixed ttr)))
  have hresult : ReadsAs ("[ " ++ ("\x7b " ++ entry out ++ " \x7d") ++ " ]")
      (Shape.ArrayOf (Shape.ObjectOf (entryFields out))) := readsAs_singleton (readsAs_object (adds_entry out))
  exact (((leading_envelope msmId.toNat hlts).append htime).append httr).append_adds
    (.value (p := "\"result\":") (k := "result") (fun _ _ => rfl) hresult)

end Http

end Starla.Proof.Reports
