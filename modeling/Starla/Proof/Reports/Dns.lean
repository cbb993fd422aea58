import Mathlib.Tactic.Common
import Starla.Framework.JsonMembers
import Starla.Impl.Reports.Dns

/-!
# What a reply adds to evtdig's line

A reply is written as it is read. Whatever its bytes are, the text is one member
`result`, of one shape, that may lack the end of its `answers` array.

* `content_readName`, `strings_txtStrings` : bytes stay within their strings.
* `endsArray_writeAnswers` : the answers after the first.
* `writeResult_contained` : the member.
-/

namespace Starla.Proof.Reports.Dns

open Starla.Framework Starla.Framework.JsonText Starla.Impl.Reports Starla.Impl.Reports.Dns

/-! ## Shapes -/

def txtFields : Fields := [("TYPE", Shape.IsString), ("NAME", Shape.IsString), ("RDATA", Shape.ArrayOf Shape.IsString)]

def soaFields : Fields :=
  [("TYPE", Shape.IsString), ("NAME", Shape.IsString), ("TTL", Shape.IsNumber), ("MNAME", Shape.IsString),
    ("RNAME", Shape.IsString), ("SERIAL", Shape.IsNumber)]

def Answer (v : Shape) : Prop := v.ObjectOf txtFields ∨ v.ObjectOf soaFields

def headerFields : Fields :=
  [("ID", Shape.IsNumber), ("ANCOUNT", Shape.IsNumber), ("QDCOUNT", Shape.IsNumber), ("NSCOUNT", Shape.IsNumber),
    ("ARCOUNT", Shape.IsNumber)]

/-- The members of a result: with the query's time, the reply's bytes, its
header and its answers, or without them. -/
def resultFields (qt abuf header answers : Bool) : Fields :=
  [("rt", Shape.IsNumber)] ++ (if qt then [("qt", Shape.IsNumber)] else []) ++ [("size", Shape.IsNumber)] ++
    ((if abuf then [("abuf", Shape.IsString)] else []) ++
      ((if header then headerFields else []) ++ if answers then [("answers", Shape.ArrayOf Answer)] else []))

/-! ## Bytes within strings -/

/-- A text of printable characters that a string may hold. -/
structure Contained (s : String) : Prop where
  content : IsContent s.toList
  printable : PrintableText s

theorem Contained.append {a b : String} (ha : Contained a) (hb : Contained b) : Contained (a ++ b) := by
  refine ⟨?_, ha.printable.append hb.printable⟩
  rw [String.toList_append]
  exact ha.content.append hb.content

theorem contained_pushByte (b : UInt8) : Contained (pushByte b) := by
  unfold pushByte
  split_ifs with h
  · refine Contained.append ⟨by decide, by decide⟩ ⟨?_, printableText_zeroPadded 3 _⟩
    exact (plainText_zeroPadded 3 (plainText_toString _)).isContent
  · simp only [not_or, not_not, UInt8.le_iff_toNat_le, ← UInt8.toNat_inj] at h
    obtain ⟨hquote, hbackslash, hlo, hhi⟩ := h
    obtain ⟨hplain, hprint⟩ := plain_ofNat b.toNat (Nat.lt_succ_of_le hhi) hlo hquote hbackslash
    refine ⟨PlainText.isContent (plainText_ofList.mpr ?_), printableText_ofList.mpr ?_⟩
    · simpa using hplain
    · simpa using hprint

theorem contained_nil : Contained "" := ⟨rfl, rfl⟩

theorem contained_pushBytes (bytes : List UInt8) : Contained (pushBytes bytes) := by
  unfold pushBytes
  induction bytes with
  | nil => exact contained_nil
  | cons b bytes ih =>
    rw [List.map_cons, String.join_cons]
    exact (contained_pushByte b).append ih

theorem contained_dot (p : Nat) : Contained (if p > 0 then "." else "") := by
  split_ifs
  · exact ⟨rfl, rfl⟩
  · exact contained_nil

theorem contained_readNameFrom {base : List UInt8} {offset : Nat} {name : String} {count p : Nat} {jumped : Bool}
    {jumps : Nat} {r : String × Nat} (hname : Contained name)
    (hr : readNameFrom base offset name count p jumped jumps = some r) : Contained r.1 := by
  fun_induction readNameFrom base offset name count p jumped jumps with
  | case1 => cases hr
  | case2 => cases hr
  | case3 _ _ _ _ _ _ _ _ _ _ _ _ ih => exact ih hname hr
  | case4 => cases hr
  | case5 =>
    rename_i ih
    exact ih (hname.append ((contained_dot _).append (contained_pushBytes _))) hr
  | case6 =>
    cases hr
    exact hname

/-- A name's bytes stay within its string. -/
theorem contained_readName {base : List UInt8} {offset : Nat} {r : String × Nat} (hr : readName base offset = some r) :
    Contained r.1 := contained_readNameFrom contained_nil hr

/-- A TXT's strings, in an array whose last string is open. -/
theorem strings_txtStrings (left : Option Nat) (rdata : List UInt8) :
    ∃ vs, (∀ v ∈ vs, v.IsString) ∧ ∀ hs items,
      Leads ⟨hs, .string (.array items) .plain⟩ (txtStrings left rdata) ⟨hs, .string (.array (items ++ vs)) .plain⟩ := by
  fun_induction txtStrings left rdata with
  | case1 => exact ⟨[], by simp, fun hs items => by rw [List.append_nil]; exact Leads.refl⟩
  | case2 b rest ih => exact ih
  | case3 b rest ih =>
    obtain ⟨vs, hvs, hrest⟩ := ih
    refine ⟨.string :: vs, by simpa [Shape.IsString] using hvs, fun hs items => ?_⟩
    have hnext : Leads ⟨hs, .string (.array items) .plain⟩ "\", \"" ⟨hs, .string (.array (items ++ [.string])) .plain⟩ := rfl
    have hall := hnext.append (hrest hs _)
    rwa [List.append_assoc] at hall
  | case4 left b rest ih =>
    obtain ⟨vs, hvs, hrest⟩ := ih
    refine ⟨vs, hvs, fun hs items => ?_⟩
    exact Leads.append (feed_content (contained_pushByte b).content) (hrest hs items)

theorem printable_txtStrings (left : Option Nat) (rdata : List UInt8) : PrintableText (txtStrings left rdata) := by
  fun_induction txtStrings left rdata with
  | case1 => rfl
  | case2 b rest ih => exact ih
  | case3 b rest ih => exact printableText_append.mpr ⟨by decide, ih⟩
  | case4 left b rest ih => exact printableText_append.mpr ⟨(contained_pushByte b).printable, ih⟩

/-! ## Answers -/

/-- A TXT's strings are the member `RDATA`, after another. -/
theorem members_writeTxt (rdata : List UInt8) :
    Members (" , " ++ writeTxt rdata) [("RDATA", Shape.ArrayOf Shape.IsString)] := by
  obtain ⟨vs, hvs, hstrings⟩ := strings_txtStrings none rdata
  refine ⟨.inr (delimited_append rfl), [("RDATA", .array (vs ++ [.string]))], ?_, fun hs ms₀ => ?_⟩
  · refine .cons ⟨rfl, ?_⟩ .nil
    simpa [Shape.ArrayOf, Shape.IsString, or_imp, forall_and] using hvs
  · have hopen : Leads ⟨hs, .afterMember ms₀⟩ (" , " ++ "\"RDATA\" : [ \"")
        ⟨.object ms₀ "RDATA" :: hs, .string (.array []) .plain⟩ := rfl
    have hclose : Leads ⟨.object ms₀ "RDATA" :: hs, .string (.array vs) .plain⟩ "\" ] "
        ⟨hs, .afterMember (ms₀ ++ [("RDATA", .array (vs ++ [.string]))])⟩ := rfl
    have hall := (hopen.append (hstrings _ [])).append hclose
    rw [writeTxt, ← String.append_assoc, ← String.append_assoc]
    exact hall.settles

/-- What an answer's text comes after. -/
def answerLead (first : Bool) : String := if first then ",\"answers\" : [ " else ","

/-- An answer is one item of the answers' array. -/
structure IsAnswer (first : Bool) (text : String) : Prop where
  item : ∃ t, text = answerLead first ++ t ∧ ReadsAs t Answer ∧ PrintableText t

theorem isAnswer_txt (first : Bool) {name : String} (hname : Contained name) (rdata : List UInt8) :
    IsAnswer first ((if first then ",\"answers\" : [ \x7b" else ", \x7b") ++ "\"TYPE\" : \"TXT\" , \"NAME\" : \"" ++
      name ++ "\" , " ++ writeTxt rdata ++ "\x7d") := by
  have hopen : OpensString "\"TYPE\" : \"TXT\" , \"NAME\" : \"" [("TYPE", Shape.IsString)] "NAME" :=
    ⟨[("TYPE", .string)], .cons ⟨rfl, rfl⟩ .nil, fun _ _ => rfl⟩
  have hobject : ReadsAs ("\x7b" ++ ("\"TYPE\" : \"TXT\" , \"NAME\" : \"" ++ name ++ "\"" ++ (" , " ++ writeTxt rdata)) ++
      "\x7d") Answer := by
    refine ReadsAs.mono (readsAs_objectBetween (fun _ _ => rfl) ((hopen.text hname.content).append (members_writeTxt rdata))
      rfl fun _ _ _ => rfl) fun v hv => .inl hv
  have htxt : PrintableText (writeTxt rdata) := by
    have hhead : PrintableText "\"RDATA\" : [ \"" := by decide
    exact (hhead.append (printable_txtStrings none rdata)).append (by decide)
  have hprint : PrintableText ("\x7b" ++ ("\"TYPE\" : \"TXT\" , \"NAME\" : \"" ++ name ++ "\"" ++ (" , " ++ writeTxt rdata)) ++
      "\x7d") := by
    have hhead : PrintableText "\"TYPE\" : \"TXT\" , \"NAME\" : \"" := by decide
    have hname' : PrintableText ("\"TYPE\" : \"TXT\" , \"NAME\" : \"" ++ name ++ "\"") :=
      (hhead.append hname.printable).append (by decide)
    have hrdata : PrintableText (" , " ++ writeTxt rdata) := PrintableText.append (by decide) htxt
    exact (PrintableText.append (by decide) (hname'.append hrdata)).append (by decide)
  refine ⟨?_⟩
  cases first with
  | true =>
    refine ⟨_, ?_, hobject, hprint⟩
    simp [answerLead, ← String.toList_inj]
  | false =>
    refine ⟨_, ?_, hobject.blank, printableText_append.mpr ⟨by decide, hprint⟩⟩
    simp [answerLead, ← String.toList_inj]

/-- A name with its last dot. -/
theorem contained_rooted {name : String} (hname : Contained name) : Contained (name ++ ".") :=
  hname.append ⟨rfl, rfl⟩

theorem isAnswer_soa (first : Bool) {name mname rname : String} (hname : Contained name) (hmname : Contained mname)
    (hrname : Contained rname) (ttl serial : Nat) :
    IsAnswer first ((if first then ",\"answers\" : [ \x7b " else ",\x7b ") ++
      "\"TYPE\" : \"SOA\" , \"NAME\" : \"" ++ name ++ ".\" , \"TTL\" : " ++ toString ttl ++
      " , \"MNAME\" : \"" ++ mname ++ ".\" , \"RNAME\" : \"" ++ rname ++ ".\" , \"SERIAL\" : " ++
      toString serial ++ " \x7d ") := by
  have hopen : OpensString "\"TYPE\" : \"SOA\" , \"NAME\" : \"" [("TYPE", Shape.IsString)] "NAME" :=
    ⟨[("TYPE", .string)], .cons ⟨rfl, rfl⟩ .nil, fun _ _ => rfl⟩
  have httl : Members (" , \"TTL\" : " ++ toString ttl) [("TTL", Shape.IsNumber)] :=
    .value (fun _ _ => rfl) rfl (readsAs_number (isNumber_toString ttl))
  have hserial : Members (" , \"SERIAL\" : " ++ toString serial) [("SERIAL", Shape.IsNumber)] :=
    .value (fun _ _ => rfl) rfl (readsAs_number (isNumber_toString serial))
  have hm : Members (" , \"MNAME\" : \"" ++ (mname ++ ".") ++ "\"") [("MNAME", Shape.IsString)] :=
    .text (fun _ _ => rfl) rfl (contained_rooted hmname).content
  have hr : Members (" , \"RNAME\" : \"" ++ (rname ++ ".") ++ "\"") [("RNAME", Shape.IsString)] :=
    .text (fun _ _ => rfl) rfl (contained_rooted hrname).content
  have hmembers := (hopen.text (contained_rooted hname).content).append (httl.append (hm.append (hr.append hserial)))
  have hobject := readsAs_objectBetween (o := "\x7b ") (e := " \x7d ") (fun _ _ => rfl) hmembers rfl
    fun _ h _ => by cases h <;> rfl
  have hprintable : PrintableText ("\x7b " ++ ("\"TYPE\" : \"SOA\" , \"NAME\" : \"" ++ (name ++ ".") ++ "\"" ++
      (" , \"TTL\" : " ++ toString ttl ++ (" , \"MNAME\" : \"" ++ (mname ++ ".") ++ "\"" ++
        (" , \"RNAME\" : \"" ++ (rname ++ ".") ++ "\"" ++ (" , \"SERIAL\" : " ++ toString serial))))) ++ " \x7d ") := by
    have hrooted {p n : String} (hp : PrintableText p) (hn : Contained n) : PrintableText (p ++ (n ++ ".") ++ "\"") :=
      (hp.append (contained_rooted hn).printable).append (by decide)
    have hnumber {p : String} (hp : PrintableText p) (n : Nat) : PrintableText (p ++ toString n) :=
      hp.append (printableText_toString n)
    have hr' := (hrooted (p := " , \"RNAME\" : \"") (by decide) hrname).append
      (hnumber (p := " , \"SERIAL\" : ") (by decide) serial)
    have hm' := (hrooted (p := " , \"MNAME\" : \"") (by decide) hmname).append hr'
    have httl' := (hnumber (p := " , \"TTL\" : ") (by decide) ttl).append hm'
    have hall := (hrooted (p := "\"TYPE\" : \"SOA\" , \"NAME\" : \"") (by decide) hname).append httl'
    exact (PrintableText.append (by decide) hall).append (by decide)
  refine ⟨_, ?_, hobject.mono fun v hv => .inr hv, hprintable⟩
  cases first with
  | true => simp [answerLead, ← String.toList_inj]
  | false => simp [answerLead, ← String.toList_inj]

theorem isAnswer_txtAnswer {wire : List UInt8} {first : Bool} {rr : Rr} {text : String} {offset : Nat}
    (hname : Contained rr.name) (h : txtAnswer wire first rr = some (text, offset)) : IsAnswer first text := by
  unfold txtAnswer at h
  by_cases hend : rr.offset + rr.rdlen > wire.length
  · rw [if_pos hend] at h
    cases h
  · rw [if_neg hend] at h
    cases h
    exact isAnswer_txt first hname _

theorem isAnswer_soaAnswer {wire : List UInt8} {first : Bool} {rr : Rr} {text : String} {offset : Nat}
    (hname : Contained rr.name) (h : soaAnswer wire first rr = some (text, offset)) : IsAnswer first text := by
  obtain ⟨⟨mname, used⟩, hm, h⟩ := Option.bind_eq_some_iff.mp h
  obtain ⟨⟨rname, used'⟩, hr, h⟩ := Option.bind_eq_some_iff.mp h
  dsimp only at h
  by_cases hend : rr.offset + used + used' + 5 * 4 > wire.length
  · rw [if_pos hend] at h
    cases h
  · rw [if_neg hend] at h
    cases h
    exact isAnswer_soa first hname (contained_readName hm) (contained_readName hr) _ _

theorem contained_readRr {wire : List UInt8} {offset : Nat} {rr : Rr} (h : readRr wire offset = some rr) :
    Contained rr.name := by
  obtain ⟨⟨name, used⟩, hname, h⟩ := Option.bind_eq_some_iff.mp h
  dsimp only at h
  split_ifs at h
  cases h
  exact contained_readName hname

/-- An answer is put out and the next one read, or the reply ends or is skipped
over. -/
theorem writeAnswers_cases (wire : List UInt8) (left offset : Nat) (first : Bool) :
    writeAnswers wire (left + 1) offset first = "" ∨
      (∃ offset', writeAnswers wire (left + 1) offset first = writeAnswers wire left offset' first) ∨
      ∃ text offset', IsAnswer first text ∧
        writeAnswers wire (left + 1) offset first = text ++ writeAnswers wire left offset' false := by
  rw [writeAnswers]
  cases hrr : readRr wire offset with
  | none => exact .inl rfl
  | some rr =>
    have hname := contained_readRr hrr
    dsimp only
    split_ifs with htxt hsoa hend
    · cases h : txtAnswer wire first rr with
      | none => exact .inl rfl
      | some p => exact .inr (.inr ⟨p.1, p.2, isAnswer_txtAnswer hname h, rfl⟩)
    · cases h : soaAnswer wire first rr with
      | none => exact .inl rfl
      | some p => exact .inr (.inr ⟨p.1, p.2, isAnswer_soaAnswer hname h, rfl⟩)
    · exact .inl rfl
    · exact .inr (.inl ⟨_, rfl⟩)

/-- What a reply's answers lack: nothing, or the end of their array. -/
def Lacks (e : String) : Prop := e = "" ∨ e = " ]"

/-- The answers after one, and the end of their array. -/
theorem endsArray_writeAnswers (wire : List UInt8) (left offset : Nat) :
    ∃ e, Lacks e ∧ EndsArray (writeAnswers wire left offset false ++ e) Answer ∧
      PrintableText (writeAnswers wire left offset false) := by
  induction left generalizing offset with
  | zero => exact ⟨"", .inl rfl, .close, show PrintableText " ]" by decide⟩
  | succ left ih =>
    rcases writeAnswers_cases wire left offset false with h | ⟨offset', h⟩ | ⟨text, offset', htext, h⟩
    · rw [h]
      exact ⟨" ]", .inr rfl, .close, by decide⟩
    · rw [h]
      exact ih offset'
    · obtain ⟨e, he, hends, hprint⟩ := ih offset'
      obtain ⟨t, rfl, ht, htprint⟩ := htext
      refine ⟨e, he, ?_, ?_⟩
      · rw [h, String.append_assoc]
        exact .cons ht hends
      · rw [h, printableText_append, printableText_append]
        exact ⟨⟨by decide, htprint⟩, hprint⟩

/-- All answers, if there are any. -/
theorem members_writeAnswers (wire : List UInt8) (left offset : Nat) :
    ∃ e, ∃ answers : Bool, Lacks e ∧ Members (writeAnswers wire left offset true ++ e)
        (if answers then [("answers", Shape.ArrayOf Answer)] else []) ∧
      PrintableText (writeAnswers wire left offset true) := by
  have hnone : ∃ e, ∃ answers : Bool, Lacks e ∧ Members ("" ++ e)
      (if answers then [("answers", Shape.ArrayOf Answer)] else []) ∧ PrintableText "" :=
    ⟨"", false, .inl rfl, .nil, rfl⟩
  induction left generalizing offset with
  | zero => exact hnone
  | succ left ih =>
    rcases writeAnswers_cases wire left offset true with h | ⟨offset', h⟩ | ⟨text, offset', htext, h⟩
    · rw [h]
      exact hnone
    · rw [h]
      exact ih offset'
    · obtain ⟨e, he, hends, hprint⟩ := endsArray_writeAnswers wire left offset'
      obtain ⟨t, rfl, ht, htprint⟩ := htext
      refine ⟨e, true, he, ?_, ?_⟩
      · rw [h, String.append_assoc]
        exact .array (p := ",\"answers\" : [ ") (fun _ _ => rfl) rfl ht hends
      · rw [h, printableText_append, printableText_append]
        exact ⟨⟨by decide, htprint⟩, hprint⟩

/-! ## The result -/

/-- Members, and a count after them. -/
theorem members_count {a p k : String} {fs : Fields} (ha : Members a fs) (hp : Introduces .afterMember p k)
    (hdelimited : delimited p = true) (n : Nat) : Members (a ++ p ++ toString n) (fs ++ [(k, Shape.IsNumber)]) := by
  rw [String.append_assoc]
  exact ha.append (.value hp hdelimited (readsAs_number (isNumber_toString n)))

/-- What comes after the header's counts. -/
def answersText (wire : List UInt8) : String :=
  match dnsNamelen wire DNS_HEADER with
  | none => ""
  | some len =>
    if DNS_HEADER + len + 4 > wire.length ∨ word wire 6 = 0 then ""
    else writeAnswers wire (min (word wire 6) 2) (DNS_HEADER + len + 4) true

def headerText (wire : List UInt8) : String :=
  ",\"ID\" : " ++ toString (word wire 0) ++ " , \"ANCOUNT\" : " ++ toString (word wire 6) ++
    " , \"QDCOUNT\" : " ++ toString (word wire 4) ++ " , \"NSCOUNT\" : " ++ toString (word wire 8) ++
    " , \"ARCOUNT\" : " ++ toString (word wire 10)

theorem writeHeaderAndAnswers_eq (wire : List UInt8) :
    writeHeaderAndAnswers wire = if wire.length < DNS_HEADER then "" else headerText wire ++ answersText wire := rfl

theorem members_headerText (wire : List UInt8) : Members (headerText wire) headerFields := by
  have hid : Members (",\"ID\" : " ++ toString (word wire 0)) [("ID", Shape.IsNumber)] :=
    .value (fun _ _ => rfl) rfl (readsAs_number (isNumber_toString _))
  have han := members_count hid (p := " , \"ANCOUNT\" : ") (k := "ANCOUNT") (fun _ _ => rfl) rfl (word wire 6)
  have hqd := members_count han (p := " , \"QDCOUNT\" : ") (k := "QDCOUNT") (fun _ _ => rfl) rfl (word wire 4)
  have hns := members_count hqd (p := " , \"NSCOUNT\" : ") (k := "NSCOUNT") (fun _ _ => rfl) rfl (word wire 8)
  exact members_count hns (p := " , \"ARCOUNT\" : ") (k := "ARCOUNT") (fun _ _ => rfl) rfl (word wire 10)

theorem printable_headerText (wire : List UInt8) : PrintableText (headerText wire) := by
  have hcount {a p : String} (ha : PrintableText a) (hp : PrintableText p) (n : Nat) :
      PrintableText (a ++ p ++ toString n) := (ha.append hp).append (printableText_toString n)
  have hid : PrintableText (",\"ID\" : " ++ toString (word wire 0)) :=
    PrintableText.append (by decide) (printableText_toString _)
  have han := hcount hid (p := " , \"ANCOUNT\" : ") (by decide) (word wire 6)
  have hqd := hcount han (p := " , \"QDCOUNT\" : ") (by decide) (word wire 4)
  have hns := hcount hqd (p := " , \"NSCOUNT\" : ") (by decide) (word wire 8)
  exact hcount hns (p := " , \"ARCOUNT\" : ") (by decide) (word wire 10)

theorem members_answersText (wire : List UInt8) :
    ∃ e, ∃ answers : Bool, Lacks e ∧ Members (answersText wire ++ e)
        (if answers then [("answers", Shape.ArrayOf Answer)] else []) ∧ PrintableText (answersText wire) := by
  unfold answersText
  cases dnsNamelen wire DNS_HEADER with
  | none => exact ⟨"", false, .inl rfl, .nil, rfl⟩
  | some len =>
    dsimp only
    split_ifs
    · exact ⟨"", false, .inl rfl, .nil, rfl⟩
    · exact members_writeAnswers wire _ _

theorem members_writeHeaderAndAnswers (wire : List UInt8) :
    ∃ e, ∃ header answers : Bool, Lacks e ∧ Members (writeHeaderAndAnswers wire ++ e)
        ((if header then headerFields else []) ++ if answers then [("answers", Shape.ArrayOf Answer)] else []) ∧
      PrintableText (writeHeaderAndAnswers wire) := by
  rw [writeHeaderAndAnswers_eq]
  split_ifs
  · exact ⟨"", false, false, .inl rfl, .nil, rfl⟩
  · obtain ⟨e, answers, he, hmembers, hprint⟩ := members_answersText wire
    refine ⟨e, true, answers, he, ?_, printableText_append.mpr ⟨printable_headerText wire, hprint⟩⟩
    rw [String.append_assoc]
    exact (members_headerText wire).append hmembers

/-- The parts of a result's text, put together as they are written and as they
are read. -/
theorem result_assoc {l c r o k t m q s n b a w z : String} (hl : l = c ++ (r ++ (o ++ k))) (e : String) :
    l ++ t ++ m ++ q ++ s ++ n ++ b ++ a ++ w ++ z = c ++ (r ++ (o ++ (k ++ t ++ m ++ q ++ (s ++ n ++ b) ++ (a ++ w)))) ++ z ∧
      r ++ (o ++ (k ++ t ++ m ++ q ++ (s ++ n ++ b) ++ (a ++ w))) ++ e ++ z =
        r ++ (o ++ (k ++ t ++ m ++ q ++ (s ++ n ++ b) ++ (a ++ (w ++ e))) ++ z) := by
  subst hl
  simp only [String.append_assoc, and_self]

theorem printable_writeResult (wire : List UInt8) (rt : Fixed 3) (qt : Option (Fixed 3)) (abuf : Bool) :
    PrintableText (writeResult wire rt qt abuf) := by
  obtain ⟨-, -, -, -, -, hprint⟩ := members_writeHeaderAndAnswers wire
  have hbase64 : PrintableText (String.ofList (base64 wire)) :=
    printableText_ofList.mpr fun c hc => (isPlain_of_mem_base64 hc).2
  have hqt : PrintableText ((qt.map fun qt => "\"qt\" : " ++ qt.text ++ ",").getD "") := by
    cases qt with
    | none => rfl
    | some y => exact (PrintableText.append (by decide) (printableText_fixed y)).append (by decide)
  have habuf : PrintableText (if abuf then ", \"abuf\" : \"" ++ String.ofList (base64 wire) ++ "\"" else "") := by
    split_ifs
    · exact (PrintableText.append (by decide) hbase64).append (by decide)
    · rfl
  have hrt : PrintableText (",\"result\" : \x7b \"rt\" : " ++ rt.text ++ ",") :=
    (PrintableText.append (by decide) (printableText_fixed rt)).append (by decide)
  have hsize : PrintableText ("\"size\" : ") := by decide
  have hhead := (((hrt.append hqt).append hsize).append (printableText_toString wire.length)).append
    (show PrintableText " " by decide)
  exact ((hhead.append habuf).append hprint).append (by decide)

/-- The text for a reply is a comma and one member `result`, of a shape that no
byte of the reply changes but by how many answers and strings there are, and is
printable. A reply cut short may leave out the end of the answers. -/
theorem writeResult_contained (wire : List UInt8) (rt : Fixed 3) (qt : Option (Fixed 3)) (abuf : Bool) :
    PrintableText (writeResult wire rt qt abuf) ∧ ∃ x e, ∃ header answers : Bool,
      writeResult wire rt qt abuf = "," ++ x ++ " \x7d" ∧ Lacks e ∧
        ∃ v, read ("\x7b " ++ (x ++ e ++ " \x7d") ++ " \x7d").toList = some v ∧
          v.ObjectOf [("result", Shape.ObjectOf (resultFields qt.isSome abuf header answers))] := by
  obtain ⟨e, header, answers, he, hrest, -⟩ := members_writeHeaderAndAnswers wire
  have hrt : Leading ("\"rt\" : " ++ rt.text ++ ",") [("rt", Shape.IsNumber)] :=
    .of_adds_comma (.value (fun _ _ => rfl) (readsAs_number (isNumber_fixed rt)))
  have hqt : Leading ((qt.map fun qt => "\"qt\" : " ++ qt.text ++ ",").getD "")
      (if qt.isSome then [("qt", Shape.IsNumber)] else []) :=
    .getD_map fun y _ => .of_adds_comma (.value (fun _ _ => rfl) (readsAs_number (isNumber_fixed y)))
  have hsize : Adds .member ("\"size\" : " ++ toString wire.length ++ " ") [("size", Shape.IsNumber)] :=
    .blank (.value (fun _ _ => rfl) (readsAs_number (isNumber_toString _)))
  have habuf : Members (if abuf then ", \"abuf\" : \"" ++ String.ofList (base64 wire) ++ "\"" else "")
      (if abuf then [("abuf", Shape.IsString)] else []) := by
    refine .ite fun _ => .text (fun _ _ => rfl) rfl (PlainText.isContent (plainText_ofList.mpr fun c hc => ?_))
    exact (isPlain_of_mem_base64 hc).1
  have hobject := readsAs_object (((hrt.append hqt).append_adds hsize).append (habuf.append hrest))
  have hmember := Adds.value (m := .member) (p := "\"result\" : ") (k := "result") (fun _ _ => rfl) hobject
  obtain ⟨v, hread, hv⟩ := read_of_readsAs (readsAs_object hmember)
  have hhead : ",\"result\" : \x7b \"rt\" : " = "," ++ ("\"result\" : " ++ ("\x7b " ++ "\"rt\" : ")) := by decide
  obtain ⟨hwritten, hx⟩ := result_assoc hhead e
  exact ⟨printable_writeResult wire rt qt abuf, _, e, header, answers, hwritten, he, v,
    (congrArg (fun x => read ("\x7b " ++ x ++ " \x7d").toList) hx).trans hread, hv⟩

end Starla.Proof.Reports.Dns
