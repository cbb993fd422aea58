import Starla.Impl.Reports.Traceroute
import Starla.Proof.Reports.Envelope
import Starla.Proof.Traceroute.Engine

/-!
# The hops of a traceroute's line

Whatever the sockets bring, a run renders an array of hops: a reply's texts are
its address, the flags and options of a segment and the extensions of an error.

* `texts_parseReply` : what a packet is read as.
* `readsAs_entry`, `readsAs_hop` : what is written of it.
* `traceTexts_step`, `readsAs_run` : a run's hops.
-/

namespace Starla.Proof.Reports.Traceroute

open Starla.Framework Starla.Framework.JsonText Starla.Impl.Controller Starla.Impl.Measurements Starla.Impl.Reports
  Starla.Impl.Reports.Traceroute Starla.Impl.Results Starla.Impl.Traceroute Starla.Proof.Results

/-! ## What a reply quotes -/

def labelFields : Fields :=
  [("label", Shape.IsNumber), ("exp", Shape.IsNumber), ("s", Shape.IsNumber), ("ttl", Shape.IsNumber)]

def objectChoices : Choices :=
  [(true, "class", Shape.IsNumber), (true, "type", Shape.IsNumber),
    (false, "mpls", Shape.ArrayOf (Shape.ObjectOf labelFields))]

def extensionFields : Fields :=
  [("version", Shape.IsNumber), ("rfc4884", Shape.IsNumber), ("obj", Shape.ArrayOf (Shape.ObjectFrom objectChoices))]

/-- The labels of a stack are items of an array. -/
theorem mplsEntries_spaced (first : Bool) (p : List UInt8) :
    ∃ texts, mplsEntries first p = spaced first texts ∧ ∀ a ∈ texts, ReadsAs a (Shape.ObjectOf labelFields) := by
  fun_induction mplsEntries first p with
  | case1 first a b c d rest v ih =>
    obtain ⟨texts, htexts, hreads⟩ := ih
    have hlabel : Adds .member ("\"label\":" ++ toString (v / 4096)) [("label", Shape.IsNumber)] :=
      .value (fun _ _ => rfl) (readsAs_number (isNumber_toString _))
    have hexp := hlabel.andValue (p := ", \"exp\":") (k := "exp") (fun _ _ => rfl) rfl
      (readsAs_number (isNumber_toString (v / 512 % 8)))
    have hs := hexp.andValue (p := ", \"s\":") (k := "s") (fun _ _ => rfl) rfl
      (readsAs_number (isNumber_toString (v / 256 % 2)))
    have httl := hs.andValue (p := ", \"ttl\":") (k := "ttl") (fun _ _ => rfl) rfl
      (readsAs_number (isNumber_toString (v % 256)))
    refine ⟨_ :: texts, ?_, List.forall_mem_cons.mpr ⟨readsAs_object httl, hreads⟩⟩
    rw [spaced, ← htexts, show " \x7b \"label\":" = " " ++ ("\x7b " ++ "\"label\":") from rfl]
    simp only [String.append_assoc]
  | case2 => exact ⟨[], rfl, by simp⟩

theorem members_mpls (p : List UInt8) :
    Members (mpls p) [("mpls", Shape.ArrayOf (Shape.ObjectOf labelFields))] := by
  obtain ⟨texts, htexts, hreads⟩ := mplsEntries_spaced true p
  have h : Members (", \"mpls\": " ++ ("[" ++ (spaced true texts ++ " ]"))) _ :=
    .value (k := "mpls") (fun _ _ => rfl) rfl (readsAs_spaced hreads)
  rwa [mpls, htexts, show ", \"mpls\": [" = ", \"mpls\": " ++ "[" from rfl, String.append_assoc, String.append_assoc]

/-- The text of an object, its labels as far as it has any. -/
theorem readsAs_icmpObject (cls ctype : UInt8) {labels : String} (hlabels : AddsFrom labels
      [(false, "mpls", Shape.ArrayOf (Shape.ObjectOf labelFields))]) :
    ReadsAs ("\x7b " ++ ("\"class\":" ++ toString cls.toNat ++ ", \"type\":" ++ toString ctype.toNat ++ labels) ++
      " \x7d") (Shape.ObjectFrom objectChoices) := by
  have hclass : Adds .member ("\"class\":" ++ toString cls.toNat) [("class", Shape.IsNumber)] :=
    .value (fun _ _ => rfl) (readsAs_number (isNumber_toString _))
  have htype := hclass.andValue (p := ", \"type\":") (k := "type") (fun _ _ => rfl) rfl
    (readsAs_number (isNumber_toString ctype.toNat))
  exact readsAs_objectFrom ⟨_, .take (.take .nil), htype⟩ hlabels

theorem icmpObjects_spaced (first : Bool) (p : List UInt8) :
    ∃ texts, icmpObjects first p = spaced first texts ∧ ∀ a ∈ texts, ReadsAs a (Shape.ObjectFrom objectChoices) := by
  have hopen : " \x7b \"class\":" = " " ++ ("\x7b " ++ "\"class\":") := rfl
  fun_induction icmpObjects first p with
  | case1 => exact ⟨[], rfl, by simp⟩
  | case2 first p hlen len cls ctype head hbad =>
    refine ⟨[_], ?_, List.forall_mem_singleton.mpr (readsAs_icmpObject cls ctype .none)⟩
    simp only [head, dite_eq_ite, spaced, hopen, String.append_assoc, String.append_empty]
  | case3 first p hlen len cls ctype head hgood labels ih =>
    obtain ⟨texts, htexts, hreads⟩ := ih
    have hlabels : AddsFrom labels [(false, "mpls", Shape.ArrayOf (Shape.ObjectOf labelFields))] :=
      .ite fun _ => members_mpls _
    refine ⟨_ :: texts, ?_, List.forall_mem_cons.mpr ⟨readsAs_icmpObject cls ctype hlabels, hreads⟩⟩
    rw [htexts]
    simp only [head, dite_eq_ite, spaced, hopen, String.append_assoc]

/-- An extension structure is one member. -/
theorem members_icmpMulti {p : List UInt8} {pre : Bool} {text : String} (h : icmpMulti p pre = some text) :
    Members text [("icmpext", Shape.ObjectOf extensionFields)] := by
  unfold icmpMulti at h
  by_cases hbad : p.length < 4 ∨ inCksum p ≠ 0
  · rw [if_pos hbad] at h
    cases h
  rw [if_neg hbad] at h
  cases h
  obtain ⟨texts, htexts, hreads⟩ := icmpObjects_spaced true (p.drop 4)
  have hversion : Adds .member ("\"version\":" ++ toString ((byteAt p 0).toNat / 16)) [("version", Shape.IsNumber)] :=
    .value (fun _ _ => rfl) (readsAs_number (isNumber_toString _))
  have hpre : IsNumber (if pre then "0" else "1").toList := by
    cases pre
    · exact isNumber_toString 1
    · exact isNumber_toString 0
  have hrfc := hversion.andValue (p := ", \"rfc4884\":") (k := "rfc4884") (fun _ _ => rfl) rfl (readsAs_number hpre)
  have hobj := hrfc.andValue (p := ", \"obj\": ") (k := "obj") (fun _ _ => rfl) rfl (readsAs_spaced hreads)
  have hext : Members (", \"icmpext\": " ++ _) [("icmpext", Shape.ObjectOf extensionFields)] :=
    .value (k := "icmpext") (fun _ _ => rfl) rfl (readsAs_object hobj)
  have hopen : ", \"icmpext\": \x7b \"version\":" = ", \"icmpext\": " ++ ("\x7b " ++ "\"version\":") := rfl
  have harray : ", \"obj\": [" = ", \"obj\": " ++ "[" := rfl
  have hclose : " ] \x7d" = " ]" ++ " \x7d" := rfl
  rw [htexts, hopen, harray, hclose]
  simpa only [String.append_assoc] using hext

/-! ## TCP options -/

/-- A segment size, or the kind of another option. -/
def HeaderOption (v : Shape) : Prop :=
  v.ObjectOf [("mss", Shape.IsNumber)] ∨ v.ObjectOf [("unknown-opt", Shape.IsNumber)]

/-- Texts with a comma before each but the first. -/
def listed (first : Bool) (texts : List String) : String :=
  if first then ", ".intercalate texts else String.join (texts.map (", " ++ ·))

theorem listed_cons (first : Bool) (a : String) (texts : List String) :
    listed first (a :: texts) = (if first then "" else ", ") ++ a ++ listed false texts := by
  cases first with
  | false => simp [listed, String.append_assoc]
  | true =>
    induction texts generalizing a with
    | nil => simp [listed]
    | cons b texts ih =>
      have hb := ih b
      simp only [listed, if_true, String.empty_append] at hb ⊢
      rw [String.intercalate_cons_cons, hb]
      simp [String.append_assoc]

theorem hdroptEntries_listed (first : Bool) (opts : List UInt8) :
    ∃ texts, hdroptEntries first opts = listed first texts ∧ ∀ a ∈ texts, ReadsAs a HeaderOption := by
  have hmss : "\x7b \"mss\":" = "\x7b " ++ "\"mss\":" := rfl
  have hunknown : "\x7b \"unknown-opt\":" = "\x7b " ++ "\"unknown-opt\":" := rfl
  fun_induction hdroptEntries first opts with
  | case1 first => exact ⟨[], by cases first <;> rfl, by simp⟩
  | case2 first => exact ⟨[], by cases first <;> rfl, by simp⟩
  | case3 first rest sep len hgood ih =>
    obtain ⟨texts, htexts, hreads⟩ := ih
    have hentry : Adds .member ("\"mss\":" ++ toString (beNat ((rest.drop 1).take 2))) [("mss", Shape.IsNumber)] :=
      .value (fun _ _ => rfl) (readsAs_number (isNumber_toString _))
    refine ⟨_ :: texts, ?_, List.forall_mem_cons.mpr ⟨(readsAs_object hentry).mono fun _ h => .inl h, hreads⟩⟩
    rw [htexts, listed_cons, hmss]
    simp only [sep, dite_eq_ite, String.append_assoc]
  | case4 first o rest sep hother =>
    have hentry : Adds .member ("\"unknown-opt\":" ++ toString o.toNat) [("unknown-opt", Shape.IsNumber)] :=
      .value (fun _ _ => rfl) (readsAs_number (isNumber_toString _))
    refine ⟨[_], ?_, List.forall_mem_singleton.mpr ((readsAs_object hentry).mono fun _ h => .inr h)⟩
    rw [listed_cons, hunknown]
    simp only [sep, dite_eq_ite, String.append_assoc]
    rfl

theorem members_hdropts (opts : List UInt8) :
    Members (hdropts opts) [("hdropts", Shape.ArrayOf HeaderOption)] := by
  obtain ⟨texts, htexts, hreads⟩ := hdroptEntries_listed true opts
  have h : Members (", \"hdropts\": " ++ ("[ " ++ ", ".intercalate texts ++ " ]")) _ :=
    .value (k := "hdropts") (fun _ _ => rfl) rfl (readsAs_array hreads)
  rw [hdropts, htexts, listed, if_pos rfl, show ", \"hdropts\": [ " = ", \"hdropts\": " ++ "[ " from rfl]
  simpa only [String.append_assoc] using h

theorem plainText_tcpFlags (b : UInt8) : PlainText (tcpFlags b) := by
  rw [tcpFlags, plainText_ofList]
  intro c hc
  obtain ⟨⟨bit, c'⟩, hmem, hsome⟩ := List.mem_filterMap.mp hc
  dsimp only at hsome
  split_ifs at hsome
  cases hsome
  have hall : ∀ p ∈ ([(0x01, 'F'), (0x02, 'S'), (0x04, 'R'), (0x08, 'P'), (0x10, 'A'), (0x20, 'U')] :
    List (UInt8 × Char)), isPlain p.2 = true := by decide
  exact hall _ hmem

/-! ## Replies -/

/-- Whatever a reading gives has a property. -/
def Gives {α : Type} (P : α → Prop) (x : Option α) : Prop := ∀ a, x = some a → P a

namespace Gives

variable {α β : Type} {P : β → Prop}

theorem bind {x : Option α} {f : α → Option β} (hf : ∀ y, Gives P (f y)) : Gives P (x >>= f) := by
  intro b hb
  obtain ⟨y, -, hy⟩ := Option.bind_eq_some_iff.mp hb
  exact hf y b hy

theorem ite {c : Prop} [Decidable c] {x y : Option β} (hx : Gives P x) (hy : Gives P y) :
    Gives P (if c then x else y) := by
  split
  · exact hx
  · exact hy

theorem absent : Gives P none := fun _ hb => by cases hb

theorem present {y : β} (hy : P y) : Gives P (some y) := fun _ hb => Option.some.inj hb ▸ hy

end Gives

/-- What a reply says that is a text. -/
structure Texts (a : Answer) : Prop where
  flags : PlainText a.flags
  hdropts : ∀ text, a.hdropts = some text → Members text [("hdropts", Shape.ArrayOf HeaderOption)]
  icmpext : ∀ text, a.icmpext = some text → Members text [("icmpext", Shape.ObjectOf extensionFields)]

theorem members_icmpExt {quoted : List UInt8} {prefixLen : Nat} {text : String}
    (h : icmpExt quoted prefixLen = some text) : Members text [("icmpext", Shape.ObjectOf extensionFields)] := by
  unfold icmpExt at h
  split_ifs at h
  · exact members_icmpMulti h
  · exact members_icmpMulti h

theorem texts_of_icmpExt {a : Answer} {quoted : List UInt8} {prefixLen : Nat} (hflags : a.flags = "")
    (hhdropts : a.hdropts = none) (hext : a.icmpext = icmpExt quoted prefixLen) : Texts a where
  flags := hflags ▸ rfl
  hdropts text h := by
    rw [hhdropts] at h
    cases h
  icmpext text h := members_icmpExt (hext.symm.trans h)

theorem texts_of_none {a : Answer} (hflags : a.flags = "") (hhdropts : a.hdropts = none) (hext : a.icmpext = none) :
    Texts a where
  flags := hflags ▸ rfl
  hdropts text h := by
    rw [hhdropts] at h
    cases h
  icmpext text h := by
    rw [hext] at h
    cases h

theorem texts_parseIcmp4 (id : TraceId) (buf : List UInt8) (sender : BitVec 32) (curSeq : UInt16) :
    Gives Texts (parseIcmp4 id buf sender curSeq) := by
  unfold parseIcmp4
  refine .bind fun _ => .ite .absent (.ite ?_ (.ite ?_ .absent))
  · refine .bind fun _ => .ite .absent (.bind fun _ => ?_)
    refine .ite (.bind fun _ => ?_) (.ite (.bind fun _ => ?_) (.bind fun _ => ?_))
    · exact .present (texts_of_icmpExt rfl rfl rfl)
    · exact .present (texts_of_icmpExt rfl rfl rfl)
    · exact .present (texts_of_icmpExt rfl rfl rfl)
  · exact .ite .absent (.bind fun _ => .ite .absent (.bind fun _ => .present (texts_of_none rfl rfl rfl)))

theorem texts_parseIcmp6 (id : TraceId) (buf : List UInt8) (sender : BitVec 128) (hoplimit tclass : Int) :
    Gives Texts (parseIcmp6 id buf sender hoplimit tclass) := by
  unfold parseIcmp6
  refine .ite .absent (.ite (.ite .absent (.ite .absent ?_)) (.ite ?_ .absent))
  · refine .bind fun _ => .bind fun _ => .bind fun h => .ite .absent ?_
    -- the quoted probe is TCP's, or carries the reference's own data
    refine .ite (.bind fun _ => .ite .absent (.bind fun _ => .ite .absent ?_))
      (.bind fun _ => .ite .absent (.bind fun _ => .ite .absent ?_))
    · refine .ite (.bind fun _ => .bind fun _ => ?_) (.ite (.bind fun _ => .bind fun _ => ?_) (.bind fun _ => .bind fun _ => ?_))
      · exact .present (texts_of_icmpExt rfl rfl rfl)
      · exact .present (texts_of_icmpExt rfl rfl rfl)
      · exact .present (texts_of_icmpExt rfl rfl rfl)
    · refine .ite (.bind fun _ => .bind fun _ => ?_) (.ite (.bind fun _ => .bind fun _ => ?_) (.bind fun _ => .bind fun _ => ?_))
      · exact .present (texts_of_icmpExt rfl rfl rfl)
      · exact .present (texts_of_icmpExt rfl rfl rfl)
      · exact .present (texts_of_icmpExt rfl rfl rfl)
  · exact .bind fun _ => .ite .absent (.present (texts_of_none rfl rfl rfl))

theorem texts_parseTcp (id : TraceId) (buf : List UInt8) (sender : IpAddr) (hoplimit tclass : Int) :
    Gives Texts (parseTcp id buf sender hoplimit tclass) := by
  unfold parseTcp
  refine .bind fun _ => .ite .absent (.ite .absent (.bind fun _ => .bind fun _ => .ite .absent (.present ?_)))
  refine ⟨plainText_tcpFlags _, fun text h => ?_, fun text h => by cases h⟩
  dsimp only at h
  split_ifs at h
  cases h
  exact members_hdropts _

theorem texts_parseReply (id : TraceId) (fromTcpSocket : Bool) (buf : List UInt8) (sender : IpAddr)
    (hoplimit tclass : Int) (curSeq : UInt16) :
    Gives Texts (parseReply id fromTcpSocket buf sender hoplimit tclass curSeq) := by
  unfold parseReply
  refine .ite (texts_parseTcp _ _ _ _ _) ?_
  cases sender with
  | v4 sender => exact texts_parseIcmp4 _ _ _ _
  | v6 sender => exact texts_parseIcmp6 _ _ _ _ _

/-- What a reply's entry starts with. -/
def leadChoices : Choices :=
  [(false, "late", Shape.IsNumber), (false, "dup", Shape.IsBool), (true, "from", Shape.IsString)]

/-- A code, or the letter it has. -/
def Shape.IsScalar (v : Shape) : Prop := v.IsNumber ∨ v.IsString

/-- What it has after that. -/
def answerChoices : Branch → Choices
  | .v4ErrL4 | .v4ErrIcmp =>
    [(true, "ttl", Shape.IsNumber), (true, "size", Shape.IsNumber), (false, "rtt", Shape.IsNumber),
      (false, "ittl", Shape.IsNumber), (false, "itos", Shape.IsNumber), (false, "edst", Shape.IsString),
      (false, "mtu", Shape.IsNumber), (false, "err", Shape.IsScalar), (false, "icmpext", Shape.ObjectOf extensionFields)]
  | .v6Err =>
    [(true, "ttl", Shape.IsNumber), (true, "rtt", Shape.IsNumber), (true, "size", Shape.IsNumber),
      (false, "ittl", Shape.IsNumber), (false, "itos", Shape.IsNumber), (false, "hbhoptsize", Shape.IsNumber),
      (false, "dstoptsize", Shape.IsNumber), (false, "mtu", Shape.IsNumber), (false, "err", Shape.IsScalar),
      (false, "icmpext", Shape.ObjectOf extensionFields)]
  | .v4Echo =>
    [(true, "ttl", Shape.IsNumber), (true, "size", Shape.IsNumber), (false, "tos", Shape.IsNumber),
      (false, "rtt", Shape.IsNumber)]
  | .v6Echo =>
    [(true, "ttl", Shape.IsNumber), (true, "rtt", Shape.IsNumber), (true, "size", Shape.IsNumber),
      (false, "itos", Shape.IsNumber)]
  | .v4Tcp | .v6Tcp =>
    [(true, "ttl", Shape.IsNumber), (true, "size", Shape.IsNumber), (false, "tos", Shape.IsNumber),
      (true, "flags", Shape.IsString), (false, "hdropts", Shape.ArrayOf HeaderOption), (false, "rtt", Shape.IsNumber)]

/-- A reply, a probe that had none, or what failed. -/
def EntryShape (v : Shape) : Prop :=
  (∃ branch, v.ObjectFrom (leadChoices ++ answerChoices branch)) ∨ v.ObjectOf [("x", Shape.IsString)] ∨
    v.ObjectOf errorFields

theorem isNumber_millis (m : Millis) : IsNumber m.text.toList :=
  isNumber_fixed (⟨m.negative, m.thousandths⟩ : Fixed 3)

/-- A number that may be missing. -/
theorem addsFrom_number {p k : String} (hp : Introduces .afterMember p k) (hdelimited : delimited p = true) {c : Prop}
    [Decidable c] {s : String} (hs : IsNumber s.toList) :
    AddsFrom (if c then p ++ s else "") [(false, k, Shape.IsNumber)] :=
  .ite fun _ => .value hp hdelimited (readsAs_number hs)

theorem addsFrom_getD {x : Option String} {f : String × (Shape → Prop)} (hx : ∀ text, x = some text → Members text [f]) :
    AddsFrom (x.getD "") [(false, f)] := by
  cases x with
  | none => exact .none
  | some text => exact .of_members (hx text rfl)

theorem adds_lead (a : Answer) (late : Option Int) (dup : Bool) :
    ∃ fs, Chosen leadChoices fs ∧ Adds .member
      ((match late with
        | some late => "\"late\":" ++ toString late
        | none => if dup then (if a.branch = .v4ErrL4 then " " else "") ++ "\"dup\":true" else "") ++
        ((if late.isSome || dup then ", " else "") ++ "\"from\":\"" ++ a.sender.text ++ "\"")) fs := by
  have hcomma : ", \"from\":\"" = ", " ++ "\"from\":\"" := rfl
  have hfrom : Members (", \"from\":\"" ++ a.sender.text ++ "\"") [("from", Shape.IsString)] :=
    .text (fun _ _ => rfl) rfl (plainText_ipAddr a.sender).isContent
  cases late with
  | some late =>
    have hlate : Adds .member ("\"late\":" ++ toString late) [("late", Shape.IsNumber)] :=
      .value (fun _ _ => rfl) (readsAs_number (isNumber_int late))
    exact ⟨_, .take (.skip (.take .nil)), hlate.append hfrom⟩
  | none =>
    cases dup with
    | true =>
      have hdup : Adds .member ((if a.branch = .v4ErrL4 then " " else "") ++ "\"dup\":true") [("dup", Shape.IsBool)] := by
        split_ifs
        · exact ⟨[("dup", .bool)], .cons ⟨rfl, rfl⟩ .nil, fun _ _ => Leads.settles rfl⟩
        · exact ⟨[("dup", .bool)], .cons ⟨rfl, rfl⟩ .nil, fun _ _ => Leads.settles rfl⟩
      exact ⟨_, .skip (.take (.take .nil)), hdup.append hfrom⟩
    | false =>
      have honly : Adds .member ("\"from\":\"" ++ a.sender.text ++ "\"") [("from", Shape.IsString)] :=
        .text (fun _ _ => rfl) (plainText_ipAddr a.sender).isContent
      refine ⟨_, .skip (.skip (.take .nil)), ?_⟩
      simpa using honly

/-- A code's text, the first of a table's. -/
theorem addsFrom_errText {table : List (UInt8 × String)} (code : UInt8)
    (htable : ∀ p ∈ table, AddsFrom p.2 [(false, "err", Shape.IsScalar)]) :
    AddsFrom (errText code table) [(false, "err", Shape.IsScalar)] := by
  induction table with
  | nil =>
    have hcode : ReadsAs (toString code.toNat) Shape.IsScalar :=
      (readsAs_number (isNumber_toString code.toNat)).mono fun _ h => .inl h
    exact .of_members (.value (p := ", \"err\":") (k := "err") (fun _ _ => rfl) rfl hcode)
  | cons p table ih =>
    rw [errText]
    split_ifs
    · exact htable p List.mem_cons_self
    · exact ih fun q hq => htable q (List.mem_cons_of_mem _ hq)

theorem addsFrom_letter {text : String} (hdelimited : delimited text = true)
    (htext : ∀ hs ms, Leads ⟨hs, .afterMember ms⟩ text ⟨hs, .afterMember (ms ++ [("err", .string)])⟩) :
    AddsFrom text [(false, "err", Shape.IsScalar)] :=
  .of_members ⟨.inr hdelimited, [("err", .string)], .cons ⟨rfl, .inr rfl⟩ .nil, fun hs ms => (htext hs ms).settles⟩

/-- A next hop's MTU, or a code. -/
theorem addsFrom_mtu (mtu : UInt32) :
    AddsFrom (", \"mtu\":" ++ toString mtu.toNat) [(false, "mtu", Shape.IsNumber), (false, "err", Shape.IsScalar)] :=
  ⟨_, .take (.skip .nil), .value (fun _ _ => rfl) rfl (readsAs_number (isNumber_toString _))⟩

theorem addsFrom_err {text : String} (h : AddsFrom text [(false, "err", Shape.IsScalar)]) :
    AddsFrom text [(false, "mtu", Shape.IsNumber), (false, "err", Shape.IsScalar)] := by
  obtain ⟨fs, hfs, hmembers⟩ := h
  exact ⟨fs, .skip hfs, hmembers⟩

theorem addsFrom_edst (edst : Option (BitVec 32)) :
    AddsFrom (match edst with
      | some edst => ", \"edst\":\"" ++ (IpAddr.v4 edst).text ++ "\""
      | none => "") [(false, "edst", Shape.IsString)] := by
  cases edst with
  | none => exact .none
  | some edst => exact .of_members (.text (fun _ _ => rfl) rfl (plainText_ipAddr (.v4 edst)).isContent)

theorem addsFrom_neither : AddsFrom "" [(false, "mtu", Shape.IsNumber), (false, "err", Shape.IsScalar)] :=
  ⟨[], .skip (.skip .nil), .nil⟩

/-- What an IPv4 error adds. -/
theorem addsFrom_outcome4 (outcome : Impl.Traceroute.Outcome) {port : String}
    (hport : AddsFrom port [(false, "err", Shape.IsScalar)]) :
    AddsFrom (match outcome with
      | .needFrag mtu => ", \"mtu\":" ++ toString mtu.toNat
      | .unreach code =>
        errText code [(0, ", \"err\":\"N\""), (1, ", \"err\":\"H\""), (2, ", \"err\":\"P\""), (3, port),
          (13, ", \"err\":\"A\"")]
      | _ => "") [(false, "mtu", Shape.IsNumber), (false, "err", Shape.IsScalar)] := by
  cases outcome with
  | needFrag mtu => exact addsFrom_mtu mtu
  | unreach code =>
    refine addsFrom_err (addsFrom_errText code ?_)
    simp only [List.forall_mem_cons, List.not_mem_nil, false_imp_iff, implies_true, and_true]
    exact ⟨addsFrom_letter rfl fun _ _ => rfl, addsFrom_letter rfl fun _ _ => rfl, addsFrom_letter rfl fun _ _ => rfl,
      hport, addsFrom_letter rfl fun _ _ => rfl⟩
  | _ => exact addsFrom_neither

/-- What an IPv6 error adds. -/
theorem addsFrom_outcome6 (outcome : Impl.Traceroute.Outcome) :
    AddsFrom (match outcome with
      | .tooBig mtu => ", \"mtu\":" ++ toString mtu.toNat
      | .unreach code =>
        errText code [(0, ", \"err\":\"N\""), (1, ", \"err\":\"A\""), (2, ", \"err\":\"h\""),
          (3, ", \"err\":\"H\""), (4, "")]
      | _ => "") [(false, "mtu", Shape.IsNumber), (false, "err", Shape.IsScalar)] := by
  cases outcome with
  | tooBig mtu => exact addsFrom_mtu mtu
  | unreach code =>
    refine addsFrom_err (addsFrom_errText code ?_)
    simp only [List.forall_mem_cons, List.not_mem_nil, false_imp_iff, implies_true, and_true]
    exact ⟨addsFrom_letter rfl fun _ _ => rfl, addsFrom_letter rfl fun _ _ => rfl, addsFrom_letter rfl fun _ _ => rfl,
      addsFrom_letter rfl fun _ _ => rfl, .none⟩
  | _ => exact addsFrom_neither

theorem readsAs_entry {a : Answer} (ha : Texts a) (late : Option Int) (dup : Bool) (rtt : Millis) (tos : UInt32) :
    ReadsAs ("\x7b " ++ entry IpAddr.text a late dup rtt tos ++ " \x7d") EntryShape := by
  have hlead := adds_lead a late dup
  have httl : Members (", \"ttl\":" ++ toString a.ttl) [("ttl", Shape.IsNumber)] :=
    .value (fun _ _ => rfl) rfl (readsAs_number (isNumber_int _))
  have hsize := httl.andValue (p := ", \"size\":") (k := "size") (fun _ _ => rfl) rfl (readsAs_number (isNumber_int a.size))
  have hrtt := httl.andValue (p := ", \"rtt\":") (k := "rtt") (fun _ _ => rfl) rfl (readsAs_number (isNumber_millis rtt))
  have hrttSize := hrtt.andValue (p := ", \"size\":") (k := "size") (fun _ _ => rfl) rfl
    (readsAs_number (isNumber_int a.size))
  have httlSize : AddsFrom (", \"ttl\":" ++ toString a.ttl ++ ", \"size\":" ++ toString a.size)
      [(true, "ttl", Shape.IsNumber), (true, "size", Shape.IsNumber)] := ⟨_, .take (.take .nil), hsize⟩
  have httlRttSize : AddsFrom (", \"ttl\":" ++ toString a.ttl ++ ", \"rtt\":" ++ rtt.text ++ ", \"size\":" ++
      toString a.size) [(true, "ttl", Shape.IsNumber), (true, "rtt", Shape.IsNumber), (true, "size", Shape.IsNumber)] :=
    ⟨_, .take (.take (.take .nil)), hrttSize⟩
  have hlate : AddsFrom (if late.isNone then ", \"rtt\":" ++ rtt.text else "") [(false, "rtt", Shape.IsNumber)] :=
    addsFrom_number (p := ", \"rtt\":") (fun _ _ => rfl) rfl (isNumber_millis rtt)
  have hittl : AddsFrom (if a.innerTtl ≠ 1 then ", \"ittl\":" ++ toString a.innerTtl.toNat else "")
      [(false, "ittl", Shape.IsNumber)] :=
    addsFrom_number (p := ", \"ittl\":") (fun _ _ => rfl) rfl (isNumber_toString _)
  have hitos : AddsFrom (if a.innerTos ≠ 0 ∨ tos ≠ 0 then ", \"itos\":" ++ toString a.innerTos.toNat else "")
      [(false, "itos", Shape.IsNumber)] :=
    addsFrom_number (p := ", \"itos\":") (fun _ _ => rfl) rfl (isNumber_toString _)
  have hinner := hittl.append hitos
  have htos : AddsFrom (if a.tos ≠ 0 ∨ tos ≠ 0 then ", \"" ++ "tos" ++ "\":" ++ toString a.tos else "")
      [(false, "tos", Shape.IsNumber)] :=
    addsFrom_number (p := ", \"tos\":") (fun _ _ => rfl) rfl (isNumber_int _)
  have htos6 : AddsFrom (if a.tos ≠ 0 ∨ tos ≠ 0 then ", \"" ++ "itos" ++ "\":" ++ toString a.tos else "")
      [(false, "itos", Shape.IsNumber)] :=
    addsFrom_number (p := ", \"itos\":") (fun _ _ => rfl) rfl (isNumber_int _)
  have hhbh : AddsFrom (if a.hbhOptSize ≠ 0 then ", \"hbhoptsize\":" ++ toString a.hbhOptSize.toNat else "")
      [(false, "hbhoptsize", Shape.IsNumber)] :=
    addsFrom_number (p := ", \"hbhoptsize\":") (fun _ _ => rfl) rfl (isNumber_toString _)
  have hdst : AddsFrom (if a.dstOptSize ≠ 0 then ", \"dstoptsize\":" ++ toString a.dstOptSize.toNat else "")
      [(false, "dstoptsize", Shape.IsNumber)] :=
    addsFrom_number (p := ", \"dstoptsize\":") (fun _ _ => rfl) rfl (isNumber_toString _)
  have hflags : AddsFrom (", \"flags\":\"" ++ a.flags ++ "\"") [(true, "flags", Shape.IsString)] :=
    .of_members (.text (fun _ _ => rfl) rfl ha.flags.isContent)
  have htcp := (httlSize.append htos).append hflags
  rw [← String.append_assoc, ← String.append_assoc] at htcp
  have hopts := addsFrom_getD ha.hdropts
  have hext := addsFrom_getD ha.icmpext
  have reads (branch : Branch) {rest : String} (hrest : AddsFrom rest (answerChoices branch)) :=
    (readsAs_objectFrom hlead hrest).mono (Q := EntryShape) fun v hv => .inl ⟨branch, hv⟩
  unfold entry
  dsimp only
  generalize a.branch = branch at hlead reads ⊢
  have herror := ((httlSize.append hlate).append hinner).append (addsFrom_edst a.edst)
  cases branch with
  | v4ErrL4 => exact reads .v4ErrL4 ((herror.append (addsFrom_outcome4 a.outcome .none)).append hext)
  | v4ErrIcmp =>
    have hport : AddsFrom (if Branch.v4ErrIcmp = .v4ErrIcmp then ", \"err\":\"p\"" else "")
        [(false, "err", Shape.IsScalar)] := by
      rw [if_pos rfl]
      exact addsFrom_letter rfl fun _ _ => rfl
    exact reads .v4ErrIcmp ((herror.append (addsFrom_outcome4 a.outcome hport)).append hext)
  | v6Err =>
    exact reads .v6Err (((((httlRttSize.append hinner).append hhbh).append hdst).append
      (addsFrom_outcome6 a.outcome)).append hext)
  | v4Echo => exact reads .v4Echo ((httlSize.append htos).append hlate)
  | v6Echo => exact reads .v6Echo (httlRttSize.append htos6)
  | v4Tcp => exact reads .v4Tcp ((htcp.append hopts).append hlate)
  | v6Tcp => exact reads .v6Tcp ((htcp.append hopts).append hlate)

/-! ## Hops -/

/-- What an entry says that is a text. -/
def EntryTexts : Entry → Prop
  | .reply a _ _ _ _ => Texts a
  | .timeout => True
  | .error text => PlainText text

structure HopTexts (h : Hop) : Prop where
  entries : ∀ e ∈ h.entries, EntryTexts e
  error : ∀ text, h.error = some text → PlainText text

/-- A hop with its entries, or with what kept it from having any. -/
def HopShape (v : Shape) : Prop :=
  v.ObjectOf [("hop", Shape.IsNumber), ("error", Shape.IsString)] ∨
    v.ObjectOf [("hop", Shape.IsNumber), ("result", Shape.ArrayOf EntryShape)]

theorem joined_eq (sep : String) (texts : List String) : joined sep texts = sep.intercalate texts := by
  fun_induction joined sep texts with
  | case1 => rfl
  | case2 s => exact String.intercalate_singleton.symm
  | case3 s rest hne ih =>
    cases rest with
    | nil => exact absurd rfl hne
    | cons t rest => rw [ih, String.intercalate_cons_cons]

theorem readsAs_entryText {e : Entry} (he : EntryTexts e) :
    ReadsAs ("\x7b " ++ e.text IpAddr.text ++ " \x7d") EntryShape := by
  cases e with
  | reply a late dup rtt tos => exact readsAs_entry he late dup rtt tos
  | timeout =>
    have hx : Adds .member "\"x\":\"*\"" [("x", Shape.IsString)] := .literal fun _ _ => rfl
    exact (readsAs_object hx).mono fun _ h => .inr (.inl h)
  | error text =>
    have herror : Adds .member ("\"error\":\"" ++ text ++ "\"") errorFields := .text (fun _ _ => rfl) (PlainText.isContent he)
    exact (readsAs_object herror).mono fun _ h => .inr (.inr h)

theorem readsAs_hop {h : Hop} (hh : HopTexts h) : ReadsAs (h.render IpAddr.text) HopShape := by
  have hopen : "\x7b \"hop\":" = "\x7b " ++ "\"hop\":" := rfl
  have hhop : Adds .member ("\"hop\":" ++ toString h.hop.toNat) [("hop", Shape.IsNumber)] :=
    .value (fun _ _ => rfl) (readsAs_number (isNumber_toString _))
  unfold Hop.render
  cases herror : h.error with
  | some e =>
    have hclose : "\" \x7d" = "\"" ++ " \x7d" := rfl
    have htext := hhop.andText (p := ", \"error\":\"") (k := "error") (fun _ _ => rfl) rfl (hh.error e herror).isContent
    have hobject := (readsAs_object htext).mono (Q := HopShape) fun _ h => .inl h
    dsimp only
    rw [hopen, hclose]
    simpa only [String.append_assoc] using hobject
  | none =>
    have hresult : ", \"result\": [ " = ", \"result\": " ++ "[ " := rfl
    have hclose : " ] \x7d" = " ]" ++ " \x7d" := rfl
    have hentries : ∀ a ∈ h.entries.map fun e => "\x7b " ++ e.text IpAddr.text ++ " \x7d", ReadsAs a EntryShape := by
      intro a ha
      obtain ⟨e, he, rfl⟩ := List.mem_map.mp ha
      exact readsAs_entryText (hh.entries e he)
    have htext := hhop.andValue (p := ", \"result\": ") (k := "result") (fun _ _ => rfl) rfl (readsAs_array hentries)
    have hobject := (readsAs_object htext).mono (Q := HopShape) fun _ h => .inr h
    dsimp only
    rw [hopen, hresult, hclose, joined_eq]
    simpa only [String.append_assoc] using hobject

theorem readsAs_renderHops {hops : List Hop} (hhops : ∀ h ∈ hops, HopTexts h) :
    ReadsAs (renderHops IpAddr.text hops) (Shape.ArrayOf HopShape) := by
  rw [renderHops, joined_eq]
  refine readsAs_array fun a ha => ?_
  obtain ⟨h, hh, rfl⟩ := List.mem_map.mp ha
  exact readsAs_hop (hhops h hh)

/-! ## Runs -/

/-- The texts of a trace are those of its hops. -/
def TraceTexts (t : Trace) : Prop := ∀ h ∈ t.hops, HopTexts h

theorem hopTexts_new (hop : UInt8) : HopTexts { hop } := ⟨by simp, by simp⟩

theorem forall_mem_modifyLast {P : Hop → Prop} {f : Hop → Hop} {hops : List Hop} (hP : ∀ h ∈ hops, P h)
    (hf : ∀ h, P h → P (f h)) : ∀ h ∈ hops.modifyLast f, P h := by
  rcases List.eq_nil_or_concat' hops with rfl | ⟨init, last, rfl⟩
  · exact hP
  · rw [List.modifyLast_concat]
    intro h hh
    rcases List.mem_append.mp hh with hh | hh
    · exact hP h (List.mem_append_left _ hh)
    · rw [List.mem_singleton.mp hh]
      exact hf last (hP last (by simp))

theorem traceTexts_push {t : Trace} (ht : TraceTexts t) {e : Entry} (he : EntryTexts e) : TraceTexts (t.push e) := by
  refine forall_mem_modifyLast ht fun h hh => ⟨fun e' he' => ?_, hh.error⟩
  rcases List.mem_append.mp he' with he' | he'
  · exact hh.entries e' he'
  · exact List.mem_singleton.mp he' ▸ he

theorem traceTexts_startFailed {t : Trace} (ht : TraceTexts t) {error : String} (herror : PlainText error) :
    TraceTexts (t.startFailed error) := by
  refine forall_mem_modifyLast ht fun h hh => ⟨hh.entries, fun text htext => ?_⟩
  cases htext
  exact herror

theorem traceTexts_timeout {t : Trace} (ht : TraceTexts t) : TraceTexts t.timeout := by
  unfold Trace.timeout
  split_ifs
  · exact ht
  · exact traceTexts_push ht trivial

theorem traceTexts_nextHop {t : Trace} (ht : TraceTexts t) : TraceTexts t.nextHop.2 := by
  have hnew : ∀ hop : UInt8, ∀ h ∈ t.hops ++ [({ hop } : Hop)], HopTexts h := fun hop h hh => by
    rcases List.mem_append.mp hh with hh | hh
    · exact ht h hh
    · exact List.mem_singleton.mp hh ▸ hopTexts_new hop
  unfold Trace.nextHop
  dsimp only
  split_ifs
  · exact ht
  · exact ht
  · exact hnew 255
  · exact hnew _

theorem traceTexts_nextProbe {t : Trace} (ht : TraceTexts t) (now : Impl.Traceroute.Duration) : TraceTexts (t.nextProbe now).2 := by
  have hhop : TraceTexts (Trace.nextHop { t with gotresp := false }).2 := traceTexts_nextHop (t := { t with gotresp := false }) ht
  unfold Trace.nextProbe
  dsimp only
  split_ifs
  · exact ht
  · exact hhop
  · exact hhop
  · exact ht
  · exact ht

variable (since : Impl.Traceroute.Duration → Impl.Traceroute.Duration → Millis)

theorem traceTexts_reply {t : Trace} (ht : TraceTexts t) {a : Answer} (ha : Texts a) (now : Impl.Traceroute.Duration) :
    TraceTexts (t.reply since a now).2 := by
  unfold Trace.reply
  dsimp only
  split
  · exact ht
  generalize hlate : (if t.stale a = true then some (t.seq.toUInt32 - a.seq).toInt32.toInt else none) = late
  have hpush : TraceTexts (t.push (.reply a late (late.isNone && t.gotresp) (t.rtt since a late now) t.tos)) :=
    traceTexts_push ht ha
  obtain ⟨size, done, notDone, hlearn⟩ := Proof.Traceroute.learn_eq
    (t.push (.reply a late (late.isNone && t.gotresp) (t.rtt since a late now) t.tos)) a late.isSome
    (late.isNone && t.gotresp)
  rw [hlearn]
  split_ifs
  · exact hpush
  · exact hpush
  · exact hpush
  · exact hpush

/-- What an event says that is a text. -/
def EventTexts : Impl.Traceroute.RunEvent → Prop
  | .send _ (.error text) => PlainText text
  | .reply a _ => Texts a
  | _ => True

theorem traceTexts_step {s : Run} (hs : TraceTexts s.trace) {e : Impl.Traceroute.RunEvent} (he : EventTexts e) :
    TraceTexts (s.step since e).trace := by
  cases e with
  | send xmit sent =>
    have hnext := traceTexts_nextProbe hs xmit
    unfold Run.step
    cases s.phase with
    | next =>
      dsimp only
      rcases hprobe : s.trace.nextProbe xmit with ⟨probe, t⟩
      rw [hprobe] at hnext
      cases probe with
      | none => exact hnext
      | some p =>
        cases sent with
        | error text => exact traceTexts_push hnext he
        | ok u => exact hnext
    | waiting => exact hs
    | ended => exact hs
  | reply a now =>
    unfold Run.step
    cases s.phase with
    | next => exact hs
    | waiting => exact traceTexts_reply since hs he now
    | ended => exact hs
  | deadline =>
    unfold Run.step
    cases s.phase with
    | next => exact hs
    | waiting => exact traceTexts_timeout hs
    | ended => exact hs

theorem plainText_callError (error : CallError) : PlainText error.text := by
  cases error with
  | setTos v6 => cases v6 <;> decide
  | interface => decide
  | family => decide
  | connect error => exact plainText_append.mpr ⟨by decide, error.plain⟩
  | socket error => exact plainText_append.mpr ⟨by decide, error.plain⟩
  | bind error => exact plainText_append.mpr ⟨by decide, error.plain⟩
  | sendto error => exact plainText_append.mpr ⟨by decide, error.plain⟩

theorem traceTexts_meets (id : TraceId) {s : Run} (hs : TraceTexts s.trace) (e : NetEvent) :
    TraceTexts (meets since id s e).trace := by
  cases e with
  | send xmit sent =>
    cases sent with
    | ok u => exact traceTexts_step since hs trivial
    | error e => exact traceTexts_step since hs (plainText_callError e)
  | packet fromTcpSocket buf sender hoplimit tclass now =>
    cases ha : parseReply id fromTcpSocket buf sender hoplimit tclass s.trace.seq with
    | none => simpa only [meets, ha] using hs
    | some a =>
      simpa only [meets, ha] using traceTexts_step since (e := .reply a now) hs (texts_parseReply _ _ _ _ _ _ _ a ha)
  | deadline => exact traceTexts_step since hs trivial

/-- What a run renders is an array of hops. -/
theorem readsAs_run (id : TraceId) (opts : TracerouteOptions) (r : RunOf) :
    ReadsAs (renderHops IpAddr.text (run since id opts r)) (Shape.ArrayOf HopShape) := by
  have hnew : TraceTexts (Trace.new id.v6 opts id.paris) := fun h hh => List.mem_singleton.mp hh ▸ hopTexts_new _
  refine readsAs_renderHops ?_
  cases r with
  | startFailed error => exact traceTexts_startFailed hnew (plainText_callError error)
  | ran events =>
    have hrun : ∀ s : Run, TraceTexts s.trace → TraceTexts (events.foldl (meets since id) s).trace := by
      induction events with
      | nil => exact fun s hs => hs
      | cons e events ih => exact fun s hs => ih _ (traceTexts_meets since id hs e)
    exact hrun _ hnew

end Starla.Proof.Reports.Traceroute
