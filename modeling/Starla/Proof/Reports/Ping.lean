import Starla.Impl.Reports.Ping
import Starla.Proof.Reports.Envelope

/-!
# Lines of pings

Whatever a ping's run met, its line has the members of its report, if the
target's name can stand in a string.

* `readsAs_pingCb`, `readsAs_report` : the results are an array of entries.
* `prescribed_report_iff` : the line of a report.
-/

namespace Starla.Proof.Reports.Ping

open Starla.Framework Starla.Framework.JsonText Starla.Impl.Measurements Starla.Impl.Reports
  Starla.Impl.Reports.Ping Starla.Impl.Results Starla.Proof.Results

/-! ## Entries -/

def replyFields (dup size ttl src : Bool) : Fields :=
  (if dup then [("dup", Shape.IsNumber)] else []) ++ [("rtt", Shape.IsNumber)] ++
    (if size then [("size", Shape.IsNumber)] else []) ++ (if ttl then [("ttl", Shape.IsNumber)] else []) ++
    (if src then [("src_addr", Shape.IsString)] else [])

/-- A result of a ping: a reply, a request that had none, or what failed. -/
def Entry (v : Shape) : Prop :=
  (∃ dup size ttl src, v.ObjectOf (replyFields dup size ttl src)) ∨ v.ObjectOf [("x", Shape.IsString)] ∨
    v.ObjectOf errorFields

theorem entry_error {error : String} (herror : PlainText error) : ReadsAs (errorEntry error) Entry :=
  (readsAs_errorEntry herror).mono fun _ h => .inr (.inr h)

theorem members_src (s : Entries) (dst : Option IpAddr) :
    ∃ src : Bool, Members (match dst, s.loc with
      | some dst, some loc => if dst ≠ loc then ", \"src_addr\":\"" ++ dst.text ++ "\"" else ""
      | _, _ => "") (if src then [("src_addr", Shape.IsString)] else []) := by
  cases dst with
  | none => exact ⟨false, .nil⟩
  | some dst =>
    cases s.loc with
    | none => exact ⟨false, .nil⟩
    | some loc =>
      dsimp only
      split_ifs
      · exact ⟨true, .text (fun _ _ => rfl) rfl (plainText_ipAddr dst).isContent⟩
      · exact ⟨false, .nil⟩

theorem entry_reply (s : Entries) (dup : Bool) (rtt : Fixed 6) (bytes : Nat) (dst : Option IpAddr) :
    ReadsAs (s.replyEntry dup rtt bytes dst) Entry := by
  obtain ⟨src, hsrc⟩ := members_src s dst
  have hdup : Leading (if dup then "\"dup\":1, " else "") (if dup then [("dup", Shape.IsNumber)] else []) :=
    .ite fun _ => ⟨[("dup", .number)], .cons ⟨rfl, rfl⟩ .nil, fun _ _ => rfl⟩
  have hrtt : Adds .member ("\"rtt\":" ++ rtt.text) [("rtt", Shape.IsNumber)] :=
    .value (fun _ _ => rfl) (readsAs_number (isNumber_fixed rtt))
  have hsize : Members (if s.size ≠ bytes then ", \"size\":" ++ toString bytes else "")
      (if s.size ≠ bytes then [("size", Shape.IsNumber)] else []) :=
    .ite fun _ => .value (fun _ _ => rfl) rfl (readsAs_number (isNumber_toString bytes))
  have httl : Members (if s.ttl ≠ s.rcvdTtl then ", \"ttl\":" ++ toString s.rcvdTtl.toNat else "")
      (if s.ttl ≠ s.rcvdTtl then [("ttl", Shape.IsNumber)] else []) :=
    .ite fun _ => .value (fun _ _ => rfl) rfl (readsAs_number (isNumber_toString _))
  refine (readsAs_object ((((hdup.append_adds hrtt).append hsize).append httl).append hsrc)).mono fun v hv => .inl ?_
  refine ⟨dup, decide (s.size ≠ bytes), decide (s.ttl ≠ s.rcvdTtl), src, ?_⟩
  simpa only [replyFields, decide_eq_true_eq] using hv

theorem readsAs_step (len : Nat) (s : Entries) (e : Event) (hs : ∀ a ∈ s.entries, ReadsAs a Entry) :
    ∀ a ∈ (s.step len e).entries, ReadsAs a Entry := by
  have hpush : ∀ (s' : Entries) (entry : String), s'.entries = s.entries → ReadsAs entry Entry →
      ∀ a ∈ (s'.push entry).entries, ReadsAs a Entry := by
    intro s' entry hsame hentry a ha
    rcases List.mem_append.mp ha with ha | ha
    · exact hs a (hsame ▸ ha)
    · rw [List.mem_singleton.mp ha]
      exact hentry
  have hfirst : ∀ (s' : Entries) size ttl, (s'.first size ttl).entries = s'.entries := by
    intro s' size ttl
    unfold Entries.first
    split_ifs <;> rfl
  cases e with
  | sent loc error =>
    cases error with
    | none => exact hs
    | some error =>
      exact hpush _ _ (hfirst _ _ _) (entry_error (plainText_append.mpr ⟨by decide, error.plain⟩))
  | timeout =>
    refine hpush _ _ (hfirst _ _ _) (ReadsAs.mono (P := Shape.ObjectOf [("x", Shape.IsString)]) ?_ fun _ h => .inr (.inl h))
    exact ⟨.object [("x", .string)], .cons ⟨rfl, rfl⟩ .nil, fun hs h => Leads.settles rfl⟩
  | reply dup rtt ttl bytes dst =>
    refine hpush (((({ s with rcvdTtl := ttl.getD s.rcvdTtl } : Entries).first bytes _).gotReplyTo dup dst)) _ ?_
      (entry_reply _ dup rtt bytes dst)
    unfold Entries.gotReplyTo
    split_ifs <;> exact hfirst _ _ _

theorem readsAs_pingCb (events : List Event) (len : Nat) (loc : Option IpAddr) (rcvdTtl : UInt8) :
    ∀ a ∈ (pingCb events len loc rcvdTtl).entries, ReadsAs a Entry := by
  have hrun : ∀ s : Entries, (∀ a ∈ s.entries, ReadsAs a Entry) →
      ∀ a ∈ (events.foldl (Entries.step len) s).entries, ReadsAs a Entry := by
    induction events with
    | nil => exact fun s hs => hs
    | cons e events ih => exact fun s hs => ih _ (readsAs_step len s e hs)
  exact hrun _ (by simp)

/-! ## Reports -/

/-- The members of a report after the target's name. -/
def tailFields (ttr : Bool) (r : Report) : Fields :=
  (if ttr then [("ttr", Shape.IsNumber)] else []) ++ [("af", Shape.IsNumber)] ++
    (if r.dstAddr.isSome then
      [("dst_addr", Shape.IsString)] ++ (if r.srcAddr.isSome then [("src_addr", Shape.IsString)] else [])
      else []) ++ [("proto", Shape.IsString)] ++ (if r.ttl.isSome then [("ttl", Shape.IsNumber)] else []) ++
    [("size", Shape.IsNumber)]

def Report.fields (r : Report) : Fields :=
  (envelopeFields ++ [("time", Shape.IsNumber)]) ++
    ("dst_name", Shape.IsString) :: (tailFields r.dstName.ttr.isSome r ++ [("result", Shape.ArrayOf Entry)])

/-- A report up to the target's name. -/
def Report.head (r : Report) (lts : LtsText) : String :=
  envelope (toString r.msmId.toNat) lts ++ "\"time\":" ++ toString r.time ++ ", " ++ "\"dst_name\":\""

def addrsText (r : Report) : String :=
  (r.dstAddr.map fun dst => ", \"dst_addr\":\"" ++ dst.text ++ "\"" ++
    (r.srcAddr.map fun src => ", \"src_addr\":\"" ++ addrText src ++ "\"").getD "").getD ""

/-- A report from the name's quote on. -/
def Report.tail (r : Report) : String :=
  ttrText r.dstName.ttr ++ ", \"af\":" ++ toString r.af ++ addrsText r ++ ", \"proto\":\"ICMP\"" ++
    (r.ttl.map fun ttl => ", \"ttl\":" ++ toString ttl.toNat).getD "" ++ ", \"size\":" ++ toString r.size ++
    ", \"result\": " ++ r.result

theorem body_assoc {e t n c d m q u a f x p l s z r v : String} :
    e ++ t ++ n ++ c ++ (d ++ m ++ q ++ u) ++ a ++ f ++ x ++ p ++ l ++ s ++ z ++ r ++ v =
      e ++ t ++ n ++ c ++ d ++ m ++ q ++ (u ++ a ++ f ++ x ++ p ++ l ++ s ++ z ++ r ++ v) := by
  simp only [String.append_assoc]

theorem body_eq (r : Report) (lts : LtsText) :
    r.body lts = Report.head r lts ++ r.dstName.name ++ "\"" ++ Report.tail r := body_assoc

theorem opens_head (r : Report) {lts : LtsText} (hlts : IsNumber lts.own.toList) :
    OpensString (Report.head r lts) (envelopeFields ++ [("time", Shape.IsNumber)]) "dst_name" :=
  ((leading_envelope r.msmId.toNat hlts).andValue (p := "\"time\":") (k := "time") (fun _ _ => rfl)
    (readsAs_number (isNumber_int r.time))).opensString fun _ _ => rfl

theorem members_tail (r : Report) (hresult : ReadsAs r.result (Shape.ArrayOf Entry)) :
    Members (Report.tail r) (tailFields r.dstName.ttr.isSome r ++ [("result", Shape.ArrayOf Entry)]) := by
  have hsrc : Members ((r.srcAddr.map fun src => ", \"src_addr\":\"" ++ addrText src ++ "\"").getD "")
      (if r.srcAddr.isSome then [("src_addr", Shape.IsString)] else []) :=
    .getD_map fun src _ => .text (fun _ _ => rfl) rfl (plainText_addrText src).isContent
  have haddrs : Members (addrsText r) (if r.dstAddr.isSome then
      [("dst_addr", Shape.IsString)] ++ (if r.srcAddr.isSome then [("src_addr", Shape.IsString)] else []) else []) :=
    .getD_map fun dst _ => (Members.text (p := ", \"dst_addr\":\"") (k := "dst_addr") (fun _ _ => rfl) rfl
      (plainText_ipAddr dst).isContent).append hsrc
  have hproto : Members ", \"proto\":\"ICMP\"" [("proto", Shape.IsString)] :=
    .literal rfl fun _ _ => rfl
  have httl : Members ((r.ttl.map fun ttl => ", \"ttl\":" ++ toString ttl.toNat).getD "")
      (if r.ttl.isSome then [("ttl", Shape.IsNumber)] else []) :=
    .getD_map fun ttl _ => .value (fun _ _ => rfl) rfl (readsAs_number (isNumber_toString _))
  have haf := (members_ttr r.dstName.ttr).andValue (p := ", \"af\":") (k := "af") (fun _ _ => rfl) rfl (readsAs_number (isNumber_toString r.af))
  have hsize := (((haf.append haddrs).append hproto).append httl).andValue (p := ", \"size\":") (k := "size")
    (fun _ _ => rfl) rfl (readsAs_number (isNumber_toString r.size))
  exact hsize.andValue (fun _ _ => rfl) rfl hresult

theorem starts_tail (r : Report) : StartsMember (Report.tail r) :=
  have haf : StartsMember (ttrText r.dstName.ttr ++ ", \"af\":") :=
    startsMember_ttr _ ⟨'a', ['f'], [], rfl, rfl, rfl⟩
  haf.append.append.append.append.append.append.append.append

/-- The line of a report is read with its members exactly when the target's
name, its marks filled, can stand in a string. -/
theorem prescribed_report_iff (r : Report) (hresult : ReadsAs r.result (Shape.ArrayOf Entry)) (lts : Int) :
    Prescribed (uploadedLine (r.body .written) lts) (Report.fields r) ↔ NameOk lts r.dstName.name := by
  have hlts : IsNumber LtsText.written.own.toList := ⟨.zero, rfl, rfl⟩
  rw [body_eq]
  exact prescribed_around_iff (opens_head r hlts) (members_tail r hresult) (starts_tail r) id

/-! ## Runs -/

theorem readsAs_errorResult {error : String} (herror : PlainText error) :
    ReadsAs ("[ " ++ errorEntry error ++ " ]") (Shape.ArrayOf Entry) := readsAs_singleton (entry_error herror)

theorem readsAs_outcomeResult (c : Config) (time : Int) (kept : Kept) (outcome : Outcome) :
    ReadsAs (c.outcomeResult time kept outcome).1.result (Shape.ArrayOf Entry) := by
  cases outcome with
  | ran loc events => exact readsAs_array (readsAs_pingCb events (dataLen c.size) loc kept.rcvdTtl)
  | failed call error =>
    refine readsAs_errorResult (plainText_append.mpr ⟨?_, error.plain⟩)
    cases call <;> decide

/-- A run's report has the target's name, and an array of results. -/
theorem report_eq_some {msmId : UInt64} {spec : Impl.Scheduler.PingJobSpec} {met : Impl.Reports.Ping.Met} {r : Report}
    (h : report msmId spec met = some r) :
    r.dstName.name = spec.target ∧ ReadsAs r.result (Shape.ArrayOf Entry) := by
  unfold report at h
  dsimp only at h
  split at h
  · split_ifs at h
    · cases h
      refine ⟨?_, readsAs_outcomeResult _ _ _ _⟩
      cases met.outcome <;> rfl
    · cases h
      exact ⟨rfl, readsAs_errorResult (by decide)⟩
  · rename_i error _
    unfold Config.lookupFailed at h
    split_ifs at h
    cases h
    exact ⟨rfl, readsAs_errorResult (plainText_append.mpr ⟨by decide, plainText_lookupErrorText error⟩)⟩

end Starla.Proof.Reports.Ping
