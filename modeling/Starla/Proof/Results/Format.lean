import Starla.Framework.JsonFormat
import Starla.Framework.JsonMembers
import Starla.Impl.Results.Format

/-!
# What the upload fills in

A body is filled at its marks, if it has any, and else at its placeholder.

* `fillRun` : the text read from left to right, a mark begun as the state.
* `uploadedLine_of_marked`, `uploadedLine_of_unmarked` : the line of a body.
* `feed_replaceFirst` : the placeholder filled in, a text is read as before.
* `prescribed_around_iff` : a name in an object, and when the line is read with
  the object's members.
-/

namespace Starla.Proof.Results

open Starla.Framework Starla.Framework.JsonText Starla.Impl.Results

/-! ## Marks -/

def Unmarked (s : String) : Prop := DNS_LTS_MARK ∉ s.toList

instance (s : String) : Decidable (Unmarked s) := inferInstanceAs (Decidable (_ ∉ _))

@[simp] theorem unmarked_append {a b : String} : Unmarked (a ++ b) ↔ Unmarked a ∧ Unmarked b := by
  simp [Unmarked]

theorem unmarked_of_plainText {s : String} (hs : PlainText s) : Unmarked s := fun hmark =>
  absurd (List.all_eq_true.mp hs _ hmark) (by decide)

/-! ## Filling -/

variable {lts : Int} {a cs ds : List Char}

/-- A character of a body, `part` what has been read of a mark begun. -/
def fillStep (lts : Int) : (part : Option (List Char)) → Char → List Char × Option (List Char)
  | none, c => if c = DNS_LTS_MARK then ([], some []) else ([c], none)
  | some part, c =>
    if c = DNS_LTS_MARK then ((toString (ltsAt lts part)).toList, none) else ([], some (part ++ [c]))

/-- What a text is filled to, and what is left of a mark begun. -/
def fillRun (lts : Int) (part : Option (List Char)) : List Char → List Char × Option (List Char)
  | [] => ([], part)
  | c :: cs =>
    let (out, part) := fillStep lts part c
    let (rest, part) := fillRun lts part cs
    (out ++ rest, part)

/-- A mark that is the last: the text after it is its part. -/
def flush (lts : Int) : (part : Option (List Char)) → List Char
  | none => []
  | some part => (toString (ltsAt lts part)).toList

theorem fillRun_append (part : Option (List Char)) :
    fillRun lts part (cs ++ ds) =
      ((fillRun lts part cs).1 ++ (fillRun lts (fillRun lts part cs).2 ds).1,
        (fillRun lts (fillRun lts part cs).2 ds).2) := by
  induction cs generalizing part with
  | nil => rfl
  | cons c cs ih =>
    rw [List.cons_append, fillRun, fillRun]
    dsimp only
    rw [ih, List.append_assoc]

theorem fillRun_unmarked (ha : DNS_LTS_MARK ∉ a) : fillRun lts none a = (a, none) := by
  induction a with
  | nil => rfl
  | cons c a ih =>
    rw [List.mem_cons, not_or] at ha
    rw [fillRun, fillStep, if_neg (Ne.symm ha.1)]
    dsimp only
    rw [ih ha.2]
    rfl

/-- Within a mark, no text is written. -/
theorem fillRun_part {part : List Char} (ha : DNS_LTS_MARK ∉ a) : fillRun lts (some part) a = ([], some (part ++ a)) := by
  induction a generalizing part with
  | nil => rw [List.append_nil, fillRun]
  | cons c a ih =>
    rw [List.mem_cons, not_or] at ha
    rw [fillRun, fillStep, if_neg (Ne.symm ha.1)]
    dsimp only
    rw [ih ha.2, List.append_assoc]
    rfl

/-- A text's two marks, and what is between them. -/
theorem fillRun_marks {part : List Char} (hpart : DNS_LTS_MARK ∉ part) :
    fillRun lts none (DNS_LTS_MARK :: (part ++ [DNS_LTS_MARK])) = ((toString (ltsAt lts part)).toList, none) := by
  rw [fillRun, fillStep, if_pos rfl]
  dsimp only
  rw [fillRun_append, fillRun_part hpart]
  simp [fillRun, fillStep]

/-- The parts between marks, filled one after the other. -/
theorem fillMarks_splitOn (cs : List Char) :
    fillMarks lts false (cs.splitOn DNS_LTS_MARK) =
        String.ofList ((fillRun lts none cs).1 ++ flush lts (fillRun lts none cs).2) ∧
      ∀ part, fillMarks lts true ((cs.splitOn DNS_LTS_MARK).modifyHead (part ++ ·)) =
        String.ofList ((fillRun lts (some part) cs).1 ++ flush lts (fillRun lts (some part) cs).2) := by
  induction cs with
  | nil =>
    refine ⟨rfl, fun part => ?_⟩
    rw [List.splitOn_nil, List.modifyHead_cons, fillMarks, fillMarks, String.append_empty, List.append_nil]
    show _ = String.ofList (toString _).toList
    rw [String.ofList_toList]
  | cons c cs ih =>
    obtain ⟨ih, ihPart⟩ := ih
    rw [List.splitOn_cons_eq_if_modifyHead]
    by_cases hc : c = DNS_LTS_MARK
    · have hbegun := ihPart []
      rw [show (([] : List Char) ++ ·) = id from rfl, List.modifyHead_id] at hbegun
      refine ⟨?_, fun part => ?_⟩
      · rw [if_pos (beq_iff_eq.mpr hc), fillMarks, fillRun, fillStep, if_pos hc]
        simpa using hbegun
      · rw [if_pos (beq_iff_eq.mpr hc), List.modifyHead_cons, fillMarks, List.append_nil, fillRun, fillStep,
          if_pos hc, ih]
        simp [String.ofList_append]
    · obtain ⟨p, ps, hsplit⟩ := List.exists_cons_of_ne_nil (List.splitOn_ne_nil DNS_LTS_MARK cs)
      rw [if_neg (by simpa using hc), hsplit, List.modifyHead_cons]
      rw [hsplit] at ih ihPart
      refine ⟨?_, fun part => ?_⟩
      · rw [fillRun, fillStep, if_neg hc]
        dsimp only
        rw [List.append_assoc, String.ofList_append, ← ih, fillMarks, fillMarks, ← String.append_assoc,
          ← String.ofList_append]
        rfl
      · have hpart := ihPart (part ++ [c])
        rw [fillRun, fillStep, if_neg hc]
        simpa using hpart

/-! ## The line of a body -/

theorem body_ofFullLine (body : String) (lts : Int) :
    (AtlasResult.ofFullLine body lts).body = some body.toList := by
  rw [AtlasResult.body, AtlasResult.ofFullLine, String.toList_append]
  exact stripPrefix_eq_some.mpr rfl

theorem uploadedLine_of_marked {body : String} (hbody : ¬ Unmarked body) (lts : Int) :
    uploadedLine body lts = "RESULT \x7b " ++
      String.ofList ((fillRun lts none body.toList).1 ++ flush lts (fillRun lts none body.toList).2) ++ " \x7d\n" := by
  have hmark : ¬ DNS_LTS_MARK ∉ body.toList := hbody
  have hline : (AtlasResult.ofFullLine body lts).dnsResultLine = some ("RESULT \x7b " ++
      String.ofList ((fillRun lts none body.toList).1 ++ flush lts (fillRun lts none body.toList).2) ++
        " \x7d\n") := by
    rw [AtlasResult.dnsResultLine, body_ofFullLine, Option.bind_some, if_neg hmark]
    exact congrArg (fun text => some ("RESULT \x7b " ++ text ++ " \x7d\n")) (fillMarks_splitOn body.toList).1
  rw [uploadedLine, AtlasResult.toResultLine, hline]
  rfl

theorem uploadedLine_of_unmarked {body : String} (hbody : Unmarked body) (lts : Int) :
    uploadedLine body lts = "RESULT \x7b " ++ String.ofList
      (replaceFirst LTS_PLACEHOLDER.toList ("\"lts\":" ++ toString lts ++ ",").toList body.toList) ++ " \x7d\n" := by
  have hnone : DNS_LTS_MARK ∉ body.toList := hbody
  have hline : (AtlasResult.ofFullLine body lts).dnsResultLine = none := by
    rw [AtlasResult.dnsResultLine, body_ofFullLine, Option.bind_some, if_pos hnone]
  rw [uploadedLine, AtlasResult.toResultLine, hline, body_ofFullLine]
  rfl

/-! ## The placeholder -/

/-- `"lts":` is read as a member's name, wherever it is read. -/
theorem value_of_feed_name {s t : State} (ht : feed s ['"', 'l', 't', 's', '"', ':'] = some t) :
    ∃ hs ms k, t = ⟨hs, .value (.object ms k)⟩ := by
  obtain ⟨hs, m⟩ := s
  cases m with
  | value h => cases h <;> cases ht
  | string h w => cases w <;> cases h <;> cases ht
  | number h n => cases n <;> cases h <;> cases ht
  | literal h l => cases l <;> cases ht
  | member ms =>
    cases ht
    exact ⟨_, _, _, rfl⟩
  | name ms w cs =>
    cases w with
    | escape =>
      cases ht
      exact ⟨_, _, _, rfl⟩
    | _ => cases ht
  | _ => cases ht

/-- A number and a comma after the name, whichever number it is. -/
theorem feed_placeholder (s : State) {n : List Char} (hn : IsNumber n) (cs : List Char) :
    feed s ("\"lts\":".toList ++ (n ++ ',' :: cs)) = feed s ("\"lts\":".toList ++ ('0' :: ',' :: cs)) := by
  rw [feed_append, feed_append]
  cases ht : feed s "\"lts\":".toList with
  | none => rfl
  | some t =>
    obtain ⟨hs, ms, k, rfl⟩ := value_of_feed_name ht
    have hzero : IsNumber ['0'] := ⟨.zero, rfl, rfl⟩
    rw [Option.bind_some, Option.bind_some, feed_number hn rfl]
    have hlast : feed ⟨hs, .value (.object ms k)⟩ (['0'] ++ ',' :: cs) = _ := feed_number hzero rfl
    exact hlast.symm

/-- With the placeholder filled in, a text is read as before. -/
theorem feed_replaceFirst (lts : Int) (s : State) (cs : List Char) :
    feed s (replaceFirst LTS_PLACEHOLDER.toList ("\"lts\":" ++ toString lts ++ ",").toList cs) = feed s cs := by
  induction cs generalizing s with
  | nil => rfl
  | cons c cs ih =>
    rw [replaceFirst]
    cases hprefix : stripPrefix LTS_PLACEHOLDER.toList (c :: cs) with
    | none =>
      dsimp only
      rw [feed_cons, feed_cons]
      exact congrArg _ (funext ih)
    | some rest =>
      have htext : c :: cs = "\"lts\":".toList ++ ('0' :: ',' :: rest) := (stripPrefix_eq_some.mp hprefix).trans rfl
      have hfilled : ("\"lts\":" ++ toString lts ++ ",").toList ++ rest =
          "\"lts\":".toList ++ ((toString lts).toList ++ ',' :: rest) := by
        rw [String.toList_append, String.toList_append, List.append_assoc, List.append_assoc]
        rfl
      dsimp only
      rw [hfilled, htext, feed_placeholder s (isNumber_int lts)]

/-! ## Lines that are read -/

/-- A line whose object is read, with the members `fs`. -/
def Prescribed (line : String) (fs : Fields) : Prop :=
  ∃ object v, line = "RESULT " ++ object ++ "\n" ∧ read object.toList = some v ∧ v.ObjectOf fs

theorem prescribed_iff {text : String} {fs : Fields} :
    Prescribed ("RESULT \x7b " ++ text ++ " \x7d\n") fs ↔
      ∃ v, read ("\x7b " ++ text ++ " \x7d").toList = some v ∧ v.ObjectOf fs := by
  have hline : "RESULT \x7b " ++ text ++ " \x7d\n" = "RESULT " ++ ("\x7b " ++ text ++ " \x7d") ++ "\n" := by
    rw [show "RESULT \x7b " = "RESULT " ++ "\x7b " from rfl, show " \x7d\n" = " \x7d" ++ "\n" from rfl]
    simp only [String.append_assoc]
  constructor
  · rintro ⟨object, v, heq, hread, hv⟩
    rw [hline] at heq
    have hlist := congrArg String.toList heq
    simp only [String.toList_append, List.append_cancel_right_eq, List.append_cancel_left_eq] at hlist
    refine ⟨v, ?_, hv⟩
    simp only [String.toList_append]
    rwa [hlist]
  · rintro ⟨v, hread, hv⟩
    exact ⟨_, v, hline, hread, hv⟩

/-- The placeholder of a body without marks may be filled in or not. -/
theorem prescribed_unmarked {body : String} (hbody : Unmarked body) (lts : Int) {fs : Fields} :
    Prescribed (uploadedLine body lts) fs ↔
      ∃ v, read ("\x7b " ++ body ++ " \x7d").toList = some v ∧ v.ObjectOf fs := by
  have hread : read ("\x7b " ++ String.ofList (replaceFirst LTS_PLACEHOLDER.toList
      ("\"lts\":" ++ toString lts ++ ",").toList body.toList) ++ " \x7d").toList =
        read ("\x7b " ++ body ++ " \x7d").toList := by
    rw [JsonText.read, JsonText.read]
    simp only [String.toList_append, String.toList_ofList, feed_append, Option.bind_assoc]
    simp only [← String.toList_append, feed_replaceFirst]
  rw [uploadedLine_of_unmarked hbody, prescribed_iff, hread]

/-! ## Names -/

/-- A name whose marks pair up, and that is a string's content once they are
filled. -/
def NameOk (lts : Int) (name : String) : Prop :=
  (fillRun lts none name.toList).2 = none ∧ IsContent (fillRun lts none name.toList).1

instance (lts : Int) (name : String) : Decidable (NameOk lts name) := inferInstanceAs (Decidable (_ ∧ _))

theorem nameOk_of_unmarked {name : String} (hname : Unmarked name) : NameOk lts name ↔ IsContent name.toList := by
  rw [NameOk, fillRun_unmarked hname]
  exact and_iff_right rfl

theorem isControl_mark : isControl DNS_LTS_MARK = true := by decide

theorem toString_int_eq (n : Int) : ∃ cs c, (toString n).toList = cs ++ [c] ∧ c.isDigit = true := by
  have hnat : ∀ n : Nat, ∃ cs c, (toString n).toList = cs ++ [c] ∧ c.isDigit = true := by
    intro n
    obtain ⟨cs, c, hcs⟩ := (List.eq_nil_or_concat' (toString n).toList).resolve_left (by simp)
    exact ⟨cs, c, hcs, isDigit_of_mem_toString (hcs ▸ List.mem_append_right _ List.mem_cons_self)⟩
  cases n with
  | ofNat n => exact hnat n
  | negSucc n =>
    obtain ⟨cs, c, hcs, hc⟩ := hnat (n + 1)
    refine ⟨'-' :: cs, c, ?_, hc⟩
    show ("-" ++ toString (n + 1)).toList = _
    rw [String.toList_append, hcs]
    rfl

variable {pre post rest name k k' : String} {fs gs : Fields} {P : Shape → Prop}

/-- A body with a name whose marks pair up. -/
theorem prescribed_of_pairs (hpre : Unmarked pre) (hpost : Unmarked post)
    (hname : (fillRun lts none name.toList).2 = none) :
    Prescribed (uploadedLine (pre ++ name ++ "\"" ++ post) lts) fs ↔
      ∃ v, read (objectAround pre (String.ofList (fillRun lts none name.toList).1) post).toList = some v ∧
        v.ObjectOf fs := by
  by_cases hmark : Unmarked name
  · have hbody : Unmarked (pre ++ name ++ "\"" ++ post) := by
      simp only [unmarked_append]
      exact ⟨⟨⟨hpre, hmark⟩, by decide⟩, hpost⟩
    rw [prescribed_unmarked hbody, fillRun_unmarked hmark, String.ofList_toList, objectAround]
  · have hbody : ¬ Unmarked (pre ++ name ++ "\"" ++ post) := by
      simp only [unmarked_append]
      exact fun h => hmark h.1.1.2
    have hquote : Unmarked "\"" := by decide
    have hfill : fillRun lts none (pre ++ name ++ "\"" ++ post).toList =
        (pre.toList ++ (fillRun lts none name.toList).1 ++ "\"".toList ++ post.toList, none) := by
      simp only [String.toList_append, fillRun_append, fillRun_unmarked hpre, hname, fillRun_unmarked hquote,
        fillRun_unmarked hpost]
    have htext : String.ofList (pre.toList ++ (fillRun lts none name.toList).1 ++ "\"".toList ++ post.toList) =
        pre ++ String.ofList (fillRun lts none name.toList).1 ++ "\"" ++ post := by
      simp only [String.ofList_append, String.ofList_toList]
    rw [uploadedLine_of_marked hbody, hfill, flush, List.append_nil, htext, prescribed_iff, objectAround]

/-- A mark that is left over takes the rest of the object with it. -/
theorem not_prescribed_of_left (hpre : Unmarked pre) (hpost : Unmarked post) {part : List Char}
    (hname : (fillRun lts none name.toList).2 = some part) (hP : ¬ P .number) :
    ¬ Prescribed (uploadedLine (pre ++ name ++ "\"" ++ post) lts) (fs ++ [(k, P)]) := by
  have hbody : ¬ Unmarked (pre ++ name ++ "\"" ++ post) := by
    simp only [unmarked_append]
    intro h
    rw [fillRun_unmarked h.1.1.2] at hname
    cases hname
  have hquote : Unmarked "\"" := by decide
  have hfill : fillRun lts none (pre ++ name ++ "\"" ++ post).toList =
      (pre.toList ++ (fillRun lts none name.toList).1, some (part ++ "\"".toList ++ post.toList)) := by
    simp only [String.toList_append, fillRun_append, fillRun_unmarked hpre, hname, fillRun_part hquote,
      fillRun_part hpost, List.append_nil]
  obtain ⟨cs, c, hcs, hc⟩ := toString_int_eq (ltsAt lts (part ++ "\"".toList ++ post.toList))
  rw [uploadedLine_of_marked hbody, hfill, flush, hcs, ← List.append_assoc, String.ofList_append, prescribed_iff]
  exact not_read_of_isDigit hc hP

/-- A name between texts that are read: the line is read with the members of
all three exactly when the name is one that can stand there. -/
theorem prescribed_around_iff (hpre : OpensString pre fs k) (hpost : Members post (gs ++ [(k', P)]))
    (hstarts : StartsMember post) (hP : ¬ P .number) :
    Prescribed (uploadedLine (pre ++ name ++ "\"" ++ post) lts)
      (fs ++ (k, Shape.IsString) :: (gs ++ [(k', P)])) ↔ NameOk lts name := by
  have hpreMark : Unmarked pre := hpre.not_mem isControl_mark
  have hpostMark : Unmarked post := hpost.adds.not_mem isControl_mark
  cases hname : (fillRun lts none name.toList).2 with
  | none =>
    rw [prescribed_of_pairs hpreMark hpostMark hname, read_named_iff hpre hpost hstarts, NameOk, String.toList_ofList]
    exact (and_iff_right hname).symm
  | some part =>
    refine iff_of_false ?_ fun h => ?_
    · have hleft : ¬ Prescribed (uploadedLine (pre ++ name ++ "\"" ++ post) lts)
          ((fs ++ (k, Shape.IsString) :: gs) ++ [(k', P)]) :=
        not_prescribed_of_left hpreMark hpostMark hname hP
      rwa [List.append_assoc, List.cons_append] at hleft
    · rw [NameOk, hname] at h
      cases h.1

/-- A body that breaks before the name. -/
theorem not_prescribed_of_broken_start (hpre : Unmarked pre)
    (hbroken : feed ⟨[.root], .member []⟩ pre.toList = none) : ¬ Prescribed (uploadedLine (pre ++ rest) lts) fs := by
  have hnone : ∀ rest fs, ¬ ∃ v, read ("\x7b " ++ (pre ++ rest) ++ " \x7d").toList = some v ∧ v.ObjectOf fs := by
    rintro rest fs ⟨v, hread, -⟩
    rw [read_eq_none_of_broken_start hbroken] at hread
    cases hread
  by_cases hrest : Unmarked rest
  · rw [prescribed_unmarked (unmarked_append.mpr ⟨hpre, hrest⟩)]
    exact hnone rest fs
  · have hbody : ¬ Unmarked (pre ++ rest) := fun h => hrest (unmarked_append.mp h).2
    rw [uploadedLine_of_marked hbody, String.toList_append, fillRun_append, fillRun_unmarked hpre, List.append_assoc,
      String.ofList_append, String.ofList_toList, prescribed_iff]
    exact hnone _ fs

/-- A body that breaks after it. -/
theorem not_prescribed_of_broken (hpre : OpensString pre fs k) (hpost : Members post gs) (hstarts : StartsMember post)
    (hrest : delimited rest = true) (hmark : Unmarked rest)
    (hbroken : ∀ hs ms, feed ⟨hs, .afterMember ms⟩ rest.toList = none) {fs' : Fields} (hP : ¬ P .number) :
    ¬ Prescribed (uploadedLine (pre ++ name ++ "\"" ++ (post ++ rest)) lts) (fs' ++ [(k', P)]) := by
  have hpreMark : Unmarked pre := hpre.not_mem isControl_mark
  have hpostMark : Unmarked (post ++ rest) := unmarked_append.mpr ⟨hpost.adds.not_mem isControl_mark, hmark⟩
  cases hname : (fillRun lts none name.toList).2 with
  | none =>
    rw [prescribed_of_pairs hpreMark hpostMark hname]
    rintro ⟨v, hread, -⟩
    rw [read_eq_none_of_broken hpre hpost hstarts hrest hbroken] at hread
    cases hread
  | some part => exact not_prescribed_of_left hpreMark hpostMark hname hP

end Starla.Proof.Results
