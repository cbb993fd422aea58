import Mathlib.Algebra.Group.Nat.Even
import Starla.Impl.Scheduler.Job

/-!
# Two readings of a crontab's line

The command text (`shell`) tells a line from another; the tokens say what it
measures. The two cut the same command out of a line whose leading fields are
plain and whose rest holds no comment and no open quote (`Agree`).

* `tokensFrom_afterFields` : the tokens of a line whose first fields are plain.
* `jobOf_parseMeasurement` : what the header gives a job, and nothing else.
* `key_sound_of_agree` : lines that agree and have one key ask for one
  measurement.
-/

namespace Starla.Proof.Controller

open Starla.Framework Starla.Impl.Controller Starla.Impl.Scheduler

/-! ## Tokens -/

/-- The characters of a token: its quotes are dropped. -/
def unquoted (cs : List Char) : List Char := cs.filter (· ≠ '"')

/-- No quote is left open. -/
def Closed (cs : List Char) : Prop := Even (cs.count '"')

instance (cs : List Char) : Decidable (Closed cs) := inferInstanceAs (Decidable (Even _))

/-- Whether a text, started with a quote open or not, ends with one open. -/
def openAfter (inQuotes : Bool) (cs : List Char) : Bool := cs.foldl (fun q c => q != (c == '"')) inQuotes

theorem openAfter_cons (q : Bool) (c : Char) (cs : List Char) :
    openAfter q (c :: cs) = openAfter (q != (c == '"')) cs := rfl

theorem openAfter_eq (q : Bool) (cs : List Char) : openAfter q cs = (q != decide (¬ Closed cs)) := by
  induction cs generalizing q with
  | nil => simp [openAfter, Closed]
  | cons c cs ih =>
    rw [openAfter_cons, ih]
    by_cases hc : c = '"'
    · subst hc
      have : Closed ('"' :: cs) ↔ ¬ Closed cs := by simp [Closed, Nat.even_add_one]
      by_cases h : Closed cs <;> cases q <;> simp [this, h]
    · have : Closed (c :: cs) ↔ Closed cs := by simp [Closed, List.count_cons_of_ne hc]
      rw [beq_false_of_ne hc, Bool.bne_false, decide_eq_decide.mpr (not_congr this)]

theorem openAfter_closed {cs : List Char} (h : Closed cs) : openAfter false cs = false := by
  rw [openAfter_eq]; simp [h]

/-- A text without blanks goes into the token so far. -/
theorem tokensFrom_append (q : Bool) (cur cs s : List Char) (h : ∀ c ∈ cs, isBlank c = false) :
    tokensFrom q cur (cs ++ s) = tokensFrom (openAfter q cs) (cur ++ unquoted cs) s := by
  induction cs generalizing q cur with
  | nil => simp [openAfter, unquoted]
  | cons c cs ih =>
    have hc : isBlank c = false := h c List.mem_cons_self
    have ih := fun q cur => ih q cur fun c hc => h c (List.mem_cons_of_mem _ hc)
    rw [List.cons_append, tokensFrom, openAfter_cons]
    by_cases hq : c = '"'
    · subst hq
      rw [if_pos rfl, ih]
      cases q <;> rfl
    · rw [if_neg hq, hc, Bool.false_and, if_neg Bool.false_ne_true, ih, beq_false_of_ne hq, Bool.bne_false]
      simp [unquoted, hq]

/-- Where a token cannot go on, it ends. -/
theorem tokensFrom_end (cur s : List Char) (h : ∀ c ∈ s.head?, isBlank c = true) :
    tokensFrom false cur s = tokensFrom.flush cur ++ tokensFrom false [] s := by
  cases s with
  | nil => simp [tokensFrom, tokensFrom.flush]
  | cons c s =>
    have hc : isBlank c = true := h c rfl
    have hq : c ≠ '"' := fun h => by subst h; exact absurd hc (by decide)
    simp [tokensFrom, hq, hc, tokensFrom.flush]

theorem tokensFrom_dropWhile (s : List Char) :
    tokensFrom false [] (s.dropWhile isBlank) = tokensFrom false [] s := by
  induction s with
  | nil => rfl
  | cons c s ih =>
    rw [List.dropWhile_cons]
    split
    · rename_i hc
      have hq : c ≠ '"' := fun h => by subst h; exact absurd hc (by decide)
      rw [ih]
      simp [tokensFrom, hq, hc, tokensFrom.flush]
    · rfl

/-- Blanks after the last token. -/
theorem tokensFrom_blanks (q : Bool) (cur cs bs : List Char) (hbs : ∀ c ∈ bs, isBlank c = true)
    (h : openAfter q cs = false) : tokensFrom q cur (cs ++ bs) = tokensFrom q cur cs := by
  induction cs generalizing q cur with
  | nil =>
    have hq : q = false := h
    subst hq
    have hdrop : bs.dropWhile isBlank = [] := List.dropWhile_eq_nil_iff.mpr fun c hc => hbs c hc
    rw [List.nil_append, tokensFrom_end cur bs fun c hc => hbs c (List.mem_of_mem_head? hc),
      ← tokensFrom_dropWhile, hdrop]
    simp [tokensFrom, tokensFrom.flush]
  | cons c cs ih =>
    rw [openAfter_cons] at h
    rw [List.cons_append, tokensFrom, tokensFrom]
    by_cases hq : c = '"'
    · subst hq
      rw [if_pos rfl, if_pos rfl]
      exact ih _ _ (by cases q <;> exact h)
    · rw [beq_false_of_ne hq, Bool.bne_false] at h
      rw [if_neg hq, if_neg hq, ih _ _ h, ih _ _ h]

/-! ## Leading fields -/

/-- A field that reads the same as a token: its quotes pair up, and it is not
only quotes. -/
def PlainField (f : List Char) : Prop := Closed f ∧ unquoted f ≠ []

instance (f : List Char) : Decidable (PlainField f) := inferInstanceAs (Decidable (_ ∧ _))

/-- The first fields of a text, apart at blanks, are plain. -/
def PlainFields : Nat → List Char → Prop
  | 0, _ => True
  | n + 1, cs => PlainField (cs.takeWhile (! isBlank ·)) ∧ PlainFields n (afterField isBlank cs)

def decidePlainFields : (n : Nat) → (cs : List Char) → Decidable (PlainFields n cs)
  | 0, _ => .isTrue trivial
  | n + 1, cs =>
    have := decidePlainFields n (afterField isBlank cs)
    inferInstanceAs (Decidable (_ ∧ _))

instance (n : Nat) (cs : List Char) : Decidable (PlainFields n cs) := decidePlainFields n cs

/-- Their tokens. -/
def leading : Nat → List Char → List String
  | 0, _ => []
  | n + 1, cs =>
    String.ofList (unquoted (cs.takeWhile (! isBlank ·))) :: leading n (afterField isBlank cs)

theorem tokensFrom_field {cs : List Char} (h : PlainField (cs.takeWhile (! isBlank ·))) :
    tokensFrom false [] cs =
      String.ofList (unquoted (cs.takeWhile (! isBlank ·))) :: tokensFrom false [] (afterField isBlank cs) := by
  obtain ⟨hclosed, hne⟩ := h
  have hnb : ∀ c ∈ cs.takeWhile (! isBlank ·), isBlank c = false := fun c hc => by
    simpa using List.mem_takeWhile_imp hc
  have hhead : ∀ c ∈ (cs.dropWhile (! isBlank ·)).head?, isBlank c = true := fun c hc => by
    have := List.head?_dropWhile_not (! isBlank ·) cs
    rw [Option.mem_def.mp hc] at this
    simpa using this
  conv_lhs => rw [← List.takeWhile_append_dropWhile (p := (! isBlank ·)) (l := cs)]
  rw [tokensFrom_append _ _ _ _ hnb, openAfter_closed hclosed, List.nil_append,
    tokensFrom_end _ _ hhead, afterField, tokensFrom_dropWhile]
  simp [tokensFrom.flush, hne]

/-- The tokens of a text whose first fields are plain. -/
theorem tokensFrom_afterFields {n : Nat} {cs : List Char} (h : PlainFields n cs) :
    tokensFrom false [] cs = leading n cs ++ tokensFrom false [] (afterFields isBlank n cs) := by
  induction n generalizing cs with
  | zero => rfl
  | succ n ih => rw [tokensFrom_field h.1, ih h.2]; rfl

/-! ## What the header gives a job -/

/-- The header's numbers in a job. -/
def headed (h : CronHeader) (job : MeasurementJob MeasurementSpec) : MeasurementJob MeasurementSpec :=
  { job with interval := h.interval, startTime := h.startTime, endTime := h.endTime, spread := h.spread }

/-- A parser that takes nothing but the job's times from the header. -/
def TakesTimes (parse : Nat → Int → Nat → TelnetCommand) : Prop :=
  ∀ h : CronHeader, jobOf (setStartTime h.startTime (parse h.interval h.endTime h.spread)) =
    (jobOf (parse 0 0 0)).map (headed h)

theorem takesTimes_evping (args : List String) : TakesTimes (parseEvping args) := fun h => by
  unfold parseEvping
  dsimp only
  split <;> rfl

theorem takesTimes_evtraceroute (args : List String) : TakesTimes (parseEvtraceroute args) := fun h => by
  unfold parseEvtraceroute
  cases evtracerouteArgs {} args with
  | none => rfl
  | some s =>
    obtain ⟨opts, v4, v6, icmp, tcp, msmId, targets⟩ := s
    match targets with
    | [] | _ :: _ :: _ => rfl
    | [target] =>
      dsimp only
      split <;> rfl

theorem takesTimes_evhttpget (args : List String) : TakesTimes (parseEvhttpget args) := fun h => by
  unfold parseEvhttpget
  dsimp only
  split <;> rfl

theorem takesTimes_evsslgetcert (args : List String) : TakesTimes (parseEvsslgetcert args) := fun h => by
  unfold parseEvsslgetcert
  dsimp only
  split <;> rfl

theorem takesTimes_evntp (args : List String) : TakesTimes (parseEvntp args) := fun h => by
  unfold parseEvntp
  dsimp only
  split
  · rfl
  · split <;> rfl

/-! ### evtdig -/

/-- The times of a DNS measurement. -/
def timed (spread : Option Nat) (schedule : ScheduleSpec) (spec : DnsSpec) : DnsSpec :=
  { spec with spread, schedule }

def EvtdigArgs.timed (spread : Option Nat) (schedule : ScheduleSpec) (s : EvtdigArgs) : EvtdigArgs :=
  { s with spec := Controller.timed spread schedule s.spec }

variable (spread : Option Nat) (schedule : ScheduleSpec)

/-- No option reads or sets the times. -/
theorem set_timed (s : EvtdigArgs) (o : DigOpt × String) :
    (EvtdigArgs.timed spread schedule s).set o = (s.set o).map (EvtdigArgs.timed spread schedule) := by
  obtain ⟨opt, value⟩ := o
  cases opt <;> first
    | rfl
    | (unfold Impl.Controller.EvtdigArgs.set; dsimp only; split <;> rfl)

theorem foldlM_set_timed (opts : List (DigOpt × String)) (s : EvtdigArgs) :
    opts.foldlM Impl.Controller.EvtdigArgs.set (EvtdigArgs.timed spread schedule s) =
      (opts.foldlM Impl.Controller.EvtdigArgs.set s).map (EvtdigArgs.timed spread schedule) := by
  induction opts generalizing s with
  | nil => rfl
  | cons o opts ih =>
    rw [List.foldlM_cons, List.foldlM_cons, set_timed]
    cases s.set o with
    | none => rfl
    | some s => exact ih s

theorem finish_timed (s : EvtdigArgs) (operands : List String) :
    (EvtdigArgs.timed spread schedule s).finish operands =
      (s.finish operands).map (timed spread schedule) := by
  unfold Impl.Controller.EvtdigArgs.finish
  obtain ⟨spec, v4, v6, query⟩ := s
  cases hr : spec.resolv <;> cases query <;> rcases operands with _ | ⟨server, _ | ⟨o, os⟩⟩ <;>
    simp [EvtdigArgs.timed, Controller.timed, hr]

theorem takesTimes_evtdig (args : List String) : TakesTimes (parseEvtdig args) := fun h => by
  unfold parseEvtdig
  cases evtdigGetopt args with
  | error e => rfl
  | ok parsed =>
    obtain ⟨opts, operands⟩ := parsed
    have hfold : ∀ spread schedule,
        (opts.foldlM Impl.Controller.EvtdigArgs.set { spec := { spread, schedule } }).bind
            (·.finish operands) =
          ((opts.foldlM Impl.Controller.EvtdigArgs.set { spec := {} }).bind (·.finish operands)).map
            (timed spread schedule) := fun spread schedule => by
      rw [show ({ spec := { spread, schedule } } : EvtdigArgs) =
        EvtdigArgs.timed spread schedule { spec := {} } from rfl, foldlM_set_timed]
      cases opts.foldlM Impl.Controller.EvtdigArgs.set { spec := {} } with
      | none => rfl
      | some s => exact finish_timed spread schedule s operands
    dsimp only
    rw [hfold (some h.spread), hfold (some 0)]
    cases (opts.foldlM Impl.Controller.EvtdigArgs.set { spec := {} }).bind (·.finish operands) <;> rfl

/-! ### Every tool -/

/-- An upload line is no measurement. -/
theorem jobOf_httppost (cmd : String) (args : List String) (startTime : Int) (h : CronHeader) :
    jobOf (setStartTime startTime
      ((parseHttppost args h.interval h.startTime h.endTime h.spread).getD (.ignored cmd))) = none := by
  unfold parseHttppost
  split
  · rfl
  · split <;> rfl

/-- The measurement a tool's arguments ask for, at no times of its own. -/
def measurementOf (tool : String) (args : List String) : Option (MeasurementJob MeasurementSpec) :=
  jobOf (parseMeasurement "" tool args 0 0 0 0)

/-- A line's job: the measurement its tool and arguments ask for, at the
header's times. -/
theorem jobOf_parseMeasurement (cmd tool : String) (args : List String) (h : CronHeader) :
    jobOf (setStartTime h.startTime
      (parseMeasurement cmd tool args h.interval h.startTime h.endTime h.spread)) =
    (measurementOf tool args).map (headed h) := by
  unfold measurementOf parseMeasurement
  split
  · exact takesTimes_evping args h
  · exact takesTimes_evtraceroute args h
  · exact takesTimes_evtdig args h
  · exact takesTimes_evhttpget args h
  · exact takesTimes_evsslgetcert args h
  · exact takesTimes_evntp args h
  · rfl
  · rfl
  · exact jobOf_httppost cmd args h.startTime h
  · rfl
  · rfl
  · rfl
  · rfl

/-! ## A CRONLINE -/

/-- The text from its first field on. -/
def fields (t : String) : List Char := t.toList.dropWhile isBlank

/-- What follows the leading fields, as it stands. -/
def rest (t : String) : List Char := afterFields isBlank 5 (fields t)

theorem parseCommand_cronline (fromStr : String → Option Json) (t : String) :
    parseCommand fromStr (CMD_CRONLINE ++ t) = parseCronline (CMD_CRONLINE ++ t) := by
  have hchars : (CMD_CRONLINE ++ t).toList = "CRONLINE".toList ++ ' ' :: t.toList := by
    rw [String.toList_append]; rfl
  have hwords : splitWhitespace (CMD_CRONLINE ++ t) =
      "CRONLINE" :: (words isWhitespace t.toList).map String.ofList := by
    rw [splitWhitespace, hchars, words, wordsFrom_append (forall_mem_of_all (by decide)) (by decide)]
    rfl
  have hhead : (CMD_CRONLINE ++ t).toList.head? ≠ some '{' := by
    rw [hchars]; simp
  have hupper : toUppercase "CRONLINE" = "CRONLINE" := by decide
  rw [parseCommand, if_neg hhead, parseTextCommand, hwords]
  simp only [hupper]

theorem tokenizeCronline_eq {t : String} (h : PlainFields 5 (fields t)) :
    tokenizeCronline (CMD_CRONLINE ++ t) =
      "CRONLINE" :: (leading 5 (fields t) ++ tokensFrom false [] (rest t)) := by
  have hchars : (CMD_CRONLINE ++ t).toList = "CRONLINE".toList ++ ' ' :: t.toList := by
    rw [String.toList_append]; rfl
  have hrest : leading 5 (fields t) ++ tokensFrom false [] (rest t) = tokensFrom false [] t.toList := by
    rw [rest, ← tokensFrom_afterFields h, fields, tokensFrom_dropWhile]
  rw [tokenizeCronline, hchars, hrest, tokensFrom_append _ _ _ _ (forall_mem_of_all (by decide)),
    show openAfter false "CRONLINE".toList = false from rfl, tokensFrom_end _ _ (by simp [isBlank])]
  simp [tokensFrom, tokensFrom.flush, isBlank, unquoted]

/-- The job of a line whose leading fields are plain. -/
theorem jobOf_cronline (fromStr : String → Option Json) {t : String} (h : PlainFields 5 (fields t))
    {job : MeasurementJob MeasurementSpec} (hjob : jobOf (cronline fromStr t).command = some job) :
    ∃ tool args m, tokensFrom false [] (rest t) = tool :: args ∧ measurementOf tool args = some m ∧
      job.msmId = m.msmId ∧ job.spec = m.spec := by
  change jobOf (parseCommand fromStr (CMD_CRONLINE ++ t)) = some job at hjob
  rw [parseCommand_cronline, parseCronline, tokenizeCronline_eq h] at hjob
  simp only [leading, List.cons_append, List.nil_append] at hjob
  cases hrest : tokensFrom false [] (rest t) with
  | nil => rw [hrest] at hjob; exact absurd hjob (by simp [jobOf])
  | cons tool args =>
    rw [hrest] at hjob
    simp only at hjob
    split at hjob
    · rw [jobOf_parseMeasurement] at hjob
      obtain ⟨m, hm, rfl⟩ := Option.map_eq_some_iff.mp hjob
      exact ⟨tool, args, m, rfl, hm, rfl, rfl⟩
    · exact absurd hjob (by simp [jobOf])

/-! ## Two CRONLINEs -/

/-- The leading fields are plain, and what follows them is the same text, or
holds no comment and no open quote. -/
structure Agree (t t' : String) : Prop where
  plain : PlainFields 5 (fields t)
  plain' : PlainFields 5 (fields t')
  same : rest t = rest t' ∨
    ('#' ∉ t.toList ∧ Closed (rest t)) ∧ ('#' ∉ t'.toList ∧ Closed (rest t'))

theorem takeWhile_of_not_mem {cs : List Char} (h : '#' ∉ cs) : cs.takeWhile (· != '#') = cs :=
  List.takeWhile_eq_self_iff.mpr fun c hc => by
    simp only [bne_iff_ne, ne_eq]
    rintro rfl
    exact h hc

/-- The tokens of a command without a comment and an open quote are those of
its text in the key. -/
theorem tokensFrom_rest {t : String} (hhash : '#' ∉ t.toList) (hclosed : Closed (rest t)) :
    tokensFrom false [] (rest t) = tokensFrom false [] (shellChars t.toList) := by
  have hshell : shellChars t.toList = (rest t).rdropWhile isBlank := by
    rw [shellChars, takeWhile_of_not_mem hhash]; rfl
  rw [hshell]
  have hsplit : (rest t).rdropWhile isBlank ++ (rest t).rtakeWhile isBlank = rest t :=
    List.rdropWhile_append_rtakeWhile ..
  have hblank : ∀ c ∈ (rest t).rtakeWhile isBlank, isBlank c = true := fun c hc =>
    List.mem_rtakeWhile_imp hc
  have hclosed' : Closed ((rest t).rdropWhile isBlank) := by
    have hcount : ((rest t).rtakeWhile isBlank).count '"' = 0 := by
      rw [List.count_eq_zero]
      exact fun h => absurd (hblank _ h) (by decide)
    rw [Closed, ← hsplit, List.count_append, hcount, Nat.add_zero] at hclosed
    exact hclosed
  conv_lhs => rw [← hsplit]
  exact tokensFrom_blanks _ _ _ _ hblank (openAfter_closed hclosed')

/-- Two lines of one key whose texts agree ask for one measurement. -/
theorem key_sound_of_agree (fromStr : String → Option Json) (file : String) (t t' : String)
    (hagree : Agree t t') (job job' : MeasurementJob MeasurementSpec)
    (hjob : jobOf (cronline fromStr t).command = some job)
    (hjob' : jobOf (cronline fromStr t').command = some job')
    (hkey : Impl.Scheduler.CrontabLine.key ⟨(cronline fromStr t).shell, job⟩ file =
      Impl.Scheduler.CrontabLine.key ⟨(cronline fromStr t').shell, job'⟩ file) :
    job.msmId = job'.msmId ∧ job.spec = job'.spec := by
  obtain ⟨tool, args, m, htokens, hm, hid, hspec⟩ := jobOf_cronline fromStr hagree.plain hjob
  obtain ⟨tool', args', m', htokens', hm', hid', hspec'⟩ := jobOf_cronline fromStr hagree.plain' hjob'
  have hsame : tokensFrom false [] (rest t) = tokensFrom false [] (rest t') := by
    rcases hagree.same with h | ⟨⟨hhash, hclosed⟩, hhash', hclosed'⟩
    · rw [h]
    · have hshell : shellChars t.toList = shellChars t'.toList := by
        simp only [Impl.Scheduler.CrontabLine.key, LineKey.crontab.injEq] at hkey
        exact String.ofList_injective hkey.2.2.2
      rw [tokensFrom_rest hhash hclosed, tokensFrom_rest hhash' hclosed', hshell]
  rw [htokens, htokens', List.cons.injEq] at hsame
  rw [hsame.1, hsame.2, hm'] at hm
  cases hm
  exact ⟨hid.trans hid'.symm, hspec.trans hspec'.symm⟩

/-- A line of a ping. -/
def pingLine : String := "240 274 0 UNIFORM 3 evping -4 -A 1001 192.0.2.1"

/-- Its job. -/
def pingJob (target : String) : MeasurementJob MeasurementSpec :=
  ⟨1001, 240, 274, 0, 3, .ping ⟨target, 4, 3, 1000, 0⟩⟩

/-- The same line with another end time and spread, and a tab in its header. -/
def repeatedLine : String := "240 274\t1770761451 NONE 9 evping -4 -A 1001 192.0.2.1 "

/-- The job of a line by its tokens. -/
theorem jobOf_tokens (fromStr : String → Option Json) {t interval startTime endTime distribution parameter tool : String}
    {args : List String} {h : CronHeader} (hplain : PlainFields 5 (fields t))
    (htokens : leading 5 (fields t) ++ tokensFrom false [] (rest t) =
      interval :: startTime :: endTime :: distribution :: parameter :: tool :: args)
    (hheader : parseHeader interval startTime endTime distribution parameter = some h) :
    jobOf (cronline fromStr t).command = (measurementOf tool args).map (headed h) := by
  change jobOf (parseCommand fromStr (CMD_CRONLINE ++ t)) = _
  rw [parseCommand_cronline, parseCronline, tokenizeCronline_eq hplain, htokens]
  simp only [hheader]
  exact jobOf_parseMeasurement _ tool args h

theorem plain_pingLine : PlainFields 5 (fields pingLine) := by
  rw [fields, show pingLine = String.ofList _ from rfl, String.toList_ofList]
  decide

theorem jobOf_pingLine : jobOf (cronline (fun _ => none) pingLine).command = some (pingJob "192.0.2.1") := by
  have htokens : leading 5 (fields pingLine) ++ tokensFrom false [] (rest pingLine) =
      ["240", "274", "0", "UNIFORM", "3", "evping", "-4", "-A", "1001", "192.0.2.1"] := by
    rw [rest, fields, show pingLine = String.ofList _ from rfl, String.toList_ofList]
    rfl
  have hheader : parseHeader "240" "274" "0" "UNIFORM" "3" = some ⟨240, 274, 0, 3⟩ := by decide
  rw [jobOf_tokens _ plain_pingLine htokens hheader]
  decide

theorem shell_pingLine : (cronline (fun _ => none) pingLine).shell = "evping -4 -A 1001 192.0.2.1" := by
  show String.ofList (shellChars pingLine.toList) = _
  rw [show pingLine = String.ofList _ from rfl, String.toList_ofList]
  rfl

theorem key_sound_of_agree_repeated :
    (jobOf (cronline (fun _ => none) repeatedLine).command).map (·.spec) =
      some (pingJob "192.0.2.1").spec := by
  have hplain : PlainFields 5 (fields repeatedLine) := by
    rw [fields, show repeatedLine = String.ofList _ from rfl, String.toList_ofList]
    decide
  have htokens : leading 5 (fields repeatedLine) ++ tokensFrom false [] (rest repeatedLine) =
      ["240", "274", "1770761451", "NONE", "9", "evping", "-4", "-A", "1001", "192.0.2.1"] := by
    rw [rest, fields, show repeatedLine = String.ofList _ from rfl, String.toList_ofList]
    rfl
  have hheader : parseHeader "240" "274" "1770761451" "NONE" "9" = some ⟨240, 274, 1770761451, 0⟩ := by decide
  have hjob : jobOf (cronline (fun _ => none) repeatedLine).command =
      some { pingJob "192.0.2.1" with endTime := 1770761451, spread := 0 } := by
    rw [jobOf_tokens _ hplain htokens hheader]
    decide
  have hsame : ('#' ∉ pingLine.toList ∧ Closed (rest pingLine)) ∧
      ('#' ∉ repeatedLine.toList ∧ Closed (rest repeatedLine)) := by
    rw [rest, rest, fields, fields, show pingLine = String.ofList _ from rfl,
      show repeatedLine = String.ofList _ from rfl, String.toList_ofList, String.toList_ofList]
    decide
  have hshell : (cronline (fun _ => none) repeatedLine).shell = "evping -4 -A 1001 192.0.2.1" := by
    show String.ofList (shellChars repeatedLine.toList) = _
    rw [show repeatedLine = String.ofList _ from rfl, String.toList_ofList]
    rfl
  rw [hjob]
  exact congrArg some (key_sound_of_agree (fun _ => none) "crons/7" pingLine repeatedLine
    ⟨plain_pingLine, hplain, Or.inr hsame⟩ (pingJob "192.0.2.1") _ jobOf_pingLine hjob
    (by rw [shell_pingLine, hshell]; rfl)).2.symm

/-- The same line with a comment, whose last word is read as the target. -/
def commentedLine : String := "240 274 0 UNIFORM 3 evping -4 -A 1001 192.0.2.1 # 192.0.2.9"

theorem comment_changes_target :
    jobOf (cronline (fun _ => none) pingLine).command = some (pingJob "192.0.2.1") ∧
    jobOf (cronline (fun _ => none) commentedLine).command = some (pingJob "192.0.2.9") ∧
    Impl.Scheduler.CrontabLine.key ⟨(cronline (fun _ => none) pingLine).shell, pingJob "192.0.2.1"⟩ "crons/7" =
      Impl.Scheduler.CrontabLine.key
        ⟨(cronline (fun _ => none) commentedLine).shell, pingJob "192.0.2.9"⟩ "crons/7" ∧
    (pingJob "192.0.2.1").spec ≠ (pingJob "192.0.2.9").spec := by
  have hplain : PlainFields 5 (fields commentedLine) := by
    rw [fields, show commentedLine = String.ofList _ from rfl, String.toList_ofList]
    decide
  have htokens : leading 5 (fields commentedLine) ++ tokensFrom false [] (rest commentedLine) =
      ["240", "274", "0", "UNIFORM", "3", "evping", "-4", "-A", "1001", "192.0.2.1", "#", "192.0.2.9"] := by
    rw [rest, fields, show commentedLine = String.ofList _ from rfl, String.toList_ofList]
    rfl
  have hheader : parseHeader "240" "274" "0" "UNIFORM" "3" = some ⟨240, 274, 0, 3⟩ := by decide
  have hjob : jobOf (cronline (fun _ => none) commentedLine).command = some (pingJob "192.0.2.9") := by
    rw [jobOf_tokens _ hplain htokens hheader]
    decide
  have hshell : (cronline (fun _ => none) commentedLine).shell = "evping -4 -A 1001 192.0.2.1" := by
    show String.ofList (shellChars commentedLine.toList) = _
    rw [show commentedLine = String.ofList _ from rfl, String.toList_ofList]
    rfl
  refine ⟨jobOf_pingLine, hjob, ?_, by decide⟩
  rw [shell_pingLine, hshell]
  rfl

end Starla.Proof.Controller
