import Starla.Impl.Controller.Session
import Starla.Proof.Controller.Telnet

/-!
# A session does not see how its input is cut into reads

`TelnetFilter` and `LineSplitter` are machines that read one byte at a time,
so what they make of a stream is what they make of its pieces (`input_hom`). A
session handles the lines of a read one by one, and no line looks at the reads
(`handleLine_withInput`), so the sessions of two ways of cutting a stream do
the same.

* `handleLines_append` : the lines of two reads, one after the other.
* `reads_history` : a session's history is that of the whole stream's lines.
-/

namespace Starla.Proof.Controller

open Starla.Framework Starla.Impl.Controller

/-! ## From bytes to lines -/

theorem splitter_hom : StreamHom LineSplitter.feed :=
  .of_step LineSplitter.step (fun _ => rfl) (fun _ _ _ => rfl)

/-- What the bytes of a read come to: the lines they end. -/
def input : FilterState × LineSplitter → List UInt8 → List String × (FilterState × LineSplitter) :=
  andThen FilterState.feed LineSplitter.feed

theorem input_hom : StreamHom input := filter_hom.andThen splitter_hom

/-- Where a connection starts. -/
def unread : FilterState × LineSplitter := (.normal, {})

/-- No line of the stream, nor what it ends in, is over `MAX_LINE_LEN` bytes:
wherever it is cut, the line not yet ended is within it. -/
def NoLongLine (stream : List UInt8) : Prop :=
  ∀ bytes, bytes <+: stream → (input unread bytes).2.2.pending ≤ MAX_LINE_LEN

theorem pending_step_le (l : LineSplitter) (b : UInt8) : (l.step b).2.pending ≤ l.pending + 1 := by
  unfold LineSplitter.step LineSplitter.pending
  split
  · simp
  · split <;> simp

theorem pending_feed_le (l : LineSplitter) (data : List UInt8) :
    (l.feed data).2.pending ≤ l.pending + data.length := by
  induction data generalizing l with
  | nil => exact Nat.le_refl _
  | cons b data ih =>
    have h₁ := pending_step_le l b
    have h₂ := ih (l.step b).2
    show ((l.step b).2.feed data).2.pending ≤ _
    rw [List.length_cons]
    omega

theorem length_step_le (f : FilterState) (b : UInt8) : (f.step b).1.length ≤ 1 := by
  unfold FilterState.step
  repeat' split
  all_goals simp

theorem length_feed_le (f : FilterState) (data : List UInt8) : (f.feed data).1.length ≤ data.length := by
  induction data generalizing f with
  | nil => exact Nat.le_refl _
  | cons b data ih =>
    have h₁ := length_step_le f b
    have h₂ := ih (f.step b).2
    show ((f.step b).1 ++ ((f.step b).2.feed data).1).length ≤ _
    rw [List.length_append, List.length_cons]
    omega

/-- A line is no longer than the bytes that have come in. -/
theorem noLongLine_of_length_le {stream : List UInt8} (h : stream.length ≤ MAX_LINE_LEN) :
    NoLongLine stream := by
  intro bytes hb
  have h₁ := pending_feed_le {} (FilterState.normal.feed bytes).1
  have h₂ := length_feed_le .normal bytes
  have h₃ := hb.length_le
  show (LineSplitter.feed {} (FilterState.normal.feed bytes).1).2.pending ≤ _
  have : LineSplitter.pending {} = 0 := rfl
  omega

/-! ## From lines to what a session does -/

variable (fromStr : String → Option Json) (commandTx : Bool)

/-- The session with other input read. -/
def withInput (s : Session) (i : FilterState × LineSplitter) : Session :=
  { s with telnetFilter := i.1, lines := i.2 }

theorem handleLine_withInput (s : Session) (i : FilterState × LineSplitter) (line : String) (a : Around) :
    (withInput s i).handleLine fromStr commandTx line a =
      withInput (s.handleLine fromStr commandTx line a) i := by
  unfold Session.handleLine
  show (if s.atlas && a.takenOver then _ else _) = _
  split <;> rfl

theorem handleLines_withInput (around : Nat → Around) (s : Session) (i : FilterState × LineSplitter)
    (lines : List (String × Nat)) :
    (withInput s i).handleLines fromStr commandTx around lines =
      withInput (s.handleLines fromStr commandTx around lines) i := by
  induction lines generalizing s with
  | nil => rfl
  | cons l lines ih =>
    simp only [Session.handleLines, handleLine_withInput]
    show (if (s.handleLine fromStr commandTx l.1 (around l.2)).ended.isSome then _ else _) = _
    split
    · rfl
    · exact ih _

/-- The lines of two reads: those of the second are handled if those of the
first have not ended the session. -/
theorem handleLines_append (around : Nat → Around) (s : Session) (hs : s.ended = none)
    (l₁ l₂ : List (String × Nat)) :
    s.handleLines fromStr commandTx around (l₁ ++ l₂) =
      let s' := s.handleLines fromStr commandTx around l₁
      if s'.ended.isSome then s' else s'.handleLines fromStr commandTx around l₂ := by
  induction l₁ generalizing s with
  | nil => simp [Session.handleLines, hs]
  | cons l l₁ ih =>
    simp only [List.cons_append, Session.handleLines]
    by_cases h : (s.handleLine fromStr commandTx l.1 (around l.2)).ended.isSome
    · simp [h]
    · have hs' : (s.handleLine fromStr commandTx l.1 (around l.2)).ended = none := by simpa using h
      simp only [hs', Option.isSome_none, Bool.false_eq_true, if_false]
      exact ih _ hs'

theorem handleLines_shift (around : Nat → Around) (s : Session) (lines : List String) (m n : Nat) :
    s.handleLines fromStr commandTx (fun i => around (n + i)) (lines.zipIdx m) =
      s.handleLines fromStr commandTx around (lines.zipIdx (n + m)) := by
  induction lines generalizing s m with
  | nil => rfl
  | cons l lines ih => simp only [List.zipIdx_cons, Session.handleLines, ih, Nat.add_assoc]

/-! ## From reads to what a session does -/

/-- A session over the reads of a stream, `around` the lines of the stream,
which are numbered from `n`. -/
def reads (around : Nat → Around) : Nat → Session → List (List UInt8) → Session
  | _, s, [] => s
  | n, s, c :: cs =>
    reads around (n + (input (s.telnetFilter, s.lines) c).1.length)
      (s.step fromStr commandTx (.read c fun i => around (n + i))) cs

/-- What a session wrote and forwarded, in order. -/
def effects (s : Session) : List Effect := s.history.flatMap Handled.effects

theorem step_of_ended (s : Session) (turn : Session.Turn) (h : s.ended.isSome) :
    s.step fromStr commandTx turn = s := by
  unfold Session.step
  rw [if_pos h]

theorem reads_of_ended (around : Nat → Around) (n : Nat) (s : Session) (cs : List (List UInt8))
    (h : s.ended.isSome) : reads fromStr commandTx around n s cs = s := by
  induction cs generalizing n with
  | nil => rfl
  | cons c cs ih =>
    rw [reads, step_of_ended fromStr commandTx s _ h]
    exact ih _

theorem step_read_cons (around : Nat → Around) (s : Session) (i : FilterState × LineSplitter) (b : UInt8)
    (bytes : List UInt8) (hs : s.ended = none) :
    (withInput s i).step fromStr commandTx (.read (b :: bytes) around) =
      let r := (withInput s (input i (b :: bytes)).2).handleLines fromStr commandTx around
        (input i (b :: bytes)).1.zipIdx
      if r.ended.isNone && r.lines.pending > MAX_LINE_LEN then { r with ended := some .lineTooLong } else r := by
  unfold Session.step
  rw [if_neg (by simp [withInput, hs])]
  rfl

/-- A read: its lines, the line not yet ended within `MAX_LINE_LEN`. -/
theorem step_read (around : Nat → Around) (s : Session) (i : FilterState × LineSplitter)
    (c : List UInt8) (hs : s.ended = none) (hc : c ≠ [])
    (hlen : (input i c).2.2.pending ≤ MAX_LINE_LEN) :
    (withInput s i).step fromStr commandTx (.read c around) =
      withInput (s.handleLines fromStr commandTx around (input i c).1.zipIdx) (input i c).2 := by
  obtain ⟨b, bytes, rfl⟩ := List.exists_cons_of_ne_nil hc
  rw [step_read_cons fromStr commandTx around s i b bytes hs, handleLines_withInput]
  have hpending : ¬ (input i (b :: bytes)).2.2.pending > MAX_LINE_LEN := Nat.not_lt.mpr hlen
  simp [withInput, hpending]

/-- However the stream is cut, the session's history is that of its lines. -/
theorem reads_history (around : Nat → Around) (n : Nat) (s : Session) (i : FilterState × LineSplitter)
    (cs : List (List UInt8)) (hs : s.ended = none) (hcs : ∀ c ∈ cs, c ≠ [])
    (hlen : ∀ bytes, bytes <+: cs.flatten → (input i bytes).2.2.pending ≤ MAX_LINE_LEN) :
    (reads fromStr commandTx around n (withInput s i) cs).history =
      (s.handleLines fromStr commandTx around ((input i cs.flatten).1.zipIdx n)).history := by
  induction cs generalizing n s i with
  | nil => rw [List.flatten_nil, input_hom.nil]; rfl
  | cons c cs ih =>
    have hread := step_read fromStr commandTx (fun k => around (n + k)) s i c hs
      (hcs c List.mem_cons_self) (hlen c (List.prefix_append c _))
    rw [handleLines_shift, Nat.add_zero] at hread
    rw [reads, hread, List.flatten_cons, input_hom.append, List.zipIdx_append,
      handleLines_append fromStr commandTx around s hs]
    dsimp only
    by_cases hend : (s.handleLines fromStr commandTx around ((input i c).1.zipIdx n)).ended.isSome
    · rw [if_pos hend, reads_of_ended fromStr commandTx around _ (withInput _ _) cs hend]
      rfl
    · rw [if_neg hend]
      refine ih _ _ _ (by simpa using hend) (fun d hd => hcs d (List.mem_cons_of_mem c hd)) ?_
      intro bytes hb
      have := hlen (c ++ bytes) (by simpa using hb)
      rwa [input_hom.append] at this

/-- The filter and the splitter do not see where the stream is cut, and
neither does the session: it writes and forwards what it does when the whole
stream is one read. -/
theorem reads_chunk_independent :
    StreamHom input ∧
    ∀ (probeId : UInt32) (hostname : String) (around : Nat → Around) (cs : List (List UInt8)),
      (∀ c ∈ cs, c ≠ []) → NoLongLine cs.flatten →
      effects (reads fromStr commandTx around 0 (.start probeId hostname) cs) =
        effects (reads fromStr commandTx around 0 (.start probeId hostname) [cs.flatten]) := by
  refine ⟨input_hom, ?_⟩
  intro probeId hostname around cs hcs hlen
  have hstart : Session.start probeId hostname = withInput (.start probeId hostname) unread := rfl
  unfold effects
  rw [hstart, reads_history fromStr commandTx around 0 _ unread cs rfl hcs hlen]
  by_cases hnil : cs.flatten = []
  · rw [hnil, input_hom.nil]
    rfl
  · rw [reads_history fromStr commandTx around 0 _ unread [cs.flatten] rfl
      (by simpa using hnil) (by simpa [NoLongLine] using hlen), List.flatten_singleton]

/-- A login name, an IAC sequence and a CR LF, each cut in two. -/
theorem reads_chunk_independent_login :
    effects (reads (fun _ => none) true (fun _ => ⟨false, some "s", true, true⟩) 0 (.start 1 "probe")
        [[67, IAC], [WILL, 3, 95, 13], [10, 13]]) =
      effects (reads (fun _ => none) true (fun _ => ⟨false, some "s", true, true⟩) 0 (.start 1 "probe")
        [[67, IAC, WILL, 3, 95, 13, 10, 13]]) :=
  (reads_chunk_independent (fun _ => none) true).2 1 "probe" (fun _ => ⟨false, some "s", true, true⟩)
    [[67, IAC], [WILL, 3, 95, 13], [10, 13]] (by decide) (noLongLine_of_length_le (by decide))

end Starla.Proof.Controller
