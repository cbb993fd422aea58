import Starla.Framework.Run
import Starla.Impl.Controller.Session

/-!
# Crontabs over a session

A crontab gathers the CRONLINEs after the CRONTAB line that opened it
(`Gathers`), and is handed on by the first other line, before that line does
anything of its own (`Delivers`).

* `getCmd_cases`, `request_cases` : what a request line does.
* `handleLine_inv` : a line keeps the session's invariant (`Inv`).
* `crontabs_atomic` : what holds of every session, however it ends.
-/

namespace Starla.Proof.Controller

open Starla.Framework Starla.Impl.Controller

/-! ## Commands that are not crontabs -/

def isCrontab : TelnetCommand → Bool
  | .crontab _ => true
  | _ => false

theorem isCrontab_setStartTime (startTime : Int) (c : TelnetCommand) :
    isCrontab (setStartTime startTime c) = isCrontab c := by
  cases c <;> rfl

theorem isCrontab_parseMeasurement (cmd tool : String) (args : List String) (interval : Nat)
    (startTime endTime : Int) (spread : Nat) :
    isCrontab (parseMeasurement cmd tool args interval startTime endTime spread) = false := by
  unfold parseMeasurement
  split
  · unfold parseEvping; dsimp only; split <;> rfl
  · unfold parseEvtraceroute; split
    · split <;> rfl
    · rfl
  · unfold parseEvtdig; split
    · rfl
    · dsimp only; split <;> rfl
  · unfold parseEvhttpget; dsimp only; split <;> rfl
  · unfold parseEvsslgetcert; dsimp only; split <;> rfl
  · unfold parseEvntp; dsimp only; split
    · rfl
    · split <;> rfl
  · rfl
  · rfl
  · unfold parseHttppost; split
    · rfl
    · split <;> rfl
  all_goals rfl

theorem isCrontab_parseCronline (cmd : String) : isCrontab (parseCronline cmd) = false := by
  unfold parseCronline
  split
  · split
    · rw [isCrontab_setStartTime, isCrontab_parseMeasurement]
    · rfl
  · rfl

theorem isCrontab_parseJsonCommand (spec : Json) : isCrontab (parseJsonCommand spec) = false := by
  unfold parseJsonCommand
  dsimp only
  split <;> rfl

theorem isCrontab_parseTextCommand (cmd : String) : isCrontab (parseTextCommand cmd) = false := by
  unfold parseTextCommand
  split
  · rfl
  · split
    · rfl
    · split <;> rfl
    · exact isCrontab_parseCronline cmd
    · split <;> rfl
    · rfl
    · rfl

theorem isCrontab_parseCommand (fromStr : String → Option Json) (cmd : String) :
    isCrontab (parseCommand fromStr cmd) = false := by
  unfold parseCommand
  split
  · split
    · exact isCrontab_parseJsonCommand _
    · exact isCrontab_parseTextCommand cmd
  · exact isCrontab_parseTextCommand cmd

/-! ## A request line -/

/-- A CRONTAB line whose directory is taken. -/
def Accepts (line dir : String) : Prop :=
  ∃ path, line = CMD_CRONTAB ++ path ∧ crontabDirCheck path = .ok () ∧
    dir = (rebasedCronsPath path).getD path

theorem dropPrefix_eq_some {p line rest : String} : dropPrefix p line = some rest ↔ line = p ++ rest := by
  unfold dropPrefix
  rw [Option.map_eq_some_iff]
  constructor
  · rintro ⟨cs, hcs, rfl⟩
    rw [stripPrefix_eq_some] at hcs
    exact String.toList_injective (by rw [hcs, String.toList_append, String.toList_ofList])
  · rintro rfl
    exact ⟨rest.toList, stripPrefix_eq_some.mpr String.toList_append, String.ofList_toList⟩

variable (fromStr : String → Option Json)

/-- A request line opens a crontab, or gives another command and leaves none
open. -/
theorem getCmd_cases (line : String) :
    (∃ dir, Accepts line dir ∧ getCmd fromStr line = (none, some (.crontab ⟨dir, []⟩), .doCrontab)) ∨
    (∀ dir, ¬ Accepts line dir) ∧ (∀ c ∈ (getCmd fromStr line).2.1, isCrontab c = false) ∧
      (getCmd fromStr line).2.2 ≠ .doCrontab := by
  cases hd : dropPrefix CMD_CRONTAB line with
  | some path =>
    have hline := dropPrefix_eq_some.mp hd
    cases hc : crontabDirCheck path with
    | ok u =>
      exact Or.inl ⟨_, ⟨path, hline, hc, rfl⟩, by simp [getCmd, hd, hc]⟩
    | error reply =>
      refine Or.inr ⟨?_, ?_, ?_⟩
      · rintro dir ⟨path', hline', hc', -⟩
        have : dropPrefix CMD_CRONTAB line = some path' := dropPrefix_eq_some.mpr hline'
        rw [hd] at this
        cases this
        rw [hc] at hc'
        cases hc'
      · simp [getCmd, hd, hc]
      · simp [getCmd, hd, hc]
  | none =>
    refine Or.inr ⟨?_, ?_, ?_⟩
    · rintro dir ⟨path, hline, -, -⟩
      have := dropPrefix_eq_some.mpr hline
      rw [hd] at this
      cases this
    · intro c hc
      have hp := isCrontab_parseCommand fromStr line
      unfold getCmd at hc
      rw [hd] at hc
      split at hc
      · cases ‹none = some _›
      · split at hc
        · cases hc; exact hp
        · cases hc
      · split at hc
        · cases hc
        · split at hc
          · cases hc
          · split at hc
            · cases hc
            · dsimp only at hc
              split at hc
              · cases hc; rfl
              · cases hc; rfl
              · cases hc
              · split at hc
                · cases hc; exact hp
                · cases hc
    · unfold getCmd
      rw [hd]
      split
      · cases ‹none = some _›
      · split <;> simp
      · split
        · simp
        · split
          · simp
          · split <;> simp

/-- No crontab is forwarded. -/
def Plain (effects : List Effect) : Prop := ∀ spec, .forward (.crontab spec) ∉ effects

theorem plain_of_command {command : Option TelnetCommand} (hc : ∀ c ∈ command, isCrontab c = false)
    {effects : List Effect} (h : ∀ c, Effect.forward c ∈ effects → c ∈ command) : Plain effects :=
  fun spec hs => by cases hc _ (h _ hs)

variable (commandTx : Bool)

theorem forward_cases (command : TelnetCommand) (sent : Bool) :
    (Session.forward commandTx command sent).1 = [] ∨
      (Session.forward commandTx command sent).1 = [.forward command] := by
  unfold Session.forward
  cases commandTx
  · exact Or.inl rfl
  · cases sent
    · exact Or.inl rfl
    · exact Or.inr rfl

/-- What a request line does after `before`. -/
theorem request_cases (line : String) (a : Around) (atlas : Bool) (before : List Effect) :
    (∃ dir, Accepts line dir ∧
      Session.request fromStr commandTx line a atlas before = ⟨.doCrontab, atlas, some ⟨dir, []⟩, before, none⟩) ∨
    (∀ dir, ¬ Accepts line dir) ∧ ∃ own state ended, Plain own ∧ state ≠ .doCrontab ∧
      Session.request fromStr commandTx line a atlas before = ⟨state, atlas, none, before ++ own, ended⟩ := by
  rcases getCmd_cases fromStr line with ⟨dir, hacc, hget⟩ | ⟨hacc, hplain, hstate⟩
  · left
    refine ⟨dir, hacc, ?_⟩
    rw [Session.request, hget]
    simp
  · right
    refine ⟨hacc, ?_⟩
    unfold Session.request
    generalize getCmd fromStr line = get at hplain hstate
    obtain ⟨response, command, next⟩ := get
    have hreply : ∀ c, Effect.forward c ∉ (response.map Effect.reply).toList := fun c hc => by
      simp at hc
    cases command with
    | none => exact ⟨_, _, _, fun spec hs => hreply _ hs, hstate, rfl⟩
    | some c =>
      have hc : isCrontab c = false := hplain c rfl
      have hown : Plain ((response.map Effect.reply).toList ++
          (Session.forward commandTx c a.commandSent).1) := by
        refine plain_of_command hplain fun c' hc' => ?_
        rcases List.mem_append.mp hc' with h' | h'
        · exact absurd h' (hreply c')
        · rcases forward_cases commandTx c a.commandSent with hf | hf <;> rw [hf] at h'
          · exact absurd h' List.not_mem_nil
          · cases List.mem_singleton.mp h'; rfl
      refine ⟨_, next, if (Session.forward commandTx c a.commandSent).2 then none else some .channelClosed,
        hown, hstate, ?_⟩
      rw [← List.append_assoc]
      cases c <;> first | rfl | cases hc

/-! ## What a session's history says -/

def IsCronline (text : String) : Prop := ∃ t, text = CMD_CRONLINE ++ t

/-- The session id was received as the password. -/
def LoggedIn (history : List Handled) : Prop :=
  ∃ h ∈ history, h.state = .getPassword ∧ h.sessionId = some h.text

/-- A CRONTAB line, taken. -/
def Opens (h : Handled) (dir : String) : Prop :=
  (h.state = .getCmd ∨ h.state = .doCrontab) ∧ Accepts h.text dir

/-- A crontab gathered so far: the CRONLINEs since the CRONTAB line that opened
it, as many of them as are taken. -/
def Gathers (spec : CrontabSpec TelnetCommand) (history : List Handled) : Prop :=
  ∃ pre o lines, ∃ texts : List String, history = pre ++ o :: lines ∧ Opens o spec.dir ∧
    lines.map (·.text) = texts.map (CMD_CRONLINE ++ ·) ∧
    spec.lines = (texts.take CRONTAB_MAX_LINES).map (cronline fromStr)

/-- A crontab is handed on by a line that is no CRONLINE, the first after those
it has gathered, and before anything else this line does. -/
def Delivers (pre : List Handled) (h : Handled) (spec : CrontabSpec TelnetCommand) : Prop :=
  h.state = .doCrontab ∧ ¬ IsCronline h.text ∧ Gathers fromStr spec pre ∧
    ∃ own, h.effects = .forward (.crontab spec) :: own ∧ Plain own

/-- What a line may forward, after the lines before it. -/
def Forwards (pre : List Handled) (h : Handled) : Prop :=
  ∀ c, .forward c ∈ h.effects → LoggedIn pre ∧ ∀ spec, c = .crontab spec → Delivers fromStr pre h spec

structure Sound (history : List Handled) : Prop where
  forwards : ∀ pre h post, history = pre ++ h :: post → Forwards fromStr pre h
  /-- While a crontab is open nothing is done. -/
  quiet : ∀ pre o lines dir, history = pre ++ o :: lines → Opens o dir →
    (∀ l ∈ lines, IsCronline l.text) → ∀ l ∈ lines, l.effects = []

/-- What holds while the session goes on. -/
structure Live (state : ConnectionState) (crontab : Option (CrontabSpec TelnetCommand))
    (history : List Handled) : Prop where
  loggedIn : state ≠ .getLoginName → state ≠ .getPassword → LoggedIn history
  closed : state ≠ .doCrontab → crontab = none
  gathers : state = .doCrontab → ∃ spec, crontab = some spec ∧ Gathers fromStr spec history
  opened : ∀ pre o lines dir, history = pre ++ o :: lines → Opens o dir →
    (∀ l ∈ lines, IsCronline l.text) → state = .doCrontab

structure Inv (s : Session) : Prop where
  sound : Sound fromStr s.history
  live : s.ended = none → Live fromStr s.state s.crontab s.history

section
variable {fromStr}
variable {history : List Handled} {h : Handled}

/-- A place in a history that grew by a line. -/
theorem concat_eq_append_cons {α : Type} {l pre post : List α} {x y : α}
    (h : l ++ [x] = pre ++ y :: post) :
    (post = [] ∧ l = pre ∧ y = x) ∨ ∃ post', post = post' ++ [x] ∧ l = pre ++ y :: post' := by
  rcases List.eq_nil_or_concat' post with rfl | ⟨post', z, rfl⟩
  · obtain ⟨h1, h2⟩ := List.append_inj' h rfl
    exact Or.inl ⟨rfl, h1, by simpa using h2.symm⟩
  · rw [← List.cons_append, ← List.append_assoc] at h
    obtain ⟨h1, h2⟩ := List.append_inj' h rfl
    cases h2
    exact Or.inr ⟨post', rfl, h1⟩

theorem LoggedIn.snoc (hl : LoggedIn history) : LoggedIn (history ++ [h]) := by
  obtain ⟨g, hg, hs⟩ := hl
  exact ⟨g, List.mem_append_left _ hg, hs⟩

theorem Sound.snoc (hs : Sound fromStr history) (hf : Forwards fromStr history h)
    (hq : ∀ pre o lines dir, history = pre ++ o :: lines → Opens o dir →
      (∀ l ∈ lines, IsCronline l.text) → IsCronline h.text → h.effects = []) :
    Sound fromStr (history ++ [h]) := by
  constructor
  · intro pre g post hsplit
    rcases concat_eq_append_cons hsplit with ⟨-, rfl, rfl⟩ | ⟨post', -, heq⟩
    · exact hf
    · exact hs.forwards pre g post' heq
  · intro pre o lines dir hsplit hopens hlines
    rcases concat_eq_append_cons hsplit with ⟨rfl, -, -⟩ | ⟨lines', rfl, heq⟩
    · exact fun l hl => absurd hl List.not_mem_nil
    · have hlines' : ∀ l ∈ lines', IsCronline l.text := fun l hl => hlines l (List.mem_append_left _ hl)
      intro l hl
      rcases List.mem_append.mp hl with hl | hl
      · exact hs.quiet pre o lines' dir heq hopens hlines' l hl
      · rw [List.mem_singleton.mp hl]
        exact hq pre o lines' dir heq hopens hlines' (hlines h (by simp))

/-! ## One line -/

variable {state state' : ConnectionState} {crontab : Option (CrontabSpec TelnetCommand)}

/-- A line outside requests opens and ends no crontab. -/
theorem Live.snoc (hl : Live fromStr state crontab history) (hcmd : state ≠ .getCmd)
    (hcron : state ≠ .doCrontab) (hstate : h.state = state) (hnew : state' ≠ .doCrontab)
    (hlog : state' ≠ .getLoginName → state' ≠ .getPassword → LoggedIn (history ++ [h])) :
    Live fromStr state' crontab (history ++ [h]) := by
  refine ⟨hlog, fun _ => hl.closed hcron, fun h => absurd h hnew, ?_⟩
  intro pre o lines dir hsplit hopens hlines
  rcases concat_eq_append_cons hsplit with ⟨-, -, rfl⟩ | ⟨lines', rfl, heq⟩
  · rcases hopens.1 with h' | h'
    · exact absurd (hstate.symm.trans h') hcmd
    · exact absurd (hstate.symm.trans h') hcron
  · have := hl.opened pre o lines' dir heq hopens fun l hl => hlines l (List.mem_append_left _ hl)
    exact absurd this hcron

/-- One more CRONLINE. -/
theorem Gathers.snoc {spec : CrontabSpec TelnetCommand} (hg : Gathers fromStr spec history) {t : String}
    (ht : h.text = CMD_CRONLINE ++ t) :
    Gathers fromStr
      (if spec.lines.length < CRONTAB_MAX_LINES then
        { spec with lines := spec.lines ++ [⟨t, parseCommand fromStr h.text⟩] } else spec)
      (history ++ [h]) := by
  obtain ⟨pre, o, lines, texts, rfl, hopens, htexts, hlines⟩ := hg
  refine ⟨pre, o, lines ++ [h], texts ++ [t], by simp, ?_, by simp [htexts, ht], ?_⟩
  · split <;> exact hopens
  · have hlen : spec.lines.length = min CRONTAB_MAX_LINES texts.length := by
      rw [hlines, List.length_map, List.length_take]
    by_cases hroom : texts.length < CRONTAB_MAX_LINES
    · rw [if_pos (by omega), List.take_of_length_le (by simp; omega)]
      rw [List.take_of_length_le (by omega)] at hlines
      simp [hlines, cronline, ht]
    · rw [if_neg (by omega), List.take_append_of_le_length (by omega)]
      exact hlines

/-- A request line, where `before` is what the crontab it ends came to. -/
theorem request_inv (hl : Live fromStr state crontab history) {line : String} {a : Around} {atlas : Bool}
    {before : List Effect} (hstate : state = .getCmd ∨ state = .doCrontab)
    (hline : state = .doCrontab → ¬ IsCronline line)
    (hbefore : before = [] ∨ ∃ spec, before = [.forward (.crontab spec)] ∧ state = .doCrontab ∧
      Gathers fromStr spec history) :
    let o := Session.request fromStr commandTx line a atlas before
    let h : Handled := ⟨state, line, a.sessionId, o.effects⟩
    Forwards fromStr history h ∧ Live fromStr o.state o.crontab (history ++ [h]) := by
  intro o h
  have hlog : LoggedIn history := by
    rcases hstate with rfl | rfl <;> exact hl.loggedIn (by simp) (by simp)
  -- a crontab among what was done before is all that was done before
  have hdelivers : ∀ own, Plain own → h.effects = before ++ own →
      ∀ spec, .forward (.crontab spec) ∈ h.effects → Delivers fromStr history h spec := by
    intro own hown heffects spec hmem
    rw [heffects] at hmem
    rcases List.mem_append.mp hmem with hmem | hmem
    · rcases hbefore with rfl | ⟨spec', rfl, hcron, hg⟩
      · exact absurd hmem List.not_mem_nil
      · cases List.mem_singleton.mp hmem
        exact ⟨hcron, hline hcron, hg, own, heffects, hown⟩
    · exact absurd hmem (hown spec)
  rcases request_cases fromStr commandTx line a atlas before with
    ⟨dir, hacc, ho⟩ | ⟨hacc, own, next, ended, hown, hnext, ho⟩
  · have heffects : h.effects = before ++ [] := by
      rw [List.append_nil]
      exact congrArg Outcome.effects ho
    have hplain : Plain [] := fun spec hs => absurd hs List.not_mem_nil
    refine ⟨fun c hc => ⟨hlog, fun spec hspec => hdelivers [] hplain heffects spec (hspec ▸ hc)⟩, ?_⟩
    rw [show o = _ from ho]
    exact ⟨fun _ _ => hlog.snoc, fun hne => absurd rfl hne,
      fun _ => ⟨⟨dir, []⟩, rfl, history, h, [], [], rfl, ⟨hstate, hacc⟩, rfl, rfl⟩,
      fun _ _ _ _ _ _ _ => rfl⟩
  · have heffects : h.effects = before ++ own := congrArg Outcome.effects ho
    refine ⟨fun c hc => ⟨hlog, fun spec hspec => hdelivers own hown heffects spec (hspec ▸ hc)⟩, ?_⟩
    rw [show o = _ from ho]
    refine ⟨fun _ _ => hlog.snoc, fun _ => rfl, fun hcron => absurd hcron hnext, ?_⟩
    intro pre g lines dir hsplit hopens hlines
    rcases concat_eq_append_cons hsplit with ⟨-, -, rfl⟩ | ⟨lines', rfl, heq⟩
    · exact absurd hopens.2 (hacc dir)
    · have hcron := hl.opened pre g lines' dir heq hopens fun l hl => hlines l (List.mem_append_left _ hl)
      exact absurd (hlines h (by simp)) (hline hcron)

end

/-- What a line's handling is to keep. -/
def KeepsInv (s : Session) (line : String) (a : Around) (o : Outcome) : Prop :=
  Forwards fromStr s.history ⟨s.state, line, a.sessionId, o.effects⟩ ∧
  (s.state = .doCrontab → IsCronline line → o.effects = []) ∧
  (o.ended = none →
    Live fromStr o.state o.crontab (s.history ++ [⟨s.state, line, a.sessionId, o.effects⟩]))

section
variable {fromStr} {s : Session} {line : String} {a : Around}

theorem forwards_of_plain {history : List Handled} {h : Handled} (hf : ∀ c, .forward c ∉ h.effects) :
    Forwards fromStr history h :=
  fun c hc => absurd hc (hf c)

theorem command_keeps (hl : Live fromStr s.state s.crontab s.history)
    (hstate : s.state = .getCmd ∨ s.state = .doCrontab) (hline : s.state = .doCrontab → ¬ IsCronline line) :
    KeepsInv fromStr s line a (Session.command fromStr commandTx s line a) := by
  unfold Session.command
  cases hc : s.crontab with
  | none =>
    obtain ⟨hf, hlive⟩ := request_inv commandTx hl hstate hline (Or.inl rfl)
    exact ⟨hf, fun hcron hcl => absurd hcl (hline hcron), fun _ => hlive⟩
  | some ended =>
    have hcron : s.state = .doCrontab := by
      by_contra hne
      have := hl.closed hne
      rw [hc] at this
      cases this
    obtain ⟨spec, hspec, hg⟩ := hl.gathers hcron
    rw [hc] at hspec
    cases hspec
    rcases hfw : Session.forward commandTx (.crontab ended) a.crontabSent with ⟨sent, goesOn⟩
    have hsent : sent = [] ∨ sent = [.forward (.crontab ended)] := by
      have := forward_cases commandTx (.crontab ended) a.crontabSent
      rw [hfw] at this
      exact this
    dsimp only
    rw [hfw]
    cases goesOn with
    | true =>
      have hbefore : sent = [] ∨ ∃ spec, sent = [.forward (.crontab spec)] ∧ s.state = .doCrontab ∧
          Gathers fromStr spec s.history := hsent.imp_right fun h => ⟨ended, h, hcron, hg⟩
      obtain ⟨hf, hlive⟩ := request_inv commandTx hl hstate hline hbefore
      exact ⟨hf, fun _ hcl => absurd hcl (hline hcron), fun _ => hlive⟩
    | false =>
      refine ⟨?_, fun _ hcl => absurd hcl (hline hcron), fun h => by cases h⟩
      intro c hcm
      refine ⟨hl.loggedIn (by simp [hcron]) (by simp [hcron]), ?_⟩
      rintro spec rfl
      rcases hsent with rfl | rfl
      · exact absurd hcm List.not_mem_nil
      · cases List.mem_singleton.mp hcm
        exact ⟨hcron, hline hcron, hg, [], rfl, fun _ hs => absurd hs List.not_mem_nil⟩

theorem outcome_keeps (hl : Live fromStr s.state s.crontab s.history) :
    KeepsInv fromStr s line a (Session.outcome fromStr commandTx s line a) := by
  unfold Session.outcome
  cases hs : s.state with
  | getLoginName =>
    have hlive : Live fromStr .getLoginName s.crontab s.history := hs ▸ hl
    dsimp only
    split
    · exact ⟨forwards_of_plain (by simp), by simp [hs], fun _ =>
        hlive.snoc (by simp) (by simp) hs (by simp) (by simp)⟩
    · exact ⟨forwards_of_plain (by simp), by simp [hs], fun h => by cases h⟩
  | getPassword =>
    have hlive : Live fromStr .getPassword s.crontab s.history := hs ▸ hl
    dsimp only
    split
    · rename_i hvalid
      refine ⟨forwards_of_plain (by simp), by simp [hs], fun _ =>
        hlive.snoc (by simp) (by simp) hs (by simp) fun _ _ => ?_⟩
      exact ⟨_, List.mem_append_right _ List.mem_cons_self, hs, hvalid⟩
    · exact ⟨forwards_of_plain (by simp), by simp [hs], fun _ =>
        hlive.snoc (by simp) (by simp) hs (by simp) fun _ h => absurd rfl h⟩
  | eomSeen =>
    have hlive : Live fromStr .eomSeen s.crontab s.history := hs ▸ hl
    exact ⟨forwards_of_plain (by simp), by simp [hs], fun _ =>
      hlive.snoc (by simp) (by simp) hs (by simp) fun _ _ => (hlive.loggedIn (by simp) (by simp)).snoc⟩
  | getCmd =>
    exact command_keeps commandTx hl (Or.inl hs) fun h => by rw [hs] at h; cases h
  | doCrontab =>
    cases hd : dropPrefix CMD_CRONLINE line with
    | none =>
      have hline : ¬ IsCronline line := fun ⟨t, ht⟩ => by
        rw [dropPrefix_eq_some.mpr ht] at hd
        cases hd
      exact command_keeps commandTx hl (Or.inr hs) fun _ => hline
    | some t =>
      have ht := dropPrefix_eq_some.mp hd
      obtain ⟨spec, hspec, hg⟩ := hl.gathers hs
      refine ⟨forwards_of_plain (by simp), fun _ _ => rfl, fun _ => ?_⟩
      refine ⟨fun _ _ => (hl.loggedIn (by simp [hs]) (by simp [hs])).snoc, fun h => absurd rfl h,
        fun _ => ⟨_, by rw [hspec]; rfl, hg.snoc (h := ⟨_, line, a.sessionId, []⟩) ht⟩,
        fun _ _ _ _ _ _ _ => rfl⟩

theorem handleLine_inv (hI : Inv fromStr s) (hlive : s.ended = none) :
    Inv fromStr (Session.handleLine fromStr commandTx s line a) := by
  have hl := hI.live hlive
  unfold Session.handleLine
  split
  · exact ⟨hI.sound, fun h => by cases h⟩
  · obtain ⟨hf, hquiet, hgoes⟩ := outcome_keeps commandTx hl
    refine ⟨hI.sound.snoc hf ?_, hgoes⟩
    intro pre o lines dir hsplit hopens hlines hcl
    exact hquiet (hl.opened pre o lines dir hsplit hopens hlines) hcl

/-! ## Whole sessions -/

theorem handleLines_inv {around : Nat → Around} {lines : List (String × Nat)} (hI : Inv fromStr s)
    (hlive : s.ended = none) : Inv fromStr (Session.handleLines fromStr commandTx around s lines) := by
  induction lines generalizing s with
  | nil => exact hI
  | cons i lines ih =>
    unfold Session.handleLines
    have hI' : Inv fromStr (Session.handleLine fromStr commandTx s i.1 (around i.2)) :=
      handleLine_inv commandTx hI hlive
    dsimp only
    split
    · exact hI'
    · exact ih hI' (Option.not_isSome_iff_eq_none.mp ‹_›)

theorem step_inv (turn : Session.Turn) (hI : Inv fromStr s) :
    Inv fromStr (Session.step fromStr commandTx s turn) := by
  unfold Session.step
  split
  · exact hI
  · have hlive : s.ended = none := by simpa using ‹¬ s.ended.isSome = true›
    split
    · split
      · exact ⟨hI.sound, fun h => by cases h⟩
      · exact hI
    · exact ⟨hI.sound, fun h => by cases h⟩
    · exact ⟨hI.sound, fun h => by cases h⟩
    · rename_i bytes around hne
      have hfed : ∀ telnetFilter lines, Inv fromStr { s with telnetFilter, lines } :=
        fun _ _ => ⟨hI.sound, hI.live⟩
      have hI' : ∀ telnetFilter lines is, Inv fromStr
          (Session.handleLines fromStr commandTx around { s with telnetFilter, lines } is) :=
        fun telnetFilter lines is => handleLines_inv commandTx (hfed telnetFilter lines) hlive
      dsimp only
      split
      · exact ⟨(hI' _ _ _).sound, fun h => by cases h⟩
      · exact hI' _ _ _

theorem start_inv (probeId : UInt32) (hostname : String) : Inv fromStr (Session.start probeId hostname) := by
  have hnil : ∀ {pre : List Handled} {h post}, [] ≠ pre ++ h :: post := fun h => by simp at h
  refine ⟨⟨fun _ _ _ h => absurd h hnil, fun _ _ _ _ h => absurd h hnil⟩, fun _ => ?_⟩
  exact ⟨fun h => absurd rfl h, fun _ => rfl, fun h => (by cases h), fun _ _ _ _ h => absurd h hnil⟩

theorem run_inv (probeId : UInt32) (hostname : String) (turns : List Session.Turn) :
    Inv fromStr (run (Session.step fromStr commandTx) (Session.start probeId hostname) turns) :=
  (always_of_step (I := Inv fromStr) (fun _ turn => step_inv commandTx turn)
    (start_inv probeId hostname)).last

/-! ## The lines of a session -/

/-- The lines the reads of a session hold. -/
def received (telnetFilter : FilterState) (splitter : LineSplitter) : List Session.Turn → List String
  | [] => []
  | .read bytes _ :: turns =>
    let (data, telnetFilter) := telnetFilter.feed bytes
    let (lines, splitter) := splitter.feed data
    lines ++ received telnetFilter splitter turns
  | _ :: turns => received telnetFilter splitter turns

def texts (s : Session) : List String := s.history.map (·.text)

/-- A session takes the lines of a read in turn, all of them unless it ends. -/
theorem handleLines_texts (fromStr : String → Option Json) (around : Nat → Around)
    (is : List (String × Nat)) (s : Session) :
    let s' := Session.handleLines fromStr commandTx around s is
    s'.telnetFilter = s.telnetFilter ∧ s'.lines = s.lines ∧
      ∃ taken, taken <+: is.map (·.1) ∧ texts s' = texts s ++ taken ∧
        (s'.ended = none → taken = is.map (·.1)) := by
  induction is generalizing s with
  | nil => exact ⟨rfl, rfl, [], List.prefix_rfl, by simp [Session.handleLines], fun _ => rfl⟩
  | cons i is ih =>
    have hone : ∃ taken, taken <+: [i.1] ∧
        texts (Session.handleLine fromStr commandTx s i.1 (around i.2)) = texts s ++ taken ∧
        ((Session.handleLine fromStr commandTx s i.1 (around i.2)).ended = none → taken = [i.1]) := by
      unfold Session.handleLine
      split
      · exact ⟨[], List.nil_prefix, (List.append_nil _).symm, fun h => by cases h⟩
      · exact ⟨[i.1], List.prefix_rfl, by simp [texts], fun _ => rfl⟩
    have hsame : (Session.handleLine fromStr commandTx s i.1 (around i.2)).telnetFilter = s.telnetFilter ∧
        (Session.handleLine fromStr commandTx s i.1 (around i.2)).lines = s.lines := by
      unfold Session.handleLine
      split <;> exact ⟨rfl, rfl⟩
    obtain ⟨taken, hpre, htexts, hall⟩ := hone
    unfold Session.handleLines
    dsimp only
    split
    · refine ⟨hsame.1, hsame.2, taken, hpre.trans (by simp), htexts, fun h => ?_⟩
      rename_i hended
      rw [h] at hended
      cases hended
    · have hlive : (Session.handleLine fromStr commandTx s i.1 (around i.2)).ended = none :=
        Option.not_isSome_iff_eq_none.mp ‹_›
      obtain ⟨hf, hl, more, hmore, htexts', hall'⟩ :=
        ih (Session.handleLine fromStr commandTx s i.1 (around i.2))
      refine ⟨hf.trans hsame.1, hl.trans hsame.2, i.1 :: more, ?_, ?_, fun h => ?_⟩
      · exact List.cons_prefix_cons.mpr ⟨rfl, hmore⟩
      · rw [htexts', htexts, hall hlive]
        simp
      · rw [hall' h]
        rfl

theorem run_of_ended (fromStr : String → Option Json) {s : Session} (h : s.ended ≠ none)
    (turns : List Session.Turn) : run (Session.step fromStr commandTx) s turns = s := by
  induction turns with
  | nil => rfl
  | cons turn turns ih =>
    have hstep : Session.step fromStr commandTx s turn = s := by
      unfold Session.step
      rw [if_pos (Option.isSome_iff_ne_none.mpr h)]
    rw [run_cons, hstep, ih]

/-- A turn takes lines from the front of those still to come. -/
theorem step_texts (fromStr : String → Option Json) {s : Session} (hlive : s.ended = none)
    (turn : Session.Turn) (turns : List Session.Turn) :
    let s' := Session.step fromStr commandTx s turn
    texts s' <+: texts s ++ received s.telnetFilter s.lines (turn :: turns) ∧
      (s'.ended = none → texts s' ++ received s'.telnetFilter s'.lines turns =
        texts s ++ received s.telnetFilter s.lines (turn :: turns)) := by
  have hended : ∀ e : SessionEnd,
      texts { s with ended := some e } <+: texts s ++ received s.telnetFilter s.lines (turn :: turns) ∧
      ({ s with ended := some e }.ended = none → texts { s with ended := some e } ++
        received s.telnetFilter s.lines turns =
          texts s ++ received s.telnetFilter s.lines (turn :: turns)) :=
    fun e => ⟨List.prefix_append .., fun h => by cases h⟩
  unfold Session.step
  rw [if_neg (by simp [hlive])]
  split
  · split
    · exact hended _
    · exact ⟨List.prefix_append .., fun _ => rfl⟩
  · exact hended _
  · exact hended _
  · rename_i bytes around hne
    rw [received]
    generalize s.telnetFilter.feed bytes = fed
    obtain ⟨data, telnetFilter⟩ := fed
    dsimp only
    generalize s.lines.feed data = split
    obtain ⟨lines, splitter⟩ := split
    obtain ⟨hf, hl, taken, hpre, htexts, hall⟩ := handleLines_texts commandTx fromStr around lines.zipIdx
      { s with telnetFilter, lines := splitter }
    rw [List.zipIdx_map_fst] at hpre hall
    dsimp only
    generalize Session.handleLines fromStr commandTx around
      { s with telnetFilter, lines := splitter } lines.zipIdx = s' at *
    have hstops : texts s' <+: texts s ++ (lines ++ received telnetFilter splitter turns) := by
      rw [htexts]
      exact (List.prefix_append_right_inj _).mpr (hpre.trans (List.prefix_append ..))
    split
    · exact ⟨hstops, fun h => by cases h⟩
    · refine ⟨hstops, fun h => ?_⟩
      rw [htexts, hall h, hf, hl, List.append_assoc]
      rfl

theorem texts_prefix (fromStr : String → Option Json) {s : Session} (hlive : s.ended = none)
    (turns : List Session.Turn) :
    texts (run (Session.step fromStr commandTx) s turns) <+:
      texts s ++ received s.telnetFilter s.lines turns := by
  induction turns generalizing s with
  | nil => simp [received]
  | cons turn turns ih =>
    obtain ⟨hpre, hgoes⟩ := step_texts commandTx fromStr hlive turn turns
    rw [run_cons]
    cases he : (Session.step fromStr commandTx s turn).ended with
    | none =>
      rw [← hgoes he]
      exact ih he
    | some e =>
      rw [run_of_ended commandTx fromStr (by simp [he])]
      exact hpre

/-- What holds of every session, however it ends. Nothing is forwarded before
the session id was received as the password. A crontab forwarded carries the
CRONLINEs between its CRONTAB line and the first other line, and is forwarded
before anything that line does. While a crontab is open nothing is done, so one
that is open at the end is not forwarded. The lines are those of the reads, in
order. -/
theorem crontabs_atomic (fromStr : String → Option Json) (probeId : UInt32) (hostname : String)
    (turns : List Session.Turn) :
    let s := run (Session.step fromStr commandTx) (Session.start probeId hostname) turns
    (∀ pre h post c, s.history = pre ++ h :: post → .forward c ∈ h.effects → LoggedIn pre) ∧
    (∀ pre h post spec, s.history = pre ++ h :: post → .forward (.crontab spec) ∈ h.effects →
      Delivers fromStr pre h spec) ∧
    (∀ pre o lines dir, s.history = pre ++ o :: lines → Opens o dir →
      (∀ l ∈ lines, IsCronline l.text) → ∀ l ∈ lines, l.effects = []) ∧
    s.history.map (·.text) <+: received .normal {} turns := by
  intro s
  have hI : Inv fromStr s := run_inv commandTx probeId hostname turns
  refine ⟨fun pre h post c heq hc => (hI.sound.forwards pre h post heq c hc).1,
    fun pre h post spec heq hc => (hI.sound.forwards pre h post heq _ hc).2 spec rfl,
    hI.sound.quiet, ?_⟩
  exact texts_prefix commandTx fromStr (s := Session.start probeId hostname) rfl turns

end

end Starla.Proof.Controller
