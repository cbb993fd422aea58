import Starla.Framework.Run
import Starla.Impl.Controller.Connect
import Starla.Proof.Controller.Registration

/-!
# A session stays with its controller

The assignment and the session are in two files. A registration that assigns
another controller leaves the session of the one before in the second.

* `inits_wait` : an INIT is sent to a controller only after the waits it has
  asked for, over any history.
* `session_stays` : a KEEP is opened with a session its controller assigned,
  where registrations assign no other controller than a saved session's.
-/

namespace Starla.Proof.Controller

open Starla.Framework Starla.Impl.Controller

/-! ## The session's file -/

theorem conKeep_parse_render {s : ConKeep} (h : ∀ sid ∈ s.sessionId, IsValue sid.toList) :
    ConKeep.parse s.render = s := by
  have hport : ∀ v ∈ s.remotePort.map toString, IsValue v.toList := isValue_of_mem_map isValue_uInt16
  have hwait : ∀ v ∈ s.waitUntil.map toString, IsValue v.toList := isValue_of_mem_map isValue_int64
  rw [ConKeep.parse, ConKeep.render, foldl_settingLine? (by decide) hport, foldl_settingLine? (by decide) h,
    ← String.append_empty (s := settingLine? _ _), foldl_settingLine? (by decide) hwait]
  obtain ⟨port, sid, t⟩ := s
  cases port <;> cases sid <;> cases t <;>
    simp [ConKeep.readSetting, parseUInt16_toString, parseInt64_toString]

theorem isWord_ready_read {f : Ready} {line : List Char} (h : ∀ sid ∈ f.sessionId, IsWord sid.toList) :
    ∀ sid ∈ (f.read line).sessionId, IsWord sid.toList := by
  unfold Ready.read
  split
  · exact h
  · rename_i id _ hline
    intro sid hsid
    obtain rfl : id = sid := Option.mem_some_iff.mp hsid
    have hmem : id ∈ wordsOf line := by
      rw [hline]
      exact List.mem_cons_of_mem _ List.mem_cons_self
    exact isWord_of_mem_wordsOf hmem
  · exact h

theorem isWord_foldl_ready {rest : List (List Char)} {f : Ready} (h : ∀ sid ∈ f.sessionId, IsWord sid.toList) :
    ∀ sid ∈ (rest.foldl Ready.read f).sessionId, IsWord sid.toList := by
  induction rest generalizing f with
  | nil => exact h
  | cons line rest ih => exact ih (isWord_ready_read h)

/-- A session a controller assigns is one word. -/
theorem isWord_sessionId {text sid : String} {port : UInt16}
    (h : parseInitResponse text = .ok (.controllerReady port sid)) : IsWord sid.toList := by
  unfold parseInitResponse at h
  split at h
  · cases h
  · split at h
    · simp only [Except.ok.injEq, parseOk] at h
      split at h
      · cases h
      · split at h
        · rename_i hsid
          cases h
          exact isWord_foldl_ready (f := {}) (fun sid hsid => by cases hsid) sid hsid
        · cases h
    all_goals cases h

theorem isValue_sessionId {text sid : String} {port : UInt16}
    (h : parseInitResponse text = .ok (.controllerReady port sid)) : IsValue sid.toList := (isWord_sessionId h).isValue

/-! ## What was done -/

/-- The controller itself assigned the session. -/
def OwnSession (deeds : List Deed) (info : ControllerInfo) (port : UInt16) (sid : String) : Prop :=
  ∃ info', .assigned info' port sid ∈ deeds ∧ info'.addr = info.addr

def KeepsOwn : List Deed → Prop
  | [] => True
  | .keepOpened info port sid :: older => OwnSession older info port sid ∧ KeepsOwn older
  | _ :: older => KeepsOwn older

def InitsWait : List Deed → Prop
  | [] => True
  | .initSent info now :: older =>
    (∀ info' t, .askedToWait info' t ∈ older → info'.addr = info.addr → ¬ now < t) ∧ InitsWait older
  | _ :: older => InitsWait older

theorem OwnSession.cons {deeds : List Deed} {info : ControllerInfo} {port : UInt16} {sid : String} {d : Deed}
    (h : OwnSession deeds info port sid) : OwnSession (d :: deeds) info port sid := by
  obtain ⟨info', hmem, haddr⟩ := h
  exact ⟨info', List.mem_cons_of_mem _ hmem, haddr⟩

theorem OwnSession.of_addr {deeds : List Deed} {info info' : ControllerInfo} {port : UInt16} {sid : String}
    (h : OwnSession deeds info port sid) (haddr : info.addr = info'.addr) : OwnSession deeds info' port sid := by
  obtain ⟨c, hmem, hc⟩ := h
  exact ⟨c, hmem, hc.trans haddr⟩

/-! ## Waits -/

/-- The wait saved, if it is not over. -/
def Pending (p : RegisterAndConnect) (t : Int64) : Prop := (ConKeep.load p.conKeepFile).waitUntil = some t

/-- Every wait asked for is over, or is the one saved. In the INIT loop the
sleep ends no sooner than it. -/
structure Waits (p : RegisterAndConnect) : Prop where
  value : ∀ sid ∈ (ConKeep.load p.conKeepFile).sessionId, IsValue sid.toList
  elapsed : ∀ info t, .askedToWait info t ∈ p.deeds → ¬ p.clock < t ∨ Pending p t
  initing : ∀ reg info conKeep wake, p.phase = .initing reg info conKeep wake →
    conKeep = ConKeep.load p.conKeepFile ∧ ∀ t, conKeep.waitUntil = some t → ¬ p.clock < t ∨ ¬ wake < t
  inits : InitsWait p.deeds

theorem not_lt_of_le {a b t : Int64} (hab : ¬ b < a) (h : ¬ a < t) : ¬ b < t := by
  rw [Int64.lt_iff_toInt_lt] at *
  omega

theorem waits_tick {p : RegisterAndConnect} (h : Waits p) (clock : Int64) : Waits (p.tick clock) := by
  have hle : ¬ (p.tick clock).clock < p.clock := by
    show ¬ (if p.clock < clock then clock else p.clock) < p.clock
    split <;> rw [Int64.lt_iff_toInt_lt] at * <;> omega
  refine ⟨h.value, fun info t ht => ?_, fun reg info conKeep wake hphase => ?_, h.inits⟩
  · exact (h.elapsed info t ht).imp_left (not_lt_of_le hle)
  · obtain ⟨hfile, hwait⟩ := h.initing reg info conKeep wake hphase
    exact ⟨hfile, fun t ht => (hwait t ht).imp_left (not_lt_of_le hle)⟩

/-- A pass that leaves the session's file, and enters no INIT loop. -/
theorem waits_of_same {p p' : RegisterAndConnect} (h : Waits p) (hfile : p'.conKeepFile = p.conKeepFile)
    (hclock : p'.clock = p.clock) (hdeeds : p'.deeds = p.deeds)
    (hphase : ∀ reg info conKeep wake, p'.phase ≠ .initing reg info conKeep wake) : Waits p' where
  value := hfile ▸ h.value
  elapsed info t ht := by
    rw [hclock, Pending, hfile]
    exact h.elapsed info t (hdeeds ▸ ht)
  initing reg info conKeep wake hp := absurd hp (hphase reg info conKeep wake)
  inits := hdeeds ▸ h.inits

theorem waits_register {p : RegisterAndConnect} (h : Waits p) (reg : RegState) (met : Met) : Waits (p.register reg met) := by
  unfold RegisterAndConnect.register
  split
  · exact waits_of_same h rfl rfl rfl (by simp)
  · exact h
  · split
    · unfold RegisterAndConnect.registrationAnswer
      split
      all_goals first | exact h | exact waits_of_same h rfl rfl rfl (by simp)
    · exact h

theorem waits_top {p : RegisterAndConnect} (h : Waits p) : Waits p.top := waits_of_same h rfl rfl rfl (by simp [RegisterAndConnect.top])

theorem waits_connected {p : RegisterAndConnect} (h : Waits p) (reg : RegState) (info : ControllerInfo) :
    Waits (p.connected reg info) := by
  unfold RegisterAndConnect.connected
  dsimp only
  split
  · exact waits_top h
  · rename_i hnone
    split
    · exact waits_of_same h rfl rfl rfl (by simp)
    · refine ⟨h.value, h.elapsed, fun reg' info' conKeep wake hphase => ?_, h.inits⟩
      simp only [Phase.initing.injEq] at hphase
      obtain ⟨-, -, rfl, rfl⟩ := hphase
      refine ⟨rfl, fun t ht => .inl fun hlt => ?_⟩
      have hlt' : p.clock < t := hlt
      simp [ConKeep.waitingUntil, ht, Option.filter, hlt'] at hnone

/-- What an answer to INIT leaves of the waits. -/
theorem waits_controllerAnswer {p : RegisterAndConnect} (h : Waits p) {info : ControllerInfo} (reg : RegState)
    (hover : ∀ t, Pending p t → ¬ p.clock < t) (text : String) :
    Waits ((p.did (.initSent info p.clock)).controllerAnswer reg info (ConKeep.load p.conKeepFile) text) := by
  have hall : ∀ info' t, .askedToWait info' t ∈ p.deeds → ¬ p.clock < t := fun info' t ht =>
    (h.elapsed info' t ht).elim id (hover t)
  have hsent : InitsWait (.initSent info p.clock :: p.deeds) := ⟨fun info' t ht _ => hall info' t ht, h.inits⟩
  have hmem : ∀ {info' t}, Deed.askedToWait info' t ∈ .initSent info p.clock :: p.deeds → ¬ p.clock < t := by
    intro info' t ht
    rcases List.mem_cons.mp ht with ht | ht
    · cases ht
    · exact hall info' t ht
  unfold RegisterAndConnect.controllerAnswer
  split
  · rename_i port sid hanswer
    have hload : ConKeep.load (some ((ConKeep.load p.conKeepFile).setReady port sid).render) = ⟨some port, some sid, none⟩ :=
      conKeep_parse_render fun s hs => by
        obtain rfl : sid = s := Option.mem_some_iff.mp hs
        exact isValue_sessionId hanswer
    refine ⟨?_, fun info' t ht => .inl ?_, by simp [RegisterAndConnect.saveConKeep, RegisterAndConnect.did], hsent⟩
    · show ∀ s ∈ (ConKeep.load (some _)).sessionId, _
      rw [hload]
      intro s hs
      obtain rfl : sid = s := Option.mem_some_iff.mp hs
      exact isValue_sessionId hanswer
    · rcases List.mem_cons.mp ht with ht | ht
      · cases ht
      · exact hmem ht
  · rename_i secs _
    have hload : ConKeep.load (some ((ConKeep.load p.conKeepFile).setWait (p.clock + secs.toUInt64.toInt64)).render) =
        (ConKeep.load p.conKeepFile).setWait (p.clock + secs.toUInt64.toInt64) := conKeep_parse_render h.value
    refine ⟨?_, fun info' t ht => ?_, fun reg' info' conKeep wake hphase => ?_, hsent⟩
    · show ∀ s ∈ (ConKeep.load (some _)).sessionId, _
      rw [show (p.did (.initSent info p.clock)).clock = p.clock from rfl, hload]
      exact h.value
    · rcases List.mem_cons.mp ht with ht | ht
      · cases ht
        refine .inr ?_
        show (ConKeep.load (some _)).waitUntil = _
        rw [show (p.did (.initSent info p.clock)).clock = p.clock from rfl, hload]
        rfl
      · exact .inl (hmem ht)
    · simp only [Phase.initing.injEq] at hphase
      obtain ⟨-, -, rfl, rfl⟩ := hphase
      refine ⟨hload.symm, fun t ht => .inr ?_⟩
      obtain rfl : _ = t := Option.some.inj ht
      exact fun hlt => Int64.lt_irrefl hlt
  · refine ⟨h.value, fun info' t ht => .inl (hmem ht), fun reg' info' conKeep wake hphase => ?_, hsent⟩
    simp only [Phase.initing.injEq] at hphase
    obtain ⟨-, -, rfl, rfl⟩ := hphase
    exact ⟨rfl, fun t ht => .inl (hover t ht)⟩
  · refine ⟨?_, fun info' t ht => .inl (hmem ht), by simp [RegisterAndConnect.top], hsent⟩
    show ∀ s ∈ (ConKeep.load (some (ConKeep.clear _).render)).sessionId, _
    rw [show ConKeep.load (some (ConKeep.clear (ConKeep.load p.conKeepFile)).render) = {} from rfl]
    simp
  · exact waits_top ⟨h.value, fun info' t ht => .inl (hmem ht), fun reg' info' conKeep wake hphase =>
      h.initing reg' info' conKeep wake hphase, hsent⟩
  · exact waits_top ⟨h.value, fun info' t ht => .inl (hmem ht), fun reg' info' conKeep wake hphase =>
      h.initing reg' info' conKeep wake hphase, hsent⟩

theorem waits_pass {p : RegisterAndConnect} (h : Waits p) (met : Met) : Waits (p.pass met) := by
  unfold RegisterAndConnect.pass
  split
  · exact waits_top h
  · exact waits_register h _ _
  · exact waits_connected h _ _
  · exact waits_top h
  · exact h
  · rename_i reg info conKeep wake _ hphase
    obtain ⟨hfile, hwait⟩ := h.initing reg info conKeep wake hphase
    split
    · exact h
    · rename_i hwake
      split
      · exact waits_top h
      · subst hfile
        exact waits_controllerAnswer h reg (fun t ht => (hwait t ht).elim id (not_lt_of_le hwake)) _
      · exact h
  · rename_i info port sid hphase
    refine ⟨h.value, fun info' t ht => ?_, fun reg info' conKeep wake hp => ?_, h.inits⟩
    · rcases List.mem_cons.mp ht with ht | ht
      · cases ht
      · exact h.elapsed info' t ht
    · rw [show (p.did _).phase = p.phase from rfl, hphase] at hp
      cases hp
  · exact h

theorem waits_init : Waits {} where
  value := by simp [ConKeep.load]
  elapsed := by simp
  initing := by simp
  inits := trivial

/-- No INIT is sent to a controller before a wait it has asked for is over. -/
theorem inits_wait (events : List ConnectEvent) : InitsWait (run RegisterAndConnect.step {} events).deeds := by
  have h : Waits (run RegisterAndConnect.step {} events) := run_of_step (fun p e h => waits_pass (waits_tick h e.clock) e.met) waits_init
  exact h.inits

/-! ## Sessions -/

/-- The registration that is in memory is the one in the file. -/
structure InFile (regFile : Option String) (reg : RegState) : Prop where
  saveable : Saveable reg
  file : savedState reg = RegState.load regFile

/-- The controller a loop is at is the one assigned. -/
structure AtAssigned (regFile : Option String) (reg : RegState) (info : ControllerInfo) : Prop
    extends InFile regFile reg where
  assigned : ∃ c, reg.controller = some c ∧ c.addr = info.addr

def PhaseOk (p : RegisterAndConnect) : Phase → Prop
  | .registering reg => InFile p.regFile reg
  | .connecting reg info => AtAssigned p.regFile reg info
  | .initing reg info conKeep _ => AtAssigned p.regFile reg info ∧ conKeep = ConKeep.load p.conKeepFile
  | .keeping info port sid => OwnSession p.deeds info port sid

/-- A session that is saved was assigned by the controller that is. -/
structure Files (p : RegisterAndConnect) : Prop where
  saveable : Saveable (RegState.load p.regFile)
  fixed : savedState (RegState.load p.regFile) = RegState.load p.regFile
  value : ∀ sid ∈ (ConKeep.load p.conKeepFile).sessionId, IsValue sid.toList
  own : ∀ c port sid, (RegState.load p.regFile).controller = some c →
    (ConKeep.load p.conKeepFile).remotePort = some port → (ConKeep.load p.conKeepFile).sessionId = some sid →
    OwnSession p.deeds c port sid
  keeps : KeepsOwn p.deeds

structure OwnSessions (p : RegisterAndConnect) : Prop extends Files p where
  phase : PhaseOk p p.phase

/-- A registration answer assigns no other controller than the one that
assigned a session that is saved. -/
def SameController (p : RegisterAndConnect) (e : ConnectEvent) : Prop :=
  ∀ reg reason text info, p.phase = .registering reg → reg.nextStep (p.tick e.clock).clock = .register reason →
    e.met = .answer text → parseInitResponse text = .ok (.controller info) →
    ∀ port sid, (ConKeep.load p.conKeepFile).remotePort = some port →
      (ConKeep.load p.conKeepFile).sessionId = some sid → OwnSession p.deeds info port sid

theorem savedState_savedState (s : RegState) : savedState (savedState s) = savedState s := by
  cases hc : s.controller <;> simp [savedState, saved, hc]

theorem load_render {reg : RegState} (h : Saveable reg) : RegState.load (some reg.render) = savedState reg :=
  parse_render h

/-- A pass that saves a registration. -/
theorem sessions_of_saveReg {p p' : RegisterAndConnect} (h : OwnSessions p) {reg : RegState} (hreg : Saveable reg)
    (hfile : p'.regFile = some reg.render) (hkeep : p'.conKeepFile = p.conKeepFile) (hdeeds : p'.deeds = p.deeds)
    (hown : ∀ c port sid, reg.controller = some c → (ConKeep.load p.conKeepFile).remotePort = some port →
      (ConKeep.load p.conKeepFile).sessionId = some sid → OwnSession p.deeds c port sid)
    (hphase : PhaseOk p' p'.phase) : OwnSessions p' where
  saveable := by rw [hfile, load_render hreg]; exact saveable_savedState hreg
  fixed := by rw [hfile, load_render hreg, savedState_savedState]
  value := hkeep ▸ h.value
  own c port sid hc hport hsid := by
    rw [hfile, load_render hreg] at hc
    rw [hkeep] at hport hsid
    rw [hdeeds]
    obtain ⟨c', hc', rfl⟩ := Option.map_eq_some_iff.mp hc
    exact (hown c' port sid hc' hport hsid).of_addr rfl
  phase := hphase
  keeps := hdeeds ▸ h.keeps

theorem sessions_top {p : RegisterAndConnect} (h : Files p) : OwnSessions p.top :=
  ⟨⟨h.saveable, h.fixed, h.value, h.own, h.keeps⟩, h.saveable, h.fixed⟩

theorem controller_of_cached {reg : RegState} {now : Int64} {info : ControllerInfo}
    (h : reg.nextStep now = .cached info) : reg.controller = some info := by
  obtain ⟨c, t, w, r⟩ := reg
  simp only [RegState.nextStep] at h
  split_ifs at h
  cases w with
  | some w => dsimp only at h; split_ifs at h
  | none =>
    cases c with
    | none => cases h
    | some c =>
      cases t with
      | none => cases h
      | some t =>
        dsimp only at h
        split_ifs at h
        exact congrArg some (RegStep.cached.inj h)

theorem own_of_inFile {p : RegisterAndConnect} (h : OwnSessions p) {reg : RegState} (hreg : InFile p.regFile reg) {c : ControllerInfo}
    {port : UInt16} {sid : String} (hc : reg.controller = some c)
    (hport : (ConKeep.load p.conKeepFile).remotePort = some port)
    (hsid : (ConKeep.load p.conKeepFile).sessionId = some sid) : OwnSession p.deeds c port sid := by
  have hfile : (RegState.load p.regFile).controller = some (saved c) := by
    rw [← hreg.file, savedState, hc]
    rfl
  exact (h.own (saved c) port sid hfile hport hsid).of_addr rfl

theorem sessions_register {p : RegisterAndConnect} (h : OwnSessions p) {reg : RegState} (hphase : p.phase = .registering reg)
    {met : Met} (hok : ∀ reason text info, reg.nextStep p.clock = .register reason → met = .answer text →
      parseInitResponse text = .ok (.controller info) →
      ∀ port sid, (ConKeep.load p.conKeepFile).remotePort = some port →
        (ConKeep.load p.conKeepFile).sessionId = some sid → OwnSession p.deeds info port sid) :
    OwnSessions (p.register reg met) := by
  have hreg : InFile p.regFile reg := by
    have := h.phase
    rwa [hphase] at this
  have hwait : ∀ secs, Saveable (reg.toldToWait secs p.clock) := fun secs =>
    ⟨hreg.saveable.host, fun r hr => absurd hr (by simp [RegState.toldToWait])⟩
  unfold RegisterAndConnect.register
  split
  · rename_i info hnext
    exact ⟨⟨h.saveable, h.fixed, h.value, h.own, h.keeps⟩, hreg, info, controller_of_cached hnext, rfl⟩
  · exact h
  · rename_i reason hnext
    split
    · rename_i text
      unfold RegisterAndConnect.registrationAnswer
      split
      · rename_i info hanswer
        have hsave : Saveable (reg.registered info p.clock) := by
          refine ⟨fun c hc => ?_, fun r hr => absurd hr (by simp [RegState.registered])⟩
          obtain rfl : info = c := Option.some.inj hc
          exact isWord_host hanswer
        refine sessions_of_saveReg h hsave rfl rfl rfl (fun c port sid hc => ?_)
          ⟨⟨hsave, (load_render hsave).symm⟩, info, rfl, rfl⟩
        obtain rfl : info = c := Option.some.inj hc
        exact hok reason text info hnext rfl hanswer port sid
      · exact sessions_of_saveReg h (hwait _) rfl rfl rfl (fun c port sid hc => own_of_inFile h hreg hc)
          ⟨hwait _, (load_render (hwait _)).symm⟩
      · exact sessions_of_saveReg h (hwait _) rfl rfl rfl (fun c port sid hc => own_of_inFile h hreg hc)
          ⟨hwait _, (load_render (hwait _)).symm⟩
      · exact h
    · exact h

theorem reusable_eq_some {s : ConKeep} {now : Int64} {port : UInt16} {sid : String}
    (h : s.reusable now = some (port, sid)) : s.remotePort = some port ∧ s.sessionId = some sid := by
  obtain ⟨p, i, t⟩ := s
  simp only [ConKeep.reusable] at h
  split_ifs at h
  cases p <;> cases i <;> simp_all

theorem sessions_connected {p : RegisterAndConnect} (h : OwnSessions p) {reg : RegState} {info : ControllerInfo}
    (hphase : p.phase = .connecting reg info) : OwnSessions (p.connected reg info) := by
  have hat : AtAssigned p.regFile reg info := by
    have := h.phase
    rwa [hphase] at this
  unfold RegisterAndConnect.connected
  dsimp only
  split
  · exact sessions_top h.toFiles
  · split
    · rename_i port sid hreuse
      obtain ⟨hport, hsid⟩ := reusable_eq_some hreuse
      obtain ⟨c, hc, haddr⟩ := hat.assigned
      exact ⟨⟨h.saveable, h.fixed, h.value, h.own, h.keeps⟩, (own_of_inFile h hat.toInFile hc hport hsid).of_addr haddr⟩
    · exact ⟨⟨h.saveable, h.fixed, h.value, h.own, h.keeps⟩, hat, rfl⟩

/-- A deed that opens no KEEP. -/
theorem sessions_did {p : RegisterAndConnect} (h : OwnSessions p) {d : Deed} (hd : KeepsOwn (d :: p.deeds)) : OwnSessions (p.did d) where
  saveable := h.saveable
  fixed := h.fixed
  value := h.value
  own c port sid hc hport hsid := (h.own c port sid hc hport hsid).cons
  phase := by
    have hphase := h.phase
    show PhaseOk (p.did d) p.phase
    cases hp : p.phase with
    | keeping info port sid =>
      rw [hp] at hphase
      exact OwnSession.cons hphase
    | registering reg => rwa [hp] at hphase
    | connecting reg info => rwa [hp] at hphase
    | initing reg info conKeep wake => rwa [hp] at hphase
  keeps := hd

theorem sessions_controllerAnswer {p : RegisterAndConnect} (h : OwnSessions p) {reg : RegState} {info : ControllerInfo}
    (hat : AtAssigned p.regFile reg info) (text : String) :
    OwnSessions (p.controllerAnswer reg info (ConKeep.load p.conKeepFile) text) := by
  have hfile : (RegState.load p.regFile).controller.map ControllerInfo.addr = some info.addr := by
    obtain ⟨c, hc, haddr⟩ := hat.assigned
    rw [← hat.file, savedState, hc, ← haddr]
    rfl
  unfold RegisterAndConnect.controllerAnswer
  split
  · rename_i port sid hanswer
    have hload : ConKeep.load (some ((ConKeep.load p.conKeepFile).setReady port sid).render) = ⟨some port, some sid, none⟩ :=
      conKeep_parse_render fun s hs => by
        obtain rfl : sid = s := Option.mem_some_iff.mp hs
        exact isValue_sessionId hanswer
    have hown : OwnSession (.assigned info port sid :: p.deeds) info port sid := ⟨info, List.mem_cons_self, rfl⟩
    refine ⟨⟨h.saveable, h.fixed, ?_, fun c port' sid' hc hport hsid => ?_, h.keeps⟩, hown⟩
    · show ∀ s ∈ (ConKeep.load (some _)).sessionId, _
      rw [hload]
      intro s hs
      obtain rfl : sid = s := Option.mem_some_iff.mp hs
      exact isValue_sessionId hanswer
    · obtain rfl : port = port' := Option.some.inj ((congrArg ConKeep.remotePort hload).symm.trans hport)
      obtain rfl : sid = sid' := Option.some.inj ((congrArg ConKeep.sessionId hload).symm.trans hsid)
      rw [show (RegState.load p.regFile).controller = some c from hc] at hfile
      exact hown.of_addr (Option.some.inj hfile).symm
  · rename_i secs _
    have hload : ConKeep.load (some ((ConKeep.load p.conKeepFile).setWait (p.clock + secs.toUInt64.toInt64)).render) =
        (ConKeep.load p.conKeepFile).setWait (p.clock + secs.toUInt64.toInt64) := conKeep_parse_render h.value
    refine ⟨⟨h.saveable, h.fixed, ?_, fun c port sid hc hport hsid => ?_, h.keeps⟩, hat, hload.symm⟩
    · show ∀ s ∈ (ConKeep.load (some _)).sessionId, _
      rw [hload]
      exact h.value
    · exact (h.own c port sid hc ((congrArg ConKeep.remotePort hload).symm.trans hport)
        ((congrArg ConKeep.sessionId hload).symm.trans hsid)).cons
  · exact ⟨⟨h.saveable, h.fixed, h.value, h.own, h.keeps⟩, hat, rfl⟩
  · rename_i reason hanswer
    have hsave : Saveable (reg.refused reason) :=
      ⟨fun c hc => absurd hc (by simp [RegState.refused]), fun r hr => by
        obtain rfl : reason = r := Option.some.inj hr
        exact isValue_reason hanswer⟩
    have hload : RegState.load (some (reg.refused reason).render) = savedState (reg.refused reason) := load_render hsave
    have hclear : ConKeep.load (some (ConKeep.load p.conKeepFile).clear.render) = {} := rfl
    refine sessions_top ⟨?_, ?_, ?_, fun c port sid hc => ?_, h.keeps⟩
    · show Saveable (RegState.load (some _))
      rw [hload]
      exact saveable_savedState hsave
    · show savedState (RegState.load (some _)) = RegState.load (some _)
      rw [hload, savedState_savedState]
    · show ∀ s ∈ (ConKeep.load (some _)).sessionId, _
      rw [hclear]
      simp
    · cases (congrArg RegState.controller hload).symm.trans hc
  · exact sessions_top h.toFiles
  · exact sessions_top h.toFiles

theorem sessions_tick {p : RegisterAndConnect} (h : OwnSessions p) (clock : Int64) : OwnSessions (p.tick clock) := by
  refine ⟨⟨h.saveable, h.fixed, h.value, h.own, h.keeps⟩, ?_⟩
  have hphase := h.phase
  show PhaseOk (p.tick clock) p.phase
  cases hp : p.phase <;> rwa [hp] at hphase

theorem sessions_step (p : RegisterAndConnect) (e : ConnectEvent) (h : OwnSessions p) (hok : SameController p e) :
    OwnSessions (p.step e) := by
  have ht : OwnSessions (p.tick e.clock) := sessions_tick h e.clock
  show OwnSessions ((p.tick e.clock).pass e.met)
  have hphase : (p.tick e.clock).phase = p.phase := rfl
  have hphaseOk := ht.phase
  unfold RegisterAndConnect.pass
  split
  · exact sessions_top ht.toFiles
  · rename_i reg hp _
    refine sessions_register ht hp fun reason text info hnext hmet hanswer => ?_
    exact hok reg reason text info (hphase ▸ hp) hnext hmet hanswer
  · rename_i reg info _ hp
    exact sessions_connected ht hp
  · exact sessions_top ht.toFiles
  · exact ht
  · rename_i reg info conKeep wake hp _
    rw [hp] at hphaseOk
    obtain ⟨hat, hkeep⟩ := hphaseOk
    split
    · exact ht
    · split
      · exact sessions_top ht.toFiles
      · subst hkeep
        exact sessions_controllerAnswer (sessions_did ht (d := .initSent info (p.tick e.clock).clock) ht.keeps) hat _
      · exact ht
  · rename_i info port sid _ hp
    rw [hp] at hphaseOk
    exact sessions_did ht ⟨hphaseOk, ht.keeps⟩
  · exact ht

theorem sessions_init : OwnSessions {} where
  saveable := ⟨by simp [RegState.load], by simp [RegState.load]⟩
  fixed := rfl
  value := by simp [ConKeep.load]
  own := by simp [RegState.load]
  keeps := trivial
  phase := ⟨⟨by simp, by simp⟩, rfl⟩

theorem session_stays (events : List ConnectEvent) (hok : AllSteps RegisterAndConnect.step SameController {} events) :
    Always RegisterAndConnect.step (fun p => KeepsOwn p.deeds ∧ InitsWait p.deeds) {} events := by
  have hkeeps : Always RegisterAndConnect.step OwnSessions {} events := always_of_inv sessions_step sessions_init hok
  have hinits : Always RegisterAndConnect.step Waits {} events :=
    always_of_step (fun p e h => waits_pass (waits_tick h e.clock) e.met) waits_init
  exact (hkeeps.and hinits).mono fun p h => ⟨h.1.keeps, h.2.inits⟩

def ASSIGN_A : ConnectEvent := ⟨.answer "OK\nCONTROLLER a 443 k AAAA\nREREGISTER 100\n", 1000⟩
def ASSIGN_B : ConnectEvent := ⟨.answer "OK\nCONTROLLER b 443 k AAAA\nREREGISTER 100\n", 1200⟩
def READY_A : ConnectEvent := ⟨.answer "OK\nREMOTE_PORT 2000\nSESSION_ID s1\n", 1000⟩

/-- A session with one controller, kept and kept again. -/
def oneController : List ConnectEvent := [ASSIGN_A, ⟨.connected, 1000⟩, READY_A, ⟨.connected, 1001⟩, ⟨.connected, 1030⟩]

/-- Restarted once the first assignment has run out, the probe is assigned
another controller. -/
def twoControllers : List ConnectEvent :=
  [ASSIGN_A, ⟨.connected, 1000⟩, READY_A, ⟨.connected, 1001⟩, ⟨.restart, 1200⟩, ASSIGN_B, ⟨.connected, 1200⟩,
    ⟨.connected, 1201⟩]

def isRegistering : Phase → Bool
  | .registering _ => true
  | _ => false

theorem not_registering {phase : Phase} (h : isRegistering phase = false) (reg : RegState) :
    phase ≠ .registering reg := by
  rintro rfl
  cases h

theorem session_stays_oneController :
    Always RegisterAndConnect.step (fun p => KeepsOwn p.deeds ∧ InitsWait p.deeds) {} oneController := by
  refine session_stays oneController ⟨?_, ?_, ?_, ?_, ?_, trivial⟩
  · intro reg reason text info _ _ _ _ port sid hport
    cases hport
  all_goals
    intro reg reason text info hphase
    exact absurd hphase (not_registering (by decide) reg)

theorem not_always_of_not_keepsOwn {events : List ConnectEvent}
    (h : ¬ KeepsOwn (run RegisterAndConnect.step {} events).deeds) :
    ¬ Always RegisterAndConnect.step (fun p => KeepsOwn p.deeds ∧ InitsWait p.deeds) {} events :=
  fun hall => h hall.last.1

/-- The KEEP with the second controller uses the first one's session. -/
theorem session_of_another_controller :
    ¬ Always RegisterAndConnect.step (fun p => KeepsOwn p.deeds ∧ InitsWait p.deeds) {} twoControllers := by
  have hdeeds : (run RegisterAndConnect.step {} twoControllers).deeds =
      [.keepOpened ⟨"b", 443, 0, some 100⟩ 2000 "s1", .keepOpened ⟨"a", 443, 0, some 100⟩ 2000 "s1",
        .assigned ⟨"a", 443, 0, some 100⟩ 2000 "s1", .initSent ⟨"a", 443, 0, some 100⟩ 1000] := by
    decide +kernel
  refine not_always_of_not_keepsOwn ?_
  rw [hdeeds]
  rintro ⟨⟨info, hmem, haddr⟩, -⟩
  simp only [List.mem_cons, Deed.assigned.injEq, reduceCtorEq, false_or, or_false, List.not_mem_nil] at hmem
  obtain ⟨rfl, -, -⟩ := hmem
  exact absurd haddr (by decide)

end Starla.Proof.Controller
