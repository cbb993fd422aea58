import Starla.Framework.Run
import Starla.Impl.Controller.Sessions

/-!
# One controller session at a time

A session is superseded once another of its cell has authenticated after it.
Its receiver is behind its channel exactly then (`Inv`), and the table keeps
the channel as long as the session lives.

* `handleLine_spec` : what a line does to the session's flags.
* `takeOver_spec` : a login sends once on its cell's channel and on no other.
* `step_inv` : every event keeps the invariant.
* `one_session_at_a_time` : no superseded session handles a line, and only
  superseded ones are ended by a takeover.
-/

namespace Starla.Proof.Controller.Takeover

open Starla.Framework Starla.Impl.Controller

/-! ## One session -/

section
variable (fromStr : String → Option Json) (commandTx : Bool)

/-- Before it authenticates a session has forwarded nothing and has no crontab
open. -/
structure Quiet (s : Session) : Prop where
  state : s.state = .getLoginName ∨ s.state = .getPassword
  crontab : s.crontab = none
  replies : ∀ h ∈ s.history, ∀ e ∈ h.effects, ∃ text, e = .reply text

theorem command_flags (s : Session) (line : String) (a : Around) :
    (s.command fromStr commandTx line a).atlas = s.atlas ∧
      (s.command fromStr commandTx line a).ended ≠ some .takenOver := by
  unfold Session.command Session.request
  split
  · dsimp only; split
    · simp
    · dsimp only; split <;> simp
    · simp
  · split
    · dsimp only; split
      · simp
      · dsimp only; split <;> simp
      · simp
    · simp

/-- A line keeps the session authenticated, and is not what a takeover is. -/
theorem outcome_flags (s : Session) (line : String) (a : Around) :
    (s.atlas → (s.outcome fromStr commandTx line a).atlas) ∧
      (s.outcome fromStr commandTx line a).ended ≠ some .takenOver ∧
      ((s.outcome fromStr commandTx line a).atlas → s.atlas = false →
        (s.outcome fromStr commandTx line a).ended = none) := by
  have hc := command_flags fromStr commandTx s line a
  unfold Session.outcome
  cases s.state with
  | getLoginName =>
    dsimp only
    split
    · exact ⟨id, by simp, fun _ _ => rfl⟩
    · exact ⟨id, by simp, fun h hn => absurd h (by simp [hn])⟩
  | getPassword =>
    dsimp only
    split
    · exact ⟨fun _ => rfl, by simp, fun _ _ => rfl⟩
    · exact ⟨id, by simp, fun h hn => absurd h (by simp [hn])⟩
  | getCmd => exact ⟨fun h => hc.1.trans h, hc.2, fun h hn => absurd (hc.1.symm.trans h) (by simp [hn])⟩
  | doCrontab =>
    dsimp only
    split
    · exact ⟨id, by simp, fun h hn => absurd h (by simp [hn])⟩
    · exact ⟨fun h => hc.1.trans h, hc.2, fun h hn => absurd (hc.1.symm.trans h) (by simp [hn])⟩
  | eomSeen => exact ⟨id, by simp, fun h hn => absurd h (by simp [hn])⟩

/-- A line: a superseded session ends without handling it; any other handles
it, keeps what it has authenticated, and is not ended by a takeover. -/
theorem handleLine_spec (s : Session) (line : String) (a : Around) :
    ((s.atlas && a.takenOver) = true ∧
      s.handleLine fromStr commandTx line a = { s with ended := some .takenOver }) ∨
    (s.atlas && a.takenOver) = false ∧
      (s.atlas → (s.handleLine fromStr commandTx line a).atlas) ∧
      (s.handleLine fromStr commandTx line a).ended ≠ some .takenOver ∧
      ((s.handleLine fromStr commandTx line a).atlas → s.atlas = false →
        (s.handleLine fromStr commandTx line a).ended = none) := by
  unfold Session.handleLine
  split
  · rename_i h
    exact Or.inl ⟨h, rfl⟩
  · rename_i h
    exact Or.inr ⟨by simpa using h, outcome_flags fromStr commandTx s line a⟩

theorem handleLine_quiet (s : Session) (line : String) (a : Around) (h : Quiet s)
    (hn : (s.handleLine fromStr commandTx line a).atlas = false) :
    Quiet (s.handleLine fromStr commandTx line a) := by
  unfold Session.handleLine at hn ⊢
  split
  · exact ⟨h.state, h.crontab, h.replies⟩
  rename_i hover
  rw [if_neg hover] at hn
  have hreplies (o : Outcome) (ho : ∀ e ∈ o.effects, ∃ text, e = .reply text) :
      ∀ h ∈ s.history ++ [⟨s.state, line, a.sessionId, o.effects⟩], ∀ e ∈ h.effects, ∃ text, e = .reply text := by
    intro x hx
    rcases List.mem_append.mp hx with hx | hx
    · exact h.replies x hx
    · rw [List.mem_singleton.mp hx]
      exact ho
  unfold Session.outcome at hn ⊢
  rcases h.state with hs | hs
  · rw [hs] at hn ⊢
    dsimp only at hn ⊢
    split
    · exact ⟨Or.inr rfl, h.crontab, hs ▸ hreplies ⟨_, s.atlas, s.crontab, _, none⟩ (by simp)⟩
    · exact ⟨Or.inl rfl, h.crontab, hs ▸ hreplies ⟨s.state, s.atlas, s.crontab, _, _⟩ (by simp)⟩
  · rw [hs] at hn ⊢
    dsimp only at hn ⊢
    split at hn
    · cases hn
    · rename_i hword
      rw [if_neg hword]
      exact ⟨Or.inr rfl, h.crontab, hs ▸ hreplies ⟨s.state, s.atlas, s.crontab, _, none⟩ (by simp)⟩

end

/-! ## All sessions -/

/-- Another connection of the cell has authenticated after connection `i`. -/
def Superseded (s : Sessions) (i : Nat) (cell : Cell) : Prop :=
  ∃ j d, s.connections[j]? = some d ∧ d.cell = cell ∧ [i, j].Sublist s.logins

/-- What holds of connection `i` by itself. -/
structure Good (s : Sessions) (i : Nat) (c : Connection) : Prop where
  atlas : c.session.atlas = c.atlas.isSome
  login : i ∈ s.logins ↔ c.atlas.isSome
  /-- While it lives, its cell's channel is in the table, and its receiver is
  behind exactly if it is superseded. -/
  receiver : ∀ rx, c.live → c.atlas = some rx →
    s.atlasSessions.lookup c.cell.address = some rx.channel ∧
      (s.version rx.channel ≠ rx.seen ↔ Superseded s i c.cell)
  seen : ∀ rx, c.live → c.atlas = some rx → rx.seen ≤ s.version rx.channel
  ended : c.session.ended = some .takenOver → Superseded s i c.cell
  quiet : c.session.atlas = false → Quiet c.session

structure Inv (s : Sessions) : Prop where
  good : ∀ i c, s.connections[i]? = some c → Good s i c
  logins : ∀ i ∈ s.logins, i < s.connections.length
  nodup : s.logins.Nodup
  /-- Live connections whose cells have one address hold one cell. -/
  cells : ∀ (i j : Nat) (c d : Connection), s.connections[i]? = some c → s.connections[j]? = some d → c.live → d.live →
    c.cell.address = d.cell.address → c.cell = d.cell
  /-- No two cells share a channel. -/
  channel : ∀ k tx, s.atlasSessions.lookup k = some tx → tx < s.channels.length ∧
    ∀ k', s.atlasSessions.lookup k' = some tx → k' = k

/-! ## Steps without a login -/

theorem superseded_congr {s s' : Sessions} (hl : s'.logins = s.logins)
    (hc : ∀ j : Nat, (s'.connections[j]?).map Connection.cell = (s.connections[j]?).map Connection.cell)
    (i : Nat) (cell : Cell) : Superseded s' i cell ↔ Superseded s i cell := by
  have key (j : Nat) : (∃ d, s'.connections[j]? = some d ∧ d.cell = cell) ↔
      ∃ d, s.connections[j]? = some d ∧ d.cell = cell := by
    rw [← Option.map_eq_some_iff, ← Option.map_eq_some_iff, hc j]
  constructor
  · rintro ⟨j, d, hd, hcell, hsub⟩
    obtain ⟨d', hd', hcell'⟩ := (key j).mp ⟨d, hd, hcell⟩
    exact ⟨j, d', hd', hcell', hl ▸ hsub⟩
  · rintro ⟨j, d, hd, hcell, hsub⟩
    obtain ⟨d', hd', hcell'⟩ := (key j).mpr ⟨d, hd, hcell⟩
    exact ⟨j, d', hd', hcell', hl ▸ hsub⟩

/-- Connection `i` with a new session, over the same cell. -/
def update (s : Sessions) (i : Nat) (c : Connection) (session : Session) : Sessions :=
  { s with connections := s.connections.set i { c with session } }

theorem getElem?_update (s : Sessions) {i : Nat} {c : Connection} (h : s.connections[i]? = some c)
    (session : Session) (j : Nat) :
    (update s i c session).connections[j]? =
      if j = i then some { c with session } else s.connections[j]? := by
  have hi : i < s.connections.length := (List.getElem?_eq_some_iff.mp h).1
  show (s.connections.set i _)[j]? = _
  rw [List.getElem?_set]
  by_cases hji : j = i
  · subst hji
    simp [hi]
  · rw [if_neg (Ne.symm hji), if_neg hji]

theorem superseded_update (s : Sessions) {i : Nat} {c : Connection} (h : s.connections[i]? = some c)
    (session : Session) (j : Nat) (cell : Cell) :
    Superseded (update s i c session) j cell ↔ Superseded s j cell := by
  have hcells (k : Nat) : ((update s i c session).connections[k]?).map Connection.cell =
      (s.connections[k]?).map Connection.cell := by
    rw [getElem?_update s h]
    split
    · next hk => rw [hk, h]; rfl
    · rfl
  exact superseded_congr (show (update s i c session).logins = s.logins from rfl) hcells j cell

/-- A session that goes on, or ends, as authenticated as it was. -/
theorem inv_update {s : Sessions} (hs : Inv s) {i : Nat} {c : Connection} (h : s.connections[i]? = some c)
    (hlive : c.live) {session : Session} (hatlas : session.atlas = c.session.atlas)
    (hend : session.ended = some .takenOver → Superseded s i c.cell)
    (hquiet : session.atlas = false → Quiet session) : Inv (update s i c session) := by
  have hget := getElem?_update s h session
  have hsup := superseded_update s h session
  have hold := hs.good i c h
  refine ⟨?_, ?_, hs.nodup, ?_, hs.channel⟩
  · intro j d hd
    rw [hget] at hd
    split at hd
    · next hj =>
      subst hj
      cases hd
      refine ⟨hatlas.trans hold.atlas, hold.login, fun rx _ hrx => ?_, fun rx _ hrx => ?_, fun he => ?_, hquiet⟩
      · rw [hsup]
        exact hold.receiver rx hlive hrx
      · exact hold.seen rx hlive hrx
      · rw [hsup]
        exact hend he
    · have hg := hs.good j d hd
      refine ⟨hg.atlas, hg.login, fun rx hl hrx => ?_, hg.seen, fun he => ?_, hg.quiet⟩
      · rw [hsup]
        exact hg.receiver rx hl hrx
      · rw [hsup]
        exact hg.ended he
  · intro j hj
    show j < (s.connections.set i _).length
    rw [List.length_set]
    exact hs.logins j hj
  · intro j k d e hd he hdl hel haddr
    rw [hget] at hd he
    have lift (j : Nat) (d : Connection) (hd : (if j = i then some { c with session } else s.connections[j]?) = some d)
        (hl : d.live) : ∃ d', s.connections[j]? = some d' ∧ d'.live ∧ d'.cell = d.cell := by
      split at hd
      · next hj =>
        cases hd
        exact ⟨c, hj ▸ h, hlive, rfl⟩
      · exact ⟨d, hd, hl, rfl⟩
    obtain ⟨d', hd', hdl', hdc⟩ := lift j d hd hdl
    obtain ⟨e', he', hel', hec⟩ := lift k e he hel
    rw [← hdc, ← hec] at haddr ⊢
    exact hs.cells j k d' e' hd' he' hdl' hel' haddr

/-- A new connection, its cell held by no other under its address. -/
theorem inv_connect {s : Sessions} (hs : Inv s) (cell : Cell) (commandTx : Bool) (probeId : UInt32)
    (hostname : String) :
    Inv (s.connect { cell, commandTx, session := .start probeId hostname }) := by
  unfold Sessions.connect
  split
  · exact hs
  rename_i hfree
  have hfree' : ∀ d ∈ s.connections, d.live → d.cell.address = cell.address → d.cell = cell := by
    intro d hd hl ha
    simp only [List.any_eq_true, not_exists, not_and, Bool.and_eq_true, beq_iff_eq, bne_iff_ne,
      Decidable.not_not] at hfree
    exact hfree d hd ⟨hl, ha⟩
  generalize hc : ({ cell, commandTx, session := Session.start probeId hostname } : Connection) = c
  have hcell : c.cell = cell := by rw [← hc]
  have hnew : c.session.atlas = false ∧ c.atlas = none ∧ c.session.ended = none ∧ Quiet c.session := by
    subst hc
    exact ⟨rfl, rfl, rfl, ⟨Or.inl rfl, rfl, by simp [Session.start]⟩⟩
  have hget (j : Nat) : (s.connections ++ [c])[j]? =
      if j = s.connections.length then some c else s.connections[j]? := by
    split
    · next hj => rw [hj, List.getElem?_append_right (Nat.le_refl _)]; simp
    · next hj =>
      by_cases hlt : j < s.connections.length
      · rw [List.getElem?_append_left hlt]
      · rw [List.getElem?_eq_none (by rw [List.length_append, List.length_singleton]; omega),
          List.getElem?_eq_none (by omega)]
  have hsup (i : Nat) (cell : Cell) :
      Superseded { s with connections := s.connections ++ [c] } i cell ↔ Superseded s i cell := by
    constructor
    · rintro ⟨j, d, hd, hcd, hsub⟩
      have hj : j < s.connections.length := hs.logins j (hsub.subset (by simp))
      have hd : (s.connections ++ [c])[j]? = some d := hd
      rw [List.getElem?_append_left hj] at hd
      exact ⟨j, d, hd, hcd, hsub⟩
    · rintro ⟨j, d, hd, hcd, hsub⟩
      have hj : j < s.connections.length := (List.getElem?_eq_some_iff.mp hd).1
      refine ⟨j, d, ?_, hcd, hsub⟩
      show (s.connections ++ [c])[j]? = some d
      rw [List.getElem?_append_left hj]
      exact hd
  refine ⟨?_, ?_, hs.nodup, ?_, hs.channel⟩
  · intro j d hd
    rw [show (s.connections ++ [c])[j]? = _ from hget j] at hd
    split at hd
    · next hj =>
      cases hd
      refine ⟨by rw [hnew.1, hnew.2.1]; rfl, ?_, ?_, ?_, ?_, fun _ => hnew.2.2.2⟩
      · rw [hnew.2.1]
        refine ⟨fun hmem => absurd (hs.logins j hmem) (by omega), fun h => by cases h⟩
      · intro rx _ hrx
        rw [hnew.2.1] at hrx
        cases hrx
      · intro rx _ hrx
        rw [hnew.2.1] at hrx
        cases hrx
      · intro he
        rw [hnew.2.2.1] at he
        cases he
    · have hg := hs.good j d hd
      refine ⟨hg.atlas, hg.login, fun rx hl hrx => ?_, hg.seen, fun he => ?_, hg.quiet⟩
      · rw [hsup]
        exact hg.receiver rx hl hrx
      · rw [hsup]
        exact hg.ended he
  · intro j hj
    show j < (s.connections ++ [c]).length
    rw [List.length_append]
    have := hs.logins j hj
    omega
  · intro j k d e hd he hdl hel haddr
    rw [show (s.connections ++ [c])[j]? = _ from hget j] at hd
    rw [show (s.connections ++ [c])[k]? = _ from hget k] at he
    split at hd <;> split at he
    · cases hd
      cases he
      rfl
    · cases hd
      rw [hcell] at haddr ⊢
      exact (hfree' e (List.mem_of_getElem? he) hel haddr.symm).symm
    · cases he
      rw [hcell] at haddr ⊢
      exact hfree' d (List.mem_of_getElem? hd) hdl haddr
    · exact hs.cells j k d e hd he hdl hel haddr

/-! ## A login -/

/-- What the table keeps: the channels a live session watches. -/
theorem lookup_kept (s : Sessions) (k : Nat) :
    (s.atlasSessions.retain fun _ tx => if s.receiverCount tx > 0 then some tx else none).lookup k =
      (s.atlasSessions.lookup k).filter fun tx => s.receiverCount tx > 0 := by
  rw [Assoc.lookup_retain]
  cases s.atlasSessions.lookup k with
  | none => rfl
  | some tx => simp [Option.filter]

theorem receiverCount_pos {s : Sessions} {i : Nat} {c : Connection} {rx : Receiver}
    (h : s.connections[i]? = some c) (hlive : c.live) (hrx : c.atlas = some rx) :
    0 < s.receiverCount rx.channel := by
  unfold Sessions.receiverCount
  rw [List.countP_pos_iff]
  exact ⟨c, List.mem_of_getElem? h, by simp [hlive, hrx]⟩

theorem version_modify (channels : List Nat) (tx tx' : Nat) (h : tx < channels.length) :
    (channels.modify tx (· + 1)).getD tx' 0 = if tx' = tx then channels.getD tx' 0 + 1 else channels.getD tx' 0 := by
  simp only [List.getD_eq_getElem?_getD, List.getElem?_modify]
  by_cases htx : tx' = tx
  · subst htx
    simp [h]
  · simp [htx, Ne.symm htx]

/-- A login at `key`: the receiver is of the key's channel and has seen every
send on it. What live sessions watch stays in the table, and only the key's
own channel was sent on, once. -/
structure TakenOver (s : Sessions) (key i : Nat) (rx : Receiver) (s' : Sessions) : Prop where
  connections : s'.connections = s.connections
  logins : s'.logins = s.logins ++ [i]
  lookup : s'.atlasSessions.lookup key = some rx.channel
  seen : rx.seen = s'.version rx.channel
  kept : ∀ k tx, s.atlasSessions.lookup k = some tx → 0 < s.receiverCount tx →
    s'.atlasSessions.lookup k = some tx ∧
      s'.version tx = if k = key then s.version tx + 1 else s.version tx
  channel : ∀ k tx, s'.atlasSessions.lookup k = some tx → tx < s'.channels.length ∧
    ∀ k', s'.atlasSessions.lookup k' = some tx → k' = k

theorem takeOver_spec {s : Sessions} (hs : Inv s) (key i : Nat) :
    TakenOver s key i (s.takeOver key i).1 (s.takeOver key i).2 := by
  have hkept := lookup_kept s
  unfold Sessions.takeOver
  generalize (s.atlasSessions.retain fun _ tx => if s.receiverCount tx > 0 then some tx else none) = table at hkept
  have hfilter (k tx : Nat) : table.lookup k = some tx ↔ s.atlasSessions.lookup k = some tx ∧ 0 < s.receiverCount tx := by
    rw [hkept k, Option.filter_eq_some_iff]
    simp
  cases htable : table.lookup key with
  | some tx =>
    have htx := (hfilter key tx).mp htable
    have hlt := (hs.channel key tx htx.1).1
    simp only [htable]
    refine ⟨rfl, rfl, htable, rfl, ?_, ?_⟩
    · intro k tx' hk hcount
      refine ⟨(hfilter k tx').mpr ⟨hk, hcount⟩, ?_⟩
      show (s.channels.modify tx (· + 1)).getD tx' 0 = _
      rw [version_modify _ _ _ hlt]
      by_cases hkey : k = key
      · subst hkey
        cases hk.symm.trans htx.1
        simp [Sessions.version]
      · have : tx' ≠ tx := fun h => hkey ((hs.channel key tx htx.1).2 k (h ▸ hk))
        simp [Sessions.version, hkey, this]
    · intro k tx' hk
      have hk' := ((hfilter k tx').mp hk).1
      refine ⟨?_, fun k' hk'' => (hs.channel k tx' hk').2 k' ((hfilter k' tx').mp hk'').1⟩
      show tx' < (s.channels.modify tx (· + 1)).length
      rw [List.length_modify]
      exact (hs.channel k tx' hk').1
  | none =>
    simp only [htable]
    have hlookup (k : Nat) : (table.insert key s.channels.length).lookup k =
        if k = key then some s.channels.length else table.lookup k := by
      split
      · next hk => rw [hk, AList.lookup_insert]
      · next hk => rw [AList.lookup_insert_ne hk]
    refine ⟨rfl, rfl, by rw [hlookup, if_pos rfl], rfl, ?_, ?_⟩
    · intro k tx' hk hcount
      have hin := (hfilter k tx').mpr ⟨hk, hcount⟩
      have hkey : k ≠ key := fun h => by rw [h, htable] at hin; cases hin
      have hlt := (hs.channel k tx' hk).1
      refine ⟨by rw [hlookup, if_neg hkey]; exact hin, ?_⟩
      show ((s.channels ++ [0]).modify s.channels.length (· + 1)).getD tx' 0 = _
      rw [version_modify _ _ _ (by simp), if_neg (Nat.ne_of_lt hlt), if_neg hkey,
        List.getD_eq_getElem?_getD, List.getElem?_append_left hlt, ← List.getD_eq_getElem?_getD]
      rfl
    · intro k tx' hk
      show tx' < ((s.channels ++ [0]).modify s.channels.length (· + 1)).length ∧ _
      rw [List.length_modify, List.length_append, List.length_singleton]
      rw [hlookup] at hk
      split at hk
      · next hkk =>
        cases hk
        refine ⟨by omega, fun k' hk' => ?_⟩
        rw [hlookup] at hk'
        split at hk'
        · next h => rw [h, hkk]
        · have := (hs.channel k' _ ((hfilter k' _).mp hk').1).1
          omega
      · have hold := hs.channel k tx' ((hfilter k tx').mp hk).1
        refine ⟨by omega, fun k' hk' => ?_⟩
        rw [hlookup] at hk'
        split at hk'
        · cases hk'
          omega
        · exact hold.2 k' ((hfilter k' tx').mp hk').1

theorem pair_sublist_concat {L : List Nat} {i j k : Nat} :
    [j, k].Sublist (L ++ [i]) ↔ [j, k].Sublist L ∨ j ∈ L ∧ k = i := by
  rw [List.sublist_append_iff]
  constructor
  · rintro ⟨l₁, l₂, heq, h₁, h₂⟩
    match l₁, heq with
    | [], heq =>
      rw [List.nil_append] at heq
      have := h₂.length_le
      rw [← heq] at this
      simp at this
    | [_], heq =>
      cases heq
      exact Or.inr ⟨List.singleton_sublist.mp h₁, by simpa using h₂⟩
    | [_, _], heq =>
      cases heq
      exact Or.inl h₁
    | _ :: _ :: _ :: _, heq => simp at heq
  · rintro (h | ⟨hj, rfl⟩)
    · exact ⟨[j, k], [], rfl, h, List.nil_sublist _⟩
    · exact ⟨[j], [k], rfl, List.singleton_sublist.mpr hj, List.Sublist.refl _⟩

theorem inv_login {s s' : Sessions} (hs : Inv s) {i : Nat} {c : Connection} (h : s.connections[i]? = some c)
    (hlive : c.live) (hnew : c.session.atlas = false) {session : Session} (hatlas : session.atlas)
    (hend : session.ended = none) {rx : Receiver} (ht : TakenOver s c.cell.address i rx s') :
    Inv { s' with connections := s'.connections.set i { c with session, atlas := some rx } } := by
  have hi : i < s.connections.length := (List.getElem?_eq_some_iff.mp h).1
  have hnone : c.atlas = none := by simpa [hnew] using (hs.good i c h).atlas
  have hnot : i ∉ s.logins := fun hm => by simpa [hnone] using (hs.good i c h).login.mp hm
  have hget (j : Nat) : (s'.connections.set i { c with session, atlas := some rx })[j]? =
      if j = i then some { c with session, atlas := some rx } else s.connections[j]? := by
    rw [ht.connections, List.getElem?_set]
    by_cases hji : j = i
    · subst hji
      simp [hi]
    · rw [if_neg (Ne.symm hji), if_neg hji]
  have hsup (j : Nat) (cell : Cell) :
      Superseded { s' with connections := s'.connections.set i { c with session, atlas := some rx } } j cell ↔
        Superseded s j cell ∨ j ∈ s.logins ∧ c.cell = cell := by
    constructor
    · rintro ⟨k, d, hd, hcell, hsub⟩
      rw [show (s'.connections.set i _)[k]? = _ from hget k] at hd
      rw [show ([j, k].Sublist s'.logins) = _ by rw [ht.logins], pair_sublist_concat] at hsub
      rcases hsub with hsub | ⟨hj, rfl⟩
      · have hk : k ≠ i := fun hk => hnot (hk ▸ hsub.subset (by simp))
        rw [if_neg hk] at hd
        exact Or.inl ⟨k, d, hd, hcell, hsub⟩
      · rw [if_pos rfl] at hd
        cases hd
        exact Or.inr ⟨hj, hcell⟩
    · rintro (⟨k, d, hd, hcell, hsub⟩ | ⟨hj, hcell⟩)
      · have hk : k ≠ i := fun hk => hnot (hk ▸ hsub.subset (by simp))
        refine ⟨k, d, ?_, hcell, ?_⟩
        · rw [show (s'.connections.set i _)[k]? = _ from hget k, if_neg hk]
          exact hd
        · rw [show ([j, k].Sublist s'.logins) = _ by rw [ht.logins]]
          exact pair_sublist_concat.mpr (Or.inl hsub)
      · refine ⟨i, { c with session, atlas := some rx }, ?_, hcell, ?_⟩
        · rw [show (s'.connections.set i _)[i]? = _ from hget i, if_pos rfl]
        · rw [show ([j, i].Sublist s'.logins) = _ by rw [ht.logins]]
          exact pair_sublist_concat.mpr (Or.inr ⟨hj, rfl⟩)
  refine ⟨?_, ?_, ?_, ?_, ht.channel⟩
  · intro j d hd
    rw [show (s'.connections.set i _)[j]? = _ from hget j] at hd
    split at hd
    · next hj =>
      subst hj
      cases hd
      refine ⟨hatlas, ?_, ?_, ?_, ?_, ?_⟩
      · rw [show (j ∈ s'.logins) = _ by rw [ht.logins]]
        simp
      · intro r _ hr
        cases hr
        refine ⟨ht.lookup, ?_⟩
        rw [hsup]
        refine ⟨fun hne => absurd ht.seen.symm hne, ?_⟩
        rintro (⟨_, _, _, _, hsub⟩ | ⟨hj, _⟩)
        · exact absurd (hsub.subset (by simp)) hnot
        · exact absurd hj hnot
      · intro r _ hr
        cases hr
        exact ht.seen.le
      · intro he
        cases hend.symm.trans he
      · intro hf
        cases hatlas.symm.trans hf
    · next hj =>
      have hg := hs.good j d hd
      have hmem (r : Receiver) (hr : d.atlas = some r) : j ∈ s.logins := hg.login.mpr (by simp [hr])
      refine ⟨hg.atlas, ?_, ?_, ?_, ?_, hg.quiet⟩
      · rw [show (j ∈ s'.logins) = _ by rw [ht.logins], ← hg.login]
        simp [hj]
      · intro r hl hr
        have hold := hg.receiver r hl hr
        have hseen := hg.seen r hl hr
        obtain ⟨hlookup, hversion⟩ := ht.kept _ _ hold.1 (receiverCount_pos hd hl hr)
        refine ⟨hlookup, ?_⟩
        show s'.version r.channel ≠ r.seen ↔ _
        rw [hsup, hversion]
        by_cases ha : d.cell.address = c.cell.address
        · have hcell := hs.cells j i d c hd h hl hlive ha
          rw [if_pos ha]
          exact ⟨fun _ => Or.inr ⟨hmem r hr, hcell.symm⟩, fun _ => by omega⟩
        · rw [if_neg ha, hold.2]
          exact ⟨Or.inl, fun h => h.elim id fun h => absurd (congrArg Cell.address h.2.symm) ha⟩
      · intro r hl hr
        have hseen := hg.seen r hl hr
        obtain ⟨_, hversion⟩ := ht.kept _ _ (hg.receiver r hl hr).1 (receiverCount_pos hd hl hr)
        show r.seen ≤ s'.version r.channel
        rw [hversion]
        split <;> omega
      · intro he
        rw [hsup]
        exact Or.inl (hg.ended he)
  · intro j hj
    rw [show (j ∈ s'.logins) = _ by rw [ht.logins], List.mem_append, List.mem_singleton] at hj
    show j < (s'.connections.set i _).length
    rw [List.length_set, ht.connections]
    rcases hj with hj | rfl
    · exact hs.logins j hj
    · exact hi
  · show s'.logins.Nodup
    rw [ht.logins]
    exact List.nodup_append.mpr ⟨hs.nodup, List.nodup_singleton i, by
      rintro a ha b hb rfl
      exact hnot (List.mem_singleton.mp hb ▸ ha)⟩
  · intro j k d e hd he hdl hel haddr
    have lift (j : Nat) (d : Connection)
        (hd : (s'.connections.set i { c with session, atlas := some rx })[j]? = some d)
        (hl : d.live) : ∃ d', s.connections[j]? = some d' ∧ d'.live ∧ d'.cell = d.cell := by
      rw [hget] at hd
      split at hd
      · next hj =>
        cases hd
        exact ⟨c, hj ▸ h, hlive, rfl⟩
      · exact ⟨d, hd, hl, rfl⟩
    obtain ⟨d', hd', hdl', hdc⟩ := lift j d hd hdl
    obtain ⟨e', he', hel', hec⟩ := lift k e he hel
    rw [← hdc, ← hec] at haddr ⊢
    exact hs.cells j k d' e' hd' he' hdl' hel' haddr

/-! ## All events -/

/-- While a session lives, its receiver tells whether it is superseded. -/
theorem hasChanged_iff {s : Sessions} (hs : Inv s) {i : Nat} {c : Connection} (h : s.connections[i]? = some c)
    (hlive : c.live) : c.atlas.any s.hasChanged ↔ Superseded s i c.cell := by
  have hg := hs.good i c h
  cases hrx : c.atlas with
  | none =>
    simp only [Option.any_none, Bool.false_eq_true, false_iff]
    rintro ⟨j, d, -, -, hsub⟩
    have := hg.login.mp (hsub.subset (by simp))
    simp [hrx] at this
  | some rx =>
    obtain ⟨hlookup, hiff⟩ := hg.receiver rx hlive hrx
    have hopen : s.atlasSessions.entries.any (fun e => e.2 == rx.channel) = true :=
      List.any_eq_true.mpr ⟨_, AList.mem_lookup_iff.mp hlookup, by simp⟩
    rw [Option.any_some, Sessions.hasChanged, hopen, Bool.true_and, bne_iff_ne, hiff]

theorem inv_line (fromStr : String → Option Json) {s : Sessions} (hs : Inv s) {i : Nat} {c : Connection}
    (h : s.connections[i]? = some c) (hlive : c.live) (text : String) (sessionId : Option String)
    (crontabSent commandSent : Bool) : Inv (s.line fromStr i c text sessionId crontabSent commandSent) := by
  have hg := hs.good i c h
  unfold Sessions.line
  generalize ha : (⟨c.atlas.any s.hasChanged, sessionId, crontabSent, commandSent⟩ : Around) = a
  dsimp only
  rcases handleLine_spec fromStr c.commandTx c.session text a with ⟨hover, heq⟩ | ⟨-, hkeep, hend, hnone⟩
  · rw [heq, if_neg (by simp)]
    rw [Bool.and_eq_true, ← ha] at hover
    refine inv_update hs h hlive rfl (fun _ => (hasChanged_iff hs h hlive).mp hover.2) fun hf => ?_
    exact absurd hover.1 (by simpa using hf)
  · by_cases hlogin : (c.session.handleLine fromStr c.commandTx text a).atlas ∧ c.session.atlas = false
    · rw [if_pos (by simp [hlogin])]
      exact inv_login hs h hlive hlogin.2 hlogin.1 (hnone hlogin.1 hlogin.2) (takeOver_spec hs _ i)
    · have hsame : (c.session.handleLine fromStr c.commandTx text a).atlas = c.session.atlas := by
        cases hc : c.session.atlas with
        | true => exact hkeep hc
        | false => simpa [hc] using hlogin
      rw [if_neg (by simp [hsame])]
      refine inv_update hs h hlive hsame (fun he => absurd he hend) fun hf => ?_
      exact handleLine_quiet fromStr c.commandTx _ text a (hg.quiet (hsame.symm.trans hf)) hf

theorem inv_poll (fromStr : String → Option Json) {s : Sessions} (hs : Inv s) {i : Nat} {c : Connection}
    (h : s.connections[i]? = some c) (hlive : c.live) : Inv (s.poll fromStr i c) := by
  have hg := hs.good i c h
  unfold Sessions.poll
  split
  · rename_i hany
    obtain ⟨rx, hrx, hne⟩ := (Option.any_eq_true _ _).mp hany
    have hsup : Superseded s i c.cell := (hg.receiver rx hlive hrx).2.mp (by simpa using hne)
    have hatlas : c.session.atlas = true := by rw [hg.atlas, hrx]; rfl
    have hstep : c.session.step fromStr c.commandTx .takenOver = { c.session with ended := some .takenOver } := by
      have : c.session.ended.isSome = false := by simpa [Connection.live] using hlive
      simp [Session.step, this, hatlas]
    rw [hstep]
    exact inv_update hs h hlive rfl
      (fun _ => hsup) fun hf => absurd (hf.symm.trans hatlas) (by simp)
  · exact hs

theorem inv_hangup {s : Sessions} (hs : Inv s) {i : Nat} {c : Connection} (h : s.connections[i]? = some c)
    (hlive : c.live) (why : Sessions.Hangup) : Inv (s.hangup i c why) := by
  refine inv_update hs h hlive rfl (fun he => ?_) fun hf => ?_
  · cases why <;> cases he
  · have hq := (hs.good i c h).quiet hf
    exact ⟨hq.state, hq.crontab, hq.replies⟩

/-- What an event that names a connection does, if the connection lives. -/
theorem step_at {P : Sessions → Prop} {s : Sessions} (i : Nat) {f : Connection → Sessions} (hs : P s)
    (hf : ∀ c, s.connections[i]? = some c → c.live → P (f c)) :
    P (match s.connections[i]? with
      | some c => if c.live then f c else s
      | none => s) := by
  split
  · rename_i c hc
    split
    · next hlive => exact hf c hc hlive
    · exact hs
  · exact hs

variable (fromStr : String → Option Json)

theorem step_inv (s : Sessions) (e : Sessions.Event) (hs : Inv s) : Inv (s.step fromStr e) := by
  cases e with
  | connect cell commandTx probeId hostname => exact inv_connect hs cell commandTx probeId hostname
  | line i text sessionId crontabSent commandSent =>
    exact step_at i hs fun c hc hlive => inv_line fromStr hs hc hlive text sessionId crontabSent commandSent
  | poll i => exact step_at i hs fun c hc hlive => inv_poll fromStr hs hc hlive
  | hangup i why => exact step_at i hs fun c hc hlive => inv_hangup hs hc hlive why

theorem inv_start : Inv {} := by
  refine ⟨?_, ?_, List.nodup_nil, ?_, ?_⟩
  · intro i c h
    simp at h
  · intro i h
    cases h
  · intro i j c d h
    simp at h
  · intro k tx h
    cases h

theorem run_inv (es : List Sessions.Event) : Inv (run (Sessions.step fromStr) {} es) :=
  run_of_step (step_inv fromStr) inv_start

/-! ## Superseded sessions -/

/-- What an event leaves of each connection, and that the logins only grow. -/
structure Keeps (s s' : Sessions) : Prop where
  logins : s.logins.Sublist s'.logins
  connections : ∀ i c, s.connections[i]? = some c → ∃ c', s'.connections[i]? = some c' ∧ c'.cell = c.cell ∧
    (Superseded s i c.cell → c'.session.history = c.session.history)

theorem Keeps.refl (s : Sessions) : Keeps s s :=
  ⟨List.Sublist.refl _, fun _ c hc => ⟨c, hc, rfl, fun _ => rfl⟩⟩

theorem Keeps.superseded {s s' : Sessions} (hk : Keeps s s') {i : Nat} {cell : Cell}
    (h : Superseded s i cell) : Superseded s' i cell := by
  obtain ⟨j, d, hd, hcell, hsub⟩ := h
  obtain ⟨d', hd', hcell', -⟩ := hk.connections j d hd
  exact ⟨j, d', hd', hcell'.trans hcell, hsub.trans hk.logins⟩

/-- Connection `i` replaced, over the same cell. -/
theorem keeps_set {s s' : Sessions} {i : Nat} {c : Connection} (c' : Connection) (h : s.connections[i]? = some c)
    (hl : s.logins.Sublist s'.logins) (hc : s'.connections = s.connections.set i c') (hcell : c'.cell = c.cell)
    (hhist : Superseded s i c.cell → c'.session.history = c.session.history) : Keeps s s' := by
  have hi : i < s.connections.length := (List.getElem?_eq_some_iff.mp h).1
  refine ⟨hl, fun j d hd => ?_⟩
  rw [hc, List.getElem?_set]
  by_cases hji : i = j
  · subst hji
    cases h.symm.trans hd
    exact ⟨c', by simp [hi], hcell, hhist⟩
  · rw [if_neg hji]
    exact ⟨d, hd, rfl, fun _ => rfl⟩

theorem keeps_line {s : Sessions} (hs : Inv s) {i : Nat} {c : Connection}
    (h : s.connections[i]? = some c) (hlive : c.live) (text : String) (sessionId : Option String)
    (crontabSent commandSent : Bool) :
    Keeps s (s.line fromStr i c text sessionId crontabSent commandSent) := by
  have hhist (a : Around) (ha : a.takenOver = c.atlas.any s.hasChanged) (hsup : Superseded s i c.cell) :
      (c.session.handleLine fromStr c.commandTx text a).history = c.session.history := by
    have hover := (hasChanged_iff hs h hlive).mpr hsup
    have hatlas : c.session.atlas = true := by
      obtain ⟨j, d, -, -, hsub⟩ := hsup
      rw [(hs.good i c h).atlas]
      exact (hs.good i c h).login.mp (hsub.subset (by simp))
    unfold Session.handleLine
    rw [if_pos (by rw [hatlas, ha, hover]; rfl)]
  unfold Sessions.line
  generalize ha : (⟨c.atlas.any s.hasChanged, sessionId, crontabSent, commandSent⟩ : Around) = a
  have hhist := hhist a (by rw [← ha])
  dsimp only
  split
  · have ht := takeOver_spec hs c.cell.address i
    refine keeps_set { c with
      session := c.session.handleLine fromStr c.commandTx text a
      atlas := some (s.takeOver c.cell.address i).1 } h ?_ (by rw [ht.connections]) rfl hhist
    show s.logins.Sublist (s.takeOver c.cell.address i).2.logins
    rw [ht.logins]
    exact List.sublist_append_left _ _
  · exact keeps_set { c with session := c.session.handleLine fromStr c.commandTx text a } h
      (List.Sublist.refl _) rfl rfl hhist

theorem keeps_poll {s : Sessions} {i : Nat} {c : Connection} (h : s.connections[i]? = some c) :
    Keeps s (s.poll fromStr i c) := by
  unfold Sessions.poll
  split
  · refine keeps_set { c with session := _ } h (List.Sublist.refl _) rfl rfl fun _ => ?_
    unfold Session.step
    split
    · rfl
    · dsimp only
      split <;> rfl
  · exact Keeps.refl s

theorem keeps_connect (s : Sessions) (c : Connection) : Keeps s (s.connect c) := by
  unfold Sessions.connect
  split
  · exact Keeps.refl s
  · refine ⟨List.Sublist.refl _, fun i d hd => ⟨d, ?_, rfl, fun _ => rfl⟩⟩
    rw [List.getElem?_append_left (List.getElem?_eq_some_iff.mp hd).1]
    exact hd

theorem step_keeps {s : Sessions} (hs : Inv s) (e : Sessions.Event) : Keeps s (s.step fromStr e) := by
  cases e with
  | connect cell commandTx probeId hostname => exact keeps_connect s _
  | line i text sessionId crontabSent commandSent =>
    exact step_at i (Keeps.refl s) fun c hc hlive =>
      keeps_line fromStr hs hc hlive text sessionId crontabSent commandSent
  | poll i => exact step_at i (Keeps.refl s) fun c hc _ => keeps_poll fromStr hc
  | hangup i why =>
    exact step_at i (Keeps.refl s) fun c hc _ => keeps_set _ hc (List.Sublist.refl _) rfl rfl fun _ => rfl

/-- A superseded session handles nothing more, whatever comes. -/
theorem run_superseded {s : Sessions} (hs : Inv s) {i : Nat} {c : Connection} (h : s.connections[i]? = some c)
    (hsup : Superseded s i c.cell) (es : List Sessions.Event) :
    ∃ c', (run (Sessions.step fromStr) s es).connections[i]? = some c' ∧
      c'.session.history = c.session.history := by
  induction es generalizing s c with
  | nil => exact ⟨c, h, rfl⟩
  | cons e es ih =>
    have hk := step_keeps fromStr hs e
    obtain ⟨c', hc', hcell, hhist⟩ := hk.connections i c h
    obtain ⟨c'', hc'', hhist'⟩ := ih (step_inv fromStr s e hs) hc' (hcell ▸ hk.superseded hsup)
    exact ⟨c'', hc'', hhist'.trans (hhist hsup)⟩

/-- A connection's cell, and the lines it has handled with what each did. -/
def cellOf (s : Sessions) (i : Nat) : Option Cell := s.connections[i]?.map Connection.cell

def handled (s : Sessions) (i : Nat) : Option (List Handled) :=
  s.connections[i]?.map fun c => c.session.history

/-- In every run: once a connection has authenticated, one of its cell that
had authenticated before handles no further line; one that has not
authenticated has forwarded nothing and holds no crontab; and one that a
takeover has ended was ended by a later login of its own cell. -/
theorem one_session_at_a_time (es : List Sessions.Event) :
    (∀ i j, [i, j].Sublist (run (Sessions.step fromStr) {} es).logins →
      cellOf (run (Sessions.step fromStr) {} es) i = cellOf (run (Sessions.step fromStr) {} es) j →
      ∀ later, handled (run (Sessions.step fromStr) {} (es ++ later)) i =
        handled (run (Sessions.step fromStr) {} es) i) ∧
    ∀ i c, (run (Sessions.step fromStr) {} es).connections[i]? = some c →
      (i ∉ (run (Sessions.step fromStr) {} es).logins → Quiet c.session) ∧
      (c.session.ended = some .takenOver →
        ∃ j, j ≠ i ∧ cellOf (run (Sessions.step fromStr) {} es) j = some c.cell ∧
          [i, j].Sublist (run (Sessions.step fromStr) {} es).logins) := by
  have hs := run_inv fromStr es
  have happend (later : List Sessions.Event) : run (Sessions.step fromStr) {} (es ++ later) =
      run (Sessions.step fromStr) (run (Sessions.step fromStr) {} es) later := List.foldl_append
  constructor
  · intro i j hsub hcell later
    rw [happend]
    generalize run (Sessions.step fromStr) {} es = s at hs hsub hcell
    obtain ⟨c, hc⟩ : ∃ c, s.connections[i]? = some c :=
      ⟨_, List.getElem?_eq_getElem (hs.logins i (hsub.subset (by simp)))⟩
    obtain ⟨d, hd⟩ : ∃ d, s.connections[j]? = some d :=
      ⟨_, List.getElem?_eq_getElem (hs.logins j (hsub.subset (by simp)))⟩
    have hcell' : d.cell = c.cell := by simpa [cellOf, hc, hd] using hcell.symm
    obtain ⟨c', hc', hhist⟩ := run_superseded fromStr hs hc ⟨j, d, hd, hcell', hsub⟩ later
    simp [handled, hc, hc', hhist]
  · intro i c hc
    have hg := hs.good i c hc
    refine ⟨fun hnot => ?_, fun he => ?_⟩
    · refine hg.quiet ?_
      rw [hg.atlas, ← Bool.not_eq_true, ← hg.login]
      exact hnot
    · obtain ⟨j, d, hd, hcell, hsub⟩ := hg.ended he
      refine ⟨j, ?_, by simp [cellOf, hd, hcell], hsub⟩
      rintro rfl
      have := hs.nodup.sublist hsub
      simp at this

/-- Two connections of one cell, and one of another, log in one after the
other: the first then handles nothing. -/
theorem one_session_at_a_time_second_login :
    let login (i : Nat) : List Sessions.Event :=
      [.line i ATLAS_LOGIN none true true, .line i "s" (some "s") true true]
    let es : List Sessions.Event :=
      [.connect ⟨0, 8⟩ true 1 "probe", .connect ⟨0, 8⟩ true 1 "probe", .connect ⟨1, 9⟩ true 1 "probe"] ++
        login 0 ++ login 2 ++ login 1
    handled (run (Sessions.step fun _ => none) {} (es ++ [.line 0 "STATUS" (some "s") true true])) 0 =
      handled (run (Sessions.step fun _ => none) {} es) 0 :=
  (one_session_at_a_time (fun _ => none) _).1 0 1 (by decide) (by decide) _

end Starla.Proof.Controller.Takeover
