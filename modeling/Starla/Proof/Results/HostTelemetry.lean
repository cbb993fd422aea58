import Mathlib.Data.List.Basic
import Starla.Framework.Run
import Starla.Impl.Results.HostTelemetry

/-!
# No telemetry line is lost or doubled

Lines are numbered as they are pushed, so that equal lines are told apart. The
lines the bound drops are kept aside.

* `conserved_step` : what a push, a drain and an answer each keep.
* `telemetry_conserved` : each pushed line is in one place; what is pending is
  in order, within the bound, and newer than all the bound has dropped.
-/

namespace Starla.Proof.Results

open Starla.Framework Starla.Impl.Results

/-- A line and how many were pushed before it. -/
abbrev Pushed := Nat × String

structure Telemetry where
  uploads : TelemetryUploads Pushed := {}
  /-- Every line pushed, in order. -/
  pushed : List Pushed := []
  /-- The lines the bound has dropped. -/
  dropped : List Pushed := []

/-- What the bound drops of a list. -/
def excess {L : Type} (p : List L) : List L := p.take (p.length - MAX_PENDING)

inductive TelemetryEvent
  | push (line : String)
  | beginUpload (hasEndpoint : Bool)
  | endUpload (sent : Bool)
deriving DecidableEq, Repr

namespace Telemetry

def pending (w : Telemetry) : List Pushed := w.uploads.telemetry.pending

def underWay (w : Telemetry) : List Pushed := w.uploads.underWay.getD []

def uploaded (w : Telemetry) : List Pushed := w.uploads.uploaded.flatten

def step (w : Telemetry) : TelemetryEvent → Telemetry
  | .push line =>
    let e : Pushed := (w.pushed.length, line)
    ⟨w.uploads.push e, w.pushed ++ [e], w.dropped ++ excess (w.pending ++ [e])⟩
  | .beginUpload hasEndpoint => { w with uploads := w.uploads.beginUpload hasEndpoint }
  | .endUpload sent =>
    { w with
      uploads := w.uploads.endUpload sent
      dropped := if sent then w.dropped else w.dropped ++ excess (w.underWay ++ w.pending) }

end Telemetry

/-! ## The bound -/

variable {L : Type}

theorem capPending_eq (p : List L) : capPending p = p.drop (p.length - MAX_PENDING) := by
  unfold capPending
  split
  · rfl
  · rw [Nat.sub_eq_zero_of_le (Nat.le_of_not_gt ‹_›), List.drop_zero]

theorem excess_append_capPending (p : List L) : excess p ++ capPending p = p := by
  rw [capPending_eq, excess, List.take_append_drop]

theorem count_capPending [BEq L] (p : List L) (a : L) :
    (excess p).count a + (capPending p).count a = p.count a := by
  rw [← List.count_append, excess_append_capPending]

theorem length_capPending_le (p : List L) : (capPending p).length ≤ MAX_PENDING := by
  rw [capPending_eq, List.length_drop]
  omega

theorem capPending_of_le {p : List L} (h : p.length ≤ MAX_PENDING) : capPending p = p := by
  rw [capPending_eq, Nat.sub_eq_zero_of_le h, List.drop_zero]

theorem excess_of_le {p : List L} (h : p.length ≤ MAX_PENDING) : excess p = [] := by
  rw [excess, Nat.sub_eq_zero_of_le h, List.take_zero]

/-- With a full list behind it, what is put back is dropped again. -/
theorem capPending_append_of_full {p q : List L} (h : q.length = MAX_PENDING) : capPending (p ++ q) = q := by
  rw [capPending_eq, List.length_append, h, Nat.add_sub_cancel, List.drop_left]

theorem length_capPending_of_excess {p : List L} (h : excess p ≠ []) : (capPending p).length = MAX_PENDING := by
  have hlong : MAX_PENDING < p.length := by
    by_contra hle
    exact h (excess_of_le (Nat.le_of_not_gt hle))
  rw [capPending_eq, List.length_drop]
  omega

/-! ## What each step keeps -/

/-- Pushed before. -/
def Older (d e : Pushed) : Prop := d.1 < e.1

theorem older_of_excess {p : List Pushed} (hp : p.Pairwise Older) {d e : Pushed} (hd : d ∈ excess p)
    (he : e ∈ capPending p) : Older d e := by
  rw [← excess_append_capPending p, List.pairwise_append] at hp
  exact hp.2.2 d hd e he

structure Conserved (w : Telemetry) : Prop where
  /-- Each line pushed is in one place. -/
  placed : (w.dropped ++ w.uploaded ++ w.underWay ++ w.pending).Perm w.pushed
  numbered : ∀ e ∈ w.pushed, e.1 < w.pushed.length
  distinct : w.pushed.Pairwise Older
  ordered : (w.underWay ++ w.pending).Pairwise Older
  bounded : w.pending.length ≤ MAX_PENDING
  oldest : ∀ d ∈ w.dropped, ∀ e ∈ w.pending, Older d e
  /-- Once the bound has dropped a line newer than the upload's, the pending
  lines are so many that none of the upload's can be put back. -/
  behind : (∀ d ∈ w.dropped, ∀ e ∈ w.underWay, Older d e) ∨ w.pending.length = MAX_PENDING

namespace Conserved

variable {w : Telemetry}

theorem mem_pushed (h : Conserved w) {e : Pushed} (he : e ∈ w.dropped ∨ e ∈ w.underWay ∨ e ∈ w.pending) :
    e ∈ w.pushed := by
  refine h.placed.subset ?_
  simp only [List.mem_append]
  tauto

theorem push (h : Conserved w) (line : String) : Conserved (w.step (.push line)) := by
  have hnew : ∀ {e : Pushed}, (e ∈ w.dropped ∨ e ∈ w.underWay ∨ e ∈ w.pending) →
      Older e (w.pushed.length, line) := fun he => h.numbered _ (h.mem_pushed he)
  obtain ⟨hflying, hpending, hbefore⟩ := List.pairwise_append.mp h.ordered
  have hqueue : (w.pending ++ [(w.pushed.length, line)]).Pairwise Older :=
    List.pairwise_append.mpr ⟨hpending, List.pairwise_singleton _ _, fun e he e' he' => by
      rw [List.mem_singleton.mp he']
      exact hnew (.inr (.inr he))⟩
  have hall : (w.underWay ++ (w.pending ++ [(w.pushed.length, line)])).Pairwise Older :=
    List.pairwise_append.mpr ⟨hflying, hqueue, fun e he e' he' => by
      rcases List.mem_append.mp he' with he' | he'
      · exact hbefore e he e' he'
      · rw [List.mem_singleton.mp he']
        exact hnew (.inr (.inl he))⟩
  have hsuffix : capPending (w.pending ++ [(w.pushed.length, line)]) ⊆ w.pending ++ [(w.pushed.length, line)] := by
    rw [capPending_eq]
    exact List.drop_subset _ _
  constructor
  · show ((w.dropped ++ excess (w.pending ++ [_])) ++ w.uploaded ++ w.underWay ++ capPending (w.pending ++ [_])).Perm _
    have hplaced : (w.dropped ++ w.uploaded ++ w.underWay ++ (w.pending ++ [(w.pushed.length, line)])).Perm
        (w.pushed ++ [(w.pushed.length, line)]) := by
      rw [← List.append_assoc]
      exact h.placed.append_right _
    refine List.Perm.trans (List.perm_iff_count.mpr fun e => ?_) hplaced
    have hcount := count_capPending (w.pending ++ [(w.pushed.length, line)]) e
    simp only [List.count_append] at hcount ⊢
    omega
  · intro e he
    rw [show (w.step (.push line)).pushed = w.pushed ++ [_] from rfl, List.length_append]
    rcases List.mem_append.mp he with he | he
    · exact Nat.lt_succ_of_lt (h.numbered e he)
    · rw [List.mem_singleton.mp he]
      exact Nat.lt_succ_self _
  · exact List.pairwise_append.mpr ⟨h.distinct, List.pairwise_singleton _ _, fun e he e' he' => by
      rw [List.mem_singleton.mp he']
      exact h.numbered e he⟩
  · exact hall.sublist (List.Sublist.append_left (by
      show (capPending _).Sublist _
      rw [capPending_eq]
      exact List.drop_sublist _ _) _)
  · exact length_capPending_le _
  · intro d hd e he
    rcases List.mem_append.mp hd with hd | hd
    · rcases List.mem_append.mp (hsuffix he) with he | he
      · exact h.oldest d hd e he
      · rw [List.mem_singleton.mp he]
        exact hnew (.inl hd)
    · exact older_of_excess hqueue hd he
  · by_cases hex : excess (w.pending ++ [(w.pushed.length, line)]) = []
    · rcases h.behind with hb | hb
      · refine .inl fun d hd e he => ?_
        rw [show (w.step (.push line)).dropped = w.dropped ++ excess _ from rfl, hex, List.append_nil] at hd
        exact hb d hd e he
      · have hlen := congrArg List.length hex
        simp [excess, hb] at hlen
    · exact .inr (length_capPending_of_excess hex)

theorem beginUpload (h : Conserved w) (hasEndpoint : Bool) : Conserved (w.step (.beginUpload hasEndpoint)) := by
  have hstep : (w.step (.beginUpload hasEndpoint)).uploads = w.uploads.beginUpload hasEndpoint := rfl
  cases hway : w.uploads.underWay with
  | some lines =>
    have hsame : w.step (.beginUpload hasEndpoint) = w := by
      simp [Telemetry.step, TelemetryUploads.beginUpload, hway]
    rwa [hsame]
  | none =>
    have hunder : w.underWay = [] := by simp [Telemetry.underWay, hway]
    cases hasEndpoint with
    | false =>
      have hsame : w.step (.beginUpload false) = w := by
        simp [Telemetry.step, TelemetryUploads.beginUpload, hway]
      rwa [hsame]
    | true =>
      have hunder' : (w.step (.beginUpload true)).underWay = w.pending := by
        simp [Telemetry.step, TelemetryUploads.beginUpload, hway, Telemetry.underWay, HostTelemetry.drain,
          Telemetry.pending]
      have hpending' : (w.step (.beginUpload true)).pending = [] := by
        simp [Telemetry.step, TelemetryUploads.beginUpload, hway, HostTelemetry.drain, Telemetry.pending]
      have huploaded' : (w.step (.beginUpload true)).uploaded = w.uploaded := by
        simp [Telemetry.step, TelemetryUploads.beginUpload, hway, Telemetry.uploaded]
      have hplaced := h.placed
      have hordered := h.ordered
      rw [hunder] at hplaced hordered
      constructor
      · rw [hunder', hpending', huploaded']
        simpa [Telemetry.step] using hplaced
      · exact h.numbered
      · exact h.distinct
      · rw [hunder', hpending']
        simpa using hordered
      · rw [hpending']
        exact Nat.zero_le _
      · rw [hpending']
        simp
      · rw [hunder']
        exact .inl h.oldest

theorem endUpload (h : Conserved w) (sent : Bool) : Conserved (w.step (.endUpload sent)) := by
  obtain ⟨hflying, hpending, hbefore⟩ := List.pairwise_append.mp h.ordered
  cases hway : w.uploads.underWay with
  | none =>
    have hunder : w.underWay = [] := by simp [Telemetry.underWay, hway]
    have hsame : w.step (.endUpload sent) = w := by
      simp [Telemetry.step, TelemetryUploads.endUpload, hway, hunder, excess_of_le h.bounded]
    rwa [hsame]
  | some lines =>
    have hunder : w.underWay = lines := by simp [Telemetry.underWay, hway]
    have hunder' : (w.step (.endUpload sent)).underWay = [] := by
      cases sent <;> simp [Telemetry.step, TelemetryUploads.endUpload, hway, Telemetry.underWay]
    cases sent with
    | true =>
      have hpending' : (w.step (.endUpload true)).pending = w.pending := by
        simp [Telemetry.step, TelemetryUploads.endUpload, hway, Telemetry.pending]
      have huploaded' : (w.step (.endUpload true)).uploaded = w.uploaded ++ w.underWay := by
        simp [Telemetry.step, TelemetryUploads.endUpload, hway, Telemetry.uploaded, hunder]
      constructor
      · rw [hunder', hpending', huploaded']
        simpa [Telemetry.step] using h.placed
      · exact h.numbered
      · exact h.distinct
      · rw [hunder', hpending']
        exact hpending
      · rw [hpending']
        exact h.bounded
      · rw [hpending']
        exact h.oldest
      · rw [hunder']
        exact .inl (by simp)
    | false =>
      have hpending' : (w.step (.endUpload false)).pending = capPending (w.underWay ++ w.pending) := by
        cases hlines : lines with
        | nil =>
          rw [hunder, hlines, List.nil_append, capPending_of_le h.bounded]
          simp [Telemetry.step, TelemetryUploads.endUpload, hway, hlines, Telemetry.pending, HostTelemetry.restore]
        | cons e es =>
          rw [hunder, hlines]
          simp [Telemetry.step, TelemetryUploads.endUpload, hway, hlines, Telemetry.pending, HostTelemetry.restore]
      have hdropped' : (w.step (.endUpload false)).dropped = w.dropped ++ excess (w.underWay ++ w.pending) := rfl
      have huploaded' : (w.step (.endUpload false)).uploaded = w.uploaded := by
        simp [Telemetry.step, TelemetryUploads.endUpload, hway, Telemetry.uploaded]
      constructor
      · rw [hunder', hpending', hdropped', huploaded']
        refine List.Perm.trans (List.perm_iff_count.mpr fun e => ?_) h.placed
        have hcount := count_capPending (w.underWay ++ w.pending) e
        simp only [List.count_append, List.count_nil] at hcount ⊢
        omega
      · exact h.numbered
      · exact h.distinct
      · rw [hunder', hpending', List.nil_append, capPending_eq]
        exact h.ordered.sublist (List.drop_sublist _ _)
      · rw [hpending']
        exact length_capPending_le _
      · intro d hd e he
        rw [hpending'] at he
        rw [hdropped'] at hd
        rcases List.mem_append.mp hd with hd | hd
        · rcases h.behind with hb | hb
          · have hmem : e ∈ w.underWay ++ w.pending := by
              rw [← excess_append_capPending (w.underWay ++ w.pending)]
              exact List.mem_append_right _ he
            rcases List.mem_append.mp hmem with hmem | hmem
            · exact hb d hd e hmem
            · exact h.oldest d hd e hmem
          · rw [capPending_append_of_full hb] at he
            exact h.oldest d hd e he
        · exact older_of_excess h.ordered hd he
      · rw [hunder']
        exact .inl (by simp)

end Conserved

theorem conserved_step (w : Telemetry) (e : TelemetryEvent) (h : Conserved w) : Conserved (w.step e) := by
  cases e with
  | push line => exact h.push line
  | beginUpload hasEndpoint => exact h.beginUpload hasEndpoint
  | endUpload sent => exact h.endUpload sent

theorem telemetry_conserved (events : List TelemetryEvent) :
    let w := run Telemetry.step {} events
    (w.pending ++ w.underWay ++ w.uploaded ++ w.dropped).Perm w.pushed ∧
    w.pushed.Pairwise Older ∧ w.pending.Pairwise Older ∧ w.pending.length ≤ 64 ∧
    ∀ d ∈ w.dropped, ∀ e ∈ w.pending, Older d e := by
  intro w
  have h : Conserved w := run_of_step conserved_step
    ⟨List.Perm.refl _, by simp, List.Pairwise.nil, List.Pairwise.nil, Nat.zero_le _, by simp, .inl (by simp)⟩
  have hplaces : (w.pending ++ w.underWay ++ w.uploaded ++ w.dropped).Perm
      (w.dropped ++ w.uploaded ++ w.underWay ++ w.pending) :=
    List.perm_iff_count.mpr fun e => by
      simp only [List.count_append]
      omega
  exact ⟨hplaces.trans h.placed, h.distinct, (List.pairwise_append.mp h.ordered).2.1, h.bounded, h.oldest⟩

end Starla.Proof.Results
