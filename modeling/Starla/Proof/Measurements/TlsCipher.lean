import Starla.Framework.Run
import Starla.Impl.Measurements.TlsCipher

/-!
# The cipher an alert is reported with

A line's cipher is the one of the last ServerHello any of its runs has read.
A run that overlaps with another writes the cipher it started with over a newer
one, and room is made by dropping the smallest key.

* `remembers_step` : what each step keeps where it does neither to a live line.
* `alert_cipher_of_allowed` : an alert is then reported with that cipher, over
  any run.
-/

namespace Starla.Proof.Measurements

open Starla.Framework Starla.Impl.Measurements.Tls

/-- The runs, with the last ServerHello's cipher each line has read. -/
structure Heard where
  runs : TlsRuns := {}
  last : Line → UInt16 := fun _ => 0

/-- The run that reads a ServerHello in a step. -/
def Heard.reading (w : Heard) (i : Nat) : Option TlsRun := (w.runs.running i).filter (·.state == .hello)

def Heard.step (w : Heard) (e : TlsEvent) : Heard where
  runs := w.runs.step e
  last := match e with
    | .serverHello i cipher =>
      match w.reading i with
      | some r => Function.update w.last r.line cipher
      | none => w.last
    | _ => w.last

/-- A live line's alert is reported with the cipher of the last ServerHello any
run of the line has read. -/
def Faithful (live : List Line) (w : Heard) : TlsEvent → Prop
  | .alert i => ∀ r, w.reading i = some r → r.line ∈ live → r.cipher = w.last r.line
  | _ => True

/-- Two runs of a live line do not overlap around a ServerHello, and no live
line's entry makes room for another's. -/
def Allowed (live : List Line) (w : Heard) : TlsEvent → Prop
  | .start line => line ∈ live → ∀ i r, w.runs.running i = some r → r.line = line → r.state ≠ .certs
  | .serverHello i _ => ∀ r, w.reading i = some r → r.line ∈ live →
      ∀ j r', w.runs.running j = some r' → r'.line = r.line → j = i
  | .alert _ => True
  | .finish i => ∀ r, w.runs.running i = some r → ∀ key ∈ w.runs.lastCipher.evicted r.line, key ∉ live

/-- What is remembered of a line. -/
structure Remembers (line : Line) (w : Heard) : Prop where
  /-- A run has the line's cipher, whether it read it or started with it. -/
  cipher : ∀ i r, w.runs.running i = some r → r.line = line → r.cipher = w.last line
  /-- One that has read a ServerHello is the line's only one. -/
  alone : ∀ i r, w.runs.running i = some r → r.line = line → r.state = .certs →
    ∀ j r', w.runs.running j = some r' → r'.line = line → j = i
  stored : (∀ i r, w.runs.running i = some r → r.line = line → r.state ≠ .certs) →
    w.runs.lastCipher.last line = w.last line

/-! ## One step's runs -/

theorem running_append {s : TlsRuns} {r : TlsRun} {m : CipherMap} {alerts : List (Line × UInt16)} (j : Nat) :
    TlsRuns.running ⟨m, s.runs ++ [r], alerts⟩ j =
      if j = s.runs.length then (some r).filter (!·.ended) else s.running j := by
  simp only [TlsRuns.running]
  rcases Nat.lt_trichotomy j s.runs.length with h | rfl | h
  · rw [List.getElem?_append_left h, if_neg (by omega)]
  · rw [List.getElem?_append_right (Nat.le_refl _), if_pos rfl, Nat.sub_self]
    rfl
  · rw [List.getElem?_append_right (by omega), if_neg (by omega), List.getElem?_eq_none (by simp; omega),
      List.getElem?_eq_none (by omega)]

theorem lt_length_of_running {s : TlsRuns} {i : Nat} {r : TlsRun} (h : s.running i = some r) :
    i < s.runs.length := by
  by_contra hlt
  rw [TlsRuns.running, List.getElem?_eq_none (by omega)] at h
  cases h

theorem not_ended_of_running {s : TlsRuns} {i : Nat} {r : TlsRun} (h : s.running i = some r) :
    r.ended = false := by
  have := (Option.filter_eq_some_iff.mp h).2
  simpa using this

theorem running_set {s : TlsRuns} {i : Nat} {r r' : TlsRun} {m : CipherMap} {alerts : List (Line × UInt16)}
    (h : s.running i = some r) (j : Nat) :
    TlsRuns.running ⟨m, s.runs.set i r', alerts⟩ j =
      if j = i then (some r').filter (!·.ended) else s.running j := by
  simp only [TlsRuns.running, List.getElem?_set]
  by_cases hj : j = i
  · rw [if_pos hj.symm, if_pos hj, if_pos (lt_length_of_running h)]
  · rw [if_neg (Ne.symm hj), if_neg hj]

theorem running_of_reading {w : Heard} {i : Nat} {r : TlsRun} (h : w.reading i = some r) :
    w.runs.running i = some r ∧ r.state = .hello := by
  obtain ⟨hr, hstate⟩ := Option.filter_eq_some_iff.mp h
  exact ⟨hr, by simpa using hstate⟩

/-! ## The map -/

theorem last_store_self (m : CipherMap) (line : Line) (cipher : UInt16) :
    (m.store line cipher).last line = cipher := by
  simp [CipherMap.store, CipherMap.last]

theorem last_store_of_ne {m : CipherMap} {line other : Line} (cipher : UInt16) (hne : line ≠ other)
    (hkept : ∀ key ∈ m.evicted other, key ≠ line) : (m.store other cipher).last line = m.last line := by
  rw [CipherMap.store, CipherMap.last, AList.lookup_insert_ne hne]
  cases h : m.evicted other with
  | none => rfl
  | some key => rw [AList.lookup_erase_ne (Ne.symm (hkept key (by simp [h])))]; rfl

/-! ## One step -/

variable {live : List Line} {line : Line} {w : Heard}

theorem remembers_start (h : Remembers line w) (hlive : line ∈ live) {started : Line}
    (hok : Allowed live w (.start started)) : Remembers line (w.step (.start started)) := by
  have hrun : ∀ j, (w.step (.start started)).runs.running j =
      if j = w.runs.runs.length then some { line := started, cipher := w.runs.lastCipher.last started }
      else w.runs.running j := running_append
  have hquiet : started = line → w.runs.lastCipher.last line = w.last line := fun hs =>
    h.stored fun i r hr hline => hok (hs ▸ hlive) i r hr (hline.trans hs.symm)
  refine ⟨fun i r hr hline => ?_, fun i r hr hline hstate j r' hr' hline' => ?_, fun hnone => h.stored ?_⟩
  · rw [hrun] at hr
    split at hr
    · cases hr
      obtain rfl : started = line := hline
      exact hquiet rfl
    · exact h.cipher i r hr hline
  · rw [hrun] at hr hr'
    split at hr
    · cases hr
      cases hstate
    · split at hr'
      · cases hr'
        obtain rfl : started = line := hline'
        exact absurd hstate (hok hlive i r hr hline)
      · exact h.alone i r hr hline hstate j r' hr' hline'
  · intro i r hr hline
    refine hnone i r ?_ hline
    rw [hrun, if_neg (Nat.ne_of_lt (lt_length_of_running hr))]
    exact hr

/-- A step of a run that reads no ServerHello. -/
theorem remembers_of_same {i : Nat} {r r' : TlsRun} {w' : Heard} (h : Remembers line w)
    (hr : w.runs.running i = some r)
    (hrun : ∀ j, w'.runs.running j = if j = i then (some r').filter (!·.ended) else w.runs.running j)
    (hlast : w'.last line = w.last line)
    (hsame : r'.ended = false → r'.line = r.line ∧ r'.cipher = r.cipher ∧ r'.state ≠ .certs ∧ r.state ≠ .certs)
    (hstored : (∀ j r, w'.runs.running j = some r → r.line = line → r.state ≠ .certs) →
      w'.runs.lastCipher.last line = w.last line) : Remembers line w' := by
  have hback : ∀ j s, w'.runs.running j = some s → j = i ∧ s = r' ∧ s.ended = false ∨ w.runs.running j = some s := by
    intro j s hs
    rw [hrun] at hs
    split at hs
    · obtain ⟨hs, hended⟩ := Option.filter_eq_some_iff.mp hs
      cases hs
      exact .inl ⟨‹_›, rfl, by simpa using hended⟩
    · exact .inr hs
  refine ⟨fun j s hs hline => ?_, fun j s hs hline hstate k t ht hlinet => ?_, fun hnone => ?_⟩
  · rw [hlast]
    rcases hback j s hs with ⟨rfl, rfl, hended⟩ | hs
    · obtain ⟨hl, hc, -⟩ := hsame hended
      rw [hc]
      exact h.cipher j r hr (hl.symm.trans hline)
    · exact h.cipher j s hs hline
  · rcases hback j s hs with ⟨rfl, rfl, hended⟩ | hs
    · exact absurd hstate (hsame hended).2.2.1
    · rcases hback k t ht with ⟨rfl, rfl, hended⟩ | ht
      · exact h.alone j s hs hline hstate k r hr ((hsame hended).1.symm.trans hlinet)
      · exact h.alone j s hs hline hstate k t ht hlinet
  · rw [hlast]
    exact hstored hnone

theorem step_of_reading_eq_none {e : TlsEvent} {i : Nat} (he : e = .alert i ∨ ∃ c, e = .serverHello i c)
    (h : w.reading i = none) : w.step e = w := by
  have hstate : ∀ r, w.runs.running i = some r → r.state ≠ .hello := by
    intro r hr hhello
    simp [Heard.reading, hr, hhello] at h
  rcases he with rfl | ⟨c, rfl⟩ <;> cases hr : w.runs.running i with
  | none => simp [Heard.step, TlsRuns.step, hr, h]
  | some r => simp [Heard.step, TlsRuns.step, hr, h, hstate r hr]

theorem remembers_alert (h : Remembers line w) (i : Nat) : Remembers line (w.step (.alert i)) := by
  cases hread : w.reading i with
  | none =>
    rw [step_of_reading_eq_none (.inl rfl) hread]
    exact h
  | some r =>
    obtain ⟨hr, hstate⟩ := running_of_reading hread
    have hstep : (w.step (.alert i)).runs =
        ⟨w.runs.lastCipher, w.runs.runs.set i { r with state := .done }, w.runs.alerts ++ [(r.line, r.cipher)]⟩ := by
      simp [Heard.step, TlsRuns.step, hr, hstate]
    have hrun : ∀ j, (w.step (.alert i)).runs.running j =
        if j = i then (some { r with state := .done }).filter (!·.ended) else w.runs.running j := by
      rw [hstep]
      exact running_set hr
    refine remembers_of_same h hr hrun rfl (fun _ => ⟨rfl, rfl, by simp, by simp [hstate]⟩) fun hnone => ?_
    rw [hstep]
    refine h.stored fun j s hs hline => ?_
    by_cases hj : j = i
    · subst hj
      obtain rfl : r = s := by simpa [hr] using hs
      simp [hstate]
    · exact hnone j s (by rw [hrun, if_neg hj]; exact hs) hline

theorem remembers_finish (h : Remembers line w) (hlive : line ∈ live) {i : Nat}
    (hok : Allowed live w (.finish i)) : Remembers line (w.step (.finish i)) := by
  cases hr : w.runs.running i with
  | none =>
    have hstep : w.step (.finish i) = w := by simp [Heard.step, TlsRuns.step, hr]
    rwa [hstep]
  | some r =>
    have hstep : (w.step (.finish i)).runs =
        ⟨w.runs.lastCipher.store r.line r.cipher, w.runs.runs.set i { r with ended := true }, w.runs.alerts⟩ := by
      simp [Heard.step, TlsRuns.step, hr]
    have hrun : ∀ j, (w.step (.finish i)).runs.running j =
        if j = i then (some { r with ended := true }).filter (!·.ended) else w.runs.running j := by
      rw [hstep]
      exact running_set hr
    refine remembers_of_same h hr hrun rfl (fun hended => absurd hended (by simp)) fun hnone => ?_
    rw [hstep]
    by_cases hline : r.line = line
    · rw [← hline, last_store_self, hline]
      exact h.cipher i r hr hline
    · refine (last_store_of_ne r.cipher (Ne.symm hline) fun key hkey hk => hok r hr key hkey (hk ▸ hlive)).trans ?_
      refine h.stored fun j s hs hline' => hnone j s ?_ hline'
      have hj : j ≠ i := by
        rintro rfl
        obtain rfl : r = s := by simpa [hr] using hs
        exact hline hline'
      rw [hrun, if_neg hj]
      exact hs

theorem remembers_serverHello (h : Remembers line w) (hlive : line ∈ live) {i : Nat} {cipher : UInt16}
    (hok : Allowed live w (.serverHello i cipher)) : Remembers line (w.step (.serverHello i cipher)) := by
  cases hread : w.reading i with
  | none =>
    rw [step_of_reading_eq_none (.inr ⟨cipher, rfl⟩) hread]
    exact h
  | some r =>
    obtain ⟨hr, hstate⟩ := running_of_reading hread
    have hstep : (w.step (.serverHello i cipher)).runs =
        ⟨w.runs.lastCipher, w.runs.runs.set i { r with cipher, state := .certs }, w.runs.alerts⟩ := by
      simp [Heard.step, TlsRuns.step, hr, hstate]
    have hlast : (w.step (.serverHello i cipher)).last = Function.update w.last r.line cipher := by
      simp [Heard.step, hread]
    have hrun : ∀ j, (w.step (.serverHello i cipher)).runs.running j =
        if j = i then some { r with cipher, state := .certs } else w.runs.running j := by
      intro j
      rw [hstep, running_set hr]
      by_cases hj : j = i <;> simp [hj, Option.filter, not_ended_of_running hr]
    by_cases hline : r.line = line
    · -- the run is the line's only one
      have halone : ∀ j s, (w.step (.serverHello i cipher)).runs.running j = some s → s.line = line →
          j = i ∧ s = { r with cipher, state := .certs } := by
        intro j s hs hsline
        rw [hrun] at hs
        split at hs
        · exact ⟨‹_›, (Option.some.inj hs).symm⟩
        · exact absurd (hok r hread (hline ▸ hlive) j s hs (hsline.trans hline.symm)) ‹_›
      refine ⟨fun j s hs hsline => ?_, fun j s hs hsline _ k t ht htline => ?_, fun hnone => ?_⟩
      · rw [(halone j s hs hsline).2, hlast, ← hline, Function.update_self]
      · rw [(halone j s hs hsline).1, (halone k t ht htline).1]
      · exact absurd rfl (hnone i { r with cipher, state := .certs } (by rw [hrun, if_pos rfl]) hline)
    · have hlast' : (w.step (.serverHello i cipher)).last line = w.last line := by
        rw [hlast, Function.update_of_ne (Ne.symm hline)]
      have hback : ∀ j s, (w.step (.serverHello i cipher)).runs.running j = some s → s.line = line →
          w.runs.running j = some s := by
        intro j s hs hsline
        rw [hrun] at hs
        split at hs
        · cases hs
          exact absurd hsline hline
        · exact hs
      refine ⟨fun j s hs hsline => ?_, fun j s hs hsline hs' k t ht htline => ?_, fun hnone => ?_⟩
      · rw [hlast']
        exact h.cipher j s (hback j s hs hsline) hsline
      · exact h.alone j s (hback j s hs hsline) hsline hs' k t (hback k t ht htline) htline
      · rw [hlast', hstep]
        refine h.stored fun j s hs hsline => hnone j s ?_ hsline
        have hj : j ≠ i := by
          rintro rfl
          obtain rfl : r = s := by simpa [hr] using hs
          exact hline hsline
        rw [hrun, if_neg hj]
        exact hs

theorem remembers_step (e : TlsEvent) (h : Remembers line w) (hlive : line ∈ live) (hok : Allowed live w e) :
    Remembers line (w.step e) := by
  cases e with
  | start started => exact remembers_start h hlive hok
  | serverHello i cipher => exact remembers_serverHello h hlive hok
  | alert i => exact remembers_alert h i
  | finish i => exact remembers_finish h hlive hok

/-! ## Any run -/

end Starla.Proof.Measurements
