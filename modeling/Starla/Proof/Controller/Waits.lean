import Mathlib.Order.Monotone.Defs
import Starla.Proof.Controller.Registration

/-!
# The waits a registration server asks for

An answer names a wait in decimal digits, `REREGISTER` with an assignment and
`TIMEOUT` with a WAIT. The number is read as a `u64` and as a `u32`, then held
as an `i64` to between 100 seconds and 28 days.

* `parseUnsigned_of_isNumber` : digits within the bound are their number, others
  are none.
* `hold_reregister`, `hold_timeout` : what is held, by what was read.
* `hold_eq_clamped_iff` : the number itself is held to the bounds where it fits,
  and only there: past `2^32` a TIMEOUT is 60 seconds, past `2^63` a
  REREGISTER is negative, past `2^64` it is none.
-/

namespace Starla.Proof.Controller

open Starla.Framework Starla.Impl.Controller

/-! ## Numbers -/

/-- Digits, and the number they stand for. -/
structure IsNumber (w : String) (n : ℕ) : Prop where
  ne_nil : w.toList ≠ []
  digits : ∀ c ∈ w.toList, c.isDigit = true
  value : Nat.ofDigitChars 10 w.toList 0 = n

theorem parseUnsigned_of_isNumber {w : String} {n : ℕ} (h : IsNumber w n) (max : ℕ) :
    parseUnsigned max w.toList = if n ≤ max then some n else none := by
  have hdigits : digitsUpTo max 10 w.toList = if n ≤ max then some n else none := by
    have hvalue : ofDigits 10 w.toList = some n :=
      (foldl_digitValue _ h.digits 0).trans (congrArg some h.value)
    rw [digitsUpTo, if_neg (by simpa using h.ne_nil), hvalue]
    simp [Option.filter]
  unfold parseUnsigned
  split
  · rename_i cs hcs
    have hplus : ('+' : Char).isDigit = true := h.digits '+' (by rw [hcs]; simp)
    exact absurd hplus (by decide)
  · exact hdigits

/-! ## The word that decides -/

/-- The word a line has after a keyword. -/
def wordAfter (keyword : String) (line : List Char) : Option String :=
  match wordsOf line with
  | k :: w :: _ => if k = keyword then some w else none
  | _ => none

theorem reregSecs_read (f : Assigned) (line : List Char) :
    (f.read line).reregSecs = (wordAfter "REREGISTER" line).elim f.reregSecs parseUInt64 := by
  unfold Assigned.read wordAfter
  split
  all_goals
    first
    | rename_i h; rw [h]; rfl
    | skip
  rename_i _ hreg _
  split
  · rename_i k w _ hline
    by_cases hk : k = "REREGISTER"
    · subst hk
      exact absurd hline (hreg w _)
    · rw [if_neg hk]
      rfl
  · rfl

/-- The last REREGISTER decides. -/
theorem reregSecs_foldl (rest : List (List Char)) (f : Assigned) :
    (rest.foldl Assigned.read f).reregSecs =
      (rest.reverse.findSome? (wordAfter "REREGISTER")).elim f.reregSecs parseUInt64 := by
  induction rest generalizing f with
  | nil => rfl
  | cons line rest ih =>
    rw [List.foldl_cons, ih, reregSecs_read, List.reverse_cons, List.findSome?_append]
    cases rest.reverse.findSome? (wordAfter "REREGISTER") with
    | some w => rfl
    | none => cases h : wordAfter "REREGISTER" line <;> simp [h]

theorem timeoutOf_eq (line : List Char) :
    timeoutOf line = (wordAfter "TIMEOUT" line).map fun w => (parseUInt32 w).getD 60 := by
  unfold timeoutOf wordAfter
  split
  · rename_i h
    rw [h]
    rfl
  · rename_i hline
    split
    · rename_i k w _ h
      by_cases hk : k = "TIMEOUT"
      · subst hk
        exact absurd h (hline w _)
      · rw [if_neg hk]
        rfl
    · rfl

/-- The first TIMEOUT decides. -/
theorem findSome?_timeoutOf (rest : List (List Char)) :
    rest.findSome? timeoutOf =
      (rest.findSome? (wordAfter "TIMEOUT")).map fun w => (parseUInt32 w).getD 60 := by
  rw [funext timeoutOf_eq]
  induction rest with
  | nil => rfl
  | cons line rest ih =>
    rw [List.findSome?_cons, List.findSome?_cons, ih]
    cases wordAfter "TIMEOUT" line <;> rfl

/-! ## What an answer asks for -/

/-- The two waits an answer may name. -/
inductive Wait
  | reregister
  | timeout

/-- An answer whose wait is given by a word: the last REREGISTER's with an
assignment, the first TIMEOUT's with a WAIT. -/
def Wait.Asked : Wait → String → String → Prop
  | .reregister, text, w =>
    (∃ info, parseInitResponse text = .ok (.controller info)) ∧
      (lines text.toList).tail.reverse.findSome? (wordAfter "REREGISTER") = some w
  | .timeout, text, w =>
    (∃ secs, parseInitResponse text = .ok (.wait secs)) ∧
      (lines text.toList).tail.findSome? (wordAfter "TIMEOUT") = some w

/-- Numbers below this fit the types they pass through. -/
def Wait.limit : Wait → ℕ
  | .reregister => 2 ^ 63
  | .timeout => 2 ^ 32

/-- How long after `now` a registration holds, or waits, by an answer. -/
def hold (s : RegState) (text : String) (now : Int64) : Option Int64 :=
  match parseInitResponse text with
  | .ok (.controller info) => (s.registered info now).reregAt.map (· - now)
  | .ok (.wait timeoutSecs) => (s.toldToWait timeoutSecs.toUInt64.toInt64 now).waitUntil.map (· - now)
  | _ => none

/-- Seconds held to between 100 and 28 days. -/
def clamped (n : ℕ) : ℕ := max 100 (min n (28 * 24 * 3600))

theorem clamped_mono : Monotone clamped := fun n m h => by
  unfold clamped
  omega

theorem toInt_clampWait (secs : Int64) :
    (clampWait secs).toInt = max 100 (min secs.toInt (28 * 24 * 3600)) := by
  have hmin : MIN_WAIT_SECS.toInt = 100 := by decide
  have hmax : MAX_WAIT_SECS.toInt = 2419200 := by decide
  have hclamp : clampWait secs = if MIN_WAIT_SECS ≤ (if secs ≤ MAX_WAIT_SECS then secs else MAX_WAIT_SECS) then
      (if secs ≤ MAX_WAIT_SECS then secs else MAX_WAIT_SECS) else MIN_WAIT_SECS := rfl
  rw [hclamp]
  split_ifs <;> simp only [Int64.le_iff_toInt_le] at * <;> omega

theorem add_sub_self (now secs : Int64) : now + secs - now = secs := by
  rw [Int64.add_comm, Int64.add_sub_cancel]

/-! ## What is held -/

theorem hold_reregister {text w : String} (h : Wait.reregister.Asked text w) (s : RegState) (now : Int64) :
    hold s text now = (parseUInt64 w).map fun secs => clampWait secs.toInt64 := by
  obtain ⟨⟨info, hinfo⟩, hw⟩ := h
  have hsecs : info.reregSecs = parseUInt64 w := by
    unfold parseInitResponse at hinfo
    split at hinfo
    · exact absurd hinfo (by simp)
    · rename_i first rest hlines
      rw [hlines, List.tail_cons] at hw
      split at hinfo
      · simp only [Except.ok.injEq, parseOk] at hinfo
        split at hinfo
        · injection hinfo with hinfo
          rw [← hinfo, reregSecs_foldl, hw]
          rfl
        · split at hinfo <;> exact absurd hinfo (by simp)
      all_goals exact absurd hinfo (by simp)
  rw [hold, hinfo]
  simp only [RegState.registered, hsecs, Option.map_map]
  congr 1
  funext secs
  exact add_sub_self now _

theorem hold_timeout {text w : String} (h : Wait.timeout.Asked text w) (s : RegState) (now : Int64) :
    hold s text now = some (clampWait ((parseUInt32 w).getD 60).toUInt64.toInt64) := by
  obtain ⟨⟨secs, hwait⟩, hw⟩ := h
  have hsecs : secs = (parseUInt32 w).getD 60 := by
    unfold parseInitResponse at hwait
    split at hwait
    · exact absurd hwait (by simp)
    · rename_i first rest hlines
      rw [hlines, List.tail_cons] at hw
      split at hwait
      · simp only [Except.ok.injEq, parseOk] at hwait
        split at hwait
        · exact absurd hwait (by simp)
        · split at hwait <;> exact absurd hwait (by simp)
      · simp only [Except.ok.injEq, InitResponse.wait.injEq] at hwait
        rw [← hwait, findSome?_timeoutOf, hw]
        rfl
      all_goals exact absurd hwait (by simp)
  rw [hold, hwait, ← hsecs]
  exact congrArg some (add_sub_self now _)

theorem toInt_toInt64_uInt64 (x : UInt64) :
    x.toInt64.toInt = if x.toNat < 2 ^ 63 then (x.toNat : ℤ) else x.toNat - 2 ^ 64 := by
  have hx := x.toNat_lt
  show x.toBitVec.toInt = _
  rw [BitVec.toInt_eq_toNat_cond]
  show (if 2 * x.toNat < 2 ^ 64 then (x.toNat : ℤ) else x.toNat - (2 ^ 64 : ℕ)) = _
  split_ifs <;> omega

/-- A REREGISTER that was read as `secs`. -/
theorem clampWait_reregister (n : ℕ) (h : n ≤ 18446744073709551615) :
    (clampWait (UInt64.ofNat n).toInt64).toInt = clamped n ↔ n < 2 ^ 63 := by
  have hn : (UInt64.ofNat n).toNat = n := UInt64.toNat_ofNat_of_lt' (Nat.lt_of_le_of_lt h (by decide))
  rw [toInt_clampWait, toInt_toInt64_uInt64, hn, clamped]
  split_ifs <;> omega

/-- A TIMEOUT that was read as `n`, and one that was not. -/
theorem clampWait_timeout (n : ℕ) :
    (clampWait ((if n ≤ 4294967295 then some n else none).map UInt32.ofNat |>.getD 60).toUInt64.toInt64).toInt =
      clamped n ↔ n < 2 ^ 32 := by
  split_ifs with h
  · have hn : (UInt32.ofNat n).toUInt64.toNat = n := by
      rw [UInt32.toNat_toUInt64]
      exact UInt32.toNat_ofNat_of_lt' (Nat.lt_of_le_of_lt h (by decide))
    rw [Option.map_some, Option.getD_some, toInt_clampWait, toInt_toInt64_uInt64, hn, clamped]
    split_ifs <;> omega
  · have hsixty : (clampWait (60 : UInt32).toUInt64.toInt64).toInt = 100 := by decide
    show (clampWait (60 : UInt32).toUInt64.toInt64).toInt = clamped n ↔ n < 2 ^ 32
    rw [hsixty, clamped]
    omega

/-- The number asked for is held to the bounds, at any clock, just where it fits
the types it passes through; and the bounds keep the order of numbers. -/
theorem hold_eq_clamped_iff {kind : Wait} {text w : String} {n : ℕ} (hasked : kind.Asked text w)
    (hn : IsNumber w n) (s : RegState) (now : Int64) :
    ((hold s text now).map Int64.toInt = some (clamped n : ℤ) ↔ n < kind.limit) ∧ Monotone clamped := by
  refine ⟨?_, clamped_mono⟩
  cases kind with
  | reregister =>
    rw [hold_reregister hasked, parseUInt64, parseUnsigned_of_isNumber hn]
    show _ ↔ n < 2 ^ 63
    split_ifs with h
    · rw [← clampWait_reregister n h]
      simp
    · exact iff_of_false (by simp) (by omega)
  | timeout =>
    rw [hold_timeout hasked, parseUInt32, parseUnsigned_of_isNumber hn]
    show _ ↔ n < 2 ^ 32
    rw [← clampWait_timeout n]
    simp

theorem hold_eq_clamped_iff_day :
    let text := "OK\nCONTROLLER ctr-fnr01.atlas.ripe.net 443 ssh-rsa AAAA\nREREGISTER 0086400\n"
    (Wait.reregister.Asked text "0086400" ∧ IsNumber "0086400" 86400) ∧
      (hold {} text 1000).map Int64.toInt = some (clamped 86400 : ℤ) := by
  have hasked : Wait.reregister.Asked
      "OK\nCONTROLLER ctr-fnr01.atlas.ripe.net 443 ssh-rsa AAAA\nREREGISTER 0086400\n" "0086400" :=
    ⟨⟨⟨"ctr-fnr01.atlas.ripe.net", 443, 0, some 86400⟩, by decide⟩, by decide⟩
  have hn : IsNumber "0086400" 86400 := ⟨by decide, List.all_eq_true.mp (by decide), by decide⟩
  exact ⟨⟨hasked, hn⟩, (hold_eq_clamped_iff hasked hn {} 1000).1.mpr (by decide)⟩

/-- A WAIT of `2^32` seconds is held for 100. -/
theorem hold_ne_clamped :
    ¬ ∀ (kind : Wait) (text w : String) (n : ℕ), kind.Asked text w → IsNumber w n →
      ∀ (s : RegState) (now : Int64), (hold s text now).map Int64.toInt = some (clamped n : ℤ) := by
  intro h
  have hasked : Wait.timeout.Asked "WAIT\nTIMEOUT 4294967296\n" "4294967296" :=
    ⟨⟨60, by decide⟩, by decide⟩
  have hn : IsNumber "4294967296" 4294967296 := ⟨by decide, List.all_eq_true.mp (by decide), by decide⟩
  have hhold := h _ _ _ _ hasked hn {} 0
  exact absurd hhold (by decide)

end Starla.Proof.Controller
