import Starla.Impl.Measurements.HttpResponse
import Starla.Impl.Measurements.StoredHeaders

/-!
# The budget of the stored header lines

The whole lines that are stored are all that fit, with a byte to spare; the
first line that does not is stored as far as the budget goes, and nothing after
it (`storedHeaders_budget`). What has been counted is below the budget until
that line, and over it from then on: `Room` is this and what the sums need.
-/

namespace Starla.Proof.Measurements.StoredHeaders

open Starla.Framework Starla.Framework.Checked Starla.Impl.Measurements Starla.Impl.Measurements.StoredHeaders
open Starla.Impl.Measurements.Http (takeUtf8)
open String (utf8Len)

/-- The bytes of all the lines. -/
def bytes (lines : List String) : Nat := (lines.map String.utf8ByteSize).sum

theorem bytes_cons (line : String) (lines : List String) : bytes (line :: lines) = line.utf8ByteSize + bytes lines := by
  rw [bytes, List.map_cons, List.sum_cons, bytes]

theorem bytes_append (a b : List String) : bytes (a ++ b) = bytes a + bytes b := by
  rw [bytes, List.map_append, List.sum_append, bytes, bytes]

/-! ## A line that is cut -/

theorem longest_takeUtf8 (n : Nat) (cs : List Char) : Longest n cs (takeUtf8 n cs) := by
  induction cs generalizing n with
  | nil => exact ⟨List.prefix_refl [], Nat.zero_le n, fun q hq _ => hq⟩
  | cons c cs ih =>
    rw [takeUtf8]
    by_cases hc : c.utf8Size ≤ n
    · rw [if_pos hc]
      have h := ih (n - c.utf8Size)
      have hsize := h.size
      refine ⟨List.cons_prefix_cons.mpr ⟨rfl, h.isPrefix⟩, ?_, ?_⟩
      · rw [String.utf8Len_cons]
        omega
      · intro q hq hn
        cases q with
        | nil => exact List.nil_prefix
        | cons d q =>
          obtain ⟨rfl, htail⟩ := List.cons_prefix_cons.mp hq
          rw [String.utf8Len_cons] at hn
          exact List.cons_prefix_cons.mpr ⟨rfl, h.longest q htail (by omega)⟩
    · rw [if_neg hc]
      refine ⟨List.nil_prefix, Nat.zero_le n, ?_⟩
      intro q hq hn
      cases q with
      | nil => exact List.nil_prefix
      | cons d q =>
        obtain ⟨rfl, -⟩ := List.cons_prefix_cons.mp hq
        rw [String.utf8Len_cons] at hn
        omega

/-! ## One line -/

/-- A line, at what is stored so far and its bytes, with sums that have no end. -/
def stepOf (max : Nat) : List String × Nat → String → List String × Nat
  | (out, tot), line =>
    if tot + line.utf8ByteSize < max then (out ++ [line], tot + line.utf8ByteSize)
    else if tot ≤ max then
      (out ++ [String.ofList (takeUtf8 (max - tot) line.toList) ++ "[...]"], tot + line.utf8ByteSize + 1)
    else (out, tot)

/-- What has been counted, before and after the budget is overrun, and the
lines to come. -/
def Room (w max tot : Nat) (lines : List String) : Prop :=
  (tot < max ∧ tot + bytes lines + 1 < 2 ^ w) ∨ (max < tot ∧ tot + bytes lines < 2 ^ w)

theorem storeLine_eq {w max tot : Nat} {line : String} {lines : List String} (h : Room w max tot (line :: lines))
    (out : List String) :
    storeLine w max (out, tot) line = .ok (stepOf max (out, tot) line) ∧
      Room w max (stepOf max (out, tot) line).2 lines := by
  unfold Room at h ⊢
  rw [bytes_cons] at h
  rw [storeLine, stepOf, fits_eq (by omega), ok_bind]
  by_cases hfits : tot + line.utf8ByteSize < max
  · rw [if_pos hfits, if_pos hfits]
    exact ⟨rfl, by dsimp only; omega⟩
  · rw [if_neg hfits, if_neg hfits]
    by_cases hle : tot ≤ max
    · have hcut := longest_takeUtf8 (max - tot) line.toList
      rw [if_pos hle, if_pos hle, floorBoundary_eq hcut, ok_bind, sliceBytes_of_prefix hcut.isPrefix, ok_bind,
        fits_eq (by omega), ok_bind]
      exact ⟨rfl, by dsimp only; omega⟩
    · rw [if_neg hle, if_neg hle]
      exact ⟨rfl, by dsimp only; omega⟩

theorem foldlM_storeLine {w max tot : Nat} {lines : List String} (h : Room w max tot lines) (out : List String) :
    lines.foldlM (storeLine w max) (out, tot) = .ok (lines.foldl (stepOf max) (out, tot)) := by
  induction lines generalizing out tot with
  | nil => rfl
  | cons line lines ih =>
    obtain ⟨hline, hroom⟩ := storeLine_eq h out
    rw [List.foldlM_cons, hline, ok_bind, List.foldl_cons]
    exact ih hroom _

/-! ## All the lines -/

/-- Nothing is stored after the overrun. -/
theorem foldl_over {max tot : Nat} (h : max < tot) (lines : List String) (out : List String) :
    lines.foldl (stepOf max) (out, tot) = (out, tot) := by
  induction lines with
  | nil => rfl
  | cons line lines ih =>
    rw [List.foldl_cons, stepOf, if_neg (by omega), if_neg (by omega)]
    exact ih

/-- Lines that fit are stored whole. -/
theorem foldl_whole {max tot : Nat} {whole : List String} (h : tot + bytes whole < max) (out : List String) :
    whole.foldl (stepOf max) (out, tot) = (out ++ whole, tot + bytes whole) := by
  induction whole generalizing out tot with
  | nil => rw [List.append_nil]; rfl
  | cons line whole ih =>
    rw [bytes_cons] at h ⊢
    rw [List.foldl_cons, stepOf, if_pos (by omega), ih (by omega), List.append_assoc, Nat.add_assoc]
    rfl

/-- The lines that fit, and what is left from the first that does not. -/
theorem exists_whole {max tot : Nat} (h : tot < max) (lines : List String) :
    ∃ whole rest, lines = whole ++ rest ∧ tot + bytes whole < max ∧
      ∀ line later, rest = line :: later → max ≤ tot + bytes whole + line.utf8ByteSize := by
  induction lines generalizing tot with
  | nil => exact ⟨[], [], rfl, h, fun _ _ h => nomatch h⟩
  | cons line lines ih =>
    by_cases hfits : tot + line.utf8ByteSize < max
    · obtain ⟨whole, rest, rfl, hwhole, hrest⟩ := ih hfits
      refine ⟨line :: whole, rest, rfl, ?_, ?_⟩
      · rw [bytes_cons]
        omega
      · intro next later hnext
        have := hrest next later hnext
        rw [bytes_cons]
        omega
    · refine ⟨[], line :: lines, rfl, h, ?_⟩
      rintro _ _ ⟨rfl, rfl⟩
      show max ≤ tot + 0 + line.utf8ByteSize
      omega

/-- No more whole lines fit. -/
theorem whole_longest {max : Nat} {lines whole rest pre : List String} (hlines : lines = whole ++ rest)
    (hrest : ∀ line later, rest = line :: later → max ≤ bytes whole + line.utf8ByteSize)
    (hpre : pre <+: lines) (hfits : bytes pre < max) : pre <+: whole := by
  subst hlines
  rcases List.prefix_or_prefix_of_prefix hpre (List.prefix_append whole rest) with hle | ⟨extra, rfl⟩
  · exact hle
  · cases extra with
    | nil => rw [List.append_nil]
    | cons line extra =>
      -- The first line beyond the whole ones is the one that did not fit.
      obtain ⟨later, rfl⟩ := (List.prefix_append_right_inj whole).mp hpre
      have := hrest line (extra ++ later) rfl
      rw [bytes_append, bytes_cons] at hfits
      omega

theorem storedHeaders_eq (lines : List String) {max : Nat} (h : 1 ≤ max) :
    Http.storedHeaders lines max =
      some (if (lines.foldl (stepOf max) ([], 0)).2 ≤ max then (lines.foldl (stepOf max) ([], 0)).1 ++ [""]
        else (lines.foldl (stepOf max) ([], 0)).1) := by
  rw [Http.storedHeaders, if_neg (by omega)]
  rfl

/-- With addresses for all the lines, the sums do not overflow and no slice is
inside a character. -/
theorem storedHeaders_returns {w max : Nat} {lines : List String} (h : 1 ≤ max) (hw : bytes lines + 1 < 2 ^ w) :
    storedHeaders w lines max = .ok (Http.storedHeaders lines max) := by
  have hroom : Room w max 0 lines := Or.inl ⟨by omega, by omega⟩
  rw [storedHeaders, if_neg (by omega), foldlM_storeLine hroom, ok_bind, storedHeaders_eq lines h]
  rfl

/-- The longest run of whole lines that fits, with a byte to spare; then, if
that is not all of them, the next line cut between characters to what is left of
the budget, and nothing more; if it is, the empty line. Where the lines have
addresses, the code returns just this. -/
theorem storedHeaders_budget (lines : List String) (max : Nat) (h : 1 ≤ max) :
    ∃ whole rest out, lines = whole ++ rest ∧ bytes whole < max ∧
      (∀ pre, pre <+: lines → bytes pre < max → pre <+: whole) ∧
      Http.storedHeaders lines max = some out ∧
      ((rest = [] ∧ out = whole ++ [""]) ∨
        ∃ line later p, rest = line :: later ∧ Longest (max - bytes whole) line.toList p ∧
          bytes whole + utf8Len p ≤ max ∧ out = whole ++ [String.ofList p ++ "[...]"]) ∧
      (out.getLast? = some "" ↔ rest = []) ∧
      ∀ w, bytes lines + 1 < 2 ^ w → storedHeaders w lines max = .ok (some out) := by
  obtain ⟨whole, rest, hlines, hwhole, hrest⟩ := exists_whole (Nat.lt_of_lt_of_le Nat.zero_lt_one h) lines
  rw [Nat.zero_add] at hwhole
  simp only [Nat.zero_add] at hrest
  have hlongest : ∀ pre, pre <+: lines → bytes pre < max → pre <+: whole :=
    fun pre => whole_longest hlines hrest
  have hfold : lines.foldl (stepOf max) ([], 0) = rest.foldl (stepOf max) (whole, bytes whole) := by
    have hsum : 0 + bytes whole < max := by omega
    rw [hlines, List.foldl_append, foldl_whole hsum, List.nil_append, Nat.zero_add]
  have hstored := storedHeaders_eq lines h
  rw [hfold] at hstored
  cases rest with
  | nil =>
    rw [List.foldl_nil, if_pos hwhole.le] at hstored
    refine ⟨whole, [], whole ++ [""], hlines, hwhole, hlongest, hstored, Or.inl ⟨rfl, rfl⟩, ?_, ?_⟩
    · simp
    · exact fun w hw => by rw [storedHeaders_returns h hw, hstored]
  | cons line later =>
    have hover := hrest line later rfl
    have hcut := longest_takeUtf8 (max - bytes whole) line.toList
    have hsize := hcut.size
    have hstep : stepOf max (whole, bytes whole) line =
        (whole ++ [String.ofList (takeUtf8 (max - bytes whole) line.toList) ++ "[...]"],
          bytes whole + line.utf8ByteSize + 1) := by
      rw [stepOf, if_neg (by omega), if_pos hwhole.le]
    have hover' : max < bytes whole + line.utf8ByteSize + 1 := by omega
    rw [List.foldl_cons, hstep, foldl_over hover', if_neg hover'.not_ge] at hstored
    refine ⟨whole, line :: later, _, hlines, hwhole, hlongest, hstored,
      Or.inr ⟨line, later, _, rfl, hcut, by omega, rfl⟩, ?_, ?_⟩
    · rw [List.getLast?_append]
      simp
    · exact fun w hw => by rw [storedHeaders_returns h hw, hstored]

theorem storedHeaders_budget_ten :
    storedHeaders 64 ["Aaaa: 1", "Bbbb: 22", "Cccc: 333"] 10 = .ok (some ["Aaaa: 1", "Bbb[...]"]) := by
  obtain ⟨_, _, out, _, _, _, hout, _, _, hreturns⟩ :=
    storedHeaders_budget ["Aaaa: 1", "Bbbb: 22", "Cccc: 333"] 10 (by decide)
  have hten : Http.storedHeaders ["Aaaa: 1", "Bbbb: 22", "Cccc: 333"] 10 = some ["Aaaa: 1", "Bbb[...]"] := by decide
  rw [hreturns 64 (by decide), ← hout, hten]

end Starla.Proof.Measurements.StoredHeaders
