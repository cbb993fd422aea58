import Starla.Framework.Lines
import Starla.Framework.Search

/-!
# ASCII text in bytes

* `asciiBytes` : a text's bytes, which are read as the text whatever follows
  them (`decodeUtf8Lossy_asciiBytes`).
* `digitValue_isSome` : the characters that are digits.
* `trim_blanks`, `trim_before` : a text with blanks around it.
-/

namespace Starla.Framework

def asciiBytes (cs : List Char) : List UInt8 := cs.map fun c => UInt8.ofNat c.toNat

variable {cs : List Char} {bs : List UInt8}

theorem decodeUtf8Lossy_asciiBytes (h : ∀ c ∈ cs, c.toNat < 128) :
    decodeUtf8LossyFrom none (asciiBytes cs ++ bs) = cs ++ decodeUtf8LossyFrom none bs := by
  induction cs with
  | nil => rfl
  | cons c cs ih =>
    simp only [List.forall_mem_cons] at h
    obtain ⟨hc, hcs⟩ := h
    have hval : (UInt8.ofNat c.toNat).toNat = c.toNat := UInt8.toNat_ofNat_of_lt' (by show c.toNat < 256; omega)
    have hlt : UInt8.ofNat c.toNat < 0x80 := by
      rw [UInt8.lt_iff_toNat_lt, hval]
      exact hc
    have hstep : utf8Step none (UInt8.ofNat c.toNat) = ([c], none) := by
      rw [utf8Step, utf8First, utf8Start, if_pos hlt, hval, Char.ofNat_toNat]
    show (utf8Step none (UInt8.ofNat c.toNat)).1 ++ decodeUtf8LossyFrom (utf8Step none (UInt8.ofNat c.toNat)).2
      (asciiBytes cs ++ bs) = _
    rw [hstep, ih hcs]
    rfl

theorem utf8First_cases (b : UInt8) : (utf8First b).1 ≠ [] ∨ (utf8First b).2.isSome = true := by
  unfold utf8First
  cases utf8Start b with
  | inl c => exact .inl (List.cons_ne_nil _ _)
  | inr p => exact .inr rfl

/-- A byte is read, or more are to come. -/
theorem utf8Step_cases (pending : Option Utf8Pending) (b : UInt8) :
    (utf8Step pending b).1 ≠ [] ∨ (utf8Step pending b).2.isSome = true := by
  unfold utf8Step
  split
  · exact utf8First_cases b
  · exact utf8First_cases b
  · split_ifs
    · exact .inl (List.cons_ne_nil _ _)
    · exact .inr rfl
    · exact .inl (List.cons_ne_nil _ _)

/-- Some bytes are some text. -/
theorem decodeUtf8Lossy_ne_nil {pending : Option Utf8Pending} (h : pending.isSome = true ∨ bs ≠ []) :
    decodeUtf8LossyFrom pending bs ≠ [] := by
  induction bs generalizing pending with
  | nil =>
    have hpending : pending.isSome = true := h.resolve_right (fun hne => hne rfl)
    rw [decodeUtf8LossyFrom, if_pos hpending]
    exact List.cons_ne_nil _ _
  | cons b bs ih =>
    rw [decodeUtf8LossyFrom]
    rcases utf8Step_cases pending b with hchars | hnext
    · exact List.append_ne_nil_of_left_ne_nil hchars _
    · exact List.append_ne_nil_of_right_ne_nil _ (ih (.inl hnext))

/-! ## Digits -/

/-- A digit's place in ASCII. -/
theorem digitValue_isSome {radix : Nat} {c : Char} (h : (digitValue radix c).isSome = true) :
    (48 ≤ c.toNat ∧ c.toNat ≤ 57) ∨ (65 ≤ c.toNat ∧ c.toNat ≤ 70) ∨ (97 ≤ c.toNat ∧ c.toNat ≤ 102) := by
  unfold digitValue at h
  split_ifs at h with hdigit hlower hupper
  · simp only [Char.isDigit, Bool.and_eq_true, decide_eq_true_eq] at hdigit
    exact .inl hdigit
  · exact .inr (.inr hlower)
  · exact .inr (.inl hupper)
  · cases h

theorem foldl_digits_none {radix : Nat} (cs : List Char) :
    cs.foldl (fun n c => match n, digitValue radix c with
      | some n, some d => some (n * radix + d)
      | _, _ => none) none = none := by
  induction cs with
  | nil => rfl
  | cons c cs ih => exact ih

theorem forall_isSome_of_foldl {radix n m : Nat} (h : cs.foldl (fun n c => match n, digitValue radix c with
    | some n, some d => some (n * radix + d)
    | _, _ => none) (some n) = some m) : ∀ c ∈ cs, (digitValue radix c).isSome = true := by
  induction cs generalizing n with
  | nil => exact fun c hc => absurd hc List.not_mem_nil
  | cons c cs ih =>
    rw [List.foldl_cons] at h
    rw [List.forall_mem_cons]
    cases hc : digitValue radix c with
    | none =>
      rw [hc] at h
      exact absurd ((foldl_digits_none cs).symm.trans h) (by simp)
    | some d =>
      rw [hc] at h
      exact ⟨rfl, ih h⟩

theorem forall_isSome_of_ofDigits {radix n : Nat} (h : ofDigits radix cs = some n) :
    ∀ c ∈ cs, (digitValue radix c).isSome = true := forall_isSome_of_foldl h

theorem isWhitespace_of_digit {radix : Nat} {c : Char} (h : (digitValue radix c).isSome = true) :
    isWhitespace c = false := by
  have hplace := digitValue_isSome h
  have hval : c.val.toNat = c.toNat := rfl
  simp only [isWhitespace, Bool.or_eq_false_iff, Bool.and_eq_false_iff, decide_eq_false_iff_not,
    beq_eq_false_iff_ne, ne_eq, UInt32.le_iff_toNat_le, ← UInt32.toNat_inj, UInt32.reduceToNat]
  omega

theorem digitsUpTo_of_ofDigits {max radix n : Nat} (hne : cs ≠ []) (h : ofDigits radix cs = some n) (hn : n ≤ max) :
    digitsUpTo max radix cs = some n := by
  rw [digitsUpTo, if_neg (by simpa using hne), h, Option.filter_some, if_pos (by simpa using hn)]

/-! ## Blanks -/

theorem rdropWhile_of_forall {p : Char → Bool} {ds : List Char} (h : ∀ c ∈ ds, p c = true) :
    (cs ++ ds).rdropWhile p = cs.rdropWhile p := by
  induction ds using List.reverseRecOn with
  | nil => rw [List.append_nil]
  | append_singleton ds d ih =>
    rw [← List.append_assoc, List.rdropWhile_concat_pos _ _ _ (h d (by simp))]
    exact ih fun c hc => h c (by simp [hc])

/-- A word with blanks around it. -/
theorem trim_blanks {before after : List Char} (hbefore : ∀ c ∈ before, isWhitespace c = true)
    (hafter : ∀ c ∈ after, isWhitespace c = true) (h : IsWord cs) : trim (before ++ cs ++ after) = cs := by
  have hself : trim cs = cs :=
    trim_eq_self (fun c hc => h.noBlank c (List.mem_of_mem_head? hc))
      (fun c hc => h.noBlank c (List.mem_of_mem_getLast? hc))
  rw [trim, List.append_assoc, List.dropWhile_append_of_pos hbefore]
  cases cs with
  | nil => exact absurd rfl h.ne_nil
  | cons c cs =>
    have hc := h.noBlank c List.mem_cons_self
    rw [List.cons_append, List.dropWhile_cons_of_neg (by simp [hc]), ← List.cons_append, rdropWhile_of_forall hafter]
    rw [trim, List.dropWhile_cons_of_neg (by simp [hc])] at hself
    exact hself

/-- What stands before a character that is no blank stays. -/
theorem trim_before {c : Char} {ds : List Char} (hcs : ∀ c ∈ cs, isWhitespace c = false)
    (hc : isWhitespace c = false) : ∃ ds', trim (cs ++ c :: ds) = cs ++ c :: ds' := by
  have hfront : (cs ++ c :: ds).dropWhile isWhitespace = cs ++ c :: ds := by
    cases cs with
    | nil => exact List.dropWhile_cons_of_neg (by simp [hc])
    | cons d cs => exact List.dropWhile_cons_of_neg (by simp [hcs d List.mem_cons_self])
  rw [trim, hfront]
  induction ds using List.reverseRecOn with
  | nil => exact ⟨[], List.rdropWhile_concat_neg _ _ _ (by simp [hc])⟩
  | append_singleton ds d ih =>
    have happend : cs ++ c :: (ds ++ [d]) = (cs ++ c :: ds) ++ [d] := by simp
    rw [happend]
    by_cases hd : isWhitespace d = true
    · rw [List.rdropWhile_concat_pos _ _ _ hd]
      refine ih ?_
      cases cs with
      | nil => exact List.dropWhile_cons_of_neg (by simp [hc])
      | cons d cs => exact List.dropWhile_cons_of_neg (by simp [hcs d List.mem_cons_self])
    · exact ⟨ds ++ [d], by rw [List.rdropWhile_concat_neg _ _ _ hd, happend]⟩

/-! ## A byte -/

/-- The first of one byte. -/
theorem findSub_of_notMem {b : UInt8} {as rest : List UInt8} (h : b ∉ as) :
    findSub [b] (as ++ b :: rest) = some (as, rest) := by
  induction as with
  | nil => exact findSub_cons_of_some (by simp [stripPrefix])
  | cons a as ih =>
    rw [List.mem_cons, not_or] at h
    have hnone : stripPrefix [b] (a :: (as ++ b :: rest)) = none := by
      rw [stripPrefix, if_neg h.1]
    rw [List.cons_append, findSub_cons_of_none hnone, ih h.2]
    rfl

end Starla.Framework
