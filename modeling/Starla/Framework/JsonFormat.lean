import Mathlib.Tactic.IntervalCases
import Starla.Framework.Formatting
import Starla.Framework.JsonRules

/-!
# Numbers and addresses in JSON texts

What `Framework.Formatting` writes is a JSON number (`isNumber_toString`,
`isNumber_fixed`, …), or is made of characters a string holds as they are
(`all_isPlain_text`, …).
-/

namespace Starla.Framework.JsonText

/-! ## Plain text -/

/-- A text a string holds as it is. -/
def PlainText (s : String) : Prop := s.toList.all isPlain = true

instance (s : String) : Decidable (PlainText s) := inferInstanceAs (Decidable (_ = _))

theorem PlainText.isContent {s : String} (hs : PlainText s) : IsContent s.toList := isContent_of_plain hs

@[simp] theorem plainText_append {a b : String} : PlainText (a ++ b) ↔ PlainText a ∧ PlainText b := by
  simp [PlainText, List.all_append]

theorem plainText_ofList {cs : List Char} : PlainText (String.ofList cs) ↔ ∀ c ∈ cs, isPlain c = true := by
  rw [PlainText, String.toList_ofList, List.all_eq_true]

theorem isPlain_of_isDigit {c : Char} (hc : c.isDigit = true) : isPlain c = true := by
  have hne : ∀ d, d.isDigit = false → c ≠ d := fun d => ne_of_isDigit hc
  simp only [isPlain, Bool.and_eq_true, Bool.not_eq_true', decide_eq_false_iff_not, bne_iff_ne]
  refine ⟨⟨fun hlt => ?_, hne '"' rfl⟩, hne '\\' rfl⟩
  simp only [Char.isDigit, Bool.and_eq_true, decide_eq_true_eq] at hc
  have hle : 48 ≤ c.val.toNat := UInt32.le_iff_toNat_le.mp hc.1
  have hlt : c.val.toNat < 32 := UInt32.lt_iff_toNat_lt.mp hlt
  omega

theorem plainText_toString (n : Nat) : PlainText (toString n) := by
  rw [Nat.toString_eq_ofList_toDigits, plainText_ofList]
  exact fun c hc => isPlain_of_isDigit (Nat.isDigit_of_mem_toDigits (by decide) (by decide) hc)

theorem plainText_int (n : Int) : PlainText (toString n) := by
  cases n with
  | ofNat n => exact plainText_toString n
  | negSucc n =>
    show PlainText ("-" ++ toString (n + 1))
    exact plainText_append.mpr ⟨by decide, plainText_toString (n + 1)⟩

theorem plainText_zeroPadded (width : Nat) {s : String} (hs : PlainText s) : PlainText (zeroPadded width s) := by
  rw [zeroPadded, plainText_append, plainText_ofList]
  refine ⟨fun c hc => ?_, hs⟩
  rw [List.eq_of_mem_replicate hc]
  decide

theorem plainText_intercalate {sep : String} {texts : List String} (hsep : PlainText sep)
    (htexts : ∀ a ∈ texts, PlainText a) : PlainText (sep.intercalate texts) := by
  induction texts with
  | nil => simp [PlainText]
  | cons a texts ih =>
    have ih := ih fun b hb => htexts b (List.mem_cons_of_mem _ hb)
    cases texts with
    | nil => simpa using htexts a List.mem_cons_self
    | cons b texts =>
      rw [String.intercalate_cons_cons, plainText_append, plainText_append]
      exact ⟨⟨htexts a List.mem_cons_self, hsep⟩, ih⟩

/-! ## Addresses -/

theorem isPlain_digitChar {n : Nat} (hn : n < 16) : isPlain (Nat.digitChar n) = true := by
  interval_cases n <;> decide

theorem isPlain_of_mem_toDigits {n : Nat} {c : Char} (hc : c ∈ Nat.toDigits 16 n) : isPlain c = true := by
  induction n using Nat.strong_induction_on with
  | _ n ih =>
    by_cases hn : n < 16
    · rw [Nat.toDigits_of_lt_base hn, List.mem_singleton] at hc
      rw [hc]
      exact isPlain_digitChar hn
    · rw [Nat.toDigits_of_base_le (by decide) (by omega), List.mem_append, List.mem_singleton] at hc
      rcases hc with hc | rfl
      · exact ih (n / 16) (by omega) hc
      · exact isPlain_digitChar (Nat.mod_lt _ (by decide))

theorem plainText_hexText (width n : Nat) : PlainText (hexText width n) :=
  plainText_zeroPadded width (plainText_ofList.mpr fun _ => isPlain_of_mem_toDigits)

theorem plainText_ipv4Text (a : BitVec 32) : PlainText (ipv4Text a) := by
  refine plainText_intercalate (by decide) fun s hs => ?_
  obtain ⟨n, -, rfl⟩ := List.mem_map.mp hs
  exact plainText_toString n

theorem plainText_segmentsText (segments : List Nat) : PlainText (segmentsText segments) := by
  refine plainText_intercalate (by decide) fun s hs => ?_
  obtain ⟨n, -, rfl⟩ := List.mem_map.mp hs
  exact plainText_hexText 1 n

theorem plainText_ipAddr (a : IpAddr) : PlainText a.text := by
  cases a with
  | v4 a => exact plainText_ipv4Text a
  | v6 a =>
    show PlainText (ipv6Text a)
    unfold ipv6Text
    dsimp only
    split_ifs
    · exact plainText_append.mpr ⟨by decide, plainText_ipv4Text _⟩
    · rw [plainText_append, plainText_append]
      exact ⟨⟨plainText_segmentsText _, by decide⟩, plainText_segmentsText _⟩
    · exact plainText_segmentsText _

/-! ## Numbers -/

/-- Digits go on with a number that takes any of them. -/
theorem foldlM_next_of_digits {n : Numeral} (hn : ∀ c, c.isDigit = true → n.next c = some n) {cs : List Char}
    (hcs : ∀ c ∈ cs, c.isDigit = true) : cs.foldlM Numeral.next n = some n := by
  induction cs with
  | nil => rfl
  | cons c cs ih =>
    show (n.next c).bind (fun n => cs.foldlM Numeral.next n) = some n
    rw [hn c (hcs c List.mem_cons_self)]
    exact ih fun d hd => hcs d (List.mem_cons_of_mem _ hd)

theorem next_int {c : Char} (hc : c.isDigit = true) : Numeral.int.next c = some .int := by
  simp [Numeral.next, hc]

theorem next_fraction {c : Char} (hc : c.isDigit = true) : Numeral.fraction.next c = some .fraction := by
  simp [Numeral.next, hc]

theorem next_exponent {c : Char} (hc : c.isDigit = true) : Numeral.exponent.next c = some .exponent := by
  simp [Numeral.next, hc]

/-- How far a number is after a whole number's digits. -/
def afterWhole (n : Nat) : Numeral := if n = 0 then .zero else .int

theorem ends_afterWhole (n : Nat) : (afterWhole n).ends = true := by
  unfold afterWhole
  split_ifs <;> rfl

/-- A whole number, at a number's start or after its sign. -/
theorem foldlM_toDigits {m : Numeral} (hm : m = .start ∨ m = .minus) (n : Nat) :
    (Nat.toDigits 10 n).foldlM Numeral.next m = some (afterWhole n) := by
  induction n using Nat.strong_induction_on with
  | _ n ih =>
    by_cases hn : n < 10
    · rw [Nat.toDigits_of_lt_base hn]
      rcases hm with rfl | rfl <;> interval_cases n <;> rfl
    · have hdigit : (Nat.digitChar (n % 10)).isDigit = true := by
        have : n % 10 < 10 := Nat.mod_lt _ (by decide)
        interval_cases n % 10 <;> rfl
      have hne : ∀ k, k ≠ 0 → afterWhole k = .int := fun k hk => if_neg hk
      rw [Nat.toDigits_of_base_le (by decide) (by omega), List.foldlM_append, ih (n / 10) (by omega),
        hne (n / 10) (by omega), hne n (by omega)]
      show (Numeral.int.next (Nat.digitChar (n % 10))).bind some = some .int
      rw [next_int hdigit]
      rfl

theorem isNumber_toString (n : Nat) : IsNumber (toString n).toList :=
  ⟨afterWhole n, by rw [Nat.toString_eq_ofList_toDigits, String.toList_ofList]; exact foldlM_toDigits (.inl rfl) n,
    ends_afterWhole n⟩

theorem isNumber_int (n : Int) : IsNumber (toString n).toList := by
  cases n with
  | ofNat n => exact isNumber_toString n
  | negSucc n =>
    refine ⟨afterWhole (n + 1), ?_, ends_afterWhole _⟩
    have htext : (toString (Int.negSucc n)).toList = '-' :: Nat.toDigits 10 (n + 1) := by
      show ("-" ++ (n + 1).repr).toList = _
      rw [String.toList_append, Nat.toList_repr]
      rfl
    rw [htext]
    exact foldlM_toDigits (.inr rfl) (n + 1)

/-- A fraction, with at least one digit. -/
theorem foldlM_fraction {n : Nat} {cs : List Char} (hne : cs ≠ []) (hcs : ∀ c ∈ cs, c.isDigit = true) :
    ('.' :: cs).foldlM Numeral.next (afterWhole n) = some .fraction := by
  cases cs with
  | nil => exact absurd rfl hne
  | cons c cs =>
    have hpoint : (afterWhole n).next '.' = some .point := by
      unfold afterWhole
      split_ifs <;> rfl
    have hc : Numeral.point.next c = some .fraction := by
      simp [Numeral.next, hcs c List.mem_cons_self]
    show ((afterWhole n).next '.').bind (fun m => (m.next c).bind fun m => cs.foldlM Numeral.next m) = _
    rw [hpoint, Option.bind_some, hc, Option.bind_some]
    exact foldlM_next_of_digits (fun c => next_fraction) fun d hd => hcs d (List.mem_cons_of_mem _ hd)

theorem isDigit_of_mem_toString {n : Nat} {c : Char} (hc : c ∈ (toString n).toList) : c.isDigit = true := by
  rw [Nat.toString_eq_ofList_toDigits, String.toList_ofList] at hc
  exact Nat.isDigit_of_mem_toDigits (by decide) (by decide) hc

theorem isDigit_of_mem_zeroPadded {width n : Nat} {c : Char} (hc : c ∈ (zeroPadded width (toString n)).toList) :
    c.isDigit = true := by
  rw [zeroPadded, String.toList_append, String.toList_ofList, List.mem_append] at hc
  rcases hc with hc | hc
  · rw [List.eq_of_mem_replicate hc]
    rfl
  · exact isDigit_of_mem_toString hc

theorem isNumber_fixed {places : Nat} (x : Fixed places) : IsNumber x.text.toList := by
  obtain ⟨negative, scaled⟩ := x
  have hdigits : (zeroPadded places (toString (scaled % 10 ^ places))).toList ≠ [] := by
    rw [zeroPadded, String.toList_append, Nat.toString_eq_ofList_toDigits, String.toList_ofList,
      String.toList_ofList]
    exact List.append_ne_nil_of_right_ne_nil _ Nat.toDigits_ne_nil
  have hrest : ∀ m, m = .start ∨ m = .minus →
      ((toString (scaled / 10 ^ places)).toList ++
        '.' :: (zeroPadded places (toString (scaled % 10 ^ places))).toList).foldlM Numeral.next m =
        some .fraction := by
    intro m hm
    rw [List.foldlM_append, Nat.toString_eq_ofList_toDigits, String.toList_ofList, foldlM_toDigits hm]
    exact foldlM_fraction hdigits fun c => isDigit_of_mem_zeroPadded
  refine ⟨.fraction, ?_, rfl⟩
  cases negative with
  | false =>
    have htext : (Fixed.text (⟨false, scaled⟩ : Fixed places)).toList =
        (toString (scaled / 10 ^ places)).toList ++
          '.' :: (zeroPadded places (toString (scaled % 10 ^ places))).toList := by
      simp [Fixed.text]
    rw [htext]
    exact hrest _ (.inl rfl)
  | true =>
    have htext : (Fixed.text (⟨true, scaled⟩ : Fixed places)).toList =
        '-' :: ((toString (scaled / 10 ^ places)).toList ++
          '.' :: (zeroPadded places (toString (scaled % 10 ^ places))).toList) := by
      simp [Fixed.text]
    rw [htext]
    exact hrest _ (.inr rfl)

theorem isDigit_of_mem_digitsText {digits : List (Fin 10)} {c : Char} (hc : c ∈ (digitsText digits).toList) :
    c.isDigit = true := by
  rw [digitsText, String.toList_ofList] at hc
  have hall : ∀ d : Fin 10, (Nat.digitChar d).isDigit = true := by decide
  obtain ⟨d, -, hd⟩ := List.mem_map.mp hc
  exact hd ▸ hall d

/-- A fraction that may be missing. -/
theorem foldlM_fractionText {n : Nat} (fraction : List (Fin 10)) :
    ∃ m, (fractionText fraction).toList.foldlM Numeral.next (afterWhole n) = some m ∧ m.ends = true ∧
      (m.next 'e' = some .e) := by
  cases fraction with
  | nil =>
    refine ⟨afterWhole n, rfl, ends_afterWhole n, ?_⟩
    unfold afterWhole
    split_ifs <;> rfl
  | cons d fraction =>
    refine ⟨.fraction, ?_, rfl, rfl⟩
    have htext : (fractionText (d :: fraction)).toList = '.' :: (digitsText (d :: fraction)).toList := by
      simp [fractionText]
    rw [htext]
    refine foldlM_fraction ?_ fun c => isDigit_of_mem_digitsText
    simp [digitsText]

theorem isNumber_shortest (x : Shortest) : IsNumber x.text.toList := by
  obtain ⟨m, hm, hends, -⟩ := foldlM_fractionText (n := x.whole) x.fraction
  refine ⟨m, ?_, hends⟩
  rw [Shortest.text, String.toList_append, List.foldlM_append, Nat.toString_eq_ofList_toDigits,
    String.toList_ofList, foldlM_toDigits (.inl rfl)]
  exact hm

theorem foldlM_exponent (n : Int) : (toString n).toList.foldlM Numeral.next .e = some .exponent := by
  have hdigits : ∀ m : Numeral, (∀ c, c.isDigit = true → m.next c = some .exponent) → ∀ k,
      (Nat.toDigits 10 k).foldlM Numeral.next m = some .exponent := by
    intro m hm k
    have hall : ∀ c ∈ Nat.toDigits 10 k, c.isDigit = true := fun c =>
      Nat.isDigit_of_mem_toDigits (by decide) (by decide)
    cases hk : Nat.toDigits 10 k with
    | nil => exact absurd hk Nat.toDigits_ne_nil
    | cons c cs =>
      rw [hk] at hall
      show (m.next c).bind (fun n => cs.foldlM Numeral.next n) = _
      rw [hm c (hall c List.mem_cons_self)]
      exact foldlM_next_of_digits (fun c => next_exponent) fun d hd => hall d (List.mem_cons_of_mem _ hd)
  cases n with
  | ofNat n =>
    show (n.repr).toList.foldlM Numeral.next .e = _
    rw [Nat.toList_repr]
    refine hdigits _ (fun c hc => ?_) n
    simp [Numeral.next, hc, ne_of_isDigit hc (d := '+') rfl, ne_of_isDigit hc (d := '-') rfl]
  | negSucc n =>
    show ("-" ++ (n + 1).repr).toList.foldlM Numeral.next .e = _
    rw [String.toList_append, Nat.toList_repr]
    exact hdigits .sign (fun c hc => by simp [Numeral.next, hc]) (n + 1)

theorem isNumber_scientific (x : Scientific) : IsNumber x.text.toList := by
  obtain ⟨m, hm, -, he⟩ := foldlM_fractionText (n := x.lead) x.fraction
  refine ⟨.exponent, ?_, rfl⟩
  have hlead : (digitsText [x.lead]).toList = Nat.toDigits 10 x.lead := by
    rw [Nat.toDigits_of_lt_base x.lead.isLt, digitsText, String.toList_ofList]
    rfl
  have hmark : "e".toList.foldlM Numeral.next m = some .e := by
    show (m.next 'e').bind some = some .e
    rw [he]
    rfl
  simp only [Scientific.text, String.toList_append, List.foldlM_append, hlead, foldlM_toDigits (.inl rfl), hm,
    hmark, foldlM_exponent, Option.bind_eq_bind, Option.bind_some]

/-! ## Printable text -/

def isPrintable (c : Char) : Bool := ' ' ≤ c && c ≤ '~'

/-- A text of printable ASCII characters. -/
def PrintableText (s : String) : Prop := s.toList.all isPrintable = true

instance (s : String) : Decidable (PrintableText s) := inferInstanceAs (Decidable (_ = _))

@[simp] theorem printableText_append {a b : String} : PrintableText (a ++ b) ↔ PrintableText a ∧ PrintableText b := by
  simp [PrintableText, List.all_append]

theorem PrintableText.append {a b : String} (ha : PrintableText a) (hb : PrintableText b) : PrintableText (a ++ b) :=
  printableText_append.mpr ⟨ha, hb⟩

theorem printableText_ofList {cs : List Char} : PrintableText (String.ofList cs) ↔ ∀ c ∈ cs, isPrintable c = true := by
  rw [PrintableText, String.toList_ofList, List.all_eq_true]

theorem plain_ofNat : ∀ n < 127, 32 ≤ n → n ≠ 34 → n ≠ 92 →
    isPlain (Char.ofNat n) = true ∧ isPrintable (Char.ofNat n) = true := by
  decide

theorem isPrintable_of_isDigit {c : Char} (hc : c.isDigit = true) : isPrintable c = true := by
  simp only [Char.isDigit, Bool.and_eq_true, decide_eq_true_eq] at hc
  have hlo : 48 ≤ c.val.toNat := UInt32.le_iff_toNat_le.mp hc.1
  have hhi : c.val.toNat ≤ 57 := UInt32.le_iff_toNat_le.mp hc.2
  simp only [isPrintable, Bool.and_eq_true, decide_eq_true_eq]
  refine ⟨UInt32.le_iff_toNat_le.mpr ?_, UInt32.le_iff_toNat_le.mpr ?_⟩
  · show 32 ≤ c.val.toNat
    omega
  · show c.val.toNat ≤ 126
    omega

theorem printableText_toString (n : Nat) : PrintableText (toString n) :=
  List.all_eq_true.mpr fun _ hc => isPrintable_of_isDigit (isDigit_of_mem_toString hc)

theorem printableText_zeroPadded (width n : Nat) : PrintableText (zeroPadded width (toString n)) :=
  List.all_eq_true.mpr fun _ hc => isPrintable_of_isDigit (isDigit_of_mem_zeroPadded hc)

theorem printableText_fixed {places : Nat} (x : Fixed places) : PrintableText x.text := by
  simp only [Fixed.text, printableText_append, printableText_toString, printableText_zeroPadded, and_true]
  refine ⟨?_, by decide⟩
  cases x.negative <;> decide

/-- A character of base64. -/
theorem base64Char_cases (n : Nat) : n < 63 ∨ base64Char n = '/' := by
  by_cases hn : n < 63
  · exact .inl hn
  · refine .inr ?_
    unfold base64Char
    rw [if_neg (by omega), if_neg (by omega), if_neg (by omega), if_neg (by omega)]

theorem isPlain_base64Char (n : Nat) : isPlain (base64Char n) = true ∧ isPrintable (base64Char n) = true := by
  rcases base64Char_cases n with hn | hn
  · interval_cases n <;> decide
  · rw [hn]
    decide

theorem isPlain_of_mem_base64 {bytes : List UInt8} {c : Char} (hc : c ∈ base64 bytes) :
    isPlain c = true ∧ isPrintable c = true := by
  have heq : isPlain '=' = true ∧ isPrintable '=' = true := by decide
  fun_induction base64 bytes with
  | case1 a b c' rest n ih =>
    simp only [List.mem_cons] at hc
    rcases hc with rfl | rfl | rfl | rfl | hc
    · exact isPlain_base64Char _
    · exact isPlain_base64Char _
    · exact isPlain_base64Char _
    · exact isPlain_base64Char _
    · exact ih hc
  | case2 a b n =>
    simp only [List.mem_cons, List.not_mem_nil, or_false] at hc
    rcases hc with rfl | rfl | rfl | rfl
    · exact isPlain_base64Char _
    · exact isPlain_base64Char _
    · exact isPlain_base64Char _
    · exact heq
  | case3 a n =>
    simp only [List.mem_cons, List.not_mem_nil, or_false] at hc
    rcases hc with rfl | rfl | rfl | rfl
    · exact isPlain_base64Char _
    · exact isPlain_base64Char _
    · exact heq
    · exact heq
  | case4 => cases hc

end Starla.Framework.JsonText
