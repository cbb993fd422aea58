import Starla.Framework.JsonFormat
import Starla.Impl.Measurements.NameMacros

/-!
# What a name with macros becomes

`replaceAll` is the name with every macro replaced, however long, and `fails`
says where the expansion ends in `None`: at an unknown macro, at a part before
a macro or at a `$r` that does not fit.

Where it does not fail, `expand_name_macros` gives the longest part of the
replaced name of at most 255 bytes and whole characters, if byte 255 of it is
not inside a character; else it slices there and stops the program
(`expandNameMacros_safe_iff`).
-/

namespace Starla.Proof.Measurements.NameMacros

open Starla.Framework Starla.Framework.Checked Starla.Impl.Measurements.NameMacros
open String (utf8Len)

/-! ## What the macros mean -/

/-- What a macro stands for, as the `k`th one of a name. -/
def valueOf (v : Values) (k : Nat) (m : Char) : Option (List Char) :=
  if m = 'p' then some (toString v.probeId.toInt).toList
  else if m = 't' then some (toString (v.unixNow k).toInt).toList
  else if m = 'r' then some ((v.random k).toList.flatMap hexByte)
  else none

/-- A name with its macros replaced, the next one the `k`th; none where one is
unknown. -/
def replaceAll (v : Values) : (k : Nat) → List Char → Option (List Char)
  | _, [] => some []
  | k, c :: cs =>
    if c = '$' then
      match cs with
      | m :: next => (valueOf v k m).bind fun piece => (replaceAll v (k + 1) next).map (piece ++ ·)
      | [] => none
    else (replaceAll v k cs).map (c :: ·)

/-- Whether the expansion is to end in nothing, after `size` bytes: at an
unknown macro, or one after a literal part that does not fit, or a `$r` that
does not. `literal` says that the last bytes are of a literal part. -/
def fails (v : Values) : (k size : Nat) → (literal : Bool) → List Char → Bool
  | _, _, _, [] => false
  | k, size, literal, c :: cs =>
    if c = '$' then
      literal && 255 < size || match cs with
        | m :: next => match valueOf v k m with
          | some piece => m == 'r' && 255 < size + 16 || fails v (k + 1) (size + utf8Len piece) false next
          | none => true
        | [] => true
    else fails v k (size + c.utf8Size) true cs

theorem replaceAll_cons (v : Values) (k : Nat) {c : Char} (h : c ≠ '$') (cs : List Char) :
    replaceAll v k (c :: cs) = (replaceAll v k cs).map (c :: ·) := by
  rw [replaceAll.eq_def]
  exact if_neg h

theorem replaceAll_dollar (v : Values) (k : Nat) (m : Char) (next : List Char) : replaceAll v k ('$' :: m :: next) =
    (valueOf v k m).bind fun piece => (replaceAll v (k + 1) next).map (piece ++ ·) := by
  rw [replaceAll.eq_def]
  exact if_pos rfl

theorem fails_cons (v : Values) (k size : Nat) (literal : Bool) {c : Char} (h : c ≠ '$') (cs : List Char) :
    fails v k size literal (c :: cs) = fails v k (size + c.utf8Size) true cs := by
  rw [fails.eq_def]
  exact if_neg h

theorem fails_unknown (v : Values) (k size : Nat) (literal : Bool) {m : Char} (h : valueOf v k m = none)
    (next : List Char) : fails v k size literal ('$' :: m :: next) = true := by
  rw [fails.eq_def]
  dsimp only
  rw [if_pos rfl, h, Bool.or_true]

theorem fails_known (v : Values) (k size : Nat) (literal : Bool) {m : Char} {piece : List Char}
    (h : valueOf v k m = some piece) (next : List Char) : fails v k size literal ('$' :: m :: next) =
      (literal && 255 < size || (m == 'r' && 255 < size + 16 ||
        fails v (k + 1) (size + utf8Len piece) false next)) := by
  rw [fails.eq_def]
  dsimp only
  rw [if_pos rfl, h]

theorem fails_lone (v : Values) (k size : Nat) (literal : Bool) : fails v k size literal ['$'] = true := by
  rw [fails.eq_def]
  exact (if_pos rfl).trans (Bool.or_true _)

theorem replaceAll_append (v : Values) (k : Nat) {lit : List Char} (h : '$' ∉ lit) (rest : List Char) :
    replaceAll v k (lit ++ rest) = (replaceAll v k rest).map (lit ++ ·) := by
  induction lit with
  | nil => simp
  | cons c lit ih =>
    have hc := List.ne_of_not_mem_cons h
    have hlit := List.not_mem_of_not_mem_cons h
    rw [List.cons_append, replaceAll_cons v k hc.symm, ih hlit, Option.map_map]
    rfl

theorem fails_append (v : Values) (k size : Nat) (literal : Bool) {lit : List Char} (h : '$' ∉ lit)
    (rest : List Char) :
    fails v k size literal (lit ++ rest) = fails v k (size + utf8Len lit) (literal || !lit.isEmpty) rest := by
  induction lit generalizing size literal with
  | nil => simp
  | cons c lit ih =>
    have hc := List.ne_of_not_mem_cons h
    have hlit := List.not_mem_of_not_mem_cons h
    rw [List.cons_append, fails_cons v k size literal hc.symm, ih _ _ hlit, String.utf8Len_cons, Nat.add_assoc,
      Nat.add_comm c.utf8Size]
    simp

/-! ## Pieces -/

theorem utf8Size_of_isDigit {c : Char} (h : c.isDigit = true) : c.utf8Size = 1 := by
  simp only [Char.isDigit, Bool.and_eq_true, decide_eq_true_eq] at h
  rw [Char.utf8Size, if_pos (UInt32.le_trans h.2 (by decide))]

theorem utf8Size_hexByte {b : UInt8} {c : Char} (h : c ∈ hexByte b) : c.utf8Size = 1 := by
  have hall : ∀ n < 16, (Nat.digitChar n).utf8Size = 1 := by decide
  have hb := b.toNat_lt
  rcases List.mem_cons.mp h with rfl | h
  · exact hall _ (by omega)
  · rw [List.mem_singleton.mp h]
    exact hall _ (by omega)

theorem utf8Size_int {n : Int} {c : Char} (h : c ∈ (toString n).toList) : c.utf8Size = 1 := by
  cases n with
  | ofNat n => exact utf8Size_of_isDigit (JsonText.isDigit_of_mem_toString h)
  | negSucc n =>
    have htext : toString (Int.negSucc n) = "-" ++ toString (n + 1) := rfl
    rw [htext, String.toList_append, List.mem_append] at h
    rcases h with h | h
    · rw [List.mem_singleton.mp h]
      rfl
    · exact utf8Size_of_isDigit (JsonText.isDigit_of_mem_toString h)

/-- What a macro stands for has one byte a character. -/
theorem utf8Size_valueOf {v : Values} {k : Nat} {m : Char} {piece : List Char} (h : valueOf v k m = some piece)
    {c : Char} (hc : c ∈ piece) : c.utf8Size = 1 := by
  unfold valueOf at h
  split at h
  · exact utf8Size_int (Option.some.inj h ▸ hc)
  split at h
  · exact utf8Size_int (Option.some.inj h ▸ hc)
  split at h
  · rw [← Option.some.inj h, List.mem_flatMap] at hc
    obtain ⟨b, -, hb⟩ := hc
    exact utf8Size_hexByte hb
  · exact absurd h (by simp)

theorem utf8Len_ascii {cs : List Char} (h : ∀ c ∈ cs, c.utf8Size = 1) : utf8Len cs = cs.length := by
  induction cs with
  | nil => rfl
  | cons c cs ih =>
    rw [String.utf8Len_cons, h c List.mem_cons_self, ih fun d hd => h d (List.mem_cons_of_mem c hd), List.length_cons]

theorem room_eq {full out : List Char} (h : Cut 255 full out) : room out = 255 - utf8Len out := by
  have := h.size
  unfold room BUF
  omega

/-- A piece with one byte a character can be cut anywhere. -/
theorem slice_piece {full out piece : List Char} (h : Cut 255 full out) (hpiece : ∀ c ∈ piece, c.utf8Size = 1) :
    ∃ kept, sliceBytes (min (utf8Len piece) (room out)) piece = .ok kept ∧ Cut 255 (full ++ piece) (out ++ kept) := by
  have hlen := utf8Len_ascii hpiece
  have hn : min (utf8Len piece) (room out) ≤ piece.length := by omega
  generalize hn' : min (utf8Len piece) (room out) = n at hn
  have hkept : utf8Len (piece.take n) = n := by
    rw [utf8Len_ascii fun c hc => hpiece c (List.mem_of_mem_take hc), List.length_take, Nat.min_eq_left hn]
  have hsize := h.size
  rw [room_eq h] at hn'
  refine ⟨piece.take n, by rw [← sliceBytes_of_prefix (List.take_prefix n piece), hkept], ?_⟩
  rcases Nat.lt_or_ge (utf8Len full) 255 with hlt | hge
  · obtain rfl := cut_of_le h hlt.le
    exact (cut_append hlt.le).mpr ⟨List.take_prefix n piece, by omega⟩
  · have hzero : n = 0 := by omega
    rw [hzero, List.take_zero, List.append_nil]
    exact h.append_full hge piece

/-- The text a byte slice of what is left gives, and where it gives none. -/
def Ends (c : Checked (List Char)) (text : List Char) : Prop :=
  (∃ out, Cut 255 text out ∧ c = .ok out) ∨ (¬∃ out, Cut 255 text out) ∧ c = .error .panics

theorem slice_last {full out rest : List Char} (h : Cut 255 full out) :
    Ends (do let kept ← sliceBytes (min (utf8Len rest) (room out)) rest; return out ++ kept) (full ++ rest) := by
  have hsize := h.size
  rw [room_eq h]
  rcases Nat.lt_or_ge (utf8Len full) 255 with hlt | hge
  · obtain rfl := cut_of_le h hlt.le
    by_cases hcut : ∃ p, Cut (255 - utf8Len out) rest p
    · obtain ⟨p, hp⟩ := hcut
      refine .inl ⟨out ++ p, (cut_append hlt.le).mpr hp, ?_⟩
      rw [Nat.min_comm, ← hp.size, sliceBytes_of_prefix hp.isPrefix]
      rfl
    · refine .inr ⟨fun ⟨p, hp⟩ => ?_, ?_⟩
      · obtain ⟨q, rfl⟩ := prefix_of_cut_append hlt.le hp
        exact hcut ⟨q, (cut_append hlt.le).mp hp⟩
      · rw [Nat.min_comm, sliceBytes_panics fun p hp hn => hcut ⟨p, hp, hn⟩]
        rfl
  · have hzero : min (utf8Len rest) (255 - utf8Len out) = 0 := by omega
    rw [hzero, sliceBytes]
    exact .inl ⟨out, h.append_full hge rest, by rw [ok_bind, List.append_nil]; rfl⟩

/-! ## The expansion -/

theorem pushLiteral_eq {full out lit : List Char} (h : Cut 255 full out) :
    pushLiteral out lit =
      if (!lit.isEmpty && 255 < utf8Len full + utf8Len lit) = true then .error .absent else .ok (out ++ lit) := by
  have hsize := h.size
  rw [pushLiteral]
  cases lit with
  | nil => simp; rfl
  | cons c lit =>
    have hpos : utf8Len (c :: lit) > 0 := by
      have := c.utf8Size_pos
      rw [String.utf8Len_cons]
      omega
    rw [if_pos hpos, check_eq (by rw [BUF]; omega), ok_bind, refuseIf, BUF]
    by_cases hfit : 255 < utf8Len full + utf8Len (c :: lit)
    · have hmisfit : (!(c :: lit).isEmpty && decide (255 < utf8Len full + utf8Len (c :: lit))) = true :=
        decide_eq_true hfit
      rw [if_pos (show utf8Len (c :: lit) + 1 > 256 - utf8Len out by omega), if_pos hmisfit]
      rfl
    · have hfits : ¬(!(c :: lit).isEmpty && decide (255 < utf8Len full + utf8Len (c :: lit))) = true :=
        fun h => hfit (of_decide_eq_true h)
      rw [if_neg (show ¬utf8Len (c :: lit) + 1 > 256 - utf8Len out by omega), if_neg hfits]
      rfl

/-- A literal part that fits is kept whole. -/
theorem cut_literal {full out lit : List Char} (h : Cut 255 full out)
    (hfit : ¬(!lit.isEmpty && 255 < utf8Len full + utf8Len lit) = true) : Cut 255 (full ++ lit) (out ++ lit) := by
  cases lit with
  | nil => simpa using h
  | cons c lit =>
    have hle : utf8Len full + utf8Len (c :: lit) ≤ 255 := Nat.le_of_not_lt fun hlt => hfit (decide_eq_true hlt)
    obtain rfl := cut_of_le h (by omega)
    exact cut_self (by rwa [String.utf8Len_append])

theorem macroText_eq {v : Values} {k : Nat} {full out : List Char} {m : Char} (h : Cut 255 full out) :
    macroText v k out m =
      match valueOf v k m with
      | some piece => if (m == 'r' && 255 < utf8Len full + 16) = true then .error .absent else .ok piece
      | none => .error .absent := by
  have hsize := h.size
  unfold macroText valueOf
  by_cases hp : m = 'p'
  · subst hp
    rfl
  by_cases ht : m = 't'
  · subst ht
    rfl
  by_cases hr : m = 'r'
  · subst hr
    rw [if_neg (by decide), if_neg (by decide), if_pos rfl, if_neg (by decide), if_neg (by decide), if_pos rfl,
      check_eq (by rw [BUF]; omega), ok_bind, refuseIf, BUF]
    by_cases hfit : 255 < utf8Len full + 16
    · rw [if_pos (show 8 * 2 + 1 > 256 - utf8Len out by omega)]
      show _ = if _ then _ else _
      rw [if_pos (by simpa using hfit)]
      rfl
    · rw [if_neg (show ¬8 * 2 + 1 > 256 - utf8Len out by omega)]
      show _ = if _ then _ else _
      rw [if_neg (by simpa using hfit)]
      rfl
  · rw [if_neg hp, if_neg ht, if_neg hr, if_neg hp, if_neg ht, if_neg hr]

theorem takeWhile_dollar {lit : List Char} (h : '$' ∉ lit) (tail : List Char) :
    (lit ++ '$' :: tail).takeWhile (· != '$') = lit ∧ (lit ++ '$' :: tail).dropWhile (· != '$') = '$' :: tail := by
  have hall : ∀ c ∈ lit, (c != '$') = true := fun c hc => bne_iff_ne.mpr fun heq => h (heq ▸ hc)
  rw [List.takeWhile_append_of_pos hall, List.dropWhile_append_of_pos hall]
  exact ⟨List.append_nil lit, rfl⟩

/-- The macro `m` expanded, and the name after it. -/
def afterMacro (v : Values) (k : Nat) (out : List Char) : List Char → Checked (List Char)
  | m :: next => do
    let piece ← macroText v k out m
    let kept ← sliceBytes (min (utf8Len piece) (room out)) piece
    expandFrom v (k + 1) (out ++ kept) next
  | [] => .error .absent

theorem expandFrom_dollar (v : Values) (k : Nat) (out : List Char) {lit : List Char} (h : '$' ∉ lit)
    (tail : List Char) : expandFrom v k out (lit ++ '$' :: tail) =
      pushLiteral out lit >>= fun out => afterMacro v k out tail := by
  obtain ⟨htake, hdrop⟩ := takeWhile_dollar h tail
  rw [expandFrom, if_neg (by simp), if_pos (by simp), htake]
  refine congrArg (pushLiteral out lit >>= ·) (funext fun out => ?_)
  split
  · rename_i c m next heq
    rw [hdrop] at heq
    obtain rfl := (List.cons.inj heq).2
    rfl
  · rename_i hnone
    cases tail with
    | nil => rfl
    | cons m next => exact absurd hdrop (hnone _ _ _)

/-- Whether the rest of a name, from the `k`th macro on, ends as it is to, after
`full` was expanded and cut to `out`: in nothing where it is to fail, and else
as the byte slice of the whole name replaced does. -/
def Expands (v : Values) (k : Nat) (full : List Char) (literal : Bool) (rest : List Char)
    (c : Checked (List Char)) : Prop :=
  if fails v k (utf8Len full) literal rest then c = .error .absent
  else ∃ more, replaceAll v k rest = some more ∧ Ends c (full ++ more)

/-- A macro's step: it fails, or what it stands for is cut to what is left. -/
theorem expands_dollar {v : Values} {k : Nat} {full out : List Char} {literal : Bool} {tail : List Char}
    (h : Cut 255 full out) (hliteral : ¬(literal && 255 < utf8Len full) = true)
    (hnext : ∀ m next full' out', tail = m :: next → Cut 255 full' out' →
      Expands v (k + 1) full' false next (expandFrom v (k + 1) out' next)) :
    Expands v k full literal ('$' :: tail) (afterMacro v k out tail) := by
  unfold Expands
  cases tail with
  | nil =>
    rw [fails_lone, if_pos rfl]
    rfl
  | cons m next =>
    rw [afterMacro, macroText_eq h, replaceAll_dollar]
    cases hvalue : valueOf v k m with
    | none =>
      rw [fails_unknown v k _ _ hvalue, if_pos rfl]
      rfl
    | some piece =>
      rw [fails_known v k _ _ hvalue, Bool.eq_false_iff.mpr hliteral, Bool.false_or, Option.bind_some]
      dsimp only
      by_cases hmisfit : (m == 'r' && 255 < utf8Len full + 16) = true
      · rw [if_pos hmisfit, hmisfit, Bool.true_or, if_pos rfl]
        rfl
      obtain ⟨kept, hkept, hcut⟩ := slice_piece h fun c hc => utf8Size_valueOf hvalue hc
      have hgo := hnext m next _ _ rfl hcut
      rw [Expands, String.utf8Len_append] at hgo
      rw [if_neg hmisfit, ok_bind, hkept, ok_bind, Bool.eq_false_iff.mpr hmisfit, Bool.false_or]
      split at hgo
      · rename_i hfails
        rw [if_pos hfails]
        exact hgo
      · rename_i hfails
        obtain ⟨more, hmore, hends⟩ := hgo
        rw [if_neg hfails, hmore]
        exact ⟨piece ++ more, rfl, by rwa [← List.append_assoc]⟩

theorem expandFrom_expands (v : Values) (k : Nat) {full out : List Char} (rest : List Char) (h : Cut 255 full out) :
    Expands v k full false rest (expandFrom v k out rest) := by
  induction hn : rest.length using Nat.strong_induction_on generalizing k full out rest with
  | _ n ih =>
    by_cases hdollar : '$' ∈ rest
    · obtain ⟨lit, tail, rfl, hlit⟩ := List.eq_append_cons_of_mem hdollar
      rw [expandFrom_dollar v k out hlit, pushLiteral_eq h, Expands, fails_append v k _ _ hlit,
        replaceAll_append v k hlit, Bool.false_or]
      by_cases hmisfit : (!lit.isEmpty && 255 < utf8Len full + utf8Len lit) = true
      · have hfails : fails v k (utf8Len full + utf8Len lit) (!lit.isEmpty) ('$' :: tail) = true := by
          rw [fails.eq_def]
          dsimp only
          rw [if_pos rfl, hmisfit, Bool.true_or]
        rw [hfails, if_pos hmisfit, if_pos rfl]
        rfl
      have hmacro := @expands_dollar v k _ _ (!lit.isEmpty) tail (cut_literal h hmisfit)
        (by rwa [String.utf8Len_append]) fun m next full' out' htail hcut =>
          ih next.length (by rw [← hn, htail]; simp; omega) (k + 1) next hcut rfl
      rw [Expands, String.utf8Len_append] at hmacro
      rw [if_neg hmisfit, ok_bind]
      split at hmacro
      · rename_i hfails
        rw [if_pos hfails]
        exact hmacro
      · rename_i hfails
        obtain ⟨more, hmore, hends⟩ := hmacro
        rw [if_neg hfails, hmore]
        exact ⟨lit ++ more, rfl, by rwa [← List.append_assoc]⟩
    · have hrest : rest = rest ++ [] := (List.append_nil rest).symm
      have hfails : fails v k (utf8Len full) false rest = false := by
        rw [hrest, fails_append v k _ _ hdollar]
        rfl
      have hreplace : replaceAll v k rest = some rest := by
        rw [hrest, replaceAll_append v k hdollar]
        rfl
      rw [Expands, hfails]
      refine ⟨rest, hreplace, ?_⟩
      rw [expandFrom]
      by_cases hempty : rest.isEmpty = true
      · obtain rfl := List.isEmpty_iff.mp hempty
        exact .inl ⟨out, by rwa [List.append_nil], rfl⟩
      · rw [if_neg hempty, if_neg hdollar]
        exact slice_last h

theorem cut_nil : Cut 255 [] [] := cut_self (Nat.zero_le _)

theorem expandNameMacros_eq {v : Values} {name : String} (h : '$' ∈ name.toList) :
    expandNameMacros v name = (do let out ← expandFrom v 0 [] name.toList; return String.ofList out) := if_pos h

/-- An expansion that does not stop the program: nothing where it is to fail,
else the longest part of the replaced name of at most 255 bytes and whole
characters. -/
structure Safe (v : Values) (name : String) : Prop where
  noPanic : expandNameMacros v name ≠ .error .panics
  absent : expandNameMacros v name = .error .absent ↔ fails v 0 0 false name.toList = true
  longest : ∀ text, expandNameMacros v name = .ok text → ∃ whole, replaceAll v 0 name.toList = some whole ∧
    text.toList <+: whole ∧ utf8Len text.toList ≤ 255 ∧ ∀ p, p <+: whole → utf8Len p ≤ 255 → p <+: text.toList

/-- The expansion of a name with a macro is safe exactly where it is to fail, or
byte 255 of the replaced name, or its end before that, is not inside a
character. -/
theorem expandNameMacros_safe_iff (v : Values) (name : String) (h : '$' ∈ name.toList) :
    Safe v name ↔ fails v 0 0 false name.toList = true ∨
      ∀ whole, replaceAll v 0 name.toList = some whole → ∃ p, Cut 255 whole p := by
  have hexpands := expandFrom_expands v 0 name.toList cut_nil
  rw [Expands, String.utf8Len_nil] at hexpands
  have heq := expandNameMacros_eq (v := v) h
  split at hexpands
  · rename_i hfails
    rw [hexpands] at heq
    have heq : expandNameMacros v name = .error .absent := heq
    refine ⟨fun _ => .inl hfails, fun _ => ⟨?_, ?_, ?_⟩⟩
    · rw [heq]
      exact fun h => nomatch h
    · exact ⟨fun _ => hfails, fun _ => heq⟩
    · rw [heq]
      exact fun _ h => nomatch h
  · rename_i hfails
    obtain ⟨whole, hwhole, hends⟩ := hexpands
    rw [List.nil_append] at hends
    rcases hends with ⟨out, hcut, hout⟩ | ⟨hnone, hpanics⟩
    · rw [hout] at heq
      have heq : expandNameMacros v name = .ok (String.ofList out) := heq
      have hcut' : ∀ w, replaceAll v 0 name.toList = some w → ∃ p, Cut 255 w p := fun w hw => by
        obtain rfl := Option.some.inj (hwhole.symm.trans hw)
        exact ⟨out, hcut⟩
      refine ⟨fun _ => .inr hcut', fun _ => ⟨?_, ?_, fun text htext => ⟨whole, hwhole, ?_⟩⟩⟩
      · rw [heq]
        exact fun h => nomatch h
      · rw [heq]
        exact ⟨fun h => (nomatch h), fun h => absurd h hfails⟩
      · obtain rfl := Except.ok.inj (heq.symm.trans htext)
        rw [String.toList_ofList]
        refine ⟨hcut.isPrefix, ?_, fun p hp hle => hcut.longest hp hle⟩
        rw [hcut.size]
        exact Nat.min_le_left ..
    · rw [hpanics] at heq
      have heq : expandNameMacros v name = .error .panics := heq
      refine ⟨fun hsafe => absurd heq hsafe.noPanic, fun hor => ?_⟩
      rcases hor with hor | hor
      · exact absurd hor hfails
      · exact absurd (hor whole hwhole) hnone

/-- A short name. -/
theorem expandNameMacros_safe_iff_short : Safe ⟨1018212, fun _ => 0, fun _ => Vector.replicate 8 0⟩ "$p.x." :=
  (expandNameMacros_safe_iff _ "$p.x." (by decide)).mpr (.inr fun whole hwhole => ⟨whole, cut_self (by
    have hreplace : replaceAll ⟨1018212, fun _ => 0, fun _ => Vector.replicate 8 0⟩ 0 "$p.x.".toList =
      some "1018212.x.".toList := by decide
    obtain rfl := Option.some.inj (hreplace.symm.trans hwhole)
    decide)⟩)

/-! ## Inside a character -/

theorem utf8Len_replicate (n : Nat) (c : Char) : utf8Len (List.replicate n c) = n * c.utf8Size := by
  induction n with
  | zero => simp
  | succ n ih => rw [List.replicate_succ, String.utf8Len_cons, ih, Nat.succ_mul]

/-- Behind the probe id -1, characters of two bytes are all at an even offset. -/
theorem not_cut_pairs (n : Nat) : ¬∃ p, Cut 255 ("-1".toList ++ List.replicate (127 + n) 'é') p := by
  rintro ⟨p, hp⟩
  have hsize := hp.size
  rw [String.utf8Len_append, utf8Len_replicate] at hsize
  obtain ⟨q, rfl⟩ := prefix_of_cut_append (by decide) hp
  have hq : q <+: List.replicate (127 + n) 'é' := (List.prefix_append_right_inj _).mp hp.isPrefix
  obtain ⟨m, rfl⟩ : ∃ m, q = List.replicate m 'é' := ⟨q.length, List.eq_replicate_iff.mpr
    ⟨rfl, fun c hc => List.eq_of_mem_replicate (hq.subset hc)⟩⟩
  have h2 : 'é'.utf8Size = 2 := rfl
  have hhead : utf8Len "-1".toList = 2 := rfl
  rw [String.utf8Len_append, utf8Len_replicate, h2, hhead] at hsize
  omega

/-- Probe id -1, as it is while unknown, and a name of 127 two-byte
characters. -/
theorem expandNameMacros_panics :
    '$' ∈ (String.ofList ('$' :: 'p' :: List.replicate 127 'é')).toList ∧
      expandNameMacros ⟨-1, fun _ => 0, fun _ => Vector.replicate 8 0⟩
        (String.ofList ('$' :: 'p' :: List.replicate 127 'é')) = .error .panics ∧
      ¬Safe ⟨-1, fun _ => 0, fun _ => Vector.replicate 8 0⟩
        (String.ofList ('$' :: 'p' :: List.replicate 127 'é')) := by
  generalize hv : (⟨-1, fun _ => 0, fun _ => Vector.replicate 8 0⟩ : Values) = v
  have hvalue : valueOf v 0 'p' = some "-1".toList := by rw [← hv]; rfl
  have hlit : '$' ∉ List.replicate 127 'é' := fun h => absurd (List.eq_of_mem_replicate h) (by decide)
  have hmem : '$' ∈ (String.ofList ('$' :: 'p' :: List.replicate 127 'é')).toList := by
    rw [String.toList_ofList]
    exact List.mem_cons_self
  have hnil : List.replicate 127 'é' = List.replicate 127 'é' ++ [] := (List.append_nil _).symm
  have hfails : fails v 0 0 false ('$' :: 'p' :: List.replicate 127 'é') = false := by
    rw [fails_known v 0 0 false hvalue, hnil, fails_append v _ _ _ hlit]
    rfl
  have hreplace : replaceAll v 0 ('$' :: 'p' :: List.replicate 127 'é') =
      some ("-1".toList ++ List.replicate 127 'é') := by
    rw [replaceAll_dollar, hvalue, Option.bind_some, hnil, replaceAll_append v _ hlit]
    rfl
  have hexpands := expandFrom_expands v 0 ('$' :: 'p' :: List.replicate 127 'é') cut_nil
  rw [Expands, String.utf8Len_nil, hfails, if_neg Bool.false_ne_true, hreplace] at hexpands
  obtain ⟨more, hmore, hends⟩ := hexpands
  obtain rfl := Option.some.inj hmore
  have hpanics : expandNameMacros v (String.ofList ('$' :: 'p' :: List.replicate 127 'é')) = .error .panics := by
    rw [expandNameMacros_eq hmem, String.toList_ofList]
    rcases hends with ⟨out, hcut, -⟩ | ⟨-, hpanics⟩
    · exact absurd ⟨out, hcut⟩ (not_cut_pairs 0)
    · rw [hpanics]
      rfl
  exact ⟨hmem, hpanics, fun hsafe => hsafe.noPanic hpanics⟩

end Starla.Proof.Measurements.NameMacros
