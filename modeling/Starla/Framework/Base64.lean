import Starla.Framework.Formatting

/-!
# Base64 read back

* `decodeBase64` : the bytes a text in the standard alphabet stands for, with its
  padding, whose bits are zero.
* `decodeBase64_base64` : the bytes that were written.
-/

namespace Starla.Framework

/-- What a character of the alphabet stands for. -/
def base64Value (c : Char) : Option Nat :=
  if 'A' ≤ c ∧ c ≤ 'Z' then some (c.toNat - 65)
  else if 'a' ≤ c ∧ c ≤ 'z' then some (c.toNat - 71)
  else if '0' ≤ c ∧ c ≤ '9' then some (c.toNat + 4)
  else if c = '+' then some 62
  else if c = '/' then some 63
  else none

def decodeBase64 : List Char → Option (List UInt8)
  | [] => some []
  | a :: b :: c :: d :: rest => do
    let a ← base64Value a
    let b ← base64Value b
    if c = '=' then
      if d = '=' ∧ rest = [] ∧ b % 16 = 0 then some [UInt8.ofNat (a * 4 + b / 16)] else none
    else
      let c ← base64Value c
      let n := a * 4096 + b * 64 + c
      if d = '=' then
        if rest = [] ∧ c % 4 = 0 then some [UInt8.ofNat (n / 1024), UInt8.ofNat (n / 4)] else none
      else
        let d ← base64Value d
        let n := n * 64 + d
        let bytes ← decodeBase64 rest
        return UInt8.ofNat (n / 65536) :: UInt8.ofNat (n / 256) :: UInt8.ofNat n :: bytes
  | _ => none

theorem base64Value_base64Char {n : Nat} (h : n < 64) : base64Value (base64Char n) = some n := by
  have hall : ∀ n < 64, base64Value (base64Char n) = some n := by decide
  exact hall n h

theorem base64Char_ne_pad {n : Nat} (h : n < 64) : base64Char n ≠ '=' := by
  have hall : ∀ n < 64, base64Char n ≠ '=' := by decide
  exact hall n h

theorem decodeBase64_group {a b c d : Nat} (ha : a < 64) (hb : b < 64) (hc : c < 64) (hd : d < 64) {rest : List Char}
    {bytes : List UInt8} (hrest : decodeBase64 rest = some bytes) :
    decodeBase64 (base64Char a :: base64Char b :: base64Char c :: base64Char d :: rest) =
      some (UInt8.ofNat (((a * 4096 + b * 64 + c) * 64 + d) / 65536) ::
        UInt8.ofNat (((a * 4096 + b * 64 + c) * 64 + d) / 256) :: UInt8.ofNat ((a * 4096 + b * 64 + c) * 64 + d) :: bytes) := by
  rw [decodeBase64, base64Value_base64Char ha, base64Value_base64Char hb, base64Value_base64Char hc,
    base64Value_base64Char hd, hrest]
  show (if base64Char c = '=' then _ else if base64Char d = '=' then _ else _ : Option (List UInt8)) = _
  rw [if_neg (base64Char_ne_pad hc), if_neg (base64Char_ne_pad hd)]
  rfl

theorem ofNat_eq_of_mod {n : Nat} {b : UInt8} (h : n % 256 = b.toNat) : UInt8.ofNat n = b := by
  rw [← UInt8.toNat_inj, UInt8.toNat_ofNat', h]

/-- A text that was written is read back. -/
theorem decodeBase64_base64 (bytes : List UInt8) : decodeBase64 (base64 bytes) = some bytes := by
  fun_induction base64 bytes with
  | case1 a b c rest n ih =>
    have ha := a.toNat_lt
    have hb := b.toNat_lt
    have hc := c.toNat_lt
    have hn : (n / 262144 * 4096 + n / 4096 % 64 * 64 + n / 64 % 64) * 64 + n % 64 = n := by omega
    rw [decodeBase64_group (by omega) (by omega) (by omega) (by omega) ih, hn, @ofNat_eq_of_mod _ a (by omega),
      @ofNat_eq_of_mod _ b (by omega), @ofNat_eq_of_mod _ c (by omega)]
  | case2 a b n =>
    have ha := a.toNat_lt
    have hb := b.toNat_lt
    have hn : n / 4096 * 4096 + n / 64 % 64 * 64 + n % 64 = n := by omega
    have hpad : n % 64 % 4 = 0 := by omega
    rw [decodeBase64, base64Value_base64Char (by omega), base64Value_base64Char (by omega),
      base64Value_base64Char (by omega)]
    show (if base64Char (n % 64) = '=' then _ else if [] = [] ∧ n % 64 % 4 = 0 then _ else _ : Option (List UInt8)) = _
    rw [if_neg (base64Char_ne_pad (by omega)), if_pos ⟨rfl, hpad⟩, hn, @ofNat_eq_of_mod _ a (by omega),
      @ofNat_eq_of_mod _ b (by omega)]
  | case3 a n =>
    have ha := a.toNat_lt
    have hpad : n % 64 % 16 = 0 := by omega
    rw [decodeBase64, base64Value_base64Char (by omega), base64Value_base64Char (by omega)]
    show (if '=' = '=' ∧ [] = [] ∧ n % 64 % 16 = 0 then _ else none : Option (List UInt8)) = _
    rw [if_pos ⟨rfl, rfl, hpad⟩, @ofNat_eq_of_mod _ a (by omega)]
  | case4 => rfl

end Starla.Framework
