import BoundedCache.Decimal.Text
import BoundedCache.Text.Ascii

namespace BoundedCache

/-!
# Decimal digits

`decimalDigits n` are the values of the characters of `decimal n`.  They spell `n`
(`spell_decimalDigits`), all of them are below 10, and the first one is 0 only if it is the only one
(`decimalDigits_ne`).  So numbers with the same text are the same (`decimal_injective`,
`signedDecimal_injective`).
-/

/-- The values of the digits of a natural number in base ten. -/
def decimalDigits (n : Nat) : List Nat := (decimal n).map fun c => c.toNat - 0x30

/-- The number that some digits spell behind the digits of another number. -/
def spell (start : Nat) (digits : List Nat) : Nat := digits.foldl (fun n d => n * 10 + d) start

@[simp] theorem spell_cons (start d : Nat) (digits : List Nat) :
    spell start (d :: digits) = spell (start * 10 + d) digits := rfl

/-- More digits make a number no smaller. -/
theorem le_spell (start : Nat) (digits : List Nat) : start ≤ spell start digits := by
  induction digits generalizing start with
  | nil => exact Nat.le_refl _
  | cons d digits ih =>
    have hrest := ih (start * 10 + d)
    rw [spell_cons]
    omega

/-- **The digits of a number spell it.** -/
theorem spell_decimalDigits (n : Nat) : spell 0 (decimalDigits n) = n := by
  have hspell (chars : List Char) (start : Nat) :
      spell start (chars.map fun c => c.toNat - 0x30) = Nat.ofDigitChars 10 chars start := by
    induction chars generalizing start with
    | nil => rfl
    | cons c chars ih =>
      rw [List.map_cons, spell_cons, ih, Nat.ofDigitChars_cons, Nat.mul_comm]
      rfl
  rw [decimalDigits, hspell]
  exact Nat.ofDigitChars_ten_toDigits

/-- Numbers with the same digits are the same. -/
theorem decimal_injective {m n : Nat} (h : decimal m = decimal n) : m = n := by
  rw [← spell_decimalDigits m, decimalDigits, h]
  exact spell_decimalDigits n

theorem isDigit_of_mem_decimal {n : Nat} {c : Char} (hc : c ∈ decimal n) :
    0x30 ≤ c.toNat ∧ c.toNat ≤ 0x39 := by
  have hdigit := Nat.isDigit_of_mem_toDigits (by decide) (by decide) hc
  simp only [Char.isDigit, Bool.and_eq_true, decide_eq_true_eq] at hdigit
  exact ⟨hdigit.1, hdigit.2⟩

/-- A minus sign is no digit, so it tells the negative numbers. -/
theorem signedDecimal_injective {m n : Int} (h : signedDecimal m = signedDecimal n) : m = n := by
  have hsign (n k : Nat) : decimal n ≠ '-' :: decimal k := by
    intro heq
    have hdigit := isDigit_of_mem_decimal (heq ▸ List.mem_cons_self : '-' ∈ decimal n)
    exact absurd hdigit.1 (by decide)
  cases m with
  | ofNat m =>
    cases n with
    | ofNat n => exact congrArg Int.ofNat (decimal_injective h)
    | negSucc n => exact absurd h (hsign m (n + 1))
  | negSucc m =>
    cases n with
    | ofNat n => exact absurd h.symm (hsign n (m + 1))
    | negSucc n =>
      have hsucc : m + 1 = n + 1 := decimal_injective (List.cons.inj h).2
      exact congrArg Int.negSucc (Nat.succ.inj hsucc)

theorem decimal_ne_nil (n : Nat) : decimal n ≠ [] := Nat.toDigits_ne_nil

theorem decimal_of_lt {n : Nat} (hn : n < 10) : decimal n = [Nat.digitChar n] :=
  Nat.toDigits_of_lt_base hn

theorem decimal_of_le {n : Nat} (hn : 10 ≤ n) :
    decimal n = decimal (n / 10) ++ [Nat.digitChar (n % 10)] :=
  Nat.toDigits_of_base_le (by decide) hn

/-- The digits of a positive number do not start with 0. -/
theorem decimalDigits_of_pos {n : Nat} (hn : 0 < n) :
    ∃ d rest, decimalDigits n = d :: rest ∧ 0 < d := by
  induction n using Nat.strongRecOn with
  | ind n ih =>
    by_cases hsmall : n < 10
    · refine ⟨n, [], ?_, hn⟩
      rw [decimalDigits, decimal_of_lt hsmall, List.map_singleton,
        Nat.toNat_digitChar_sub_48_of_lt_ten hsmall]
    · -- The first digit is that of the number without its last one.
      obtain ⟨d, rest, hdigits, hd⟩ := ih (n / 10) (by omega) (by omega)
      refine ⟨d, rest ++ [n % 10], ?_, hd⟩
      have hlast : n % 10 < 10 := Nat.mod_lt n (by decide)
      rw [decimalDigits, decimal_of_le (by omega), List.map_append, List.map_singleton,
        Nat.toNat_digitChar_sub_48_of_lt_ten hlast]
      exact congrArg (· ++ [n % 10]) hdigits

/-- **A leading 0 stands alone.** -/
theorem decimalDigits_ne (n d : Nat) (more : List Nat) : decimalDigits n ≠ 0 :: d :: more := by
  rcases Nat.eq_zero_or_pos n with rfl | hn
  · intro hzero
    have hnil : [] = d :: more := (List.cons.inj (show [0] = 0 :: d :: more from hzero)).2
    exact List.cons_ne_nil d more hnil.symm
  · obtain ⟨leading, rest, hdigits, hpos⟩ := decimalDigits_of_pos hn
    intro hzero
    have hleading : leading = 0 := (List.cons.inj (hdigits.symm.trans hzero)).1
    omega

end BoundedCache
