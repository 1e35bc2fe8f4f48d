import BoundedCache.Json.Reader.Numeral
import BoundedCache.Json.Text
import BoundedCache.Proofs.Decimal.Text
import BoundedCache.Proofs.Json.Reader.Input
import BoundedCache.Proofs.Text.Utf8

namespace BoundedCache.Json

/-!
# Reading back integers

`gives_readNumber`: an integer of a signed or an unsigned word is read back as it is written, in
front of anything that may follow a value.  Its digits are a numeral without fraction and exponent,
and none of them is dropped, because no part of them spells more than the whole.
-/

variable {rest : Bytes}

/-! ### The end of a numeral -/

theorem Ends.isDigit_eq {b : UInt8} (h : Ends (b :: rest)) : isDigit b = false := by
  rcases h with rfl | rfl | rfl <;> decide

/-- What may follow a value is no fraction. -/
theorem Ends.gives_readFraction (h : Ends rest) : Gives (readFraction rest) none rest := by
  match rest, h with
  | [], _ => exact ⟨_, rfl⟩
  | b :: rest, h =>
    have hpoint : b ≠ byte '.' := by rcases h with rfl | rfl | rfl <;> decide
    rw [readFraction, if_neg hpoint]
    exact ⟨_, rfl⟩

/-- What may follow a value is no exponent. -/
theorem Ends.gives_readExponent (h : Ends rest) : Gives (readExponent rest) none rest := by
  match rest, h with
  | [], _ => exact ⟨_, rfl⟩
  | b :: rest, h =>
    have hletter : ¬ (b = byte 'e' ∨ b = byte 'E') := by rcases h with rfl | rfl | rfl <;> decide
    rw [readExponent, if_neg hletter]
    exact ⟨_, rfl⟩

/-! ### Digits -/

theorem isDigit_byte {c : Char} (hc : 0x30 ≤ c.toNat ∧ c.toNat ≤ 0x39) :
    isDigit (byte c) = true := by
  have hbyte : (byte c).toNat = c.toNat := toNat_byte (by omega)
  simp only [isDigit, UInt8.le_iff_toNat_le, hbyte, Bool.and_eq_true, decide_eq_true_eq]
  exact hc

theorem toNat_byte_sub {c : Char} (hc : 0x30 ≤ c.toNat ∧ c.toNat ≤ 0x39) :
    (byte c).toNat - 0x30 = c.toNat - 0x30 := by
  rw [toNat_byte (by omega)]

/-- The characters of a number are one byte each. -/
theorem encodeChars_decimal (n : Nat) : encodeChars (decimal n) = (decimal n).map byte :=
  encodeChars_of_ascii fun _ hc => by have hdigit := isDigit_of_mem_decimal hc; omega

/-- Digits are taken up to the end of the value. -/
theorem takeDigits_append {chars : List Char}
    (hchars : ∀ c ∈ chars, 0x30 ≤ c.toNat ∧ c.toNat ≤ 0x39) (hrest : Ends rest) :
    takeDigits (chars.map byte ++ rest) = (chars.map fun c => c.toNat - 0x30, rest) := by
  have hdigits : ∀ b ∈ chars.map byte, isDigit b = true := by
    intro b hb
    obtain ⟨c, hc, rfl⟩ := List.mem_map.1 hb
    exact isDigit_byte (hchars c hc)
  have hend : rest.takeWhile isDigit = [] ∧ rest.dropWhile isDigit = rest := by
    match rest, hrest with
    | [], _ => exact ⟨rfl, rfl⟩
    | b :: rest, hrest =>
      have hb : ¬ isDigit b = true := Bool.eq_false_iff.1 hrest.isDigit_eq
      exact ⟨List.takeWhile_cons_of_neg hb, List.dropWhile_cons_of_neg hb⟩
  rw [takeDigits, List.takeWhile_append_of_pos hdigits, List.dropWhile_append_of_pos hdigits,
    hend.1, hend.2, List.append_nil, List.map_map]
  congr 1
  exact List.map_congr_left fun c hc => toNat_byte_sub (hchars c hc)

theorem gives_readDigits {c : Char} {chars : List Char}
    (hchars : ∀ d ∈ c :: chars, 0x30 ≤ d.toNat ∧ d.toNat ≤ 0x39) (hrest : Ends rest) :
    Gives (readDigits ((c :: chars).map byte ++ rest)) ((c :: chars).map fun d => d.toNat - 0x30)
      rest := by
  have hc := hchars c List.mem_cons_self
  have hmore := takeDigits_append (fun d hd => hchars d (List.mem_cons_of_mem _ hd)) hrest
  rw [List.map_cons, List.cons_append, readDigits, if_pos (isDigit_byte hc)]
  refine .of_ok rfl ?_ ?_
  · simp only [hmore, toNat_byte_sub hc, List.map_cons]
  · exact congrArg Prod.snd hmore

/-- A run of digits is a whole part unless it has more digits behind a leading 0. -/
theorem Gives.readWholePart {input : Bytes} {digits : List Nat}
    (h : Gives (readDigits input) digits rest) (hleading : ∀ d more, digits ≠ 0 :: d :: more) :
    Gives (readWholePart input) digits rest := by
  obtain ⟨shorter, hread⟩ := h
  refine ⟨shorter, ?_⟩
  simp only [Json.readWholePart, hread]

/-- The digits of a number are a whole part. -/
theorem gives_readWholePart (n : Nat) (hrest : Ends rest) :
    Gives (readWholePart (encodeChars (decimal n) ++ rest)) (decimalDigits n) rest := by
  refine Gives.readWholePart ?_ (decimalDigits_ne n)
  have hchars := fun c => @isDigit_of_mem_decimal n c
  rw [encodeChars_decimal, decimalDigits]
  cases hdecimal : decimal n with
  | nil => exact absurd hdecimal (decimal_ne_nil n)
  | cons c chars =>
    rw [hdecimal] at hchars
    exact gives_readDigits hchars hrest

/-! ### Numerals -/

theorem gives_readUnsigned (negative : Bool) (n : Nat) (hrest : Ends rest) :
    Gives (readUnsigned negative (encodeChars (decimal n) ++ rest))
      ⟨negative, decimalDigits n, none, none⟩ rest := by
  obtain ⟨_, hwhole⟩ := gives_readWholePart n hrest
  obtain ⟨_, hfraction⟩ := hrest.gives_readFraction
  obtain ⟨_, hexponent⟩ := hrest.gives_readExponent
  simp only [readUnsigned, hwhole, hfraction, hexponent]
  exact ⟨_, rfl⟩

/-- A digit is no sign. -/
theorem byte_ne_minus {c : Char} (hc : 0x30 ≤ c.toNat ∧ c.toNat ≤ 0x39) : byte c ≠ byte '-' := by
  intro heq
  have hdigit := isDigit_byte hc
  rw [heq] at hdigit
  exact absurd hdigit (by decide)

/-- The bytes of a number start with a digit. -/
theorem encodeChars_decimal_cons (n : Nat) :
    ∃ b more, encodeChars (decimal n) = b :: more ∧ b ≠ byte '-' ∧ isDigit b = true := by
  have hchars := fun c => @isDigit_of_mem_decimal n c
  rw [encodeChars_decimal]
  cases hdecimal : decimal n with
  | nil => exact absurd hdecimal (decimal_ne_nil n)
  | cons c chars =>
    have hc := hchars c (hdecimal ▸ List.mem_cons_self)
    exact ⟨byte c, chars.map byte, rfl, byte_ne_minus hc, isDigit_byte hc⟩

theorem gives_readNumeral (n : Nat) (hrest : Ends rest) :
    Gives (readNumeral (encodeChars (decimal n) ++ rest))
      ⟨false, decimalDigits n, none, none⟩ rest := by
  have hunsigned := gives_readUnsigned false n hrest
  obtain ⟨b, more, hbytes, hminus, -⟩ := encodeChars_decimal_cons n
  rw [hbytes, List.cons_append] at hunsigned ⊢
  rwa [readNumeral, if_neg hminus]

theorem gives_readNumeral_minus (n : Nat) (hrest : Ends rest) :
    Gives (readNumeral (byte '-' :: (encodeChars (decimal n) ++ rest)))
      ⟨true, decimalDigits n, none, none⟩ rest := by
  rw [readNumeral, if_pos rfl]
  exact (gives_readUnsigned true n hrest).widen _

/-! ### Values -/

/-- No digit is dropped of digits that spell a word. -/
theorem takeFitting_eq {start : Nat} {digits : List Nat} (hfits : spell start digits ≤ Word.top) :
    takeFitting start digits = (spell start digits, []) := by
  induction digits generalizing start with
  | nil => rfl
  | cons d digits ih =>
    have hstart : start * 10 + d ≤ Word.top := Nat.le_trans (le_spell _ digits) hfits
    rw [takeFitting, if_pos hstart, ih hfits, spell_cons]

theorem value?_decimalDigits (negative : Bool) {n : Nat} (hn : n ≤ Word.top) :
    Numeral.value? ⟨negative, decimalDigits n, none, none⟩ = integerValue? negative n := by
  have hspell := spell_decimalDigits n
  have hfitting := takeFitting_eq (show spell 0 (decimalDigits n) ≤ Word.top by rwa [hspell])
  rw [hspell] at hfitting
  simp only [Numeral.value?, hfitting]

theorem Gives.readNumber {input : Bytes} {numeral : Numeral} {n : Number}
    (h : Gives (readNumeral input) numeral rest) (hvalue : numeral.value? = some n) :
    Gives (readNumber input) n rest := by
  obtain ⟨shorter, hread⟩ := h
  simp only [Json.readNumber, hread, hvalue]
  exact ⟨shorter, rfl⟩

/-- **An integer is read back as it is written.** -/
theorem gives_readNumber {n : Int} (hn : Number.IsExact n) (hrest : Ends rest) :
    Gives (readNumber (encodeChars (signedDecimal n) ++ rest)) (.integer n) rest := by
  obtain ⟨hleast, hgreatest⟩ := hn
  cases n with
  | ofNat n =>
    have hword : n ≤ Word.top := Word.le_top_iff_lt_modulus.2 (Int.ofNat_lt.1 hgreatest)
    refine (gives_readNumeral n hrest).readNumber ?_
    rw [value?_decimalDigits false hword]
    rfl
  | negSucc n =>
    have hhalf : n + 1 ≤ Word.half := by omega
    have hword : n + 1 ≤ Word.top := Nat.le_trans hhalf (by decide)
    rw [signedDecimal, encodeChars_cons_ascii (by decide), List.cons_append]
    refine (gives_readNumeral_minus (n + 1) hrest).readNumber ?_
    rw [value?_decimalDigits true hword, integerValue?]
    simp only [Bool.not_true, Bool.false_eq_true, if_false]
    rw [if_pos ⟨Nat.succ_ne_zero n, hhalf⟩]
    rfl

/-- The bytes of an integer start with a digit or a sign. -/
theorem encodeChars_signedDecimal_cons (n : Int) :
    ∃ b more, encodeChars (signedDecimal n) = b :: more ∧ (b = byte '-' ∨ isDigit b = true) := by
  match n with
  | .ofNat n =>
    obtain ⟨b, more, hbytes, -, hdigit⟩ := encodeChars_decimal_cons n
    exact ⟨b, more, hbytes, .inr hdigit⟩
  | .negSucc n =>
    exact ⟨byte '-', _, encodeChars_cons_ascii (by decide) _, .inl rfl⟩

end BoundedCache.Json
