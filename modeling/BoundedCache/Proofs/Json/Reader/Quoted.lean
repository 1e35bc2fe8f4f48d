import BoundedCache.Json.Reader.Quoted
import BoundedCache.Proofs.Json.Reader.Input
import BoundedCache.Proofs.Json.Text

namespace BoundedCache.Json

/-!
# Reading back strings

`gives_readQuoted`: behind the opening quotation mark, the reader gives back any string as it is
written.  A character is written in one of three ways, and the reader undoes each of them
(`gives_escape`): by a letter behind a reverse solidus, by its number behind `\u`, or as it is, and
then none of its bytes means anything else.
-/

variable {bound : Nat} {taken rest : Bytes} {s : String}

/-! ### Single escapes -/

/-- A byte that stands for itself in a string. -/
def IsPlain (b : UInt8) : Prop := b ≠ byte '"' ∧ b ≠ byte '\\' ∧ ¬ b < 0x20

theorem gives_readEscape_simple {b : UInt8} {c : Char} (hc : simpleEscape? b = some c)
    (rest : Bytes) : Gives (readEscape (b :: rest)) c rest := by
  simp only [readEscape, hc]
  exact ⟨_, rfl⟩

theorem hexValue?_hexDigit {n : Nat} (hn : n < 16) : hexValue? (byte (hexDigit n)) = some n := by
  revert n
  decide

theorem hexDigit_ascii {n : Nat} (hn : n < 16) : (hexDigit n).toNat < 0x80 := by
  revert n
  decide

theorem gives_readHex4 {a b c d : UInt8} {a' b' c' d' : Nat} (ha : hexValue? a = some a')
    (hb : hexValue? b = some b') (hc : hexValue? c = some c') (hd : hexValue? d = some d')
    (rest : Bytes) :
    Gives (readHex4 (a :: b :: c :: d :: rest)) (((a' * 16 + b') * 16 + c') * 16 + d') rest := by
  simp only [readHex4, ha, hb, hc, hd]
  exact ⟨_, rfl⟩

/-- The number of a control character stands for it. -/
theorem gives_readEscape_unicode {c : Char} (hc : c.toNat < 0x20) (rest : Bytes) :
    Gives (readEscape (byte 'u' :: byte '0' :: byte '0' :: byte (hexDigit (c.toNat / 16))
      :: byte (hexDigit (c.toNat % 16)) :: rest)) c rest := by
  have hzero : hexValue? (byte '0') = some 0 := by decide
  have hhex := gives_readHex4 hzero hzero (hexValue?_hexDigit (show c.toNat / 16 < 16 by omega))
    (hexValue?_hexDigit (show c.toNat % 16 < 16 by omega)) rest
  have hnumber : ((0 * 16 + 0) * 16 + c.toNat / 16) * 16 + c.toNat % 16 = c.toNat := by omega
  rw [hnumber] at hhex
  obtain ⟨shorter, hread⟩ := hhex
  -- Numbers below 32 are far from the surrogates.
  have htrailing : isTrailingSurrogate c.toNat = false := by
    simp only [isTrailingSurrogate, Bool.and_eq_false_iff, decide_eq_false_iff_not]
    omega
  have hleading : isLeadingSurrogate c.toNat = false := by
    simp only [isLeadingSurrogate, Bool.and_eq_false_iff, decide_eq_false_iff_not]
    omega
  have hsimple : simpleEscape? (byte 'u') = none := by decide
  simp only [readEscape, hsimple, if_true, readUnicodeEscape, hread, htrailing, hleading,
    Bool.false_eq_true, if_false]
  refine Gives.widen ⟨shorter, ?_⟩ _
  rw [Parsed.map, Char.ofNat_toNat]

/-! ### Single characters -/

/-- A byte that stands for itself is taken as it is. -/
theorem gives_plain {b : UInt8} {input : Bytes} (hb : IsPlain b)
    (hle : (b :: input).length ≤ bound)
    (hrest : ∀ h, Gives (readQuotedFrom bound (b :: taken) input h) s rest) :
    Gives (readQuotedFrom bound taken (b :: input) hle) s rest := by
  obtain ⟨hquote, hsolidus, hcontrol⟩ := hb
  rw [readQuotedFrom, if_neg hquote, if_neg hsolidus, if_neg hcontrol]
  exact hrest _

theorem gives_plains {bytes input : Bytes} (hbytes : ∀ b ∈ bytes, IsPlain b)
    (hle : (bytes ++ input).length ≤ bound)
    (hrest : ∀ h, Gives (readQuotedFrom bound (bytes.reverse ++ taken) input h) s rest) :
    Gives (readQuotedFrom bound taken (bytes ++ input) hle) s rest := by
  induction bytes generalizing taken with
  | nil => exact hrest hle
  | cons b bytes ih =>
    refine gives_plain (hbytes b List.mem_cons_self) hle fun h => ?_
    refine ih (fun b' hb' => hbytes b' (List.mem_cons_of_mem _ hb')) h fun h' => ?_
    rw [List.reverse_cons, List.append_assoc] at hrest
    exact hrest h'

/-- An escape is taken as the bytes of its character. -/
theorem gives_escaped {c : Char} {escape input : Bytes}
    (hescape : Gives (readEscape (escape ++ input)) c input)
    (hle : (byte '\\' :: (escape ++ input)).length ≤ bound)
    (hrest : ∀ h, Gives (readQuotedFrom bound ((String.utf8EncodeChar c).reverse ++ taken) input h)
      s rest) :
    Gives (readQuotedFrom bound taken (byte '\\' :: (escape ++ input)) hle) s rest := by
  obtain ⟨shorter, hread⟩ := hescape
  have hquote : byte '\\' ≠ byte '"' := by decide
  rw [readQuotedFrom, if_neg hquote, if_pos rfl]
  simp only [hread]
  exact hrest _

/-- The bytes of a character that is not escaped are plain. -/
theorem isPlain_of_char {c : Char} (hquote : c ≠ '"') (hsolidus : c ≠ '\\')
    (hcontrol : ¬ c.toNat < 0x20) {b : UInt8} (hb : b ∈ String.utf8EncodeChar c) : IsPlain b := by
  have hne (d : Char) (hd : d.toNat < 0x80) (hcd : c ≠ d) : b ≠ byte d := by
    rintro rfl
    have hbyte := toNat_byte hd
    by_cases hascii : c.toNat < 0x80
    · rw [utf8EncodeChar_of_ascii hascii, List.mem_singleton] at hb
      exact hcd (Char.toNat_inj.1 (by rw [← toNat_byte hascii, ← hb, hbyte]))
    · have hother := le_of_mem_utf8EncodeChar (by omega) hb
      omega
  refine ⟨hne _ (by decide) hquote, hne _ (by decide) hsolidus, ?_⟩
  rw [UInt8.lt_iff_toNat_lt]
  show ¬ b.toNat < 0x20
  by_cases hascii : c.toNat < 0x80
  · rw [utf8EncodeChar_of_ascii hascii, List.mem_singleton] at hb
    rwa [hb, toNat_byte hascii]
  · have hother := le_of_mem_utf8EncodeChar (by omega) hb
    omega

/-! ### Whole strings -/

/-- The three ways in which a character is written. -/
theorem escape_cases (c : Char) :
    (∃ letter, letter.toNat < 0x80 ∧ simpleEscape? (byte letter) = some c
      ∧ escape c = ['\\', letter])
    ∨ (c.toNat < 0x20
      ∧ escape c = ['\\', 'u', '0', '0', hexDigit (c.toNat / 16), hexDigit (c.toNat % 16)])
    ∨ (c ≠ '"' ∧ c ≠ '\\' ∧ ¬ c.toNat < 0x20 ∧ escape c = [c]) := by
  fun_cases escape c with
  | case1 hc => exact .inl ⟨'"', by decide, by rw [hc]; decide, rfl⟩
  | case2 _ hc => exact .inl ⟨'\\', by decide, by rw [hc]; decide, rfl⟩
  | case3 _ _ hc => exact .inl ⟨'b', by decide, by rw [hc]; decide, rfl⟩
  | case4 _ _ _ hc => exact .inl ⟨'f', by decide, by rw [hc]; decide, rfl⟩
  | case5 _ _ _ _ hc => exact .inl ⟨'n', by decide, by rw [hc]; decide, rfl⟩
  | case6 _ _ _ _ _ hc => exact .inl ⟨'r', by decide, by rw [hc]; decide, rfl⟩
  | case7 _ _ _ _ _ _ hc => exact .inl ⟨'t', by decide, by rw [hc]; decide, rfl⟩
  | case8 _ _ _ _ _ _ _ hcontrol => exact .inr (.inl ⟨hcontrol, rfl⟩)
  | case9 hquote hsolidus _ _ _ _ _ hcontrol =>
    exact .inr (.inr ⟨hquote, hsolidus, hcontrol, rfl⟩)

/-- **A character is read back as it is written.** -/
theorem gives_escape {c : Char} {text input : Bytes}
    (htext : text = encodeChars (escape c) ++ input) (hle : text.length ≤ bound)
    (hrest : ∀ h, Gives (readQuotedFrom bound ((String.utf8EncodeChar c).reverse ++ taken) input h)
      s rest) :
    Gives (readQuotedFrom bound taken text hle) s rest := by
  have hsolidus : ('\\').toNat < 0x80 := by decide
  obtain ⟨letter, hascii, hletter, hescape⟩ | ⟨hcontrol, hescape⟩
    | ⟨hquote, hback, hcontrol, hescape⟩ := escape_cases c
  · rw [hescape, encodeChars_cons_ascii hsolidus, encodeChars_cons_ascii hascii] at htext
    subst htext
    have hread : Gives (readEscape ([byte letter] ++ input)) c input :=
      gives_readEscape_simple hletter input
    exact gives_escaped hread hle hrest
  · have hhigh := hexDigit_ascii (show c.toNat / 16 < 16 by omega)
    have hlow := hexDigit_ascii (show c.toNat % 16 < 16 by omega)
    have hletter : ('u').toNat < 0x80 ∧ ('0').toNat < 0x80 := by decide
    rw [hescape, encodeChars_cons_ascii hsolidus, encodeChars_cons_ascii hletter.1,
      encodeChars_cons_ascii hletter.2, encodeChars_cons_ascii hletter.2,
      encodeChars_cons_ascii hhigh, encodeChars_cons_ascii hlow] at htext
    subst htext
    exact gives_escaped (gives_readEscape_unicode hcontrol input) hle hrest
  · rw [hescape, encodeChars_cons, encodeChars_nil, List.append_nil] at htext
    subst htext
    exact gives_plains (fun b hb => isPlain_of_char hquote hback hcontrol hb) hle hrest

/-- The invariant of the loop: the bytes taken and those of the characters to come make up the
    string. -/
theorem gives_readQuotedFrom {chars : List Char} {text : Bytes}
    (hchars : decodeUtf8? (taken.reverse ++ encodeChars chars) = some s)
    (htext : text = encodeChars (chars.flatMap escape) ++ byte '"' :: rest)
    (hle : text.length ≤ bound) :
    Gives (readQuotedFrom bound taken text hle) s rest := by
  induction chars generalizing taken text with
  | nil =>
    rw [encodeChars_nil, List.append_nil] at hchars
    rw [List.flatMap_nil, encodeChars_nil, List.nil_append] at htext
    subst htext
    -- The closing mark is reached, so the bytes taken are all of the string.
    rw [readQuotedFrom, if_pos rfl]
    simp only [hchars]
    exact ⟨hle, rfl⟩
  | cons c chars ih =>
    rw [List.flatMap_cons, encodeChars_append, List.append_assoc] at htext
    refine gives_escape htext hle fun h => ih ?_ rfl h
    rw [encodeChars_cons] at hchars
    rw [List.reverse_append, List.reverse_reverse, List.append_assoc]
    exact hchars

/-- **A string is read back as it is written.** -/
theorem gives_readQuoted (s : String) (rest : Bytes) :
    Gives (readQuoted (encodeChars (s.toList.flatMap escape) ++ byte '"' :: rest)) s rest := by
  have hdecode : decodeUtf8? ([].reverse ++ encodeChars s.toList) = some s :=
    decodeUtf8?_encodeUtf8 s
  exact gives_readQuotedFrom hdecode rfl _

end BoundedCache.Json
