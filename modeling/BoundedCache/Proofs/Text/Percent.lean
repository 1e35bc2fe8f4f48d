import BoundedCache.Proofs.Text.Utf8
import BoundedCache.Text.Percent

namespace BoundedCache

/-!
# Percent coding of a segment

`segmentOf text` is how a text stands in a path, with every byte percent-encoded that is not
unreserved.  It is ASCII and has no slash, whatever the text contains, and it decodes to the text
(`decodeUtf8?_segmentOf`).
-/

/-- The character of an ASCII byte. -/
def asciiChar (b : UInt8) : Char := Char.ofNat b.toNat

/-- A text as a segment of a path. -/
def segmentOf (text : String) : String :=
  String.ofList ((percentEncode (encodeUtf8 text)).map asciiChar)

/-! ### ASCII bytes and characters -/

theorem toNat_asciiChar {b : UInt8} (hascii : b.toNat < 0x80) : (asciiChar b).toNat = b.toNat := by
  have hvalid : b.toNat.isValidChar := .inl (by omega)
  rw [asciiChar, Char.ofNat, dif_pos hvalid]
  rfl

theorem byte_asciiChar {b : UInt8} (hascii : b.toNat < 0x80) : byte (asciiChar b) = b := by
  have hchar := toNat_asciiChar hascii
  apply UInt8.toNat_inj.1
  rw [toNat_byte (by omega), hchar]

theorem encodeChars_map_asciiChar {bytes : Bytes} (hascii : ∀ b ∈ bytes, b.toNat < 0x80) :
    encodeChars (bytes.map asciiChar) = bytes := by
  rw [encodeChars_of_ascii, List.map_map]
  · refine (List.map_congr_left fun b hb => ?_).trans (List.map_id bytes)
    exact byte_asciiChar (hascii b hb)
  · intro c hc
    obtain ⟨b, hb, rfl⟩ := List.mem_map.1 hc
    rw [toNat_asciiChar (hascii b hb)]
    exact hascii b hb

/-! ### Encoded bytes -/

theorem toNat_percentDigit_lt {n : Nat} (hn : n < 16) : (percentDigit n).toNat < 0x80 := by
  revert n
  decide

theorem hexValue?_percentDigit {n : Nat} (hn : n < 16) :
    hexValue? (percentDigit n) = some n := by
  revert n
  decide

theorem percentDigit_ne_slash {n : Nat} (hn : n < 16) : percentDigit n ≠ byte '/' := by
  revert n
  decide

theorem isUnreserved_iff (b : UInt8) : isUnreserved b = true ↔
    (0x30 ≤ b.toNat ∧ b.toNat ≤ 0x39) ∨ (0x41 ≤ b.toNat ∧ b.toNat ≤ 0x5A)
      ∨ (0x61 ≤ b.toNat ∧ b.toNat ≤ 0x7A) ∨ b = byte '-' ∨ b = byte '.' ∨ b = byte '_'
      ∨ b = byte '~' := by
  simp [isUnreserved, isDigit, UInt8.le_iff_toNat_le, or_assoc]

/-- The bytes of a percent-encoded text are ASCII and no slashes. -/
theorem of_mem_percentEncode {bytes : Bytes} {b : UInt8} (hb : b ∈ percentEncode bytes) :
    b.toNat < 0x80 ∧ b ≠ byte '/' := by
  obtain ⟨source, -, hb⟩ := List.mem_flatMap.1 hb
  have hbyte := source.toNat_lt
  split at hb
  · next hunreserved =>
    obtain rfl := List.mem_singleton.1 hb
    rcases (isUnreserved_iff b).1 hunreserved with h | h | h | rfl | rfl | rfl | rfl
    all_goals first
      | decide
      | refine ⟨by omega, ?_⟩
        rintro rfl
        revert h
        decide
  · simp only [List.mem_cons, List.not_mem_nil, or_false] at hb
    rcases hb with rfl | rfl | rfl
    · decide
    · exact ⟨toNat_percentDigit_lt (by omega), percentDigit_ne_slash (by omega)⟩
    · exact ⟨toNat_percentDigit_lt (by omega), percentDigit_ne_slash (by omega)⟩

/-! ### Decoding -/

theorem percentDecode_cons_of_ne {b : UInt8} (hb : b ≠ byte '%') (rest : Bytes) :
    percentDecode (b :: rest) = b :: percentDecode rest := by
  match rest with
  | [] => rfl
  | [c] => rfl
  | high :: low :: rest => rw [percentDecode, if_neg hb]

theorem percentDecode_percent {high low : Nat} (hhigh : high < 16) (hlow : low < 16)
    (rest : Bytes) :
    percentDecode (byte '%' :: percentDigit high :: percentDigit low :: rest)
      = UInt8.ofNat (high * 16 + low) :: percentDecode rest := by
  rw [percentDecode, if_pos rfl, hexValue?_percentDigit hhigh, hexValue?_percentDigit hlow]

/-- **Decoding reverses percent coding.** -/
theorem percentDecode_percentEncode (bytes : Bytes) :
    percentDecode (percentEncode bytes) = bytes := by
  induction bytes with
  | nil => rfl
  | cons b bytes ih =>
    have hcons : percentEncode (b :: bytes)
        = (if isUnreserved b then [b]
          else [byte '%', percentDigit (b.toNat / 16), percentDigit (b.toNat % 16)])
          ++ percentEncode bytes := List.flatMap_cons
    rw [hcons]
    split
    · next hunreserved =>
      have hpercent : b ≠ byte '%' := by
        rintro rfl
        exact absurd hunreserved (by decide)
      rw [List.singleton_append, percentDecode_cons_of_ne hpercent, ih]
    · have hbyte := b.toNat_lt
      have hdivMod : b.toNat / 16 * 16 + b.toNat % 16 = b.toNat := Nat.div_add_mod' _ _
      simp only [List.cons_append, List.nil_append]
      rw [percentDecode_percent (by omega) (by omega), ih, hdivMod, UInt8.ofNat_toNat]

/-! ### Segments -/

theorem encodeUtf8_segmentOf (text : String) :
    encodeUtf8 (segmentOf text) = percentEncode (encodeUtf8 text) := by
  rw [segmentOf, encodeUtf8_ofList,
    encodeChars_map_asciiChar fun b hb => (of_mem_percentEncode hb).1]

/-- **A segment decodes to the text that it is made of.** -/
theorem decodeUtf8?_segmentOf (text : String) :
    decodeUtf8? (percentDecode (encodeUtf8 (segmentOf text))) = some text := by
  rw [encodeUtf8_segmentOf, percentDecode_percentEncode, decodeUtf8?_encodeUtf8]

theorem slash_not_mem_segmentOf (text : String) : '/' ∉ (segmentOf text).toList := by
  rw [segmentOf, String.toList_ofList, List.mem_map]
  rintro ⟨b, hb, hslash⟩
  obtain ⟨hascii, hne⟩ := of_mem_percentEncode hb
  exact hne ((byte_asciiChar hascii).symm.trans (congrArg byte hslash))

theorem segmentOf_ne_nil {text : String} (htext : text ≠ "") : (segmentOf text).toList ≠ [] := by
  intro hnil
  -- An empty segment would decode to the empty text.
  have hdecode := decodeUtf8?_segmentOf text
  rw [encodeUtf8, hnil] at hdecode
  exact htext (Option.some.inj hdecode).symm

end BoundedCache
