import BoundedCache.Text.Ascii

namespace BoundedCache

/-!
# UTF-8, character by character

`encodeChars` is the encoding of a list of characters; `encodeUtf8` of a text is that of its
characters (`encodeUtf8_ofList`).  An ASCII character is encoded as its `byte`, and the bytes of any
other character are none of ASCII.  The decoder finds a text iff the bytes are its encoding
(`decodeUtf8?_eq_some_iff`).
-/

/-- **Bytes are decoded iff they are the encoding of a text.** -/
theorem decodeUtf8?_eq_some_iff {bytes : Bytes} {text : String} :
    decodeUtf8? bytes = some text ↔ bytes = encodeUtf8 text := by
  constructor
  · intro h
    rw [decodeUtf8?, String.fromUTF8?] at h
    split at h
    · next hvalid =>
      have htext := Option.some.inj h
      have hbytes : bytes.toByteArray = text.toByteArray := congrArg String.toByteArray htext
      rw [← toByteArray_encodeUtf8] at hbytes
      exact List.toByteArray_inj.1 hbytes
    · cases h
  · rintro rfl
    exact decodeUtf8?_encodeUtf8 text

/-- The UTF-8 encoding of some characters. -/
def encodeChars (chars : List Char) : Bytes := chars.flatMap String.utf8EncodeChar

theorem encodeUtf8_ofList (chars : List Char) :
    encodeUtf8 (String.ofList chars) = encodeChars chars := by
  rw [encodeUtf8, String.toList_ofList, encodeChars]

@[simp] theorem encodeChars_nil : encodeChars [] = [] := rfl

@[simp] theorem encodeChars_cons (c : Char) (chars : List Char) :
    encodeChars (c :: chars) = String.utf8EncodeChar c ++ encodeChars chars := List.flatMap_cons

@[simp] theorem encodeChars_append (chars more : List Char) :
    encodeChars (chars ++ more) = encodeChars chars ++ encodeChars more := List.flatMap_append

theorem toNat_byte {c : Char} (hascii : c.toNat < 0x80) : (byte c).toNat = c.toNat := by
  have hsmall : c.toNat < 2 ^ 8 := by omega
  exact Nat.mod_eq_of_lt hsmall

/-- An ASCII character is one byte. -/
theorem utf8EncodeChar_of_ascii {c : Char} (hascii : c.toNat < 0x80) :
    String.utf8EncodeChar c = [byte c] := by
  have hval : c.val.toNat ≤ 0x7f := Nat.le_of_lt_succ hascii
  simp only [String.utf8EncodeChar, if_pos hval]
  rfl

/-- An ASCII character in front is one byte in front. -/
theorem encodeChars_cons_ascii {c : Char} (hascii : c.toNat < 0x80) (chars : List Char) :
    encodeChars (c :: chars) = byte c :: encodeChars chars := by
  rw [encodeChars_cons, utf8EncodeChar_of_ascii hascii, List.singleton_append]

/-- The bytes of a character outside ASCII are outside ASCII too. -/
theorem le_of_mem_utf8EncodeChar {c : Char} (hother : 0x80 ≤ c.toNat) {b : UInt8}
    (hb : b ∈ String.utf8EncodeChar c) : 0x80 ≤ b.toNat := by
  have hval : ¬ c.val.toNat ≤ 0x7f := Nat.not_le_of_lt hother
  simp only [String.utf8EncodeChar, if_neg hval] at hb
  -- Every byte is a sum of a part below 64 and a mark of at least 128.
  split at hb
  · simp only [List.mem_cons, List.not_mem_nil, or_false] at hb
    rcases hb with rfl | rfl <;> simp only [UInt8.toNat_ofNat'] <;> omega
  · split at hb
    · simp only [List.mem_cons, List.not_mem_nil, or_false] at hb
      rcases hb with rfl | rfl | rfl <;> simp only [UInt8.toNat_ofNat'] <;> omega
    · simp only [List.mem_cons, List.not_mem_nil, or_false] at hb
      rcases hb with rfl | rfl | rfl | rfl <;> simp only [UInt8.toNat_ofNat'] <;> omega

theorem encodeChars_of_ascii {chars : List Char} (hascii : ∀ c ∈ chars, c.toNat < 0x80) :
    encodeChars chars = chars.map byte := by
  induction chars with
  | nil => rfl
  | cons c chars ih =>
    rw [encodeChars_cons_ascii (hascii c List.mem_cons_self),
      ih fun d hd => hascii d (List.mem_cons_of_mem _ hd), List.map_cons]

end BoundedCache
