namespace BoundedCache

/-!
# Bytes and UTF-8

Texts that come from outside are `Bytes`.  `encodeUtf8` and `decodeUtf8?` convert between texts and
bytes; the decoder refuses every sequence that is not the encoding of a text
(`decodeUtf8?_encodeUtf8`).
-/

/-- A sequence of bytes. -/
abbrev Bytes := List UInt8

/-- The UTF-8 encoding of a text. -/
def encodeUtf8 (text : String) : Bytes := text.toList.flatMap String.utf8EncodeChar

/-- The text that some bytes encode, if they are valid UTF-8. -/
def decodeUtf8? (bytes : Bytes) : Option String := String.fromUTF8? bytes.toByteArray

theorem toByteArray_encodeUtf8 (text : String) :
    (encodeUtf8 text).toByteArray = text.toByteArray := by
  have := @String.toByteArray_ofList text.toList
  rw [String.ofList_toList] at this
  exact this.symm

/-- Decoding reverses encoding. -/
theorem decodeUtf8?_encodeUtf8 (text : String) : decodeUtf8? (encodeUtf8 text) = some text := by
  simp only [decodeUtf8?, String.fromUTF8?, toByteArray_encodeUtf8, text.isValidUTF8, dite_true,
    String.fromUTF8]

end BoundedCache
