import BoundedCache.Json.Text
import BoundedCache.Proofs.Text.Utf8

namespace BoundedCache.Json

/-!
# Compact text as a list of characters

`Value.chars` says what the compact text of a value is, character by character and without a text to
write behind.  `render_eq` ties it to `Value.render`; what is proved of texts is proved of `chars`.
-/

/-- The characters of a string with its quotation marks. -/
def quotedChars (s : String) : List Char := '"' :: (s.toList.flatMap escape ++ ['"'])

/-- The comma in front of an item or a member that is not the first one. -/
def separator (first : Bool) : List Char := if first then [] else [',']

mutual

/-- The characters of the compact text of a value. -/
def Value.chars : Value → List Char
  | .null => ['n', 'u', 'l', 'l']
  | .boolean true => ['t', 'r', 'u', 'e']
  | .boolean false => ['f', 'a', 'l', 's', 'e']
  | .number n => n.chars
  | .text s => quotedChars s
  | .array items => '[' :: (itemsChars true items ++ [']'])
  | .object members => '\x7b' :: (membersChars true members ++ ['\x7d'])

/-- The characters of the items of an array. -/
def itemsChars (first : Bool) : List Value → List Char
  | [] => []
  | item :: rest => separator first ++ (item.chars ++ itemsChars false rest)

/-- The characters of the members of an object. -/
def membersChars (first : Bool) : List (String × Value) → List Char
  | [] => []
  | (key, value) :: rest =>
    separator first ++ (quotedChars key ++ ':' :: (value.chars ++ membersChars false rest))

end

/-! ### Writing -/

theorem toList_writeChars (out : String) (chars : List Char) :
    (writeChars out chars).toList = out.toList ++ chars := by
  unfold writeChars
  induction chars generalizing out with
  | nil => exact (List.append_nil _).symm
  | cons c chars ih =>
    rw [List.foldl_cons, ih, String.toList_push, List.append_assoc, List.singleton_append]

theorem toList_foldl_escape (out : String) (chars : List Char) :
    (chars.foldl (fun out c => writeChars out (escape c)) out).toList
      = out.toList ++ chars.flatMap escape := by
  induction chars generalizing out with
  | nil => exact (List.append_nil _).symm
  | cons c chars ih =>
    rw [List.foldl_cons, ih, toList_writeChars, List.flatMap_cons, List.append_assoc]

theorem toList_writeQuoted (out s : String) :
    (writeQuoted out s).toList = out.toList ++ quotedChars s := by
  rw [writeQuoted, String.foldl_eq_foldl_toList, String.toList_push, toList_foldl_escape,
    String.toList_push, quotedChars]
  simp only [List.append_assoc, List.cons_append, List.nil_append]

/-- Where a further item or member is written. -/
theorem toList_separated (out : String) (first : Bool) :
    (if first then out else out.push ',').toList = out.toList ++ separator first := by
  cases first with
  | true => exact (List.append_nil _).symm
  | false => exact String.toList_push ','

mutual

/-- A value is written as its characters. -/
theorem toList_write (out : String) : (value : Value) →
    (value.write out).toList = out.toList ++ value.chars
  | .null => toList_writeChars out _
  | .boolean true => toList_writeChars out _
  | .boolean false => toList_writeChars out _
  | .number _ => toList_writeChars out _
  | .text s => toList_writeQuoted out s
  | .array items => by
    rw [Value.write, String.toList_push, toList_writeItems _ _ items, String.toList_push,
      Value.chars]
    simp only [List.append_assoc, List.cons_append, List.nil_append]
  | .object members => by
    rw [Value.write, String.toList_push, toList_writeMembers _ _ members, String.toList_push,
      Value.chars]
    simp only [List.append_assoc, List.cons_append, List.nil_append]

theorem toList_writeItems (out : String) (first : Bool) : (items : List Value) →
    (writeItems out first items).toList = out.toList ++ itemsChars first items
  | [] => (List.append_nil _).symm
  | item :: rest => by
    rw [writeItems, toList_writeItems _ _ rest, toList_write _ item, toList_separated, itemsChars]
    simp only [List.append_assoc]

theorem toList_writeMembers (out : String) (first : Bool) : (members : List (String × Value)) →
    (writeMembers out first members).toList = out.toList ++ membersChars first members
  | [] => (List.append_nil _).symm
  | (key, value) :: rest => by
    rw [writeMembers, toList_writeMembers _ _ rest, toList_write _ value, String.toList_push,
      toList_writeQuoted, toList_separated, membersChars]
    simp only [List.append_assoc, List.cons_append, List.nil_append]

end

/-- **The compact text of a value** has its characters. -/
theorem render_eq (value : Value) : value.render = String.ofList value.chars := by
  have hchars := toList_write "" value
  rw [← String.toList_inj, String.toList_ofList]
  exact hchars

theorem encodeUtf8_render (value : Value) : encodeUtf8 value.render = encodeChars value.chars := by
  rw [render_eq, encodeUtf8_ofList]

end BoundedCache.Json
