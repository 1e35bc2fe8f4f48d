import BoundedCache.Json.Reader.Value
import BoundedCache.Proofs.Json.Reader.Numeral
import BoundedCache.Proofs.Json.Reader.Quoted

namespace BoundedCache.Json

/-!
# Reading back values

`Readable room value` says what a value must be for a reader with room for so many brackets: its
numbers are integers of a word, the members of its objects are in order, and it is not nested
deeper.  Such a value is read back as it is written (`Readable.readsBack`), in front of anything
that may follow a value.

Arrays and objects are read in loops.  For both the invariant is that what is taken and what is
still written are together the whole, and that the reader of values reads back what is still
written.
-/

variable {bound room : Nat} {rest : Bytes}

/-! ### Members in order -/

/-- Members in ascending order of their keys, each key once. -/
def Ascending (members : List (String × Value)) : Prop :=
  members.Pairwise fun member later => member.1 < later.1

theorem foldr_consMember {members : List (String × Value)} (h : Ascending members) :
    members.foldr consMember [] = members := by
  induction members with
  | nil => rfl
  | cons member members ih =>
    obtain ⟨hfirst, hmembers⟩ := List.pairwise_cons.1 h
    rw [List.foldr_cons, ih hmembers]
    cases members with
    | nil => rfl
    | cons next members =>
      rw [consMember, if_neg (String.ne_of_lt (hfirst next List.mem_cons_self))]

/-- Members in order stay as they are. -/
theorem arrange_of_ascending {members : List (String × Value)} (h : Ascending members) :
    arrange members = members := by
  have hsorted : members.Pairwise fun member later => decide (member.1 ≤ later.1) = true :=
    h.imp fun hlt => decide_eq_true (Std.le_of_lt hlt)
  rw [arrange, List.mergeSort_of_pairwise hsorted, foldr_consMember h]

/-! ### Readers that read back -/

/-- A reader that reads a value back as it is written. -/
structure ReadsBack (reader : Reader Value) (value : Value) : Prop where
  /-- The text does not look like a blank or the end of an array. -/
  starts : ∃ b more, encodeChars value.chars = b :: more ∧ isBlank b = false ∧ b ≠ byte ']'
  gives : ∀ rest, Ends rest → Gives (reader (encodeChars value.chars ++ rest)) value rest

/-! ### Items of an array -/

theorem encodeChars_itemsChars_cons (item : Value) (items : List Value) :
    encodeChars (itemsChars false (item :: items))
      = byte ',' :: (encodeChars item.chars ++ encodeChars (itemsChars false items)) := by
  rw [itemsChars, encodeChars_append, encodeChars_append]
  rfl

/-- Behind an item there is a further one or the end of the array. -/
theorem ends_items (items : List Value) (rest : Bytes) :
    Ends (encodeChars (itemsChars false items) ++ byte ']' :: rest) := by
  cases items with
  | nil => exact ends_square rest
  | cons item items =>
    rw [encodeChars_itemsChars_cons]
    exact ends_comma _

/-- One more item is taken behind its comma. -/
theorem gives_readItemsFrom_cons {reader : Reader Value} {item : Value} {items taken : List Value}
    {behind text : Bytes} (hitem : ReadsBack reader item) (hends : Ends behind)
    (htext : text = byte ',' :: (encodeChars item.chars ++ behind)) (hle : text.length ≤ bound)
    (hmore : ∀ h, Gives (readItemsFrom reader bound (item :: taken) behind h) items rest) :
    Gives (readItemsFrom reader bound taken text hle) items rest := by
  obtain ⟨⟨b, more, hbytes, hblank, hclose⟩, hgives⟩ := hitem
  have hread := hgives behind hends
  -- The loop looks at the first byte of the item before it has it read.
  rw [hbytes, List.cons_append] at htext hread
  subst htext
  obtain ⟨_, hread⟩ := hread
  rw [readItemsFrom]
  split
  · next hnil => exact absurd hnil (skipBlanks_cons_ne_nil (by decide))
  next c text hcons =>
  obtain ⟨rfl, rfl⟩ := eq_of_skipBlanks (by decide) hcons
  have hcomma : byte ',' ≠ byte ']' := by decide
  rw [if_neg hcomma, if_pos rfl]
  split
  · next hnil => exact absurd hnil (skipBlanks_cons_ne_nil hblank)
  next c text hcons' =>
  obtain ⟨rfl, rfl⟩ := eq_of_skipBlanks hblank hcons'
  rw [if_neg hclose]
  simp only [hread]
  exact hmore _

theorem gives_readItemsFrom {reader : Reader Value} {items : List Value} (taken : List Value)
    {text : Bytes} (hitems : ∀ item ∈ items, ReadsBack reader item)
    (htext : text = encodeChars (itemsChars false items) ++ byte ']' :: rest)
    (hle : text.length ≤ bound) :
    Gives (readItemsFrom reader bound taken text hle) (taken.reverse ++ items) rest := by
  induction items generalizing taken text with
  | nil =>
    rw [itemsChars, encodeChars_nil, List.nil_append] at htext
    subst htext
    rw [readItemsFrom]
    split
    · next hnil => exact absurd hnil (skipBlanks_cons_ne_nil (by decide))
    · next c more hcons =>
      obtain ⟨rfl, rfl⟩ := eq_of_skipBlanks (by decide) hcons
      -- The end of the array: all items are taken.
      rw [if_pos rfl, List.append_nil]
      exact ⟨_, rfl⟩
  | cons item items ih =>
    rw [encodeChars_itemsChars_cons, List.cons_append, List.append_assoc] at htext
    have hmore := ih (item :: taken) (fun other h => hitems other (List.mem_cons_of_mem _ h)) rfl
    rw [List.reverse_cons, List.append_assoc] at hmore
    exact gives_readItemsFrom_cons (hitems item List.mem_cons_self) (ends_items items rest) htext
      hle hmore

/-- The items of an array are read back. -/
theorem gives_readItems {reader : Reader Value} {items : List Value}
    (hitems : ∀ item ∈ items, ReadsBack reader item) (rest : Bytes) :
    Gives (readItems reader (encodeChars (itemsChars true items) ++ byte ']' :: rest)) items
      rest := by
  cases items with
  | nil =>
    rw [itemsChars, encodeChars_nil, List.nil_append, readItems]
    split
    · next hnil => exact absurd hnil (skipBlanks_cons_ne_nil (by decide))
    · next c more hcons =>
      obtain ⟨rfl, rfl⟩ := eq_of_skipBlanks (by decide) hcons
      rw [if_pos rfl]
      exact ⟨_, rfl⟩
  | cons item items =>
    obtain ⟨⟨b, more, hbytes, hblank, hclose⟩, hgives⟩ := hitems item List.mem_cons_self
    have hitem := hgives _ (ends_items items rest)
    have htext : encodeChars (itemsChars true (item :: items)) ++ byte ']' :: rest
        = encodeChars item.chars ++ (encodeChars (itemsChars false items) ++ byte ']' :: rest) := by
      rw [itemsChars, separator, if_pos rfl, List.nil_append, encodeChars_append,
        List.append_assoc]
    rw [htext]
    rw [hbytes, List.cons_append] at hitem ⊢
    obtain ⟨shorter, hread⟩ := hitem
    rw [readItems]
    split
    · next hnil => exact absurd hnil (skipBlanks_cons_ne_nil hblank)
    next c behind hcons =>
    obtain ⟨rfl, rfl⟩ := eq_of_skipBlanks hblank hcons
    rw [if_neg hclose]
    simp only [hread]
    exact gives_readItemsFrom [item]
      (fun other hother => hitems other (List.mem_cons_of_mem _ hother)) rfl _

/-! ### Members of an object -/

theorem encodeChars_quotedChars (s : String) : encodeChars (quotedChars s)
    = byte '"' :: (encodeChars (s.toList.flatMap escape) ++ [byte '"']) := by
  rw [quotedChars, encodeChars_cons_ascii (by decide), encodeChars_append]
  rfl

/-- A text in quotation marks, in front of something, for a reader behind the first mark. -/
theorem encodeChars_quotedChars_append (s : String) (rest : Bytes) :
    encodeChars (quotedChars s) ++ rest
      = byte '"' :: (encodeChars (s.toList.flatMap escape) ++ byte '"' :: rest) := by
  rw [encodeChars_quotedChars, List.cons_append, List.append_assoc, List.singleton_append]

/-- There is no key at the end of an object. -/
theorem gives_readNextKey_end (first : Bool) (rest : Bytes) :
    Gives (readNextKey first (byte '\x7d' :: rest)) none rest := by
  rw [readNextKey]
  split
  · next hnil => exact absurd hnil (skipBlanks_cons_ne_nil (by decide))
  next c more hcons =>
  obtain ⟨rfl, rfl⟩ := eq_of_skipBlanks (by decide) hcons
  rw [if_pos rfl]
  exact ⟨_, rfl⟩

/-- A key is read back, behind a comma if it is not the first. -/
theorem gives_readNextKey (first : Bool) (key : String) (rest : Bytes) :
    Gives (readNextKey first
      (encodeChars (separator first) ++ (encodeChars (quotedChars key) ++ rest))) (some key)
      rest := by
  have hkey := gives_readQuoted key rest
  have hbrace : byte '"' ≠ byte '\x7d' ∧ byte ',' ≠ byte '\x7d' := by decide
  rw [encodeChars_quotedChars_append]
  cases first with
  | true =>
    rw [separator, if_pos rfl, encodeChars_nil, List.nil_append, readNextKey]
    split
    · next hnil => exact absurd hnil (skipBlanks_cons_ne_nil (by decide))
    next c more hcons =>
    obtain ⟨rfl, rfl⟩ := eq_of_skipBlanks (by decide) hcons
    rw [if_neg hbrace.1, if_pos rfl, if_pos rfl]
    exact hkey.map some _
  | false =>
    rw [separator, if_neg Bool.false_ne_true, encodeChars_cons_ascii (by decide), encodeChars_nil,
      List.singleton_append, readNextKey]
    split
    · next hnil => exact absurd hnil (skipBlanks_cons_ne_nil (by decide))
    next c more hcons =>
    obtain ⟨rfl, rfl⟩ := eq_of_skipBlanks (by decide) hcons
    rw [if_neg hbrace.2, if_neg Bool.false_ne_true, if_pos rfl]
    split
    · next hnil => exact absurd hnil (skipBlanks_cons_ne_nil (by decide))
    next c more hcons' =>
    obtain ⟨rfl, rfl⟩ := eq_of_skipBlanks (by decide) hcons'
    rw [if_pos rfl]
    exact hkey.map some _

theorem encodeChars_membersChars_cons (first : Bool) (key : String) (value : Value)
    (members : List (String × Value)) :
    encodeChars (membersChars first ((key, value) :: members))
      = encodeChars (separator first) ++ (encodeChars (quotedChars key) ++ byte ':' ::
        (encodeChars value.chars ++ encodeChars (membersChars false members))) := by
  rw [membersChars, encodeChars_append, encodeChars_append, encodeChars_cons_ascii (by decide),
    encodeChars_append]

/-- Behind a member there is a further one or the end of the object. -/
theorem ends_members (members : List (String × Value)) (rest : Bytes) :
    Ends (encodeChars (membersChars false members) ++ byte '\x7d' :: rest) := by
  cases members with
  | nil => exact ends_curly rest
  | cons member members =>
    rw [encodeChars_membersChars_cons]
    exact ends_comma _

/-- One more member is taken. -/
theorem gives_readMembersFrom_cons {reader : Reader Value} {key : String} {value : Value}
    {members taken : List (String × Value)} {behind : Bytes}
    (hvalue : Gives (reader (encodeChars value.chars ++ behind)) value behind)
    (hle : (encodeChars (separator taken.isEmpty) ++ (encodeChars (quotedChars key)
      ++ byte ':' :: (encodeChars value.chars ++ behind))).length ≤ bound)
    (hmore : ∀ h, Gives (readMembersFrom reader bound ((key, value) :: taken) behind h) members
      rest) :
    Gives (readMembersFrom reader bound taken (encodeChars (separator taken.isEmpty)
      ++ (encodeChars (quotedChars key) ++ byte ':' :: (encodeChars value.chars ++ behind))) hle)
      members rest := by
  have hblank : isBlank (byte ':') = false := by decide
  obtain ⟨_, hkey⟩ := gives_readNextKey taken.isEmpty key
    (byte ':' :: (encodeChars value.chars ++ behind))
  obtain ⟨_, hcolon⟩ := gives_expectByte hblank (encodeChars value.chars ++ behind)
  obtain ⟨_, hvalue⟩ := hvalue
  rw [readMembersFrom]
  simp only [hkey, hcolon, hvalue]
  exact hmore _

theorem gives_readMembersFrom {reader : Reader Value} {members : List (String × Value)}
    (taken : List (String × Value)) {text : Bytes}
    (hmembers : ∀ member ∈ members, ReadsBack reader member.2)
    (htext : text = encodeChars (membersChars taken.isEmpty members) ++ byte '\x7d' :: rest)
    (hle : text.length ≤ bound) :
    Gives (readMembersFrom reader bound taken text hle) (arrange (taken.reverse ++ members))
      rest := by
  induction members generalizing taken text with
  | nil =>
    rw [membersChars, encodeChars_nil, List.nil_append] at htext
    subst htext
    obtain ⟨_, hend⟩ := gives_readNextKey_end taken.isEmpty rest
    rw [readMembersFrom, List.append_nil]
    simp only [hend]
    exact ⟨_, rfl⟩
  | cons member members ih =>
    obtain ⟨key, value⟩ := member
    rw [encodeChars_membersChars_cons, List.append_assoc, List.append_assoc, List.cons_append,
      List.append_assoc] at htext
    subst htext
    -- Behind the value there is a comma or the end of the object, so its reader stops there.
    have hvalue := (hmembers _ List.mem_cons_self).gives _ (ends_members members rest)
    have hmore := ih ((key, value) :: taken)
      (fun other h => hmembers other (List.mem_cons_of_mem _ h)) rfl
    rw [List.reverse_cons, List.append_assoc] at hmore
    exact gives_readMembersFrom_cons hvalue hle hmore

/-- The members of an object are read back if they are in order. -/
theorem gives_readMembers {reader : Reader Value} {members : List (String × Value)}
    (hmembers : ∀ member ∈ members, ReadsBack reader member.2) (horder : Ascending members)
    (rest : Bytes) :
    Gives (readMembers reader (encodeChars (membersChars true members) ++ byte '\x7d' :: rest))
      members rest := by
  have hread := @gives_readMembersFrom _ rest reader members [] _ hmembers rfl (length_le_length _)
  rw [List.reverse_nil, List.nil_append, arrange_of_ascending horder] at hread
  exact hread

/-! ### Shapes of values

The first byte decides which shape it is.  A number may start with several bytes, the other shapes
start with one each.
-/

theorem gives_readValue_null (room : Nat) (rest : Bytes) :
    Gives (readValue room (encodeChars Value.null.chars ++ rest)) .null rest := by
  have hbytes : encodeChars Value.null.chars = byte 'n' :: [byte 'u', byte 'l', byte 'l'] := by
    decide
  rw [hbytes, List.cons_append, readValue]
  split
  · next hnil => exact absurd hnil (skipBlanks_cons_ne_nil (by decide))
  next c behind hcons =>
  obtain ⟨rfl, rfl⟩ := eq_of_skipBlanks (by decide) hcons
  rw [if_pos rfl]
  exact (gives_readWord _ _ rest).widen _

theorem gives_readValue_boolean (room : Nat) (b : Bool) (rest : Bytes) :
    Gives (readValue room (encodeChars (Value.boolean b).chars ++ rest)) (.boolean b) rest := by
  cases b with
  | true =>
    have hbytes : encodeChars (Value.boolean true).chars
        = byte 't' :: [byte 'r', byte 'u', byte 'e'] := by decide
    rw [hbytes, List.cons_append, readValue]
    split
    · next hnil => exact absurd hnil (skipBlanks_cons_ne_nil (by decide))
    next c behind hcons =>
    obtain ⟨rfl, rfl⟩ := eq_of_skipBlanks (by decide) hcons
    rw [if_neg, if_pos rfl]
    · exact (gives_readWord _ _ rest).widen _
    · decide
  | false =>
    have hbytes : encodeChars (Value.boolean false).chars
        = byte 'f' :: [byte 'a', byte 'l', byte 's', byte 'e'] := by decide
    rw [hbytes, List.cons_append, readValue]
    split
    · next hnil => exact absurd hnil (skipBlanks_cons_ne_nil (by decide))
    next c behind hcons =>
    obtain ⟨rfl, rfl⟩ := eq_of_skipBlanks (by decide) hcons
    rw [if_neg, if_neg, if_pos rfl]
    · exact (gives_readWord _ _ rest).widen _
    all_goals decide

/-- What a number starts with starts nothing else. -/
theorem ne_of_startsNumber {b c : UInt8} (hb : b = byte '-' ∨ isDigit b = true)
    (hc : ¬ (c = byte '-' ∨ isDigit c = true)) : b ≠ c := by
  rintro rfl
  exact hc hb

theorem isBlank_of_startsNumber {b : UInt8} (hb : b = byte '-' ∨ isDigit b = true) :
    isBlank b = false := by
  have hspace := ne_of_startsNumber hb (c := 0x20) (by decide)
  have htab := ne_of_startsNumber hb (c := 0x09) (by decide)
  have hline := ne_of_startsNumber hb (c := 0x0A) (by decide)
  have hreturn := ne_of_startsNumber hb (c := 0x0D) (by decide)
  simp [isBlank, hspace, htab, hline, hreturn]

theorem gives_readValue_number {b : UInt8} {behind : Bytes} {n : Number}
    (hb : b = byte '-' ∨ isDigit b = true) (hread : Gives (readNumber (b :: behind)) n rest) :
    Gives (readValue room (b :: behind)) (.number n) rest := by
  have hblank := isBlank_of_startsNumber hb
  rw [readValue]
  split
  · next hnil => exact absurd hnil (skipBlanks_cons_ne_nil hblank)
  next c behind hcons =>
  obtain ⟨rfl, rfl⟩ := eq_of_skipBlanks hblank hcons
  rw [if_neg (ne_of_startsNumber hb (by decide)), if_neg (ne_of_startsNumber hb (by decide)),
    if_neg (ne_of_startsNumber hb (by decide)), if_pos hb]
  exact hread.map Value.number _

theorem gives_readValue_text (room : Nat) (s : String) (rest : Bytes) :
    Gives (readValue room (encodeChars (Value.text s).chars ++ rest)) (.text s) rest := by
  rw [Value.chars, encodeChars_quotedChars_append, readValue]
  split
  · next hnil => exact absurd hnil (skipBlanks_cons_ne_nil (by decide))
  next c behind hcons =>
  obtain ⟨rfl, rfl⟩ := eq_of_skipBlanks (by decide) hcons
  rw [if_neg, if_neg, if_neg, if_neg, if_pos rfl]
  · exact (gives_readQuoted s rest).map Value.text _
  all_goals decide

theorem gives_readValue_array {items : List Value}
    (hitems : ∀ item ∈ items, ReadsBack (readValue room) item) (rest : Bytes) :
    Gives (readValue (room + 1) (encodeChars (Value.array items).chars ++ rest)) (.array items)
      rest := by
  have hread := gives_readItems hitems rest
  have hbytes : encodeChars (Value.array items).chars ++ rest
      = byte '[' :: (encodeChars (itemsChars true items) ++ byte ']' :: rest) := by
    rw [Value.chars, encodeChars_cons_ascii (by decide), encodeChars_append, List.cons_append,
      List.append_assoc]
    rfl
  rw [hbytes, readValue]
  split
  · next hnil => exact absurd hnil (skipBlanks_cons_ne_nil (by decide))
  next c behind hcons =>
  obtain ⟨rfl, rfl⟩ := eq_of_skipBlanks (by decide) hcons
  rw [if_neg, if_neg, if_neg, if_neg, if_neg, if_pos rfl]
  · exact hread.map Value.array _
  all_goals decide

theorem encodeChars_object_append (members : List (String × Value)) (rest : Bytes) :
    encodeChars (Value.object members).chars ++ rest
      = byte '\x7b' :: (encodeChars (membersChars true members) ++ byte '\x7d' :: rest) := by
  rw [Value.chars, encodeChars_cons_ascii (by decide), encodeChars_append, List.cons_append,
    List.append_assoc]
  rfl

theorem gives_readValue_object {members : List (String × Value)}
    (hmembers : ∀ member ∈ members, ReadsBack (readValue room) member.2)
    (horder : Ascending members) (rest : Bytes) :
    Gives (readValue (room + 1) (encodeChars (Value.object members).chars ++ rest))
      (.object members) rest := by
  have hread := gives_readMembers hmembers horder rest
  rw [encodeChars_object_append, readValue]
  split
  · next hnil => exact absurd hnil (skipBlanks_cons_ne_nil (by decide))
  next c behind hcons =>
  obtain ⟨rfl, rfl⟩ := eq_of_skipBlanks (by decide) hcons
  rw [if_neg, if_neg, if_neg, if_neg, if_neg, if_neg, if_pos rfl]
  · exact hread.map Value.object _
  all_goals decide

/-! ### All values -/

/-- A value that a reader with room for some brackets inside one another gets back: its numbers are
    integers of a word, and the members of its objects are in order. -/
inductive Readable : Nat → Value → Prop
  | null (room : Nat) : Readable room .null
  | boolean (room : Nat) (b : Bool) : Readable room (.boolean b)
  | integer (room : Nat) {n : Int} (hn : Number.IsExact n) : Readable room (.number (.integer n))
  | text (room : Nat) (s : String) : Readable room (.text s)
  | array {room : Nat} {items : List Value} (hitems : ∀ item ∈ items, Readable room item) :
      Readable (room + 1) (.array items)
  | object {room : Nat} {members : List (String × Value)} (horder : Ascending members)
      (hmembers : ∀ member ∈ members, Readable room member.2) :
      Readable (room + 1) (.object members)

/-- **A value is read back as it is written.** -/
theorem Readable.readsBack {value : Value} (h : Readable room value) :
    ReadsBack (readValue room) value := by
  induction h with
  | null room =>
    exact ⟨⟨_, _, rfl, by decide, by decide⟩, fun rest _ => gives_readValue_null room rest⟩
  | boolean room b =>
    refine ⟨?_, fun rest _ => gives_readValue_boolean room b rest⟩
    cases b with
    | true => exact ⟨_, _, rfl, by decide, by decide⟩
    | false => exact ⟨_, _, rfl, by decide, by decide⟩
  | @integer room n hn =>
    obtain ⟨b, more, hbytes, hb⟩ := encodeChars_signedDecimal_cons n
    refine ⟨⟨b, more, hbytes, isBlank_of_startsNumber hb, ne_of_startsNumber hb (by decide)⟩,
      fun rest hrest => ?_⟩
    have hread := gives_readNumber hn hrest
    show Gives (readValue room (encodeChars (signedDecimal n) ++ rest)) _ rest
    rw [hbytes, List.cons_append] at hread ⊢
    exact gives_readValue_number hb hread
  | text room s =>
    exact ⟨⟨_, _, encodeChars_quotedChars s, by decide, by decide⟩,
      fun rest _ => gives_readValue_text room s rest⟩
  | array _ ih =>
    exact ⟨⟨_, _, encodeChars_cons_ascii (by decide) _, by decide, by decide⟩,
      fun rest _ => gives_readValue_array ih rest⟩
  | object horder _ ih =>
    exact ⟨⟨_, _, encodeChars_cons_ascii (by decide) _, by decide, by decide⟩,
      fun rest _ => gives_readValue_object ih horder rest⟩

end BoundedCache.Json
