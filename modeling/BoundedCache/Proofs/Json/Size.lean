import BoundedCache.Json.Size
import BoundedCache.Proofs.Decimal.Text
import BoundedCache.Proofs.Json.Reader.Quoted
import Mathlib.Algebra.BigOperators.Group.List.Basic
import Mathlib.Algebra.Order.Ring.Nat

namespace BoundedCache.Json

/-!
# The size of a value and its text

`Value.size` counts the bytes of a text that is never written.  `length_chars` says that it counts
right, along the value: a character takes the bytes of its escape (`length_escape`), a number those
of its digits (`length_number`), and every item or member but the first one a comma more.

As a size is a sum, the order of the members does not matter to it, at whatever depth
(`Reorders.size_eq`).
-/

/-! ### Characters -/

theorem length_encodeChars_of_ascii {chars : List Char} (hascii : ∀ c ∈ chars, c.toNat < 0x80) :
    (encodeChars chars).length = chars.length := by
  rw [encodeChars_of_ascii hascii, List.length_map]

/-- **A character takes the bytes of its escape.** -/
theorem length_escape (c : Char) : (encodeChars (escape c)).length = escapeWidth c := by
  unfold escapeWidth
  fun_cases escape c with
  | case1 hc => subst hc; rfl
  | case2 _ hc => subst hc; rfl
  | case3 _ _ hc => subst hc; rfl
  | case4 _ _ _ hc => subst hc; rfl
  | case5 _ _ _ _ hc => subst hc; rfl
  | case6 _ _ _ _ _ hc => subst hc; rfl
  | case7 _ _ _ _ _ _ hc => subst hc; rfl
  | case8 hquote hsolidus hback hfeed hline hreturn htab hcontrol =>
    have hhigh := hexDigit_ascii (show c.toNat / 16 < 16 by omega)
    have hlow := hexDigit_ascii (show c.toNat % 16 < 16 by omega)
    rw [if_neg (by simp [hquote, hsolidus]), if_neg (by simp [*]), if_pos hcontrol,
      length_encodeChars_of_ascii (by simp [hhigh, hlow])]
    rfl
  | case9 hquote hsolidus hback hfeed hline hreturn htab hcontrol =>
    rw [if_neg (by simp [hquote, hsolidus]), if_neg (by simp [*]), if_neg hcontrol,
      encodeChars_cons, encodeChars_nil, List.append_nil, String.length_utf8EncodeChar]

/-- The characters that are escaped by one further character. -/
def shortEscapes : List Char := ['"', '\\', '\x08', '\x0c', '\n', '\r', '\t']

theorem escapeWidth_eq (c : Char) :
    escapeWidth c
      = if c ∈ shortEscapes then 2 else if c.toNat < 0x20 then 6 else c.utf8Size := by
  simp only [escapeWidth, shortEscapes, List.mem_cons, List.not_mem_nil, or_false]
  grind

/-- The bytes of a string are those of its characters, and two quotation marks. -/
theorem quotedSize_eq (s : String) : quotedSize s = 2 + (s.toList.map escapeWidth).sum := by
  have hfold (chars : List Char) (start : Nat) :
      chars.foldl (fun n c => n + escapeWidth c) start
        = start + (chars.map escapeWidth).sum := by
    induction chars generalizing start with
    | nil => rfl
    | cons c chars ih => rw [List.foldl_cons, ih, List.map_cons, List.sum_cons, Nat.add_assoc]
  rw [quotedSize, String.foldl_eq_foldl_toList, hfold]

theorem length_escapes (chars : List Char) :
    (encodeChars (chars.flatMap escape)).length = (chars.map escapeWidth).sum := by
  induction chars with
  | nil => rfl
  | cons c chars ih =>
    rw [List.flatMap_cons, encodeChars_append, List.length_append, length_escape, ih,
      List.map_cons, List.sum_cons]

theorem length_quotedChars (s : String) :
    (encodeChars (quotedChars s)).length = quotedSize s := by
  rw [quotedChars, encodeChars_cons_ascii (by decide), List.length_cons, encodeChars_append,
    List.length_append, length_escapes, quotedSize_eq]
  have hmark : (encodeChars ['"']).length = 1 := rfl
  omega

/-! ### Numbers -/

theorem ascii_decimal (n : Nat) : ∀ c ∈ decimal n, c.toNat < 0x80 :=
  fun _ hc => Nat.lt_of_le_of_lt (isDigit_of_mem_decimal hc).2 (by decide)

theorem ascii_plainText (x : Scientific) : ∀ c ∈ x.plainText, c.toNat < 0x80 := by
  have hdigits := ascii_decimal x.digits
  have hzeros (n : Nat) : ∀ c ∈ List.replicate n '0', c.toNat < 0x80 := by
    intro c hc
    rw [List.eq_of_mem_replicate hc]
    decide
  unfold Scientific.plainText
  dsimp only
  split
  · rw [List.forall_mem_append, List.forall_mem_append]
    exact ⟨⟨hdigits, hzeros _⟩, by simp⟩
  · split
    · rw [List.forall_mem_append, List.forall_mem_cons]
      exact ⟨fun c hc => hdigits c (List.mem_of_mem_take hc), by decide,
        fun c hc => hdigits c (List.mem_of_mem_drop hc)⟩
    · rw [List.forall_mem_cons, List.forall_mem_cons, List.forall_mem_append]
      exact ⟨by decide, by decide, hzeros _, hdigits⟩

theorem ascii_exponentText (x : Scientific) : ∀ c ∈ x.exponentText, c.toNat < 0x80 := by
  have hdigits := ascii_decimal x.digits
  unfold Scientific.exponentText
  dsimp only
  rw [List.forall_mem_append, List.forall_mem_cons, List.forall_mem_cons]
  refine ⟨?_, by decide, by split <;> decide, ascii_decimal _⟩
  split
  · next leading d rest hcons =>
    rw [hcons, List.forall_mem_cons] at hdigits
    rw [List.forall_mem_cons, List.forall_mem_cons]
    exact ⟨hdigits.1, by decide, hdigits.2⟩
  · exact hdigits

theorem ascii_number (n : Number) : ∀ c ∈ n.chars, c.toNat < 0x80 := by
  have htext (magnitude : Binary64) : ∀ c ∈ magnitude.text, c.toNat < 0x80 := by
    unfold Binary64.text Scientific.text
    split
    · exact ascii_plainText _
    · exact ascii_exponentText _
  have hsign {chars : List Char} (h : ∀ c ∈ chars, c.toNat < 0x80) :
      ∀ c ∈ '-' :: chars, c.toNat < 0x80 :=
    List.forall_mem_cons.2 ⟨by decide, h⟩
  cases n with
  | integer n =>
    cases n with
    | ofNat n => exact ascii_decimal n
    | negSucc n => exact hsign (ascii_decimal _)
  | float negative magnitude =>
    cases negative with
    | true => exact hsign (htext magnitude)
    | false => exact htext magnitude

/-- **A number takes as many bytes as it has characters.** -/
theorem length_number (n : Number) : (encodeChars n.chars).length = n.size :=
  length_encodeChars_of_ascii (ascii_number n)

/-! ### Values -/

theorem itemsSize_eq (total : Nat) (items : List Value) :
    itemsSize total items = total + (items.map fun item => item.size + 1).sum := by
  induction items generalizing total with
  | nil => rfl
  | cons item items ih =>
    rw [itemsSize, ih, List.map_cons, List.sum_cons]
    omega

theorem membersSize_eq (total : Nat) (members : List (String × Value)) :
    membersSize total members
      = total + (members.map fun member => quotedSize member.1 + member.2.size + 2).sum := by
  induction members generalizing total with
  | nil => rfl
  | cons member members ih =>
    rw [membersSize, ih, List.map_cons, List.sum_cons]
    omega

/-- Two brackets around something. -/
theorem length_bracketed {first last : Char} (hfirst : first.toNat < 0x80)
    (hlast : last.toNat < 0x80) (chars : List Char) :
    (encodeChars (first :: (chars ++ [last]))).length = (encodeChars chars).length + 2 := by
  rw [encodeChars_cons_ascii hfirst, List.length_cons, encodeChars_append, List.length_append,
    encodeChars_cons_ascii hlast]
  rfl

/-- There is no comma in front of the first item, if there is one. -/
theorem length_itemsChars_true (items : List Value) :
    (encodeChars (itemsChars true items)).length + (if items.isEmpty then 0 else 1)
      = (encodeChars (itemsChars false items)).length := by
  cases items with
  | nil => rfl
  | cons item items =>
    have hcomma : itemsChars false (item :: items) = ',' :: itemsChars true (item :: items) := rfl
    rw [hcomma, encodeChars_cons_ascii (by decide), List.length_cons]
    rfl

theorem length_membersChars_true (members : List (String × Value)) :
    (encodeChars (membersChars true members)).length + (if members.isEmpty then 0 else 1)
      = (encodeChars (membersChars false members)).length := by
  cases members with
  | nil => rfl
  | cons member members =>
    have hcomma : membersChars false (member :: members)
        = ',' :: membersChars true (member :: members) := rfl
    rw [hcomma, encodeChars_cons_ascii (by decide), List.length_cons]
    rfl

mutual

/-- **The size of a value** is the number of the bytes of its text. -/
theorem length_chars : (value : Value) → (encodeChars value.chars).length = value.size
  | .null => rfl
  | .boolean true => rfl
  | .boolean false => rfl
  | .number n => length_number n
  | .text s => length_quotedChars s
  | .array items => by
    have hcomma := length_itemsChars_true items
    rw [length_itemsChars items] at hcomma
    rw [Value.chars, length_bracketed (by decide) (by decide), Value.size, itemsSize_eq]
    omega
  | .object members => by
    have hcomma := length_membersChars_true members
    rw [length_membersChars members] at hcomma
    rw [Value.chars, length_bracketed (by decide) (by decide), Value.size, membersSize_eq]
    omega

theorem length_itemsChars : (items : List Value) →
    (encodeChars (itemsChars false items)).length = (items.map fun item => item.size + 1).sum
  | [] => rfl
  | item :: items => by
    rw [itemsChars, encodeChars_append, encodeChars_append, List.length_append,
      List.length_append, length_chars item, length_itemsChars items, List.map_cons, List.sum_cons,
      Nat.add_comm item.size 1, Nat.add_assoc]
    rfl

theorem length_membersChars : (members : List (String × Value)) →
    (encodeChars (membersChars false members)).length
      = (members.map fun member => quotedSize member.1 + member.2.size + 2).sum
  | [] => rfl
  | (key, value) :: members => by
    have hcomma : (encodeChars (separator false)).length = 1 := rfl
    rw [membersChars, encodeChars_append, encodeChars_append, List.length_append,
      List.length_append, length_quotedChars, encodeChars_cons_ascii (by decide), List.length_cons,
      encodeChars_append, List.length_append, length_chars value, length_membersChars members,
      List.map_cons, List.sum_cons, hcomma]
    dsimp only
    omega

end

theorem length_render (value : Value) : (encodeUtf8 value.render).length = value.size := by
  rw [encodeUtf8_render, length_chars]

theorem two_le_size (payload : Payload) : 2 ≤ payload.size := by
  rw [Payload.size, Payload.toValue, Value.size, membersSize_eq]
  cases payload.members with
  | nil => exact Nat.le_refl 2
  | cons member members =>
    rw [List.map_cons, List.sum_cons, List.isEmpty_cons, if_neg Bool.false_ne_true]
    omega

/-! ### The order of the members -/

/-- Whether two values differ at most in the order in which the members of objects stand, at
    whatever depth. -/
inductive Value.Reorders : Value → Value → Prop
  /-- The members of one object stand in another order. -/
  | members {members others : List (String × Value)} (hperm : members.Perm others) :
    Reorders (.object members) (.object others)
  /-- Inside a member of an object. -/
  | ofMember {value other : Value} (key : String) (before after : List (String × Value))
    (hvalue : Reorders value other) :
    Reorders (.object (before ++ (key, value) :: after))
      (.object (before ++ (key, other) :: after))
  /-- Inside an item of an array. -/
  | ofItem {item other : Value} (before after : List Value) (hitem : Reorders item other) :
    Reorders (.array (before ++ item :: after)) (.array (before ++ other :: after))
  /-- Several times. -/
  | trans {value other third : Value} (hfirst : Reorders value other)
    (hsecond : Reorders other third) : Reorders value third

/-- **The order of members** does not matter to the size. -/
theorem Value.Reorders.size_eq {value other : Value} (h : value.Reorders other) :
    value.size = other.size := by
  induction h with
  | @members members others hperm =>
    rw [Value.size, Value.size, membersSize_eq, membersSize_eq, (hperm.map _).sum_eq,
      List.Perm.isEmpty_eq hperm]
  | ofMember key before after _ ih =>
    simp [Value.size, membersSize_eq, ih]
  | ofItem before after _ ih =>
    simp [Value.size, itemsSize_eq, ih]
  | trans _ _ hfirst hsecond => exact hfirst.trans hsecond

end BoundedCache.Json
