import BoundedCache.Proofs.Key
import BoundedCache.Proofs.Run.Basic
import BoundedCache.Proofs.Store.Contents
import BoundedCache.Proofs.Text.Spelling

namespace BoundedCache

/-!
# Dropping the keys of one chat or one user

A chat client drops what it knows of a chat by a pattern such as `messages:42:`.  Patterns are found
anywhere in a key and not only at its front; still such a pattern finds the keys of that chat and of
no other one (`Scope.infix_text_iff`), as long as a key holds nothing that a client can word freely:

* a pattern that begins in front of the first colon of a key begins with the kind of the lookup, as
  no kind ends like another one that a pattern can name (`kind_eq_of_suffix`);
* all of a pattern does not fit behind that colon, where there are two more colons at most, and a
  number in front of the first of them (`not_kind_behind`);
* an identifier ends at a colon, so no identifier is taken for another one that it is a part of
  (`covers_iff`).

`Scope.pattern_drops_covered` says what that means for a store.
-/

/-- The keys of one chat or one user that are dropped together. -/
inductive Scope
  /-- All pages of messages of a chat. -/
  | messages (number : Int)
  /-- What is known of a chat. -/
  | chat (number : Int)
  /-- What is known of a user. -/
  | user (number : Int)
  deriving DecidableEq, Repr

/-- Whether a key holds nothing that a client can word freely. -/
def Key.isPlain : Key → Bool
  | chatList => true
  | chatInfo _ => true
  | userInfo _ => true
  | messages _ _ => true
  | settings _ => false
  | search _ _ => false
  | analytics _ _ => false

namespace Scope

/-- The kind of the keys. -/
def kind : Scope → String
  | messages _ => "messages"
  | chat _ => "chat"
  | user _ => "user"

/-- The number of the chat or the user. -/
def number : Scope → Int
  | messages number => number
  | chat number => number
  | user number => number

/-- The pattern that drops the keys. -/
def pattern (scope : Scope) : String :=
  ":".intercalate [scope.kind, String.ofList (signedDecimal scope.number), ""]

/-- Whether a key is one of them. -/
def covers : Scope → Key → Bool
  | messages number, .messages other _ => other = number
  | chat number, .chatInfo other => other = number
  | user number, .userInfo other => other = number
  | _, _ => false

theorem toList_pattern (scope : Scope) :
    scope.pattern.toList = scope.kind.toList ++ ':' :: (signedDecimal scope.number ++ [':']) := by
  simp [pattern]

/-! ### Patterns and keys in lower case -/

/-- Whether a text has small letters, digits and punctuation of ASCII only. -/
def isAscii (text : List Char) : Bool := text.all fun c => Text.inRanges Text.asciiRanges c.toNat

theorem isAscii_cons (c : Char) (text : List Char) :
    isAscii (c :: text) = (Text.inRanges Text.asciiRanges c.toNat && isAscii text) :=
  List.all_cons

theorem isAscii_append (text more : List Char) :
    isAscii (text ++ more) = (isAscii text && isAscii more) :=
  List.all_append

theorem isAscii_decimal (n : Nat) : isAscii (decimal n) = true := by
  refine List.all_eq_true.2 fun c hc => ?_
  have hdigit := isDigit_of_mem_decimal hc
  simp only [Text.inRanges, Text.asciiRanges, List.any_cons, Bool.or_eq_true, Bool.and_eq_true,
    decide_eq_true_eq]
  omega

theorem isAscii_signedDecimal (n : Int) : isAscii (signedDecimal n) = true := by
  cases n with
  | ofNat n => exact isAscii_decimal n
  | negSucc n =>
    rw [signedDecimal, isAscii_cons, isAscii_decimal]
    rfl

theorem lowercase_eq_of_isAscii {text : List Char} (h : isAscii text = true) :
    Text.lowercase text = text :=
  Text.lowercase_of_isSmall fun c hc => Text.isSmall_of_ascii (List.all_eq_true.1 h c hc)

theorem lowercase_pattern (scope : Scope) :
    Text.lowercase scope.pattern.toList = scope.pattern.toList := by
  have hkind : isAscii scope.kind.toList = true := by cases scope <;> rw [kind] <;> rfl
  refine lowercase_eq_of_isAscii ?_
  rw [toList_pattern, isAscii_append, isAscii_cons, isAscii_append, isAscii_signedDecimal, hkind]
  rfl

theorem lowercase_text {key : Key} (hplain : key.isPlain = true) :
    Text.lowercase key.text.toList = key.text.toList := by
  have hkind : isAscii key.kind.toList = true := by cases key <;> rw [Key.kind] <;> rfl
  have hdetail : isAscii key.detail = true := by
    cases key with
    | chatList => rfl
    | chatInfo chat => rw [Key.detail, isAscii_append, isAscii_signedDecimal]; rfl
    | userInfo user => rw [Key.detail, isAscii_append, isAscii_signedDecimal]; rfl
    | messages chat limit =>
      rw [Key.detail, isAscii_append, isAscii_signedDecimal, isAscii_cons, isAscii_append,
        isAscii_decimal]
      rfl
    | settings area => exact absurd hplain Bool.false_ne_true
    | search query limit => exact absurd hplain Bool.false_ne_true
    | analytics chat metric => exact absurd hplain Bool.false_ne_true
  refine lowercase_eq_of_isAscii ?_
  rw [Key.toList_text, isAscii_append, isAscii_cons, hkind, hdetail]
  rfl

/-! ### Where a pattern can be found -/

/-- **A pattern found in a key** begins in front of the first colon, or all of it is behind that. -/
theorem of_infix_text {scope : Scope} {key : Key} (h : scope.pattern.toList <:+: key.text.toList) :
    (scope.kind.toList <:+ key.kind.toList
        ∧ ∃ rest, key.detail = signedDecimal scope.number ++ ':' :: rest)
      ∨ ∃ before rest, key.detail
        = before ++ scope.kind.toList ++ ':' :: (signedDecimal scope.number ++ ':' :: rest) := by
  obtain ⟨left, right, h⟩ := h
  have hkind : ':' ∉ scope.kind.toList := by cases scope <;> simp [kind]
  have hsplit : left ++ scope.kind.toList ++ ':' :: (signedDecimal scope.number ++ ':' :: right)
      = key.kind.toList ++ ':' :: key.detail := by
    rw [← Key.toList_text, ← h, toList_pattern]
    simp only [List.append_assoc, List.cons_append, List.nil_append]
  by_cases hleft : ':' ∈ left
  · right
    obtain ⟨first, before, rfl, hfirst⟩ := List.eq_append_cons_of_mem hleft
    rw [List.append_assoc, List.append_assoc, List.cons_append] at hsplit
    obtain ⟨-, hdetail⟩ := cut_first hfirst key.colon_not_mem_kind hsplit
    exact ⟨before, right, by rw [← hdetail, List.append_assoc]⟩
  · left
    have hfront : ':' ∉ left ++ scope.kind.toList := by simp [hleft, hkind]
    obtain ⟨heq, hdetail⟩ := cut_first hfront key.colon_not_mem_kind hsplit
    exact ⟨⟨left, heq⟩, right, hdetail.symm⟩

theorem exists_letter (scope : Scope) : ∃ c ∈ scope.kind.toList, 0x39 < c.toNat := by
  cases scope with
  | messages number => exact ⟨'m', by simp [kind], by decide⟩
  | chat number => exact ⟨'c', by simp [kind], by decide⟩
  | user number => exact ⟨'u', by simp [kind], by decide⟩

theorem toNat_le_of_mem_signedDecimal {n : Int} {c : Char} (hc : c ∈ signedDecimal n) :
    c.toNat ≤ 0x39 := by
  cases n with
  | ofNat n => exact (isDigit_of_mem_decimal hc).2
  | negSucc n =>
    rcases List.mem_cons.1 hc with rfl | hc
    · decide
    · exact (isDigit_of_mem_decimal hc).2

/-- The detail of a plain key has two colons at most, and a number in front of the first one. -/
theorem not_kind_behind {scope : Scope} {key : Key} (hplain : key.isPlain = true)
    (before rest : List Char) : key.detail
      ≠ before ++ scope.kind.toList ++ ':' :: (signedDecimal scope.number ++ ':' :: rest) := by
  intro h
  have hcount := congrArg (List.count ':') h
  have hnumber (n : Int) : (signedDecimal n).count ':' = 0 :=
    List.count_eq_zero.2 (colon_not_mem_signedDecimal n)
  have hlimit (n : Nat) : (decimal n).count ':' = 0 :=
    List.count_eq_zero.2 (colon_not_mem_decimal n)
  simp only [List.count_append, List.count_cons_self, hnumber] at hcount
  cases key with
  | chatList => simp [Key.detail] at hcount
  | chatInfo chat => simp [Key.detail, hnumber] at hcount; omega
  | userInfo user => simp [Key.detail, hnumber] at hcount; omega
  | messages chat limit =>
    simp [Key.detail, hnumber, hlimit] at hcount
    have hbefore : ':' ∉ before ++ scope.kind.toList := by
      rw [← List.count_eq_zero, List.count_append]
      omega
    obtain ⟨hchat, -⟩ := cut_first (colon_not_mem_signedDecimal chat) hbefore h
    obtain ⟨c, hc, hletter⟩ := scope.exists_letter
    have hmem : c ∈ signedDecimal chat := hchat ▸ List.mem_append_right _ hc
    exact absurd (toNat_le_of_mem_signedDecimal hmem) (Nat.not_le.2 hletter)
  | settings area => exact absurd hplain Bool.false_ne_true
  | search query limit => exact absurd hplain Bool.false_ne_true
  | analytics chat metric => exact absurd hplain Bool.false_ne_true

/-- No kind ends like another one that a pattern can name. -/
theorem kind_eq_of_suffix {scope : Scope} {key : Key}
    (h : scope.kind.toList <:+ key.kind.toList) : scope.kind = key.kind := by
  revert h
  cases scope <;> cases key <;> rw [kind, Key.kind] <;> decide +kernel

/-- A scope covers the keys of its kind that begin with its number. -/
theorem covers_iff (scope : Scope) (key : Key) :
    scope.covers key = true ↔ scope.kind = key.kind
      ∧ ∃ rest, key.detail = signedDecimal scope.number ++ ':' :: rest := by
  have hnumber {m n : Int} {rest : List Char} :
      (∃ more, signedDecimal m ++ ':' :: rest = signedDecimal n ++ ':' :: more) ↔ m = n := by
    constructor
    · rintro ⟨more, heq⟩
      exact signedDecimal_injective
        (cut_first (colon_not_mem_signedDecimal m) (colon_not_mem_signedDecimal n) heq).1
    · rintro rfl
      exact ⟨rest, rfl⟩
  cases scope <;> cases key <;> simp [covers, kind, Key.kind, Key.detail, number, hnumber]

/-- **A pattern is found in the keys that it covers** and in no other plain key. -/
theorem infix_text_iff (scope : Scope) {key : Key} (hplain : key.isPlain = true) :
    scope.pattern.toList <:+: key.text.toList ↔ scope.covers key = true := by
  rw [covers_iff]
  constructor
  · intro h
    rcases of_infix_text h with ⟨hkind, hdetail⟩ | ⟨before, rest, hdetail⟩
    · exact ⟨kind_eq_of_suffix hkind, hdetail⟩
    · exact absurd hdetail (not_kind_behind hplain before rest)
  · rintro ⟨hkind, rest, hdetail⟩
    refine ⟨[], rest, ?_⟩
    rw [Key.toList_text, toList_pattern, hdetail, hkind]
    simp only [List.nil_append, List.append_assoc, List.cons_append]

end Scope

/-- **A pattern drops the keys of its scope.**  Of the keys that hold nothing that a client can word
    it takes away all that it covers, and leaves every other one with its entry as it is. -/
theorem Scope.pattern_drops_covered (scope : Scope) (store : Store) {key : Key}
    (hplain : key.isPlain = true) :
    (store.invalidatePattern scope.pattern).store.entries.find? key.text
      = if scope.covers key then none else store.entries.find? key.text := by
  have hfind : (store.invalidatePattern scope.pattern).store.entries.find? key.text
      = if key.text ∈ store.keysMatching scope.pattern then none
        else store.entries.find? key.text :=
    Store.find?_foldl Store.find?_drop _ store key.text
  by_cases hkey : key.text ∈ store.entries.keys
  · have hmatch : key.text ∈ store.keysMatching scope.pattern ↔ scope.covers key = true := by
      rw [Store.mem_keysMatching_iff, and_iff_right hkey, lowercase_pattern, lowercase_text hplain,
        infix_text_iff scope hplain]
    rw [hfind, if_congr hmatch rfl rfl]
  · rw [hfind, (Table.find?_eq_none_iff _ _).2 hkey, ite_self, ite_self]

/-- Chat 1 has its pages dropped; the pages of the chats 11, 21 and -1 and what is known of chat 1
    stay, and so does the list of chats. -/
theorem Scope.pattern_drops_covered_one :
    let keys := [Key.messages 1 50, .messages 1 7, .messages 11 1, .messages 21 50,
      .messages (-1) 50, .chatInfo 1, .userInfo 1, .chatList]
    let store := (Store.new 100 60).after (keys.map fun key => ⟨0, .put key.text ⟨[]⟩ 5⟩)
    let left := (store.invalidatePattern (Scope.messages 1).pattern).store
    (Scope.messages 1).pattern = "messages:1:"
      ∧ store.entries.keys.length = 8
      ∧ (∀ key ∈ keys, key.isPlain = true)
      ∧ ∀ key ∈ keys, left.entries.find? key.text
        = if (Scope.messages 1).covers key then none else store.entries.find? key.text := by
  intro keys store left
  have hplain : ∀ key ∈ keys, key.isPlain = true := by decide
  refine ⟨by decide +kernel, by decide +kernel, hplain, fun key hkey => ?_⟩
  exact pattern_drops_covered (.messages 1) store (hplain key hkey)

end BoundedCache
