import BoundedCache.Json.Reader.Input
import BoundedCache.Proofs.Text.Utf8

namespace BoundedCache.Json

/-!
# What a reader gives

`Gives result value rest` says that a result is a success with the given value and rest.  It hides
how long the rest may be, so facts about readers that are put together fit without a remark about
bounds.

A reader can only give a value if what follows does not belong to it.  `Ends rest` says so for all
values: a rest that is empty or starts with a comma or a closing bracket.
-/

/-- A result with a value and a rest. -/
def Gives {α : Type} {bound : Nat} (result : Except Fault (Parsed α bound)) (value : α)
    (rest : Bytes) : Prop :=
  ∃ shorter, result = .ok ⟨value, rest, shorter⟩

/-- What may follow a value. -/
def Ends : Bytes → Prop
  | [] => True
  | b :: _ => b = byte ',' ∨ b = byte ']' ∨ b = byte '\x7d'

theorem ends_comma (rest : Bytes) : Ends (byte ',' :: rest) := .inl rfl

theorem ends_square (rest : Bytes) : Ends (byte ']' :: rest) := .inr (.inl rfl)

theorem ends_curly (rest : Bytes) : Ends (byte '\x7d' :: rest) := .inr (.inr rfl)

variable {α β : Type} {bound larger : Nat} {value : α} {rest : Bytes}

theorem Gives.of_ok {result : Except Fault (Parsed α bound)} {parsed : Parsed α bound}
    (h : result = .ok parsed) (hvalue : parsed.value = value) (hrest : parsed.rest = rest) :
    Gives result value rest := by
  subst hvalue hrest
  exact ⟨parsed.shorter, h⟩

theorem Gives.widen {result : Except Fault (Parsed α bound)} (h : Gives result value rest)
    (hle : bound ≤ larger) : Gives (result.map (·.widen hle)) value rest := by
  obtain ⟨shorter, rfl⟩ := h
  exact ⟨Nat.lt_of_lt_of_le shorter hle, rfl⟩

theorem Gives.map {result : Except Fault (Parsed α bound)} (h : Gives result value rest)
    (f : α → β) (hle : bound ≤ larger) :
    Gives (result.map fun parsed => (parsed.map f).widen hle) (f value) rest := by
  obtain ⟨shorter, rfl⟩ := h
  exact ⟨Nat.lt_of_lt_of_le shorter hle, rfl⟩

/-- What is read first is what the reader gives. -/
theorem Gives.readFirst_eq {reader : Reader α} {input : Bytes}
    (h : Gives (reader input) value rest) : readFirst reader input = .ok value := by
  obtain ⟨shorter, hreader⟩ := h
  rw [readFirst, hreader]
  rfl

/-- What is read with nothing behind it is what the input consists of. -/
theorem Gives.readWhole_eq {reader : Reader α} {input : Bytes}
    (h : Gives (reader input) value []) : readWhole reader input = .ok value := by
  obtain ⟨shorter, hreader⟩ := h
  rw [readWhole, hreader]
  rfl

/-! ### Blanks and words -/

/-- There is nothing to skip in front of a byte that is no blank. -/
theorem skipBlanks_cons {b : UInt8} (hb : isBlank b = false) (rest : Bytes) :
    skipBlanks (b :: rest) = b :: rest := by
  rw [skipBlanks, List.dropWhile_cons_of_neg (by rw [hb]; exact Bool.false_ne_true)]

theorem eq_of_skipBlanks {b c : UInt8} {more : Bytes} (hb : isBlank b = false)
    (h : skipBlanks (b :: rest) = c :: more) : b = c ∧ rest = more :=
  List.cons.inj ((skipBlanks_cons hb rest).symm.trans h)

theorem skipBlanks_cons_ne_nil {b : UInt8} (hb : isBlank b = false) :
    skipBlanks (b :: rest) ≠ [] := by
  rw [skipBlanks_cons hb]
  exact List.cons_ne_nil b rest

theorem gives_expectByte {b : UInt8} (hb : isBlank b = false) (rest : Bytes) :
    Gives (expectByte b (b :: rest)) () rest := by
  unfold expectByte
  split
  · next hnil => exact absurd hnil (skipBlanks_cons_ne_nil hb)
  · next c more hcons =>
    obtain ⟨rfl, rfl⟩ := eq_of_skipBlanks hb hcons
    exact ⟨_, if_pos rfl⟩

theorem expectWord_append (word rest : Bytes) : expectWord word (word ++ rest) = .ok rest := by
  induction word with
  | nil => rfl
  | cons w word ih => rw [List.cons_append, expectWord, if_pos rfl, ih]

theorem gives_readWord (word : Bytes) (value : α) (rest : Bytes) :
    Gives (readWord word value (word ++ rest)) value rest := by
  have hword := expectWord_append word rest
  unfold readWord
  split
  · next fault herror => exact nomatch hword.symm.trans herror
  · next rest' hok =>
    obtain rfl := Except.ok.inj (hword.symm.trans hok)
    exact ⟨_, rfl⟩

end BoundedCache.Json
