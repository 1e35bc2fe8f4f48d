import BoundedCache.Proofs.Text.CaseTable
import BoundedCache.Proofs.Text.Lowercase
import Mathlib.Data.List.Forall2
import Mathlib.Data.Nat.Init

namespace BoundedCache.Text

/-!
# Spellings of a text

Two texts that differ in case only, letter by letter (`SameLetters`), are two spellings of one text.
Their lower case is the same at every letter but `Σ`, which is `ς` at the end of a word, whereas its
small letter `σ` stays what it is.  So two spellings have one lower case iff a `Σ` ends a word at
the same places of both (`lowercase_eq_iff`).

Whether a word ends does not depend on how its neighbours are spelled (`SameLetters.endsWord_eq`),
and white space around a text has no part in any of this (`lowercase_trim_eq_iff`).
-/

/-- **One letter in either case**: the same character, or a character and its lower case. -/
def IsSameLetter (c d : Char) : Prop := c = d ∨ simpleLower c = d ∨ simpleLower d = c

instance (c d : Char) : Decidable (IsSameLetter c d) :=
  inferInstanceAs (Decidable (c = d ∨ simpleLower c = d ∨ simpleLower d = c))

/-- **Two spellings of a text**: as many characters, and the same letters one by one. -/
abbrev SameLetters (s t : List Char) : Prop := List.Forall₂ IsSameLetter s t

/-- Whether a `Σ` stands at a place of a text that follows on `before`, which is reversed, and ends
    a word there. -/
def EndsWordFrom (before text : List Char) (place : Nat) : Prop :=
  text[place]? = some 'Σ'
    ∧ endsWord ((text.take place).reverse ++ before) (text.drop (place + 1)) = true

/-- Whether a `Σ` stands at a place of a text and ends a word there. -/
def EndsWordAt (text : List Char) (place : Nat) : Prop := EndsWordFrom [] text place

instance (text : List Char) (place : Nat) : Decidable (EndsWordAt text place) :=
  inferInstanceAs (Decidable (_ ∧ _))

/-! ### Letters -/

namespace IsSameLetter

variable {c d : Char}

theorem symm (h : IsSameLetter c d) : IsSameLetter d c := by
  rcases h with rfl | hlower | hlower
  · exact .inl rfl
  · exact .inr (.inr hlower)
  · exact .inr (.inl hlower)

/-- What does not depend on the case is the same of both. -/
theorem congr {α : Type} {f : Char → α} (hf : ∀ c, f (simpleLower c) = f c)
    (h : IsSameLetter c d) : f c = f d := by
  rcases h with rfl | rfl | rfl
  · rfl
  · exact (hf c).symm
  · exact hf d

theorem simpleLower_eq (h : IsSameLetter c d) : simpleLower c = simpleLower d :=
  h.congr simpleLower_simpleLower

/-- A `Σ` is written `Σ` or `σ`. -/
theorem eq_or_eq_of_sigma (h : IsSameLetter 'Σ' d) : d = 'Σ' ∨ d = 'σ' := by
  rcases h with rfl | rfl | hlower
  · exact .inl rfl
  · exact .inr simpleLower_sigma
  · exact absurd hlower (simpleLower_ne_sigma d)

/-- There is one way to write `İ`. -/
theorem eq_dotted_iff (h : IsSameLetter c d) : c = 'İ' ↔ d = 'İ' := by
  have hlower := h.simpleLower_eq
  have hdotted : simpleLower 'İ' = 'İ' := by decide +kernel
  constructor
  · rintro rfl
    exact eq_of_simpleLower_eq_dotted (hlower.symm.trans hdotted)
  · rintro rfl
    exact eq_of_simpleLower_eq_dotted (hlower.trans hdotted)

end IsSameLetter

/-! ### Neighbours -/

variable {before before' after after' s t : List Char}

theorem SameLetters.startsCased_eq (h : SameLetters s t) : startsCased s = startsCased t := by
  induction h with
  | nil => rfl
  | @cons c d s t hletter _ ih =>
    have hignorable := hletter.congr isCaseIgnorable_simpleLower
    cases hd : isCaseIgnorable d with
    | true =>
      rw [startsCased, startsCased, List.dropWhile_cons_of_pos (hignorable.trans hd),
        List.dropWhile_cons_of_pos hd]
      exact ih
    | false =>
      rw [startsCased, startsCased, List.dropWhile_cons_of_neg (by simp [hignorable, hd]),
        List.dropWhile_cons_of_neg (by simp [hd])]
      exact hletter.congr isCased_simpleLower

theorem SameLetters.endsWord_eq (hbefore : SameLetters before before')
    (hafter : SameLetters after after') : endsWord before after = endsWord before' after' := by
  rw [endsWord, endsWord, hbefore.startsCased_eq, hafter.startsCased_eq]

/-! ### Lower case -/

theorem length_lowerAt (before : List Char) (c : Char) (after : List Char) :
    (lowerAt before c after).length = if c = 'İ' then 2 else 1 := by
  rw [lowerAt]
  split
  · next hsigma => subst hsigma; rfl
  · split <;> rfl

/-- **Two spellings of a letter** have one lower case unless one of them alone is a `Σ` that ends a
    word. -/
theorem lowerAt_eq_iff {c d : Char} (hbefore : SameLetters before before')
    (h : IsSameLetter c d) (hafter : SameLetters after after') :
    lowerAt before c after = lowerAt before' d after' ↔
      ((c = 'Σ' ∧ endsWord before after = true) ↔ (d = 'Σ' ∧ endsWord before' after' = true)) := by
  have hends := hbefore.endsWord_eq hafter
  have hsmall : simpleLower 'σ' = 'σ' := by decide +kernel
  by_cases hc : c = 'Σ'
  · subst hc
    rcases h.eq_or_eq_of_sigma with rfl | rfl
    · simp [lowerAt, hends]
    · simp [lowerAt, hends, hsmall]
  · by_cases hd : d = 'Σ'
    · subst hd
      obtain rfl : c = 'σ' := h.symm.eq_or_eq_of_sigma.resolve_left hc
      rw [eq_comm]
      simp [lowerAt, hends, hsmall]
    · simp [lowerAt, hc, hd, h.eq_dotted_iff, h.simpleLower_eq]

theorem endsWordFrom_zero {c : Char} :
    EndsWordFrom before (c :: s) 0 ↔ c = 'Σ' ∧ endsWord before s = true := by
  simp [EndsWordFrom]

theorem endsWordFrom_succ {c : Char} {place : Nat} :
    EndsWordFrom before (c :: s) (place + 1) ↔ EndsWordFrom (c :: before) s place := by
  simp [EndsWordFrom]

/-- **Two spellings of a text** have one lower case iff a `Σ` ends a word at the same places of
    both. -/
theorem lowerBetween_eq_iff (hbefore : SameLetters before before') (h : SameLetters s t) :
    lowerBetween before s [] = lowerBetween before' t [] ↔
      ∀ place, EndsWordFrom before s place ↔ EndsWordFrom before' t place := by
  induction h generalizing before before' with
  | nil => simp [EndsWordFrom, lowerBetween]
  | @cons c d s t hletter hrest ih =>
    have hlength : (lowerAt before c s).length = (lowerAt before' d t).length := by
      rw [length_lowerAt, length_lowerAt]
      exact if_congr hletter.eq_dotted_iff rfl rfl
    have hsplit : lowerBetween before (c :: s) [] = lowerBetween before' (d :: t) [] ↔
        lowerAt before c s = lowerAt before' d t
          ∧ lowerBetween (c :: before) s [] = lowerBetween (d :: before') t [] := by
      rw [lowerBetween, lowerBetween, List.append_nil, List.append_nil]
      exact ⟨fun heq => List.append_inj heq hlength, fun heq => by rw [heq.1, heq.2]⟩
    rw [hsplit, lowerAt_eq_iff hbefore hletter hrest, ih (.cons hletter hbefore)]
    refine Iff.trans ?_ Nat.and_forall_add_one
    simp only [endsWordFrom_zero, endsWordFrom_succ]

theorem lowercase_eq_iff (h : SameLetters s t) :
    lowercase s = lowercase t ↔ ∀ place, EndsWordAt s place ↔ EndsWordAt t place := by
  rw [lowercase_eq, lowercase_eq]
  exact lowerBetween_eq_iff .nil h

/-! ### Texts in lower case -/

/-- Whether a character is its own lower case, wherever it stands. -/
def IsSmall (c : Char) : Prop := c ≠ 'Σ' ∧ c ≠ 'İ' ∧ simpleLower c = c

instance (c : Char) : Decidable (IsSmall c) :=
  inferInstanceAs (Decidable (c ≠ 'Σ' ∧ c ≠ 'İ' ∧ simpleLower c = c))

theorem isSmall_of_not_isCased {c : Char} (h : isCased c = false) : IsSmall c := by
  have hcased : isCased 'Σ' = true ∧ isCased 'İ' = true := by decide +kernel
  refine ⟨?_, ?_, simpleLower_of_not_isCased h⟩
  · rintro rfl
    exact Bool.false_ne_true (h.symm.trans hcased.1)
  · rintro rfl
    exact Bool.false_ne_true (h.symm.trans hcased.2)

theorem isSmall_of_ascii {c : Char} (h : inRanges asciiRanges c.toNat = true) : IsSmall c := by
  refine ⟨?_, ?_, simpleLower_of_ascii h⟩
  · rintro rfl
    exact absurd h (by decide)
  · rintro rfl
    exact absurd h (by decide)

theorem lowerBetween_of_isSmall {text : List Char} (hsmall : ∀ c ∈ text, IsSmall c)
    (before after : List Char) : lowerBetween before text after = text := by
  induction text generalizing before with
  | nil => rfl
  | cons c text ih =>
    obtain ⟨⟨hsigma, hdotted, hlower⟩, hrest⟩ := List.forall_mem_cons.1 hsmall
    rw [lowerBetween, ih hrest, lowerAt, if_neg hsigma, if_neg hdotted, hlower]
    rfl

/-- **A text in lower case** is left as it is. -/
theorem lowercase_of_isSmall {text : List Char} (hsmall : ∀ c ∈ text, IsSmall c) :
    lowercase text = text := by
  rw [lowercase_eq, lowerBetween_of_isSmall hsmall]

/-! ### White space around a text -/

theorem lowerBetween_white {white : List Char} (hwhite : ∀ c ∈ white, isWhiteSpace c = true)
    (before after : List Char) : lowerBetween before white after = white :=
  lowerBetween_of_isSmall (fun c hc =>
    isSmall_of_not_isCased (isCased_of_isWhiteSpace (hwhite c hc))) before after

theorem startsCased_append_white {white : List Char} (hwhite : ∀ c ∈ white, isWhiteSpace c = true)
    (text : List Char) : startsCased (text ++ white) = startsCased text := by
  by_cases htext : ∀ c ∈ text, isCaseIgnorable c = true
  · rw [startsCased_append_of_ignorable htext, startsCased_of_ignorable htext]
    cases white with
    | nil => rfl
    | cons c white =>
      have hc := hwhite c List.mem_cons_self
      rw [startsCased, List.dropWhile_cons_of_neg (by simp [isCaseIgnorable_of_isWhiteSpace hc])]
      exact isCased_of_isWhiteSpace hc
  · exact startsCased_append htext white

/-- **White space around a text** is beside its lower case, too. -/
theorem lowercase_between_white {left right : List Char}
    (hleft : ∀ c ∈ left, isWhiteSpace c = true) (hright : ∀ c ∈ right, isWhiteSpace c = true)
    (text : List Char) : lowercase (left ++ text ++ right) = left ++ lowercase text ++ right := by
  have hinner : lowerBetween left.reverse text right = lowercase text := by
    rw [lowercase_eq]
    refine lowerBetween_congr fun first last _ => ?_
    have hreverse : ∀ c ∈ left.reverse, isWhiteSpace c = true := by simpa using hleft
    rw [endsWord, endsWord, startsCased_append_white hreverse, startsCased_append_white hright,
      List.append_nil, List.append_nil]
  rw [lowercase_eq, List.append_assoc, lowerBetween_append, lowerBetween_append,
    lowerBetween_white hleft, lowerBetween_white hright, List.append_nil, List.append_nil, hinner,
    List.append_assoc]

/-- There is one way to write white space. -/
theorem IsSameLetter.eq_of_isWhiteSpace {c d : Char} (h : IsSameLetter c d)
    (hwhite : isWhiteSpace c = true) : c = d := by
  have hsame {c : Char} (hwhite : isWhiteSpace c = true) : simpleLower c = c :=
    simpleLower_of_not_isCased (isCased_of_isWhiteSpace hwhite)
  have hwhite' := (h.congr isWhiteSpace_simpleLower).symm.trans hwhite
  rw [← hsame hwhite, ← hsame hwhite', h.simpleLower_eq]

theorem SameLetters.exists_trimLeft (h : SameLetters s t) :
    ∃ white, s = white ++ trimLeft s ∧ t = white ++ trimLeft t
      ∧ (∀ c ∈ white, isWhiteSpace c = true) ∧ SameLetters (trimLeft s) (trimLeft t) := by
  induction h with
  | nil => exact ⟨[], rfl, rfl, List.forall_mem_nil _, .nil⟩
  | @cons c d s t hletter hrest ih =>
    have hwhite := hletter.congr isWhiteSpace_simpleLower
    cases hc : isWhiteSpace c with
    | true =>
      obtain rfl := hletter.eq_of_isWhiteSpace hc
      obtain ⟨white, hs, ht, hall, hsame⟩ := ih
      have hdrop (text : List Char) : trimLeft (c :: text) = trimLeft text :=
        List.dropWhile_cons_of_pos hc
      refine ⟨c :: white, ?_, ?_, List.forall_mem_cons.2 ⟨hc, hall⟩, ?_⟩
      · rw [hdrop, List.cons_append, ← hs]
      · rw [hdrop, List.cons_append, ← ht]
      · rw [hdrop, hdrop]
        exact hsame
    | false =>
      have hfirst : trimLeft (c :: s) = c :: s :=
        List.dropWhile_cons_of_neg (by rw [hc]; exact Bool.false_ne_true)
      have hfirst' : trimLeft (d :: t) = d :: t :=
        List.dropWhile_cons_of_neg (by rw [← hwhite, hc]; exact Bool.false_ne_true)
      rw [hfirst, hfirst']
      exact ⟨[], rfl, rfl, List.forall_mem_nil _, .cons hletter hrest⟩

/-- Two spellings of a text have the same white space around them. -/
theorem SameLetters.exists_trim (h : SameLetters s t) :
    ∃ left right, s = left ++ trim s ++ right ∧ t = left ++ trim t ++ right
      ∧ (∀ c ∈ left, isWhiteSpace c = true) ∧ ∀ c ∈ right, isWhiteSpace c = true := by
  obtain ⟨left, hs, ht, hleft, hrest⟩ := h.exists_trimLeft
  obtain ⟨right, hs', ht', hright, -⟩ :=
    SameLetters.exists_trimLeft (List.forall₂_reverse_iff.2 hrest)
  have hback {text : List Char} (htext : text.reverse = right ++ trimLeft text.reverse) :
      text = trimRight text ++ right.reverse := by
    rw [trimRight, ← List.reverse_append, ← htext, List.reverse_reverse]
  refine ⟨left, right.reverse, ?_, ?_, hleft, fun c hc => hright c (List.mem_reverse.1 hc)⟩
  · rw [List.append_assoc, trim, ← hback hs', ← hs]
  · rw [List.append_assoc, trim, ← hback ht', ← ht]

/-- **White space around two spellings** makes no difference to whether they have one lower case. -/
theorem lowercase_trim_eq_iff (h : SameLetters s t) :
    lowercase (trim s) = lowercase (trim t) ↔ lowercase s = lowercase t := by
  obtain ⟨left, right, hs, ht, hleft, hright⟩ := h.exists_trim
  have hwhole := lowercase_between_white hleft hright
  conv_rhs => rw [hs, ht, hwhole, hwhole, List.append_left_inj, List.append_right_inj]

end BoundedCache.Text
