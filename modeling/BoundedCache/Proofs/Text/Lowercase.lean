import BoundedCache.Text.Lowercase
import Mathlib.Data.List.TakeWhile

namespace BoundedCache.Text

/-!
# The lower case of a part of a text

The lower case of a text is that of its parts, each of them between the others
(`lowerBetween_append`), and the only character that looks at its neighbours is `Σ`.  So the lower
case of a part need not occur in the lower case of the whole text:

* `infix_lowercase` — it does where every `Σ` of the part ends a word in the whole text iff it
  does in the part alone (`KeepsSigmas`);
* `infix_lowercase_iff_isSteady` — it does so wherever the part stands iff the part is steady
  (`isSteady`), that is iff no `Σ` at its ends hangs on what stands beside it.
-/

/-- The lower case of a text that stands between `before`, which is reversed, and `after`. -/
def lowerBetween (before : List Char) : (text after : List Char) → List Char
  | [], _ => []
  | c :: rest, after =>
    lowerAt before c (rest ++ after) ++ lowerBetween (c :: before) rest after

/-- Every `Σ` of `text` ends a word between `before` and `after` iff it ends one in `text`. -/
def KeepsSigmas (before text after : List Char) : Prop :=
  ∀ left right, text = left ++ 'Σ' :: right →
    endsWord (left.reverse ++ before.reverse) (right ++ after) = endsWord left.reverse right

/-- What follows a `Σ` that is the first character of a text that matters to case. -/
def afterFirstSigma? (text : List Char) : Option (List Char) :=
  match text.dropWhile isCaseIgnorable with
  | c :: rest => if c = 'Σ' then some rest else none
  | [] => none

/-- Whether a text has the same lower case wherever it stands.  If the first character that matters
    to case is a `Σ`, a cased one has to follow it; if the last one is, none may precede it. -/
def isSteady (text : List Char) : Bool :=
  (afterFirstSigma? text).all startsCased
    && (afterFirstSigma? text.reverse).all fun rest => !startsCased rest

/-! ### A text in its parts -/

theorem lowercaseFrom_eq (written before text : List Char) :
    lowercaseFrom written before text = written.reverse ++ lowerBetween before text [] := by
  induction text generalizing written before with
  | nil => rw [lowercaseFrom, lowerBetween, List.append_nil]
  | cons c rest ih =>
    rw [lowercaseFrom, ih, lowerBetween, List.append_nil, List.reverse_append,
      List.reverse_reverse, List.append_assoc]

theorem lowercase_eq (text : List Char) : lowercase text = lowerBetween [] text [] :=
  lowercaseFrom_eq [] [] text

/-- **The lower case of two texts in a row** is that of either, beside the other. -/
theorem lowerBetween_append (before text more after : List Char) :
    lowerBetween before (text ++ more) after
      = lowerBetween before text (more ++ after)
        ++ lowerBetween (text.reverse ++ before) more after := by
  induction text generalizing before with
  | nil => rfl
  | cons c rest ih =>
    rw [List.cons_append, lowerBetween, ih, lowerBetween, List.reverse_cons]
    simp only [List.append_assoc, List.singleton_append]

/-- The places of a text make no difference but to its `Σ`s. -/
theorem lowerBetween_congr {before before' text after after' : List Char}
    (hsame : ∀ left right, text = left ++ 'Σ' :: right →
      endsWord (left.reverse ++ before) (right ++ after)
        = endsWord (left.reverse ++ before') (right ++ after')) :
    lowerBetween before text after = lowerBetween before' text after' := by
  induction text generalizing before before' with
  | nil => rfl
  | cons c rest ih =>
    have hfirst : lowerAt before c (rest ++ after) = lowerAt before' c (rest ++ after') := by
      rw [lowerAt, lowerAt]
      by_cases hsigma : c = 'Σ'
      · subst hsigma
        rw [if_pos rfl, if_pos rfl]
        exact congrArg (fun ends => [if ends then 'ς' else 'σ']) (hsame [] rest rfl)
      · rw [if_neg hsigma, if_neg hsigma]
    have hrest : lowerBetween (c :: before) rest after
        = lowerBetween (c :: before') rest after' := by
      refine ih fun left right hsplit => ?_
      simpa using hsame (c :: left) right (by rw [hsplit, List.cons_append])
    rw [lowerBetween, lowerBetween, hfirst, hrest]

/-- A text without `Σ` has the same lower case everywhere. -/
theorem lowerBetween_of_not_mem {text : List Char} (hsigma : 'Σ' ∉ text)
    (before before' after after' : List Char) :
    lowerBetween before text after = lowerBetween before' text after' := by
  refine lowerBetween_congr fun left right hsplit => absurd ?_ hsigma
  rw [hsplit]
  exact List.mem_append_right _ List.mem_cons_self

/-- **A part that keeps its sigmas** has its own lower case in the whole text. -/
theorem infix_lowercase {before text after : List Char} (hkeeps : KeepsSigmas before text after) :
    lowercase text <:+: lowercase (before ++ text ++ after) := by
  have htext : lowerBetween before.reverse text after = lowercase text := by
    rw [lowercase_eq]
    refine lowerBetween_congr fun left right hsplit => ?_
    rw [List.append_nil, List.append_nil]
    exact hkeeps left right hsplit
  refine ⟨lowerBetween [] before (text ++ after),
    lowerBetween (text.reverse ++ before.reverse) after [], ?_⟩
  rw [lowercase_eq (before ++ text ++ after), List.append_assoc before, lowerBetween_append,
    lowerBetween_append]
  simp only [List.append_nil, htext, List.append_assoc]

/-! ### What stands before and after a word -/

theorem isCaseIgnorable_sigma : isCaseIgnorable 'Σ' = false := by decide +kernel

/-- Nothing behind a character that matters to case is looked at. -/
theorem startsCased_append_cons {c : Char} (hc : isCaseIgnorable c = false)
    (text rest rest' : List Char) :
    startsCased (text ++ c :: rest) = startsCased (text ++ c :: rest') := by
  induction text with
  | nil => simp [startsCased, hc]
  | cons first text ih =>
    cases hfirst : isCaseIgnorable first with
    | true => simpa [startsCased, hfirst] using ih
    | false => simp [startsCased, hfirst]

theorem startsCased_append_of_ignorable {ignored : List Char}
    (hignored : ∀ c ∈ ignored, isCaseIgnorable c = true) (text : List Char) :
    startsCased (ignored ++ text) = startsCased text := by
  rw [startsCased, List.dropWhile_append_of_pos hignored, startsCased]

theorem startsCased_of_ignorable {ignored : List Char}
    (hignored : ∀ c ∈ ignored, isCaseIgnorable c = true) : startsCased ignored = false := by
  have hall := startsCased_append_of_ignorable hignored []
  rwa [List.append_nil] at hall

/-- A text is looked at no further than to its end, unless all of it is ignorable. -/
theorem startsCased_append {text : List Char} (htext : ¬ ∀ c ∈ text, isCaseIgnorable c = true)
    (more : List Char) : startsCased (text ++ more) = startsCased text := by
  simp only [not_forall, Bool.not_eq_true] at htext
  obtain ⟨c, hmem, hc⟩ := htext
  obtain ⟨left, right, rfl⟩ := List.append_of_mem hmem
  rw [List.append_assoc, List.cons_append]
  exact startsCased_append_cons hc left _ right

theorem afterFirstSigma?_eq_some_iff {text rest : List Char} :
    afterFirstSigma? text = some rest ↔
      ∃ ignored, text = ignored ++ 'Σ' :: rest ∧ ∀ c ∈ ignored, isCaseIgnorable c = true := by
  constructor
  · intro hsome
    refine ⟨text.takeWhile isCaseIgnorable, ?_, fun c hc => List.mem_takeWhile_imp hc⟩
    have hdrop : text.dropWhile isCaseIgnorable = 'Σ' :: rest := by
      unfold afterFirstSigma? at hsome
      split at hsome
      · next c other heq =>
        split at hsome
        · next hsigma => rw [heq, hsigma, Option.some.inj hsome]
        · exact absurd hsome.symm (Option.some_ne_none _)
      · exact absurd hsome.symm (Option.some_ne_none _)
    rw [← hdrop, List.takeWhile_append_dropWhile]
  · rintro ⟨ignored, rfl, hignored⟩
    simp [afterFirstSigma?, List.dropWhile_append_of_pos hignored, isCaseIgnorable_sigma]

/-! ### Steady texts -/

theorem isSteady_iff {text : List Char} : isSteady text = true ↔
    ∀ left right, text = left ++ 'Σ' :: right →
      ((∀ c ∈ left, isCaseIgnorable c = true) → startsCased right = true)
        ∧ ((∀ c ∈ right, isCaseIgnorable c = true) → startsCased left.reverse = false) := by
  simp only [isSteady, Bool.and_eq_true, Option.all_eq_true, afterFirstSigma?_eq_some_iff,
    Bool.not_eq_true', forall_exists_index, and_imp]
  constructor
  · rintro ⟨hfront, hback⟩ left right rfl
    refine ⟨fun hleft => hfront right left rfl hleft, fun hright => ?_⟩
    exact hback left.reverse right.reverse (by simp) fun c hc => hright c (List.mem_reverse.1 hc)
  · intro hsplit
    refine ⟨fun right left htext hleft => (hsplit left right htext).1 hleft, ?_⟩
    intro leftReversed rightReversed htext hright
    have htext' : text = leftReversed.reverse ++ 'Σ' :: rightReversed.reverse := by
      rw [← List.reverse_inj, htext]
      simp
    have hback := (hsplit _ _ htext').2 fun c hc => hright c (List.mem_reverse.1 hc)
    rwa [List.reverse_reverse] at hback

/-- A steady text keeps its sigmas everywhere. -/
theorem keepsSigmas_of_isSteady {text : List Char} (hsteady : isSteady text = true)
    (before after : List Char) : KeepsSigmas before text after := by
  intro left right hsplit
  obtain ⟨hfront, hback⟩ := isSteady_iff.1 hsteady left right hsplit
  have hreverse : (∀ c ∈ left.reverse, isCaseIgnorable c = true)
      ↔ ∀ c ∈ left, isCaseIgnorable c = true := by simp only [List.mem_reverse]
  rw [endsWord, endsWord]
  by_cases hright : ∀ c ∈ right, isCaseIgnorable c = true
  · -- What follows is open, so no cased letter precedes, and something in the text says so.
    have hleft : ¬ ∀ c ∈ left, isCaseIgnorable c = true := fun hleft =>
      Bool.false_ne_true ((startsCased_of_ignorable hright).symm.trans (hfront hleft))
    rw [startsCased_append (mt hreverse.1 hleft), hback hright, Bool.false_and, Bool.false_and]
  · rw [startsCased_append hright]
    by_cases hleft : ∀ c ∈ left, isCaseIgnorable c = true
    · rw [hfront hleft, Bool.not_true, Bool.and_false, Bool.and_false]
    · rw [startsCased_append (mt hreverse.1 hleft)]

/-! ### Texts that are not steady -/

/-- A text around one of its `Σ`s. -/
theorem lowerBetween_sigma (before left right after : List Char) :
    lowerBetween before (left ++ 'Σ' :: right) after
      = lowerBetween before left ('Σ' :: (right ++ after))
        ++ (if endsWord (left.reverse ++ before) (right ++ after) then 'ς' else 'σ')
          :: lowerBetween ('Σ' :: (left.reverse ++ before)) right after := by
  rw [lowerBetween_append, lowerBetween, lowerAt, if_pos rfl]
  rfl

/-- What stands before a `Σ` does not look behind it. -/
theorem lowerBetween_before_sigma (before left after after' : List Char) :
    lowerBetween before left ('Σ' :: after) = lowerBetween before left ('Σ' :: after') := by
  refine lowerBetween_congr fun inner outer _ => ?_
  rw [endsWord, endsWord, startsCased_append_cons isCaseIgnorable_sigma]

/-- What stands behind a `Σ` does not look before it. -/
theorem lowerBetween_after_sigma (before before' right after : List Char) :
    lowerBetween ('Σ' :: before) right after = lowerBetween ('Σ' :: before') right after := by
  refine lowerBetween_congr fun inner outer _ => ?_
  rw [endsWord, endsWord, startsCased_append_cons isCaseIgnorable_sigma]

/-- One character of a text is exchanged, and it does not come back beside the text. -/
theorem not_infix_of_exchange {c d : Char} (hne : c ≠ d) (before after left right : List Char)
    (hbefore : c ∉ before) (hafter : c ∉ after) :
    ¬ left ++ c :: right <:+: before ++ (left ++ d :: right) ++ after := by
  intro hpart
  have hcount := hpart.count_le c
  -- The exchanged text has one `c` less.
  simp only [List.count_append, List.count_cons_self, List.count_cons_of_ne hne.symm,
    List.count_eq_zero_of_not_mem hbefore, List.count_eq_zero_of_not_mem hafter] at hcount
  omega

theorem sigma_not_mem_of_ignorable {ignored : List Char}
    (hignored : ∀ c ∈ ignored, isCaseIgnorable c = true) : 'Σ' ∉ ignored := fun hmem =>
  Bool.false_ne_true (isCaseIgnorable_sigma.symm.trans (hignored _ hmem))

theorem startsCased_A : startsCased ['A'] = true := by decide +kernel

/-- A letter in front of a text that is not steady there changes its first `Σ`. -/
theorem startsCased_of_occurs {left right : List Char}
    (hpart : lowercase (left ++ 'Σ' :: right) <:+: lowercase ('A' :: (left ++ 'Σ' :: right)))
    (hleft : ∀ c ∈ left, isCaseIgnorable c = true) : startsCased right = true := by
  by_contra hright
  rw [Bool.not_eq_true] at hright
  have hreverse : ∀ c ∈ left.reverse, isCaseIgnorable c = true := by simpa using hleft
  have halone : endsWord left.reverse right = false := by
    rw [endsWord, startsCased_of_ignorable hreverse, Bool.false_and]
  have hbehind : endsWord (left.reverse ++ ['A']) right = true := by
    rw [endsWord, startsCased_append_of_ignorable hreverse, startsCased_A, hright]
    rfl
  refine not_infix_of_exchange (c := 'σ') (d := 'ς') (by decide) ['a'] []
    (lowerBetween [] left ('Σ' :: right)) (lowerBetween ('Σ' :: left.reverse) right [])
    (by decide) (by decide) ?_
  have hwhole : lowercase ('A' :: (left ++ 'Σ' :: right))
      = ['a'] ++ lowerBetween ['A'] (left ++ 'Σ' :: right) [] := lowercase_eq _
  have hfirst := lowerBetween_of_not_mem (sigma_not_mem_of_ignorable hleft) ['A'] []
    ('Σ' :: right) ('Σ' :: right)
  have hrest := lowerBetween_after_sigma (left.reverse ++ ['A']) left.reverse right []
  rw [hwhole, lowercase_eq, lowerBetween_sigma, lowerBetween_sigma] at hpart
  simpa [halone, hbehind, hfirst, hrest] using hpart

/-- A letter behind a text that is not steady there changes its last `Σ`. -/
theorem startsCased_reverse_of_occurs {left right : List Char}
    (hpart : lowercase (left ++ 'Σ' :: right) <:+: lowercase (left ++ 'Σ' :: right ++ ['A']))
    (hright : ∀ c ∈ right, isCaseIgnorable c = true) : startsCased left.reverse = false := by
  by_contra hleft
  rw [Bool.not_eq_false] at hleft
  have halone : endsWord left.reverse right = true := by
    rw [endsWord, hleft, startsCased_of_ignorable hright]
    rfl
  have hbefore : endsWord left.reverse (right ++ ['A']) = false := by
    rw [endsWord, startsCased_append_of_ignorable hright, startsCased_A, Bool.not_true,
      Bool.and_false]
  refine not_infix_of_exchange (c := 'ς') (d := 'σ') (by decide) [] ['a']
    (lowerBetween [] left ('Σ' :: right)) (lowerBetween ('Σ' :: left.reverse) right [])
    (by decide) (by decide) ?_
  have hwhole : lowercase (left ++ 'Σ' :: right ++ ['A'])
      = lowerBetween [] (left ++ 'Σ' :: right) ['A'] ++ ['a'] := by
    rw [lowercase_eq, lowerBetween_append]
    rfl
  have hfirst := lowerBetween_before_sigma [] left (right ++ ['A']) right
  have hrest := lowerBetween_of_not_mem (sigma_not_mem_of_ignorable hright) ('Σ' :: left.reverse)
    ('Σ' :: left.reverse) ['A'] []
  rw [hwhole, lowercase_eq, lowerBetween_sigma, lowerBetween_sigma] at hpart
  simpa [halone, hbefore, hfirst, hrest] using hpart

/-- **Steady texts** are those whose lower case is found wherever they stand; a letter in front of
    the text or behind it shows the others. -/
theorem infix_lowercase_iff_isSteady (text : List Char) :
    (∀ before after, lowercase text <:+: lowercase (before ++ text ++ after))
      ↔ isSteady text = true := by
  constructor
  · intro hpart
    rw [isSteady_iff]
    rintro left right rfl
    have hfront := hpart ['A'] []
    have hback := hpart [] ['A']
    rw [List.append_nil] at hfront
    exact ⟨startsCased_of_occurs hfront, startsCased_reverse_of_occurs hback⟩
  · intro hsteady before after
    exact infix_lowercase (keepsSigmas_of_isSteady hsteady before after)

end BoundedCache.Text
