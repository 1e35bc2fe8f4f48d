import BoundedCache.Text.WhiteSpace
import Mathlib.Data.List.TakeWhile

namespace BoundedCache.Text

/-!
# White space around a text

`trim` takes white space away and nothing else (`exists_eq_trim`), and it takes all of it: a text
without white space is what is left of it with any white space around it (`trim_between`).
-/

theorem exists_eq_trimLeft (text : List Char) :
    ∃ before, text = before ++ trimLeft text ∧ ∀ c ∈ before, isWhiteSpace c = true :=
  ⟨text.takeWhile isWhiteSpace, List.takeWhile_append_dropWhile.symm,
    fun _ hc => List.mem_takeWhile_imp hc⟩

/-- **Trimming takes away white space only.** -/
theorem exists_eq_trim (text : List Char) :
    ∃ before after, text = before ++ trim text ++ after
      ∧ (∀ c ∈ before, isWhiteSpace c = true) ∧ ∀ c ∈ after, isWhiteSpace c = true := by
  obtain ⟨before, hbefore, hwhite⟩ := exists_eq_trimLeft text
  obtain ⟨after, hafter, hwhite'⟩ := exists_eq_trimLeft (trimLeft text).reverse
  refine ⟨before, after.reverse, ?_, hwhite, fun c hc => hwhite' c (List.mem_reverse.1 hc)⟩
  -- The right end is trimmed on the reversed text.
  have hright := congrArg List.reverse hafter
  rw [List.reverse_reverse, List.reverse_append] at hright
  rw [List.append_assoc, trim, trimRight, ← hright]
  exact hbefore

section Between

variable {before text after : List Char} (hbefore : ∀ c ∈ before, isWhiteSpace c = true)
  (hafter : ∀ c ∈ after, isWhiteSpace c = true) (hne : text ≠ [])
  (htext : ∀ c ∈ text, isWhiteSpace c = false)

include hbefore hne htext in
theorem trimLeft_between (rest : List Char) :
    trimLeft (before ++ text ++ rest) = text ++ rest := by
  rw [List.append_assoc, trimLeft, List.dropWhile_append_of_pos hbefore]
  cases text with
  | nil => exact absurd rfl hne
  | cons c text =>
    have hc : isWhiteSpace c = false := htext c List.mem_cons_self
    exact List.dropWhile_cons_of_neg (by simp [hc])

include hbefore hafter hne htext in
/-- **Trimming takes away all white space around a text.** -/
theorem trim_between : trim (before ++ text ++ after) = text := by
  have hright : trimLeft (after.reverse ++ text.reverse ++ []) = text.reverse ++ [] := by
    refine trimLeft_between ?_ ?_ ?_ []
    · exact fun c hc => hafter c (List.mem_reverse.1 hc)
    · exact fun hnil => hne (List.reverse_eq_nil_iff.1 hnil)
    · exact fun c hc => htext c (List.mem_reverse.1 hc)
  rw [List.append_nil, List.append_nil] at hright
  rw [trim, trimLeft_between hbefore hne htext, trimRight, List.reverse_append, hright,
    List.reverse_reverse]

end Between

end BoundedCache.Text
