import BoundedCache.Proofs.Key
import BoundedCache.Proofs.Text.Spelling

namespace BoundedCache.Key

/-!
# Searches and the spelling of their queries

A search is cached under its query in lower case, so most queries that differ in case only share an
entry.  They all would if every character had its lower case by itself; but the lower case of `Σ`
depends on its place.  `search_text_eq_iff_endsWordAt` says which spellings of a query share an
entry, and `search_text_ne_of_final_sigma` that not all of them do.
-/

/-- The text of a search tells the lower case of its query. -/
theorem search_text_eq_iff {query query' : String} {limit : Nat} :
    (search query limit).text = (search query' limit).text ↔
      normalizeQuery query = normalizeQuery query' := by
  refine ⟨fun h => (same_search_iff.1 (same_of_text h)).1, fun h => ?_⟩
  exact (same_search_iff.2 ⟨h, rfl⟩).text_eq

/-- **Which spellings of a query share an entry**: those in which a `Σ` ends a word at the same
    places, whatever the limit. -/
theorem search_text_eq_iff_endsWordAt {query query' : String}
    (h : Text.SameLetters query.toList query'.toList) (limit : Nat) :
    (search query limit).text = (search query' limit).text ↔
      ∀ place, Text.EndsWordAt query.toList place ↔ Text.EndsWordAt query'.toList place := by
  rw [search_text_eq_iff, normalizeQuery, normalizeQuery, String.ofList_inj,
    Text.lowercase_trim_eq_iff h, Text.lowercase_eq_iff h]

/-- Two spellings that share an entry, with a `Σ` at the end of a word in both and one inside a word
    in one of them. -/
theorem search_text_eq_of_same_sigmas :
    let query := " ΜΈΣΑ ΟΔΌΣ "
    let query' := " μέσα οδόΣ "
    Text.SameLetters query.toList query'.toList
      ∧ (search query 20).text = (search query' 20).text
      ∧ Text.EndsWordAt query.toList 9 ∧ Text.EndsWordAt query'.toList 9 := by
  intro query query'
  have hletters : Text.SameLetters query.toList query'.toList := by decide +kernel
  have htext : (search query 20).text = (search query' 20).text := by decide +kernel
  have hends : Text.EndsWordAt query.toList 9 := by decide +kernel
  exact ⟨hletters, htext, hends, ((search_text_eq_iff_endsWordAt hletters 20).1 htext 9).1 hends⟩

/-- Two spellings that do not share an entry: only one of them has a `Σ` at the end of the word. -/
theorem search_text_ne_of_final_sigma :
    Text.SameLetters "ΑΣ".toList "ασ".toList
      ∧ (search "ΑΣ" 20).text = "search:ας:limit:20"
      ∧ (search "ασ" 20).text = "search:ασ:limit:20"
      ∧ (search "ΑΣ" 20).text ≠ (search "ασ" 20).text := by
  decide +kernel

end BoundedCache.Key
