import BoundedCache.Proofs.Run.Tally
import BoundedCache.Proofs.Text.Lowercase

namespace BoundedCache.Store

/-!
# Patterns and the keys that contain them

The invalidation of a pattern compares lower case with lower case, so of the stored keys it takes
those whose lower case contains that of the pattern (`mem_lost_invalidatePattern_iff`).  A key that
contains the pattern as it stands is one of them unless a `Σ` at an end of the pattern is the end of
a word in one of them and not in the other: `pattern_takes_keys` says which patterns take every key
that contains them, and which keys every pattern takes.
-/

variable {store : Store} {now : Nat} {pattern key : String}

/-- **What a pattern takes away**: the stored keys whose lower case contains its own. -/
theorem mem_lost_invalidatePattern_iff (hkey : key ∈ store.entries.keys) :
    key ∈ store.lost now (.invalidatePattern pattern) ↔
      Text.lowercase pattern.toList <:+: Text.lowercase key.toList := by
  rw [lost_invalidatePattern, mem_keysMatching_iff, and_iff_right hkey]

/-- Every key is stored in some run. -/
theorem mem_keys_put (budget defaultTtl : Nat) (key : String) :
    key ∈ ((Store.new budget defaultTtl).after [⟨0, .put key ⟨[]⟩ 0⟩]).entries.keys :=
  (mem_keys_apply List.not_mem_nil).2 rfl

/-- **Which keys a pattern takes.**  It takes a stored key that contains it if every `Σ` of the
    pattern ends a word there iff it ends one in the pattern.  The patterns that take every key
    that contains them, in whatever run, are the steady ones. -/
theorem pattern_takes_keys (pattern : String) :
    (∀ (store : Store) now key before after, key ∈ store.entries.keys →
        key.toList = before ++ pattern.toList ++ after →
        Text.KeepsSigmas before pattern.toList after →
        key ∈ store.lost now (.invalidatePattern pattern))
    ∧ ((∀ budget defaultTtl calls now key,
          let store := (Store.new budget defaultTtl).after calls
          key ∈ store.entries.keys → pattern.toList <:+: key.toList →
          key ∈ store.lost now (.invalidatePattern pattern))
        ↔ Text.isSteady pattern.toList = true) := by
  refine ⟨?_, ?_, ?_⟩
  · intro store now key before after hkey hsplit hkeeps
    rw [mem_lost_invalidatePattern_iff hkey, hsplit]
    exact Text.infix_lowercase hkeeps
  · intro htakes
    refine (Text.infix_lowercase_iff_isSteady _).1 fun before after => ?_
    -- A run may store any key, so one that is the pattern between these two texts.
    have hkey := mem_keys_put 0 0 (String.ofList (before ++ pattern.toList ++ after))
    have hlost := htakes 0 0 _ 0 _ hkey ⟨before, after, String.toList_ofList.symm⟩
    rwa [mem_lost_invalidatePattern_iff hkey, String.toList_ofList] at hlost
  · rintro hsteady budget defaultTtl calls now key store hkey ⟨before, after, hsplit⟩
    rw [mem_lost_invalidatePattern_iff hkey, ← hsplit]
    exact (Text.infix_lowercase_iff_isSteady _).2 hsteady before after

/-- A pattern that ends a word leaves a longer word alone, although that contains it. -/
theorem pattern_misses_longer_word :
    let store := (Store.new 100 60).after [⟨0, .put "ΑΣΑ" ⟨[]⟩ 5⟩]
    "ΑΣΑ" ∈ store.entries.keys ∧ "ΑΣ".toList <:+: "ΑΣΑ".toList
      ∧ (store.invalidatePattern "ΑΣ").result = 0
      ∧ "ΑΣΑ" ∉ store.lost 0 (.invalidatePattern "ΑΣ") := by
  decide +kernel

end BoundedCache.Store
