import BoundedCache.Key
import BoundedCache.Proofs.Decimal.Text
import BoundedCache.Proofs.Store.Descent
import BoundedCache.Proofs.Store.Holding

namespace BoundedCache

/-!
# Lookups and their keys

All lookups share one space of texts, and a section, a metric or a query may hold anything, colons
and whole keys of other lookups included.  Still two lookups have one key only if they mean the same
(`Key.Same`), because the text of a key can be read back:

* the kind of the lookup stands in front of the first colon (`Key.toList_text`);
* an identifier has digits and a sign, so it ends at the next colon (`cut_first`), and whatever
  follows it is free;
* the limit of a search has digits only, so it begins behind the last colon (`cut_last`), and
  whatever is in front of it is free.
-/

/-! ### Cutting a text at a colon -/

section Cuts

variable {α : Type} {c : α} {u v s t : List α}

/-- What stands in front of the first separator, and what follows it. -/
theorem cut_first (hu : c ∉ u) (hv : c ∉ v) (h : u ++ c :: s = v ++ c :: t) : u = v ∧ s = t := by
  induction u generalizing v with
  | nil =>
    cases v with
    | nil => exact ⟨rfl, (List.cons.inj h).2⟩
    | cons d v =>
      have hd : c = d := (List.cons.inj h).1
      exact absurd (hd ▸ List.mem_cons_self) hv
  | cons e u ih =>
    cases v with
    | nil =>
      have he : e = c := (List.cons.inj h).1
      exact absurd (he ▸ List.mem_cons_self) hu
    | cons d v =>
      obtain ⟨rfl, hrest⟩ := List.cons.inj h
      obtain ⟨rfl, hs⟩ := ih (fun hmem => hu (List.mem_cons_of_mem _ hmem))
        (fun hmem => hv (List.mem_cons_of_mem _ hmem)) hrest
      exact ⟨rfl, hs⟩

/-- What stands in front of the last separator, and what follows it. -/
theorem cut_last (hs : c ∉ s) (ht : c ∉ t) (h : u ++ c :: s = v ++ c :: t) : u = v ∧ s = t := by
  have hreverse := congrArg List.reverse h
  simp only [List.reverse_append, List.reverse_cons, List.append_assoc, List.singleton_append]
    at hreverse
  obtain ⟨hlast, hfirst⟩ :=
    cut_first (fun hmem => hs (List.mem_reverse.1 hmem)) (fun hmem => ht (List.mem_reverse.1 hmem))
      hreverse
  exact ⟨List.reverse_inj.1 hfirst, List.reverse_inj.1 hlast⟩

end Cuts

theorem colon_not_mem_decimal (n : Nat) : ':' ∉ decimal n := by
  intro hmem
  exact absurd (isDigit_of_mem_decimal hmem).2 (by decide)

theorem colon_not_mem_signedDecimal (n : Int) : ':' ∉ signedDecimal n := by
  cases n with
  | ofNat n => exact colon_not_mem_decimal n
  | negSucc n =>
    intro hmem
    rcases List.mem_cons.1 hmem with hsign | hdigit
    · exact absurd hsign (by decide)
    · exact colon_not_mem_decimal _ hdigit

namespace Key

variable {a b : Key}

/-! ### Reading a key back -/

/-- **Two lookups mean the same**: they are the same, or they are searches with the same limit and
    with queries that only differ in case and in the white space around them. -/
inductive Same : Key → Key → Prop
  | refl (key : Key) : Same key key
  | search {query query' : String} (limit : Nat)
      (hquery : normalizeQuery query = normalizeQuery query') :
      Same (.search query limit) (.search query' limit)

theorem same_search_iff {query query' : String} {limit limit' : Nat} :
    (search query limit).Same (search query' limit')
      ↔ normalizeQuery query = normalizeQuery query' ∧ limit = limit' := by
  constructor
  · intro h
    cases h with
    | refl => exact ⟨rfl, rfl⟩
    | search _ hquery => exact ⟨hquery, rfl⟩
  · rintro ⟨hquery, rfl⟩
    exact .search limit hquery

/-- The text in front of the first colon. -/
def kind : Key → String
  | chatList => "chats"
  | chatInfo _ => "chat"
  | userInfo _ => "user"
  | messages _ _ => "messages"
  | settings _ => "settings"
  | search _ _ => "search"
  | analytics _ _ => "analytics"

/-- The text behind the first colon. -/
def detail : Key → List Char
  | chatList => "list".toList
  | chatInfo chat => signedDecimal chat ++ ':' :: "info".toList
  | userInfo user => signedDecimal user ++ ':' :: "info".toList
  | messages chat limit => signedDecimal chat ++ ':' :: ("limit:".toList ++ decimal limit)
  | settings area => area.toList
  | search query limit => ((normalizeQuery query).toList ++ ":limit".toList) ++ ':' :: decimal limit
  | analytics chat metric => signedDecimal chat ++ ':' :: metric.toList

theorem toList_text (key : Key) : key.text.toList = key.kind.toList ++ ':' :: key.detail := by
  cases key <;> simp [text, parts, kind, detail]

theorem colon_not_mem_kind (key : Key) : ':' ∉ key.kind.toList := by
  cases key <;> simp [kind]

/-- **Behind the kind** a key can be read back. -/
theorem same_of_detail (hkind : a.kind = b.kind) (hdetail : a.detail = b.detail) : a.Same b := by
  -- Lookups of two kinds differ there, which leaves one case for each kind.
  cases a <;> cases b <;> simp [kind] at hkind
  case chatList.chatList => exact .refl _
  case chatInfo.chatInfo chat other =>
    obtain ⟨hchat, -⟩ := cut_first (colon_not_mem_signedDecimal chat)
      (colon_not_mem_signedDecimal other) hdetail
    exact signedDecimal_injective hchat ▸ .refl _
  case userInfo.userInfo user other =>
    obtain ⟨huser, -⟩ := cut_first (colon_not_mem_signedDecimal user)
      (colon_not_mem_signedDecimal other) hdetail
    exact signedDecimal_injective huser ▸ .refl _
  case messages.messages chat limit other limit' =>
    obtain ⟨hchat, hrest⟩ := cut_first (colon_not_mem_signedDecimal chat)
      (colon_not_mem_signedDecimal other) hdetail
    obtain rfl := signedDecimal_injective hchat
    obtain rfl := decimal_injective (List.append_cancel_left hrest)
    exact .refl _
  case settings.settings area other =>
    exact String.toList_inj.1 hdetail ▸ .refl _
  case search.search query limit other limit' =>
    obtain ⟨hquery, hlimit⟩ := cut_last (colon_not_mem_decimal limit)
      (colon_not_mem_decimal limit') hdetail
    obtain rfl := decimal_injective hlimit
    exact .search limit (String.toList_inj.1 (List.append_cancel_right hquery))
  case analytics.analytics chat metric other metric' =>
    obtain ⟨hchat, hmetric⟩ := cut_first (colon_not_mem_signedDecimal chat)
      (colon_not_mem_signedDecimal other) hdetail
    obtain rfl := signedDecimal_injective hchat
    obtain rfl := String.toList_inj.1 hmetric
    exact .refl _

/-- **The text of a key tells the lookup**, up to what it means. -/
theorem same_of_text (h : a.text = b.text) : a.Same b := by
  have hchars := congrArg String.toList h
  rw [toList_text, toList_text] at hchars
  obtain ⟨hkind, hdetail⟩ := cut_first (colon_not_mem_kind a) (colon_not_mem_kind b) hchars
  exact same_of_detail (String.toList_inj.1 hkind) hdetail

/-- Lookups that mean the same have one key. -/
theorem Same.text_eq (h : a.Same b) : a.text = b.text := by
  cases h with
  | refl => rfl
  | search limit hquery => rw [text, text, parts, parts, hquery]

end Key

/-! ### Lookups in a store -/

namespace Store

end Store

end BoundedCache
