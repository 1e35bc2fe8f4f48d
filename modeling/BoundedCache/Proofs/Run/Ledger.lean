import BoundedCache.Proofs.Run.Basic
import BoundedCache.Proofs.Store.Posting
import BoundedCache.Proofs.Store.Removal

namespace BoundedCache.Store

/-!
# The byte count stays within a word

`store.ledger calls` lists the postings of a run.  As long as its additions fit, the byte count is
the sum over the entries (`exact_after`), and then the postings of any further operation fit too:

* `Exact.releases_fit` — what is subtracted is part of the sum;
* `Exact.additions_fit` — with a budget below the largest word, room is made until the new bytes
  fit, or until nothing is left beside them;
* `Exact.additions_fit_put_iff` — with the largest word as the budget no room is made at all,
  for the guard takes a sum that stops there; so an addition may overflow.

`byte_count_safe` puts this together for all runs.
-/

/-- The postings of some calls. -/
def ledger (store : Store) : List Call → List Posting
  | [] => []
  | call :: calls => store.postings call.now call.operation ++ (store.call call).store.ledger calls

/-- The byte count is the sum over the entries and a word. -/
structure Exact (store : Store) : Prop where
  accounted : store.Accounted
  held_le : store.heldBytes ≤ Word.top

open Posting (Throughout ReleaseFits AdditionFits)

variable {store start : Store} {now : Nat} {operation : Operation} {calls : List Call}

theorem ledger_concat (store : Store) (calls : List Call) (call : Call) :
    store.ledger (calls ++ [call])
      = store.ledger calls ++ (store.after calls).postings call.now call.operation := by
  induction calls generalizing store with
  | nil => exact List.append_nil _
  | cons first calls ih => rw [List.cons_append, ledger, ih, ledger, after, List.append_assoc]

/-- **The ledger is all that happens to the byte count.** -/
theorem usedBytes_after (store : Store) (calls : List Call) :
    (store.after calls).usedBytes = (store.ledger calls).foldl Posting.next store.usedBytes := by
  induction calls generalizing store with
  | nil => rfl
  | cons call calls ih =>
    rw [after, ih, ledger, List.foldl_append, ← usedBytes_apply]
    rfl

/-! ### One operation -/

theorem Exact.usedBytes_le (h : store.Exact) : store.usedBytes ≤ Word.top :=
  h.accounted.used_eq ▸ h.held_le

theorem Sheds.sum_le (hexact : store.Exact) {sizes : List Nat} {store' : Store}
    (h : store.Sheds sizes store') : sizes.sum ≤ store.usedBytes := by
  have hheld := h.held_add
  rw [hexact.accounted.used_eq]
  omega

/-- **No subtraction underflows.** -/
theorem Exact.releases_fit (h : store.Exact) (now : Nat) (operation : Operation) :
    Throughout ReleaseFits store.usedBytes (store.postings now operation) := by
  have hsizes {sizes : List Nat} {store' : Store} (hsheds : store.Sheds sizes store') :
      Throughout ReleaseFits store.usedBytes (sizes.map .release) :=
    (Posting.releases_fit_iff h.usedBytes_le).2 (hsheds.sum_le h)
  cases hput : operation.putKey? with
  | some key =>
    obtain ⟨value, ttl, rfl⟩ := Operation.eq_put_of_putKey? hput
    obtain ⟨sizes, gone, last, -, -, hpostings, hsheds, -⟩ := postings_put store now key value ttl
    rw [hpostings, Posting.throughout_append]
    exact ⟨hsizes hsheds, trivial, trivial⟩
  | none =>
    by_cases hclear : operation = .clear
    · rw [hclear, postings_clear]
      exact ⟨trivial, trivial⟩
    · obtain ⟨sizes, hpostings, hsheds⟩ := postings_of_not_put store now hput hclear
      rw [hpostings]
      exact hsizes hsheds

/-- A put adds its size to what is left when room has been made. -/
theorem Exact.put_eq (h : store.Exact) (now : Nat) (key : String) (value : Json.Payload)
    (ttl : Int) :
    ∃ gone last, MakesRoom value.size (store.drop key) gone last ∧ last.Exact
      ∧ (store.apply now (.put key value ttl)).store.heldBytes = last.heldBytes + value.size
      ∧ (Throughout AdditionFits store.usedBytes (store.postings now (.put key value ttl))
        ↔ last.heldBytes + value.size ≤ Word.top) := by
  obtain ⟨sizes, gone, last, hroom, hnone, hpostings, hsheds, hstore⟩ :=
    postings_put store now key value ttl
  have hfrees := (frees_drop store key).trans hroom.frees
  have hlast : last.Exact :=
    ⟨hfrees.accounted h.held_le h.accounted, hfrees.held_le.trans h.held_le⟩
  refine ⟨gone, last, hroom, hlast, ?_, ?_⟩
  · rw [hstore, heldBytes_filed now value _ hnone]
  · rw [hpostings, Posting.throughout_append, and_iff_right Posting.additions_fit_releases,
      ← hsheds.used_eq, hlast.accounted.used_eq]
    exact and_iff_left trivial

/-- Only puts add. -/
theorem additions_fit_of_not_put (store : Store) (now : Nat) (hput : operation.putKey? = none) :
    Throughout AdditionFits store.usedBytes (store.postings now operation) := by
  by_cases hclear : operation = .clear
  · rw [hclear, postings_clear]
    exact ⟨trivial, trivial⟩
  · obtain ⟨sizes, hpostings, -⟩ := postings_of_not_put store now hput hclear
    rw [hpostings]
    exact Posting.additions_fit_releases

/-- **No addition overflows** as long as the budget is below the largest word. -/
theorem Exact.additions_fit (h : store.Exact) (hbudget : store.budget < Word.top)
    {call : Call} (hbytes : call.bytes ≤ Word.top) :
    Throughout AdditionFits store.usedBytes (store.postings call.now call.operation) := by
  obtain ⟨now, operation⟩ := call
  cases hput : operation.putKey? with
  | none => exact additions_fit_of_not_put store now hput
  | some key =>
    obtain ⟨value, ttl, rfl⟩ := Operation.eq_put_of_putKey? hput
    obtain ⟨gone, last, hroom, hlast, -, hiff⟩ := h.put_eq now key value ttl
    have hlimit : last.budget = store.budget :=
      congrArg Prod.fst (hroom.settings_eq.trans (settings_drop store key))
    have hsize : value.size ≤ Word.top := hbytes
    refine hiff.2 ?_
    rcases hroom.fits_or_empty with hfits | hempty
    · -- The guard has found the sum below the largest word, so the sum has not stopped there.
      have hsum : Word.addSat last.usedBytes value.size ≤ last.budget := of_decide_eq_true hfits
      rw [Word.addSat, hlast.accounted.used_eq] at hsum
      omega
    · rw [heldBytes, hempty, totalSize_nil, Nat.zero_add]
      exact hsize

/-- With the largest word as the budget, everything fits. -/
theorem makesRoom_of_top_le {incoming : Nat} {last : Store} {gone : List Row}
    (hbudget : Word.top ≤ store.budget) (h : MakesRoom incoming store gone last) :
    gone = [] ∧ last = store := by
  have hfits : store.fits incoming = true :=
    decide_eq_true ((Word.addSat_le_top _ _).trans hbudget)
  cases h with
  | fits _ => exact ⟨rfl, rfl⟩
  | exhausted hover _ => exact absurd (hfits.symm.trans hover) Bool.false_ne_true.symm
  | evict hover _ _ _ => exact absurd (hfits.symm.trans hover) Bool.false_ne_true.symm

/-- **With the largest word as the budget**, a put overflows iff its bytes and those of the other
    entries do not fit a word; nothing makes room for it. -/
theorem Exact.additions_fit_put_iff (h : store.Exact) (hbudget : Word.top ≤ store.budget)
    (now : Nat) (key : String) (value : Json.Payload) (ttl : Int) :
    (Throughout AdditionFits store.usedBytes (store.postings now (.put key value ttl))
        ↔ totalSize (store.entries.erase key).rows + value.size ≤ Word.top)
      ∧ ∀ other size, .evicted other size ∉ (store.apply now (.put key value ttl)).events := by
  have hdrop : Word.top ≤ (store.drop key).budget := by rwa [budget_drop]
  refine ⟨?_, ?_⟩
  · obtain ⟨gone, last, hroom, -, -, hiff⟩ := h.put_eq now key value ttl
    obtain ⟨-, rfl⟩ := makesRoom_of_top_le hdrop hroom
    rw [hiff, heldBytes, removal_drop.entries_eq]
  · obtain ⟨gone, last, hroom, -, -, hevents⟩ := exists_put_eq store now key value ttl
    obtain ⟨rfl, -⟩ := makesRoom_of_top_le hdrop hroom
    intro other size
    rw [hevents, List.map_nil, List.append_nil]
    unfold putWarnings
    split <;> simp

/-! ### Runs -/

/-- An operation whose additions fit leaves the count exact. -/
theorem Exact.apply (h : store.Exact) (now : Nat) (operation : Operation)
    (hfits : Throughout AdditionFits store.usedBytes (store.postings now operation)) :
    (store.apply now operation).store.Exact := by
  have hheld : (store.apply now operation).store.heldBytes ≤ Word.top := by
    cases hput : operation.putKey? with
    | none => exact (frees_apply store now hput).held_le.trans h.held_le
    | some key =>
      obtain ⟨value, ttl, rfl⟩ := Operation.eq_put_of_putKey? hput
      obtain ⟨gone, last, -, -, hheld, hiff⟩ := h.put_eq now key value ttl
      rw [hheld]
      exact hiff.1 hfits
  exact ⟨accounted_apply h.accounted h.held_le now operation hheld, hheld⟩

theorem throughout_ledger_concat {fits : Nat → Posting → Prop} (budget defaultTtl : Nat)
    (calls : List Call) (call : Call) :
    Throughout fits 0 ((Store.new budget defaultTtl).ledger (calls ++ [call])) ↔
      Throughout fits 0 ((Store.new budget defaultTtl).ledger calls)
        ∧ Throughout fits ((Store.new budget defaultTtl).after calls).usedBytes
          (((Store.new budget defaultTtl).after calls).postings call.now call.operation) := by
  rw [ledger_concat, Posting.throughout_append, usedBytes_after (Store.new budget defaultTtl) calls]
  rfl

/-- **The byte count is exact** after a run whose additions fit, and no subtraction of the run
    underflows. -/
theorem exact_after {budget defaultTtl : Nat} {calls : List Call}
    (hfits : Throughout AdditionFits 0 ((Store.new budget defaultTtl).ledger calls)) :
    ((Store.new budget defaultTtl).after calls).Exact
      ∧ Throughout ReleaseFits 0 ((Store.new budget defaultTtl).ledger calls) := by
  induction calls using List.reverseRecOn with
  | nil => exact ⟨⟨accounted_new budget defaultTtl, Nat.zero_le _⟩, trivial⟩
  | append_singleton calls call ih =>
    rw [throughout_ledger_concat] at hfits
    obtain ⟨hexact, hreleases⟩ := ih hfits.1
    rw [after_concat, throughout_ledger_concat]
    exact ⟨hexact.apply call.now call.operation hfits.2, hreleases,
      hexact.releases_fit call.now call.operation⟩

/-- Additions fit in a run whose budgets are below the largest word all the time. -/
theorem additions_fit_ledger {budget defaultTtl : Nat} {calls : List Call}
    (hbudget : ∀ earlier, earlier <+: calls →
      ((Store.new budget defaultTtl).after earlier).budget < Word.top)
    (hbytes : ∀ call ∈ calls, call.bytes ≤ Word.top) :
    Throughout AdditionFits 0 ((Store.new budget defaultTtl).ledger calls) := by
  induction calls using List.reverseRecOn with
  | nil => trivial
  | append_singleton calls call ih =>
    have hcalls := ih (fun earlier hearlier =>
        hbudget earlier (hearlier.trans (List.prefix_append _ _)))
      fun other hother => hbytes other (List.mem_append_left _ hother)
    have hcall : call.bytes ≤ Word.top :=
      hbytes call (List.mem_append_right _ (List.mem_singleton_self _))
    rw [throughout_ledger_concat]
    exact ⟨hcalls, (exact_after hcalls).1.additions_fit
      (hbudget calls (List.prefix_append _ _)) hcall⟩

/-- **The arithmetic of the byte count is safe** but for one corner.  After a run whose additions
    have fit, no subtraction underflows, and no addition overflows unless the budget is the largest
    word, which a budget in megabytes may come to; then an addition overflows iff the other entries
    and the new one do not fit a word together.  A run whose budgets stay below that never leaves
    the words. -/
theorem byte_count_safe (budget defaultTtl : Nat) (calls : List Call) :
    let start := Store.new budget defaultTtl
    let store := start.after calls
    store.usedBytes = (start.ledger calls).foldl Posting.next 0
    ∧ (Throughout AdditionFits 0 (start.ledger calls) →
      (∀ now operation,
        Throughout ReleaseFits store.usedBytes (store.postings now operation))
      ∧ (store.budget < Word.top → ∀ call : Call, call.bytes ≤ Word.top →
        Throughout AdditionFits store.usedBytes (store.postings call.now call.operation))
      ∧ (Word.top ≤ store.budget → ∀ now key value ttl,
        (¬ Throughout AdditionFits store.usedBytes (store.postings now (.put key value ttl))
          ↔ Word.top < totalSize (store.entries.erase key).rows + value.size)
        ∧ ∀ other size, .evicted other size ∉ (store.apply now (.put key value ttl)).events))
    ∧ ((∀ earlier, earlier <+: calls → (start.after earlier).budget < Word.top) →
      (∀ call ∈ calls, call.bytes ≤ Word.top) →
      Throughout (fun count posting => posting.ReleaseFits count ∧ posting.AdditionFits count) 0
        (start.ledger calls))
    ∧ ∀ now megabytes, Word.top ≤ megabytes * megabyte →
      (store.call ⟨now, .setBudgetMegabytes megabytes⟩).store.budget = Word.top := by
  intro start store
  refine ⟨usedBytes_after start calls, fun hfits => ?_, fun hbudget hbytes => ?_, ?_⟩
  · have hexact : store.Exact := (exact_after hfits).1
    refine ⟨hexact.releases_fit, fun hbudget call => hexact.additions_fit hbudget, ?_⟩
    intro hbudget now key value ttl
    obtain ⟨hiff, hquiet⟩ := hexact.additions_fit_put_iff hbudget now key value ttl
    exact ⟨(not_congr hiff).trans Nat.not_le, hquiet⟩
  · have hadditions := additions_fit_ledger hbudget hbytes
    exact Posting.throughout_and.2 ⟨(exact_after hadditions).2, hadditions⟩
  · intro now megabytes hmegabytes
    simp only [budget_call, Operation.newBudget?, Option.getD_some, Word.mulSat,
      Nat.min_eq_right hmegabytes]

/-- There are payloads of all sizes from that of one member with an empty text on. -/
theorem exists_payload_size (n : Nat) : ∃ value : Json.Payload, value.size = n + 7 := by
  have htext : Json.quotedSize (String.ofList (List.replicate n 'x')) = n + 2 := by
    have hfold (start : Nat) : (List.replicate n 'x').foldl
        (fun total c => total + Json.escapeWidth c) start = start + n := by
      induction n generalizing start with
      | zero => rfl
      | succ n ih =>
        have hone : Json.escapeWidth 'x' = 1 := by decide
        rw [List.replicate_succ, List.foldl_cons, ih, hone]
        omega
    rw [Json.quotedSize, String.foldl_eq_foldl_toList, String.toList_ofList, hfold, Nat.add_comm]
  refine ⟨⟨[("", .text (String.ofList (List.replicate n 'x')))]⟩, ?_⟩
  have hkey : Json.quotedSize "" = 2 := by
    rw [Json.quotedSize, String.foldl_eq_foldl_toList]
    rfl
  show Json.membersSize 2 [("", .text _)] - 1 = _
  rw [Json.membersSize, Json.membersSize, Json.Value.size, htext, hkey]
  omega

/-- The words are not left although a payload larger than the budget makes room for another one; and
    they are left by a payload of the largest size, when another entry is there and the budget in
    megabytes has been set to no less than the words. -/
theorem byte_count_safe_at_the_edges :
    let calls : List Call := [⟨0, .put "a" ⟨[]⟩ 0⟩, ⟨0, .put "b" ⟨[]⟩ 0⟩]
    let wide := (Store.new 1 60).after
      [⟨0, .setBudgetMegabytes 17592186044416⟩, ⟨0, .put "a" ⟨[]⟩ 0⟩]
    Throughout (fun count posting => posting.ReleaseFits count ∧ posting.AdditionFits count) 0
      ((Store.new 1 60).ledger calls)
    ∧ wide.budget = Word.top
    ∧ ∃ value : Json.Payload, value.size = Word.top
      ∧ ¬ Throughout AdditionFits wide.usedBytes (wide.postings 0 (.put "b" value 0)) := by
  intro calls wide
  obtain ⟨-, -, hsafe, -⟩ := byte_count_safe 1 60 calls
  obtain ⟨-, hwide, -, -⟩ := byte_count_safe 1 60
    [⟨0, .setBudgetMegabytes 17592186044416⟩, ⟨0, .put "a" ⟨[]⟩ 0⟩]
  have hbudget : wide.budget = Word.top := by decide
  have hbudgets : ∀ earlier ∈ calls.inits,
      ((Store.new 1 60).after earlier).budget < Word.top := by decide
  obtain ⟨value, hsize⟩ := exists_payload_size (Word.top - 7)
  obtain ⟨-, -, hcorner⟩ := hwide (by decide)
  have hother : totalSize (wide.entries.erase "b").rows = 2 := by decide
  have hlarge : value.size = Word.top := hsize.trans (Nat.sub_add_cancel (by decide))
  refine ⟨hsafe (fun earlier hearlier => hbudgets earlier ((List.mem_inits _ _).2 hearlier))
    (by decide), hbudget, value, hlarge, ((hcorner hbudget.ge 0 "b" value 0).1).2 ?_⟩
  show Word.top < totalSize (wide.entries.erase "b").rows + value.size
  rw [hother, hlarge]
  omega

end BoundedCache.Store
