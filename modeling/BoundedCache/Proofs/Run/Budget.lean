import BoundedCache.Proofs.Run.Basic
import BoundedCache.Proofs.Store.Contents

namespace BoundedCache

/-!
# The byte budget

A put is never refused, so a payload that is larger than the budget is stored all the same.
`start.Oversized calls` describes the only way in which a store can exceed its budget: it holds one
row, which the latest put of the run stored, and no call after that put set a budget.

* `Within.concat` — one more call keeps it so: a put and a new budget end with a store that fits
  or is empty, and every other call only frees bytes;
* `within_budget` — every run, with the two consequences for new budgets and for puts that fit.

Where the ticks stand plays no part here.
-/

namespace Store

/-- The store after a run holds one row only, which is larger than the budget and was stored by the
    latest put of the run, and no budget was set since. -/
def Oversized (start : Store) (calls : List Call) : Prop :=
  ∃ earlier now key value ttl later entry, calls = earlier ++ ⟨now, .put key value ttl⟩ :: later
    ∧ (∀ call ∈ later, call.operation.putKey? = none ∧ call.operation.newBudget? = none)
    ∧ (start.after calls).entries.rows = [(key, entry)]
    ∧ entry.value = value ∧ entry.size = value.size
    ∧ (start.after calls).budget < entry.size

/-- A store within its budget, or the exception. -/
def Within (start : Store) (calls : List Call) : Prop :=
  (start.after calls).usedBytes ≤ (start.after calls).budget ∨ start.Oversized calls

variable {store start : Store} {calls : List Call}

/-! ### Operations -/

/-- **A new budget is met** by the store that it leaves. -/
theorem usedBytes_resize_le (haccounted : store.Accounted) (hheld : store.heldBytes ≤ Word.top)
    (now : Nat) {operation : Operation} {bytes : Nat}
    (hbytes : operation.newBudget? = some bytes) :
    (store.apply now operation).store.usedBytes ≤ bytes := by
  obtain ⟨gone, last, hroom, hstore, -, -⟩ := exists_resize_eq store now hbytes
  have hlast : last.Accounted := hroom.frees.accounted hheld (haccounted.congr rfl rfl rfl)
  have hle : last.usedBytes ≤ Word.top := by
    rw [hlast.used_eq]
    exact Nat.le_trans hroom.frees.held_le hheld
  have hbudget : last.budget = bytes := congrArg Prod.fst hroom.settings_eq
  rw [hstore]
  show last.usedBytes ≤ bytes
  rcases hroom.fits_or_empty with hfits | hempty
  · have hfits' : Word.addSat last.usedBytes 0 ≤ last.budget := of_decide_eq_true hfits
    rwa [Word.addSat_eq_add (by omega), Nat.add_zero, hbudget] at hfits'
  · rw [hlast.used_eq, heldBytes, hempty]
    exact Nat.zero_le _

/-- A put leaves a store within its budget, or the put row alone. -/
theorem usedBytes_put (haccounted : store.Accounted) (hheld : store.heldBytes ≤ Word.top)
    (now : Nat) (key : String) (value : Json.Payload) (ttl : Int)
    (hheld' : (store.apply now (.put key value ttl)).store.heldBytes ≤ Word.top) :
    (store.apply now (.put key value ttl)).store.usedBytes ≤ store.budget
      ∨ ∃ entry, (store.apply now (.put key value ttl)).store.entries.rows = [(key, entry)]
          ∧ entry.value = value ∧ entry.size = value.size ∧ store.budget < entry.size := by
  have haccounted' := accounted_apply haccounted hheld now (.put key value ttl) hheld'
  obtain ⟨gone, last, hroom, hnone, hstore, -⟩ := exists_put_eq store now key value ttl
  have hfrees := (frees_drop store key).trans hroom.frees
  have hlast : last.Accounted := hfrees.accounted hheld haccounted
  have hbudget : last.budget = store.budget :=
    congrArg Prod.fst (hroom.settings_eq.trans (settings_drop store key))
  have hused := haccounted'.used_eq
  rw [hstore] at hheld' hused ⊢
  rw [heldBytes_filed now value _ hnone] at hheld' hused
  rw [hused]
  -- The new bytes fit beside the rows that are left, or there are none.
  rcases hroom.fits_or_empty with hfits | hempty
  · have hfits' : Word.addSat last.usedBytes value.size ≤ last.budget := of_decide_eq_true hfits
    rw [hlast.used_eq, Word.addSat_eq_add hheld', hbudget] at hfits'
    exact .inl hfits'
  · have hlastHeld : last.heldBytes = 0 := by rw [heldBytes, hempty, totalSize_nil]
    rw [hlastHeld, Nat.zero_add]
    by_cases hover : store.budget < value.size
    · refine .inr ⟨last.newEntry now value (store.effectiveTtl ttl), ?_, rfl, rfl, hover⟩
      show (last.entries.erase key).rows ++ _ = _
      rw [Table.erase_rows_of_find?_eq_none hnone, hempty, List.nil_append]
    · exact .inl (Nat.le_of_not_lt hover)

/-- Every other operation keeps a single row or takes it away. -/
theorem rows_of_quiet (haccounted : store.Accounted) (hheld : store.heldBytes ≤ Word.top)
    (now : Nat) {operation : Operation} (hput : operation.putKey? = none)
    (hbytes : operation.newBudget? = none) {key : String} {entry : Entry}
    (hrows : store.entries.rows = [(key, entry)]) :
    (store.apply now operation).store.entries.rows = []
      ∨ ∃ entry', (store.apply now operation).store.entries.rows = [(key, entry')]
          ∧ entry'.value = entry.value ∧ entry'.size = entry.size := by
  have haccounted' := (frees_apply store now hput).accounted hheld haccounted
  have hsingle : ∀ other found, store.entries.find? other = some found →
      other = key ∧ found = entry := by
    intro other found hfind
    rw [← Table.mem_rows_iff, hrows, List.mem_singleton, Prod.mk.injEq] at hfind
    exact hfind
  -- Reads may touch the row and so change its entry, but never its payload.
  have hkept : ∀ other found, (store.apply now operation).store.entries.find? other = some found →
      other = key ∧ found.value = entry.value := by
    intro other found hfind
    have hlease := (lease?_apply_of_quiet store now hput hbytes).1
      (lease?_eq_some_iff.2 ⟨found, hfind, rfl, rfl⟩)
    obtain ⟨before, hbefore, hvalue, -⟩ := lease?_eq_some_iff.1 hlease.1
    obtain ⟨rfl, rfl⟩ := hsingle other before hbefore
    exact ⟨rfl, hvalue.symm⟩
  have honly : ∀ other ∈ (store.apply now operation).store.entries.keys, other = key := by
    intro other hother
    obtain ⟨found, hfind⟩ := (Table.mem_keys_iff _ _).1 hother
    exact (hkept other found hfind).1
  rcases Table.rows_eq_nil_or_singleton honly with hnil | ⟨found, hfound⟩
  · exact .inl hnil
  · have hfind : (store.apply now operation).store.entries.find? key = some found := by
      rw [← Table.mem_rows_iff, hfound]
      exact List.mem_singleton_self _
    have hentry : store.entries.find? key = some entry := by
      rw [← Table.mem_rows_iff, hrows]
      exact List.mem_singleton_self _
    have hvalue := (hkept key found hfind).2
    refine .inr ⟨found, hfound, hvalue, ?_⟩
    rw [haccounted'.size_eq key found hfind, haccounted.size_eq key entry hentry, hvalue]

/-! ### Runs -/

/-- A call that neither puts nor sets a budget only frees bytes, and an only row stays the only
    one. -/
theorem Within.of_quiet (h : start.Within calls) (haccounted : (start.after calls).Accounted)
    (hheld : (start.after calls).heldBytes ≤ Word.top) {call : Call}
    (hput : call.operation.putKey? = none) (hbytes : call.operation.newBudget? = none) :
    start.Within (calls ++ [call]) := by
  have hfrees : (start.after calls).Frees ((start.after calls).call call).store :=
    frees_apply (start.after calls) call.now hput
  have hused := (hfrees.accounted hheld haccounted).used_eq
  unfold Within Oversized
  rw [after_concat, budget_call, hbytes, Option.getD_none, hused]
  rcases h with hle | ⟨earlier, now, key, value, ttl, later, entry, hcalls, hlater, hrows, hvalue,
    hsize, hover⟩
  · rw [haccounted.used_eq] at hle
    exact .inl (Nat.le_trans hfrees.held_le hle)
  · rcases rows_of_quiet haccounted hheld call.now hput hbytes hrows with
      hnil | ⟨entry', hrows', hvalue', hsize'⟩
    · left
      rw [heldBytes, Store.call, hnil]
      exact Nat.zero_le _
    · refine .inr ⟨earlier, now, key, value, ttl, later ++ [call], entry', ?_, ?_, hrows',
        hvalue'.trans hvalue, hsize'.trans hsize, hsize'.symm ▸ hover⟩
      · rw [hcalls, List.append_assoc, List.cons_append]
      · intro other hother
        rcases List.mem_append.1 hother with hother | hother
        · exact hlater other hother
        · rw [List.mem_singleton.1 hother]
          exact ⟨hput, hbytes⟩

/-- **One more call** stays within the budget, or makes or keeps the exception. -/
theorem Within.concat (h : start.Within calls) (haccounted : (start.after calls).Accounted)
    (hheld : (start.after calls).heldBytes ≤ Word.top) (call : Call)
    (hheld' : (start.after (calls ++ [call])).heldBytes ≤ Word.top) :
    start.Within (calls ++ [call]) := by
  cases hput : call.operation.putKey? with
  | some key =>
    obtain ⟨now, operation⟩ := call
    obtain ⟨value, ttl, rfl⟩ := Operation.eq_put_of_putKey? hput
    have hbudget : ((start.after calls).call ⟨now, .put key value ttl⟩).store.budget
        = (start.after calls).budget := budget_call _ _
    unfold Within Oversized
    rw [after_concat] at hheld' ⊢
    rw [hbudget]
    rcases usedBytes_put haccounted hheld now key value ttl hheld' with
      hle | ⟨entry, hrows, hvalue, hsize, hover⟩
    · exact .inl hle
    · exact .inr ⟨calls, now, key, value, ttl, [], entry, rfl,
        fun call hcall => absurd hcall List.not_mem_nil, hrows, hvalue, hsize, hover⟩
  | none =>
    cases hbytes : call.operation.newBudget? with
    | none => exact h.of_quiet haccounted hheld hput hbytes
    | some bytes =>
      left
      rw [after_concat, budget_call, hbytes, Option.getD_some]
      exact usedBytes_resize_le haccounted hheld call.now hbytes

/-- **Every run stays within the budget, but for the exception.** -/
theorem within_after (budget defaultTtl : Nat) (calls : List Call)
    (hbytes : ∀ earlier, earlier <+: calls →
      ((Store.new budget defaultTtl).after earlier).heldBytes ≤ Word.top) :
    (Store.new budget defaultTtl).Within calls := by
  induction calls using List.reverseRecOn with
  | nil => exact .inl (Nat.zero_le _)
  | append_singleton calls call ih =>
    have hcalls : ∀ earlier, earlier <+: calls →
        ((Store.new budget defaultTtl).after earlier).heldBytes ≤ Word.top :=
      fun earlier hearlier => hbytes earlier (hearlier.trans (List.prefix_append _ _))
    have haccounted := accounted_after (accounted_new budget defaultTtl) calls hcalls
    exact (ih hcalls).concat haccounted (hcalls calls (List.prefix_refl _)) call
      (hbytes _ (List.prefix_refl _))

/-- The exception needs a payload that exceeds the budget at its put. -/
theorem Oversized.exists_put (h : start.Oversized calls) :
    ∃ earlier now key value ttl later, calls = earlier ++ ⟨now, .put key value ttl⟩ :: later
      ∧ (start.after earlier).budget < value.size := by
  obtain ⟨earlier, now, key, value, ttl, later, entry, rfl, hlater, -, -, hsize, hover⟩ := h
  refine ⟨earlier, now, key, value, ttl, later, rfl, ?_⟩
  have hquiet : ∀ call ∈ ⟨now, .put key value ttl⟩ :: later,
      Operation.newBudget? (Call.operation call) = none := by
    intro call hcall
    rcases List.mem_cons.1 hcall with rfl | hcall
    · rfl
    · exact (hlater call hcall).2
  rw [budget_after, lastSet_append _ _ _ hquiet, ← budget_after, hsize] at hover
  exact hover

/-- **The byte budget.**  After a run the bytes in use are within the budget, or the store holds
    nothing but the payload of the latest put, which exceeds the budget alone, and no budget was set
    since.  So every new budget is met at once, and a run whose payloads all fit the budget at their
    puts stays within it. -/
theorem within_budget (budget defaultTtl : Nat) (calls : List Call)
    (hbytes : ∀ earlier, earlier <+: calls →
      ((Store.new budget defaultTtl).after earlier).heldBytes ≤ Word.top) :
    let start := Store.new budget defaultTtl
    let store := start.after calls
    (store.usedBytes ≤ store.budget ∨ start.Oversized calls)
      ∧ (∀ call bytes, Operation.newBudget? call.operation = some bytes →
          (store.call call).store.budget = bytes ∧ (store.call call).store.usedBytes ≤ bytes)
      ∧ ((∀ earlier now key value ttl later, calls = earlier ++ ⟨now, .put key value ttl⟩ :: later →
          value.size ≤ (start.after earlier).budget) → store.usedBytes ≤ store.budget) := by
  intro start store
  have hwithin : start.Within calls := within_after budget defaultTtl calls hbytes
  have haccounted : store.Accounted :=
    accounted_after (accounted_new budget defaultTtl) calls hbytes
  have hheld : store.heldBytes ≤ Word.top := hbytes calls (List.prefix_refl _)
  refine ⟨hwithin, ?_, ?_⟩
  · intro call bytes hnew
    refine ⟨?_, usedBytes_resize_le haccounted hheld call.now hnew⟩
    rw [budget_call, hnew, Option.getD_some]
  · intro hputs
    rcases hwithin with hle | hover
    · exact hle
    · obtain ⟨earlier, now, key, value, ttl, later, hcalls, hlt⟩ := hover.exists_put
      exact absurd (hputs earlier now key value ttl later hcalls) (Nat.not_le_of_lt hlt)

/-- A payload that exceeds the budget takes the place of another one and stays through a read,
    until a new budget takes it; a payload that fits stays within the budget. -/
theorem within_budget_oversized :
    let calls : List Call := [⟨0, .put "a" ⟨[]⟩ 5⟩, ⟨1, .put "b" ⟨[]⟩ 5⟩, ⟨2, .get "b"⟩]
    let single : List Call := [⟨0, .put "a" ⟨[]⟩ 5⟩]
    (∀ earlier, earlier <+: calls → ((Store.new 1 60).after earlier).heldBytes ≤ Word.top)
      ∧ (∀ earlier, earlier <+: single → ((Store.new 2 60).after earlier).heldBytes ≤ Word.top)
      ∧ (Store.new 1 60).Oversized calls
      ∧ (((Store.new 1 60).after calls).call ⟨3, .reconfigure (some 0) none⟩).store.usedBytes ≤ 0
      ∧ ((Store.new 2 60).after single).usedBytes ≤ ((Store.new 2 60).after single).budget := by
  intro calls single
  have hcalls : (Store.new 1 60).NoOverflow calls := .of_sum_le (by decide) (by decide)
  have hsingle : (Store.new 2 60).NoOverflow single := .of_sum_le (by decide) (by decide)
  obtain ⟨hwithin, hresize, -⟩ := within_budget 1 60 calls hcalls.bytes
  obtain ⟨-, -, hfits⟩ := within_budget 2 60 single hsingle.bytes
  have hover : ¬ ((Store.new 1 60).after calls).usedBytes
      ≤ ((Store.new 1 60).after calls).budget := by decide
  have hnew : Operation.newBudget? (.reconfigure (some 0) none) = some 0 := rfl
  obtain ⟨-, hempty⟩ := hresize ⟨3, .reconfigure (some 0) none⟩ 0 hnew
  refine ⟨hcalls.bytes, hsingle.bytes, hwithin.resolve_left hover, hempty, hfits ?_⟩
  intro earlier now key value ttl later hput
  cases earlier with
  | nil =>
    simp only [single, List.nil_append, List.cons.injEq, Call.mk.injEq, Operation.put.injEq] at hput
    obtain ⟨⟨-, -, rfl, -⟩, -⟩ := hput
    show Json.Payload.size ⟨[]⟩ ≤ 2
    decide
  | cons first earlier => simp [single] at hput

end Store

end BoundedCache
