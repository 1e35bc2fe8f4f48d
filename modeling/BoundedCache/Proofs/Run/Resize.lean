import BoundedCache.Proofs.Run.Budget
import BoundedCache.Proofs.Run.Future
import BoundedCache.Proofs.Store.Holding

namespace BoundedCache

/-!
# Budgets that are set one after another

A new budget takes the least recently used rows until the rest fits.  What several new budgets take
is what the lowest of them takes in a single pass:

* `MakesRoom.lower` — a pass that stopped at a budget goes on under a lower one as if it had never
  stopped;
* `MakesRoom.grow` — under a larger one it has nothing to do;
* `PassesOnce` — so the rows that are gone after some budgets are those of one pass under the lowest
  of them (`passesOnce_after`).

A larger budget evicts nothing (`Reachable.keeps`), except for an entry that is alone in the store
and too large for the old budget and for the new one (`ExceedsBoth`), which goes
(`Reachable.loses`).  It goes with the first new budget, so `resizing_in_steps` has this exception
for the first one only.
-/

namespace MakesRoom

variable {incoming : Nat} {store last last' : Store} {gone gone' : List Row}

/-- The loop gives one result. -/
theorem unique (h : MakesRoom incoming store gone last)
    (h' : MakesRoom incoming store gone' last') :
    gone.length = gone'.length ∧ last = last' := by
  have heq := h.evictRounds_eq (Nat.le_max_left gone.length gone'.length)
  have heq' := h'.evictRounds_eq (Nat.le_max_right gone.length gone'.length)
  rw [heq'] at heq
  exact ⟨(congrArg Step.result heq).symm, (congrArg Step.store heq).symm⟩

/-- A store without entries loses none. -/
theorem of_rows_eq_nil (h : MakesRoom incoming store gone last) (hempty : store.entries.rows = []) :
    gone = [] ∧ last = store := by
  cases h with
  | fits _ => exact ⟨rfl, rfl⟩
  | exhausted _ _ => exact ⟨rfl, rfl⟩
  | @evict _ _ _ row _ _ _ hfind _ =>
    have hrow := (Table.mem_rows_iff _ _ _).2 hfind
    rw [hempty] at hrow
    exact absurd hrow List.not_mem_nil

/-- The loop does not look at the default time to live. -/
theorem withDefaultTtl (h : MakesRoom incoming store gone last) (defaultTtl : Nat) :
    MakesRoom incoming { store with defaultTtl } gone { last with defaultTtl } := by
  induction h with
  | fits hfits => exact .fits hfits
  | exhausted hover hempty => exact .exhausted hover hempty
  | evict hover hvictim hfind _ ih => exact .evict hover hvictim hfind ih

/-- **A lower budget goes on** where the old one stopped. -/
theorem lower (h : MakesRoom incoming store gone last) {budget : Nat} (hle : budget ≤ store.budget)
    (h' : MakesRoom incoming { last with budget } gone' last') :
    MakesRoom incoming { store with budget } (gone ++ gone') last' := by
  induction h with
  | fits _ => exact h'
  | exhausted _ _ => exact h'
  | @evict store _ _ row gone hover hvictim hfind _ ih =>
    -- What does not fit the old budget does not fit the lower one.
    have hover' : ({ store with budget } : Store).fits incoming = false := by
      rw [Store.fits, decide_eq_false_iff_not] at hover ⊢
      show ¬ Word.addSat store.usedBytes incoming ≤ budget
      omega
    exact .evict hover' hvictim hfind (ih hle h')

/-- **A larger budget** takes nothing more. -/
theorem grow (h : MakesRoom incoming store gone last) {budget : Nat} (hle : store.budget ≤ budget)
    (h' : MakesRoom incoming { last with budget } gone' last') :
    gone' = [] ∧ last' = { last with budget } := by
  have hbudget : last.budget = store.budget := congrArg Prod.fst h.settings_eq
  rcases h.fits_or_empty with hfits | hempty
  · refine Store.eq_of_makesRoom h' ?_
    rw [Store.fits, decide_eq_true_iff] at hfits ⊢
    show Word.addSat last.usedBytes incoming ≤ budget
    omega
  · exact h'.of_rows_eq_nil hempty

end MakesRoom

/-- Some calls set some budgets, each call one of them, in this order. -/
def SetBudgets (calls : List Call) (budgets : List Nat) : Prop :=
  (calls.map fun call => call.operation.newBudget?) = budgets.map some

theorem SetBudgets.exists_budget {calls : List Call} {budgets : List Nat}
    (h : SetBudgets calls budgets) {call : Call} (hcall : call ∈ calls) :
    ∃ bytes, call.operation.newBudget? = some bytes := by
  have hmem := List.mem_map_of_mem (f := fun call : Call => call.operation.newBudget?) hcall
  rw [h, List.mem_map] at hmem
  obtain ⟨bytes, -, hbytes⟩ := hmem
  exact ⟨bytes, hbytes.symm⟩

theorem SetBudgets.forall_left {earlier later : List Call} {budgets : List Nat}
    (h : SetBudgets (earlier ++ later) budgets) :
    ∀ call ∈ earlier, ∃ bytes, Operation.newBudget? (Call.operation call) = some bytes :=
  fun _ hcall => h.exists_budget (List.mem_append_left _ hcall)

/-- The evictions that the reply to a call tells of. -/
def Count.returned (store : Store) (call : Call) : Nat :=
  (store.call call).result.evicted?.getD 0

namespace Store

variable {store resized : Store} {lowest bytes : Nat} {gone : List Row} {call : Call}
  {calls : List Call}

/-! ### One pass under the lowest budget -/

/-- The store as it is under no limits. -/
def withoutLimits (store : Store) : Store := { store with budget := 0, defaultTtl := 0 }

/-- A single pass under a budget takes the rows `gone` out of a store, and what it leaves is
    `resized` but for the limits. -/
def PassesOnce (store : Store) (lowest : Nat) (gone : List Row) (resized : Store) : Prop :=
  ∃ last, MakesRoom 0 { store with budget := lowest } gone last
    ∧ resized.withoutLimits = last.withoutLimits

/-- The first new budget is a pass. -/
theorem exists_passesOnce (store : Store) (hbytes : call.operation.newBudget? = some bytes) :
    ∃ gone, store.PassesOnce bytes gone (store.call call).store
      ∧ Count.returned store call = gone.length := by
  obtain ⟨gone, last, hroom, hstore, -, hevicted⟩ := exists_resize_eq store call.now hbytes
  refine ⟨gone, ⟨last, hroom, ?_⟩, ?_⟩
  · rw [Store.call, hstore]
    rfl
  · rw [Count.returned, Store.call, hevicted, Option.getD_some]

/-- **One more budget** makes it a pass under the lower one of the two. -/
theorem PassesOnce.resize (h : store.PassesOnce lowest gone resized)
    (hbytes : call.operation.newBudget? = some bytes) :
    ∃ gone', store.PassesOnce (min lowest bytes) gone' (resized.call call).store
      ∧ gone'.length = gone.length + Count.returned resized call := by
  obtain ⟨last, hpass, hresized⟩ := h
  obtain ⟨more, next, hroom, hstore, -, hevicted⟩ := exists_resize_eq resized call.now hbytes
  have hreturned : Count.returned resized call = more.length := by
    rw [Count.returned, Store.call, hevicted, Option.getD_some]
  -- The pass goes on from where it stopped, as the default time to live does not matter to it.
  have hsame : ({ resized with budget := bytes, defaultTtl := last.defaultTtl } : Store)
      = { last with budget := bytes } :=
    congrArg (fun s : Store => { s with budget := bytes, defaultTtl := last.defaultTtl }) hresized
  have hgoes : MakesRoom 0 { last with budget := bytes } more
      { next with defaultTtl := last.defaultTtl } := hsame ▸ hroom.withDefaultTtl last.defaultTtl
  rw [Store.call, hstore, hreturned]
  by_cases hle : bytes ≤ lowest
  · rw [Nat.min_eq_right hle]
    exact ⟨gone ++ more, ⟨_, hpass.lower hle hgoes, rfl⟩, List.length_append⟩
  · have hle' : lowest ≤ bytes := Nat.le_of_not_le hle
    obtain ⟨rfl, hnext⟩ := hpass.grow hle' hgoes
    have hlimits := congrArg withoutLimits hnext
    rw [Nat.min_eq_left hle']
    exact ⟨gone, ⟨last, hpass, hlimits⟩, rfl⟩

/-- **Several budgets** are a pass under the lowest one. -/
theorem PassesOnce.resizeAll {budgets : List Nat} (h : store.PassesOnce lowest gone resized)
    (hbudgets : SetBudgets calls budgets) :
    ∃ gone', store.PassesOnce (budgets.foldl min lowest) gone' (resized.after calls)
      ∧ gone'.length = gone.length + resized.total Count.returned calls := by
  induction calls generalizing lowest gone resized budgets with
  | nil =>
    obtain rfl : budgets = [] := List.map_eq_nil_iff.1 hbudgets.symm
    exact ⟨gone, h, rfl⟩
  | cons call calls ih =>
    obtain ⟨bytes, rest, rfl, hbytes, hrest⟩ := List.map_eq_cons_iff.1 hbudgets.symm
    obtain ⟨more, hmore, hlength⟩ := h.resize hbytes.symm
    obtain ⟨gone', hgone, hlength'⟩ := ih hmore hrest.symm
    refine ⟨gone', hgone, ?_⟩
    rw [hlength', hlength, total, Nat.add_assoc]

/-- What some new budgets take is what the lowest one takes in a single pass. -/
theorem passesOnce_after (store : Store) {budgets : List Nat}
    (hbudgets : SetBudgets calls budgets)
    (hlowest : budgets.min? = some lowest) :
    ∃ gone, store.PassesOnce lowest gone (store.after calls)
      ∧ store.total Count.returned calls = gone.length := by
  cases calls with
  | nil =>
    obtain rfl : budgets = [] := List.map_eq_nil_iff.1 hbudgets.symm
    exact absurd hlowest (by simp)
  | cons call calls =>
    obtain ⟨bytes, rest, rfl, hbytes, hrest⟩ := List.map_eq_cons_iff.1 hbudgets.symm
    obtain ⟨first, hfirst, hreturned⟩ := store.exists_passesOnce hbytes.symm
    obtain ⟨gone, hgone, hlength⟩ := hfirst.resizeAll hrest.symm
    rw [List.min?_cons', Option.some.injEq] at hlowest
    rw [hlowest] at hgone
    exact ⟨gone, hgone, by rw [total, hreturned, hlength]⟩

/-- The budget after some new ones is the last of them. -/
theorem budget_after_budgets (store : Store) {budgets : List Nat} {final : Nat}
    (hbudgets : SetBudgets calls budgets)
    (hfinal : budgets.getLast? = some final) : (store.after calls).budget = final := by
  have hset : (calls.filterMap fun call => call.operation.newBudget?) = budgets := by
    have hjoin := congrArg (List.filterMap id) hbudgets
    simpa [List.filterMap_map, Function.comp_def] using hjoin
  rw [budget_after, lastSet, hset, List.getLastD_eq_getLast?, hfinal, Option.getD_some]

/-! ### Larger budgets -/

/-- A new budget brings nothing in and uses no key. -/
theorem Reachable.resize (h : store.Reachable) (hbytes : call.operation.newBudget? = some bytes) :
    (store.call call).store.Reachable := by
  obtain ⟨-, -, hnext⟩ := h.exists_regular
  have hfrees : store.Frees (store.call call).store :=
    frees_apply store call.now (Operation.putKey?_of_newBudget? hbytes)
  refine h.call ⟨?_, hfrees.held_le.trans h.held_le⟩
  rw [Operation.usedKey?_of_newBudget? hbytes]
  exact hnext

theorem Reachable.resizeAll (h : store.Reachable)
    (hcalls : ∀ call ∈ calls, ∃ bytes, Operation.newBudget? (Call.operation call) = some bytes) :
    (store.after calls).Reachable := by
  induction calls generalizing store with
  | nil => exact h
  | cons call calls ih =>
    obtain ⟨⟨bytes, hbytes⟩, hrest⟩ := List.forall_mem_cons.1 hcalls
    exact ih (h.resize hbytes) hrest

/-- A new budget is met, so the first one ends any excess. -/
theorem Reachable.within_resizeAll (h : store.Reachable) (hne : calls ≠ [])
    (hcalls : ∀ call ∈ calls, ∃ bytes, Operation.newBudget? (Call.operation call) = some bytes) :
    (store.after calls).usedBytes ≤ (store.after calls).budget := by
  obtain ⟨earlier, call, rfl⟩ := (List.eq_nil_or_concat' calls).resolve_left hne
  obtain ⟨hearlier, hcall⟩ := List.forall_mem_append.1 hcalls
  obtain ⟨bytes, hbytes⟩ := hcall call List.mem_cons_self
  have hbefore := h.resizeAll hearlier
  rw [after_concat, budget_call, hbytes]
  exact usedBytes_resize_le hbefore.accounted hbefore.held_le call.now hbytes

/-- **A store exceeds its budget by a single entry only.** -/
theorem Reachable.within_or_single (h : store.Reachable) :
    store.usedBytes ≤ store.budget ∨ ∃ row, store.entries.rows = [row] := by
  induction h with
  | new budget defaultTtl => exact .inl (Nat.zero_le _)
  | @call store call h haffords ih =>
    have haccounted := h.accounted
    have hheld := h.held_le
    have hbudget := budget_call store call
    cases hput : call.operation.putKey? with
    | some key =>
      obtain ⟨now, operation⟩ := call
      obtain ⟨value, ttl, rfl⟩ := Operation.eq_put_of_putKey? hput
      rcases usedBytes_put haccounted hheld now key value ttl haffords.bytes with
        hle | ⟨entry, hrows, -⟩
      · exact .inl (hle.trans (Nat.le_of_eq hbudget.symm))
      · exact .inr ⟨_, hrows⟩
    | none =>
      cases hbytes : call.operation.newBudget? with
      | some bytes =>
        rw [hbytes, Option.getD_some] at hbudget
        rw [hbudget]
        exact .inl (usedBytes_resize_le haccounted hheld call.now hbytes)
      | none =>
        -- The call frees bytes, and an only row stays the only one or goes.
        have hfrees : store.Frees (store.call call).store := frees_apply store call.now hput
        have hused := (hfrees.accounted hheld haccounted).used_eq
        rw [hbytes, Option.getD_none] at hbudget
        rw [hbudget, hused]
        rcases ih with hle | ⟨row, hrow⟩
        · rw [haccounted.used_eq] at hle
          exact .inl (hfrees.held_le.trans hle)
        · rcases rows_of_quiet haccounted hheld call.now hput hbytes hrow with
            hnil | ⟨entry, hrows, -⟩
          · left
            rw [heldBytes, Store.call, hnil]
            exact Nat.zero_le _
          · exact .inr ⟨_, hrows⟩
  | @reorder store entries h hrows ih =>
    refine ih.imp id ?_
    rintro ⟨row, hrow⟩
    rw [hrow] at hrows
    exact ⟨row, List.perm_singleton.1 hrows⟩

/-- A single entry, which is larger than the budget and than a new one. -/
def ExceedsBoth (store : Store) (bytes : Nat) : Prop :=
  ∃ row, store.entries.rows = [row] ∧ store.budget < row.2.size ∧ bytes < row.2.size

/-- A new budget takes nothing away. -/
def Keeps (store : Store) (call : Call) : Prop :=
  (store.call call).result.evicted? = some 0
    ∧ (store.call call).store.withoutLimits = store.withoutLimits

/-- A new budget takes the only entry of a store. -/
def Loses (store : Store) (call : Call) : Prop :=
  (store.call call).result.evicted? = some 1 ∧ (store.call call).store.entries.rows = []

/-- The rows fit a budget if the bytes that are held do. -/
theorem fits_withBudget_iff (htop : store.usedBytes ≤ Word.top) :
    ({ store with budget := bytes } : Store).fits 0 = true ↔ store.usedBytes ≤ bytes := by
  rw [fits, decide_eq_true_iff]
  show Word.addSat store.usedBytes 0 ≤ bytes ↔ _
  rw [Word.addSat_eq_add htop, Nat.add_zero]

/-- What fits a new budget stays. -/
theorem keeps_of_le (hbytes : call.operation.newBudget? = some bytes)
    (hle : store.usedBytes ≤ bytes) (htop : store.usedBytes ≤ Word.top) : store.Keeps call := by
  obtain ⟨gone, last, hroom, hstore, -, hevicted⟩ := exists_resize_eq store call.now hbytes
  obtain ⟨rfl, rfl⟩ := eq_of_makesRoom hroom ((fits_withBudget_iff htop).2 hle)
  refine ⟨hevicted, ?_⟩
  rw [Store.call, hstore]
  rfl

/-- The bytes of a single entry are all that a store holds. -/
theorem Reachable.usedBytes_of_single (h : store.Reachable) {row : Row}
    (hrow : store.entries.rows = [row]) : store.usedBytes = row.2.size := by
  have hused := h.accounted.used_eq
  rw [heldBytes, hrow] at hused
  exact hused

/-- **A larger budget** takes nothing away, unless a single entry exceeds both budgets. -/
theorem Reachable.keeps (h : store.Reachable) (hbytes : call.operation.newBudget? = some bytes)
    (hle : store.budget ≤ bytes) (hfits : ¬ store.ExceedsBoth bytes) : store.Keeps call := by
  refine keeps_of_le hbytes ?_ h.usedBytes_le
  by_contra hover
  -- What does not fit the new budget exceeds the old one, so it is a single entry.
  obtain ⟨row, hrow⟩ := h.within_or_single.resolve_left (by omega)
  have hsize := h.usedBytes_of_single hrow
  exact hfits ⟨row, hrow, by omega, by omega⟩

/-- **A single entry that exceeds both budgets** goes with the new one. -/
theorem Reachable.loses (h : store.Reachable) (hbytes : call.operation.newBudget? = some bytes)
    (hexceeds : store.ExceedsBoth bytes) : store.Loses call := by
  obtain ⟨row, hrow, -, hover⟩ := hexceeds
  rw [← h.usedBytes_of_single hrow] at hover
  obtain ⟨gone, last, hroom, hstore, -, hevicted⟩ := exists_resize_eq store call.now hbytes
  rw [Loses, Store.call, hevicted, hstore]
  cases hroom with
  | fits hfits => exact absurd ((fits_withBudget_iff h.usedBytes_le).1 hfits) (Nat.not_le.2 hover)
  | exhausted _ hempty =>
    have hnil : store.entries.rows = [] := hempty
    rw [hrow] at hnil
    exact absurd hnil (List.cons_ne_nil _ _)
  | @evict _ _ recency first gone _ hvictim hfind hrest =>
    have hleft := size_evicting recency hfind
    have hone : ({ store with budget := bytes } : Store).size = 1 := congrArg List.length hrow
    rw [hone] at hleft
    have hnil := List.eq_nil_of_length_eq_zero (Nat.succ.inj hleft)
    obtain ⟨rfl, rfl⟩ := hrest.of_rows_eq_nil hnil
    exact ⟨rfl, hnil⟩

/-- What a reply says of the limits is what they are. -/
theorem usedBytes_of_limits {limits : Limits}
    (hlimits : (store.call call).result = .limits limits) :
    limits.usedBytes = (store.call call).store.usedBytes := by
  obtain ⟨now, operation⟩ := call
  cases operation with
  | reconfigure budget defaultTtl =>
    have heq : (store.reconfigure budget defaultTtl).result = limits := Reply.limits.inj hlimits
    rw [← heq]
    rfl
  | _ => cases hlimits

/-! ### Steps and single calls -/

/-- **Budgets set one after another are two budgets.**  New budgets, set in any way, leave what the
    lowest of them leaves that is followed by the last one: the same store, but for the default time
    to live, and the same number of evictions in the replies.  A reply that tells the limits tells
    the bytes that are held then.  A larger budget evicts nothing, unless it is the first one and
    the store is a single entry that exceeds it as well, which is then evicted. -/
theorem resizing_in_steps (h : store.Reachable) {budgets : List Nat}
    (hbudgets : SetBudgets calls budgets) {lowest final : Nat}
    (hlowest : budgets.min? = some lowest)
    (hfinal : budgets.getLast? = some final) {lower last : Call}
    (hlower : lower.operation.newBudget? = some lowest)
    (hlast : last.operation.newBudget? = some final) :
    ((store.after calls).withoutLimits = (store.after [lower, last]).withoutLimits
        ∧ (store.after calls).budget = final ∧ (store.after [lower, last]).budget = final)
      ∧ store.total Count.returned calls = store.total Count.returned [lower, last]
      ∧ (∀ earlier call later limits, calls = earlier ++ call :: later →
          ((store.after earlier).call call).result = .limits limits →
          limits.usedBytes = ((store.after earlier).call call).store.heldBytes)
      ∧ ∀ earlier call later bytes, calls = earlier ++ call :: later →
          call.operation.newBudget? = some bytes → (store.after earlier).budget ≤ bytes →
          (earlier = [] ∧ store.ExceedsBoth bytes → store.Loses call)
            ∧ (¬ (earlier = [] ∧ store.ExceedsBoth bytes) → (store.after earlier).Keeps call) := by
  have htwo : SetBudgets [lower, last] [lowest, final] := by
    simp [SetBudgets, hlower, hlast]
  have hmin : [lowest, final].min? = some lowest := by
    have hle : lowest ≤ final :=
      (List.min?_eq_some_iff.1 hlowest).2 final (List.mem_of_getLast? hfinal)
    simp [Nat.min_eq_left hle]
  obtain ⟨gone, ⟨left, hpass, hleft⟩, htotal⟩ := store.passesOnce_after hbudgets hlowest
  obtain ⟨gone', ⟨left', hpass', hleft'⟩, htotal'⟩ := store.passesOnce_after htwo hmin
  -- Both are the one pass under the lowest budget.
  obtain ⟨hlength, rfl⟩ := hpass.unique hpass'
  refine ⟨⟨hleft.trans hleft'.symm, store.budget_after_budgets hbudgets hfinal,
    store.budget_after_budgets htwo rfl⟩, by rw [htotal, htotal', hlength], ?_, ?_⟩
  · rintro earlier call later limits rfl hlimits
    obtain ⟨bytes, hbytes⟩ := hbudgets.exists_budget (List.mem_append_right _ List.mem_cons_self)
    have hearlier := h.resizeAll hbudgets.forall_left
    rw [usedBytes_of_limits hlimits, (hearlier.resize hbytes).accounted.used_eq]
  · rintro earlier call later bytes rfl hbytes hle
    refine ⟨fun hexceeds => h.loses hbytes hexceeds.2, fun hfits => ?_⟩
    by_cases hfirst : earlier = []
    · subst hfirst
      exact h.keeps hbytes hle fun hexceeds => hfits ⟨rfl, hexceeds⟩
    · have hwithin := h.within_resizeAll hfirst hbudgets.forall_left
      exact keeps_of_le hbytes (hwithin.trans hle) (h.resizeAll hbudgets.forall_left).usedBytes_le

/-- Of four entries of two bytes the budgets 6, 2 and 7 take three, as 2 and 7 do; the entry that
    was read last stays. -/
theorem resizing_in_steps_three :
    let store := (Store.new 8 60).after
      [⟨0, .put "a" ⟨[]⟩ 5⟩, ⟨0, .put "b" ⟨[]⟩ 5⟩, ⟨0, .put "c" ⟨[]⟩ 5⟩, ⟨0, .put "d" ⟨[]⟩ 5⟩,
        ⟨1, .get "a"⟩]
    let calls : List Call :=
      [⟨1, .setBudget 6⟩, ⟨1, .reconfigure (some 2) none⟩, ⟨2, .reconfigure (some 7) (some 9)⟩]
    let lower : Call := ⟨5, .setBudget 2⟩
    let last : Call := ⟨5, .setBudget 7⟩
    store.Reachable ∧ SetBudgets calls [6, 2, 7] ∧ [6, 2, 7].min? = some 2
      ∧ [6, 2, 7].getLast? = some 7 ∧ lower.operation.newBudget? = some 2
      ∧ last.operation.newBudget? = some 7
      ∧ (store.after calls).withoutLimits = (store.after [lower, last]).withoutLimits
      ∧ (store.after calls).recency.keys = ["a"]
      ∧ store.total Count.returned calls = store.total Count.returned [lower, last]
      ∧ store.total Count.returned calls = 3 := by
  intro store calls lower last
  have hstore : store.Reachable := reachable_after (.of_sum_le (by decide) (by decide))
  have hbudgets : SetBudgets calls [6, 2, 7] := rfl
  have hlower : lower.operation.newBudget? = some 2 := rfl
  have hlast : last.operation.newBudget? = some 7 := rfl
  obtain ⟨⟨hlimits, -⟩, htotal, -⟩ := resizing_in_steps hstore hbudgets rfl rfl hlower hlast
  exact ⟨hstore, hbudgets, rfl, rfl, rfl, rfl, hlimits, by decide, htotal, by decide⟩

/-- **A larger budget may evict**: a payload of 20 bytes exceeds a budget of 5 bytes and one of 10
    bytes. -/
theorem growing_may_evict :
    let value : Json.Payload := ⟨[("d", .text "xxxxxxxxxxxx")]⟩
    let store := (Store.new 5 300).after [⟨0, .put "a" value 0⟩]
    value.size = 20 ∧ store.Reachable ∧ store.size = 1 ∧ store.budget < 10
      ∧ (store.call ⟨0, .setBudget 10⟩).result.evicted? = some 1
      ∧ (store.call ⟨0, .setBudget 10⟩).store.size = 0 := by
  intro value store
  have hsize : value.size = 20 := by
    have hname : Json.quotedSize "d" = 3 := by
      rw [Json.quotedSize, String.foldl_eq_foldl_toList]
      decide
    have htext : Json.quotedSize "xxxxxxxxxxxx" = 14 := by
      rw [Json.quotedSize, String.foldl_eq_foldl_toList]
      decide
    show Json.membersSize 2 [("d", .text "xxxxxxxxxxxx")] - 1 = 20
    rw [Json.membersSize, Json.membersSize, Json.Value.size, hname, htext]
  have hstore : store.Reachable := by
    have hbytes : ([⟨0, .put "a" value 0⟩].map Call.bytes).sum ≤ Word.top := by
      show value.size + 0 ≤ Word.top
      rw [hsize]
      decide
    exact reachable_after (.of_sum_le (by decide) hbytes)
  have hbudget : (Operation.setBudget 10).newBudget? = some 10 := rfl
  have hexceeds : store.ExceedsBoth 10 := by
    by_contra hfits
    -- What is kept would exceed the new budget.
    obtain ⟨-, hkeeps⟩ : store.Keeps ⟨0, .setBudget 10⟩ := hstore.keeps hbudget (by decide) hfits
    have hused : store.usedBytes = 20 := by
      show Word.addWrap 0 value.size = 20
      rw [hsize]
      decide
    have hkept := congrArg usedBytes hkeeps
    change (store.apply 0 (.setBudget 10)).store.usedBytes = store.usedBytes at hkept
    have hle := usedBytes_resize_le hstore.accounted hstore.held_le 0 hbudget
    rw [hkept, hused] at hle
    exact absurd hle (by decide)
  obtain ⟨hone, hnil⟩ : store.Loses ⟨0, .setBudget 10⟩ := hstore.loses hbudget hexceeds
  exact ⟨hsize, hstore, by decide, by decide, hone, congrArg List.length hnil⟩

end Store

end BoundedCache
