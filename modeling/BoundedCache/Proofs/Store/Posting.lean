import BoundedCache.Proofs.Store.Contents

namespace BoundedCache

/-!
# The byte count, posting by posting

`store.postings now operation` lists what an operation does to the byte count, in the order in which
it does it: the size of every entry that goes is subtracted, and the size of a new one is added.
`usedBytes_apply` says that the list is complete, for every store: the byte count after the
operation is the one before it with these postings.

Whether they stay within a word is said of the postings themselves, each at the count that it finds
(`Throughout`):

* `Posting.ReleaseFits` — no more is subtracted than there is;
* `Posting.AdditionFits` — a sum does not exceed the largest word.
-/

/-- One change of the byte count. -/
inductive Posting
  /-- The size of an entry that goes. -/
  | release (size : Nat)
  /-- The size of an entry that comes in. -/
  | add (size : Nat)
  /-- The count starts anew. -/
  | reset

namespace Posting

/-- The count after a posting. -/
def next (count : Nat) : Posting → Nat
  | release size => Word.subWrap count size
  | add size => Word.addWrap count size
  | reset => 0

/-- A subtraction does not underflow. -/
def ReleaseFits (count : Nat) : Posting → Prop
  | release size => size ≤ count
  | _ => True

/-- An addition does not overflow. -/
def AdditionFits (count : Nat) : Posting → Prop
  | add size => count + size ≤ Word.top
  | _ => True

/-- Every posting fits the count that it finds. -/
def Throughout (fits : Nat → Posting → Prop) : (count : Nat) → List Posting → Prop
  | _, [] => True
  | count, posting :: rest => fits count posting ∧ Throughout fits (posting.next count) rest

instance (count : Nat) : (posting : Posting) → Decidable (posting.ReleaseFits count)
  | release size => inferInstanceAs (Decidable (size ≤ count))
  | add _ => .isTrue trivial
  | reset => .isTrue trivial

instance (count : Nat) : (posting : Posting) → Decidable (posting.AdditionFits count)
  | release _ => .isTrue trivial
  | add size => inferInstanceAs (Decidable (count + size ≤ Word.top))
  | reset => .isTrue trivial

instance Throughout.decidable (fits : Nat → Posting → Prop)
    [∀ count posting, Decidable (fits count posting)] :
    (count : Nat) → (postings : List Posting) → Decidable (Throughout fits count postings)
  | _, [] => .isTrue trivial
  | count, posting :: rest =>
    have := Throughout.decidable fits (posting.next count) rest
    inferInstanceAs (Decidable (fits count posting ∧ Throughout fits (posting.next count) rest))

variable {fits fits' : Nat → Posting → Prop} {count : Nat} {postings more : List Posting}
  {sizes : List Nat}

theorem throughout_append : Throughout fits count (postings ++ more) ↔
    Throughout fits count postings ∧ Throughout fits (postings.foldl next count) more := by
  induction postings generalizing count with
  | nil => exact (and_iff_right trivial).symm
  | cons posting postings ih =>
    rw [List.cons_append, Throughout, ih, Throughout, and_assoc]
    rfl

theorem throughout_and :
    Throughout (fun count posting => fits count posting ∧ fits' count posting) count postings ↔
      Throughout fits count postings ∧ Throughout fits' count postings := by
  induction postings generalizing count with
  | nil => exact (and_self_iff).symm
  | cons posting postings ih => rw [Throughout, ih, Throughout, Throughout, and_and_and_comm]

/-- Subtractions one after another fit iff their sum does. -/
theorem releases_fit_iff (hcount : count ≤ Word.top) :
    Throughout ReleaseFits count (sizes.map release) ↔ sizes.sum ≤ count := by
  induction sizes generalizing count with
  | nil => exact iff_of_true trivial (Nat.zero_le _)
  | cons size sizes ih =>
    rw [List.map_cons, Throughout, List.sum_cons]
    by_cases hsize : size ≤ count
    · have hnext : (release size).next count = count - size := Word.subWrap_eq_sub hcount hsize
      rw [hnext, ih (by omega), ReleaseFits]
      omega
    · exact iff_of_false (fun h => hsize h.1) (by omega)

/-- Subtractions are no additions. -/
theorem additions_fit_releases : Throughout AdditionFits count (sizes.map release) := by
  induction sizes generalizing count with
  | nil => trivial
  | cons size sizes ih => exact ⟨trivial, ih⟩

/-- The subtraction that an event tells of. -/
def ofEvent? : Event → Option Posting
  | .evicted _ size => some (release size)
  | _ => none

end Posting

/-- The posting that ends an operation. -/
def Operation.closing : Operation → List Posting
  | .put _ value _ => [.add value.size]
  | .clear => [.reset]
  | _ => []

namespace Store

/-- The keys that an operation removes for another reason than the budget. -/
def removedKeys (store : Store) (now : Nat) : Operation → List String
  | .get key => if (store.entries.find? key).any (·.isExpired now) then [key] else []
  | .getWithTtl key => if (store.entries.find? key).any (·.isExpired now) then [key] else []
  | .put key _ _ => [key]
  | .invalidate key => [key]
  | .invalidatePattern pattern => store.keysMatching pattern
  | .sweep => store.keysDue now
  | _ => []

/-- The sizes of the entries of some keys. -/
def entrySizes (store : Store) (keys : List String) : List Nat :=
  keys.filterMap fun key => (store.entries.find? key).map Entry.size

/-- What an operation does to the byte count: it releases the entries of the keys that it removes
    and those that have to make room, and then it adds what it puts. -/
def postings (store : Store) (now : Nat) (operation : Operation) : List Posting :=
  (store.entrySizes (store.removedKeys now operation)).map .release
    ++ (store.apply now operation).events.filterMap Posting.ofEvent? ++ operation.closing

variable {store : Store} {now : Nat} {operation : Operation} {key : String} {sizes : List Nat}

/-! ### Releases -/

/-- `store.Sheds sizes store'`: on the way to `store'` entries of these sizes go, and nothing comes
    in. -/
structure Sheds (store : Store) (sizes : List Nat) (store' : Store) : Prop where
  used_eq : store'.usedBytes = (sizes.map Posting.release).foldl Posting.next store.usedBytes
  held_add : store'.heldBytes + sizes.sum = store.heldBytes

theorem Sheds.of_eq {store' : Store} (hentries : store'.entries = store.entries)
    (hused : store'.usedBytes = store.usedBytes) : store.Sheds [] store' where
  used_eq := hused
  held_add := by rw [heldBytes, heldBytes, hentries]; rfl

theorem Sheds.trans {store' store'' : Store} {more : List Nat} (h : store.Sheds sizes store')
    (h' : store'.Sheds more store'') : store.Sheds (sizes ++ more) store'' where
  used_eq := by rw [h'.used_eq, h.used_eq, List.map_append, List.foldl_append]
  held_add := by rw [List.sum_append, ← h.held_add, ← h'.held_add]; omega

theorem sheds_without {entry : Entry} (hfind : store.entries.find? key = some entry) :
    store.Sheds [entry.size] (store.without key entry) where
  used_eq := rfl
  held_add := heldBytes_without hfind

theorem entrySizes_of_find? {entry : Entry} (hfind : store.entries.find? key = some entry) :
    store.entrySizes [key] = [entry.size] := by
  rw [entrySizes, List.filterMap_cons_some (by rw [hfind]; rfl)]
  rfl

theorem entrySizes_of_find?_eq_none (hnone : store.entries.find? key = none) :
    store.entrySizes [key] = [] := by
  rw [entrySizes, List.filterMap_cons_none (by rw [hnone]; rfl)]
  rfl

theorem sheds_drop (store : Store) (key : String) :
    store.Sheds (store.entrySizes [key]) (store.drop key) := by
  cases hfind : store.entries.find? key with
  | none =>
    rw [drop_of_find?_eq_none hfind, entrySizes_of_find?_eq_none hfind]
    exact .of_eq rfl rfl
  | some entry => rw [drop_of_find? hfind, entrySizes_of_find? hfind]; exact sheds_without hfind

theorem sheds_expel (store : Store) (key : String) :
    store.Sheds (store.entrySizes [key]) (store.expel key) := by
  cases hfind : store.entries.find? key with
  | none =>
    rw [expel_of_find?_eq_none hfind, entrySizes_of_find?_eq_none hfind]
    exact .of_eq rfl rfl
  | some entry =>
    rw [expel_of_find? hfind, entrySizes_of_find? hfind]
    exact ⟨rfl, heldBytes_without hfind⟩

/-- Removals one after another shed the sizes that their keys have at the start. -/
theorem sheds_foldl {remove : Store → String → Store}
    (hsheds : ∀ store key, Sheds store (store.entrySizes [key]) (remove store key))
    (hfind : ∀ store key other, (remove store key).entries.find? other
      = if other = key then none else store.entries.find? other)
    {keys : List String} (hkeys : keys.Nodup) (store : Store) :
    store.Sheds (store.entrySizes keys) (keys.foldl remove store) := by
  induction keys generalizing store with
  | nil => exact .of_eq rfl rfl
  | cons key keys ih =>
    rw [List.nodup_cons] at hkeys
    -- The entries of the other keys are still there when their turn comes.
    have hrest : (remove store key).entrySizes keys = store.entrySizes keys := by
      refine List.filterMap_congr fun other hother => ?_
      have hne : other ≠ key := fun heq => hkeys.1 (heq ▸ hother)
      rw [hfind, if_neg hne]
    have hsplit : store.entrySizes (key :: keys)
        = store.entrySizes [key] ++ store.entrySizes keys := by
      rw [entrySizes, entrySizes, entrySizes, ← List.filterMap_append]
      rfl
    rw [hsplit, ← hrest]
    exact (hsheds store key).trans (ih hkeys.2 _)

theorem nodup_keysMatching (store : Store) (pattern : String) :
    (store.keysMatching pattern).Nodup := store.entries.nodup.filter _

theorem nodup_keysDue (store : Store) (now : Nat) : (store.keysDue now).Nodup :=
  (List.filter_sublist.map Prod.fst).nodup store.entries.nodup

theorem sheds_read (store : Store) (now : Nat) (key : String) :
    store.Sheds (store.entrySizes (store.removedKeys now (.get key)))
      (store.read now key).store := by
  cases hfind : store.entries.find? key with
  | none =>
    rw [read_of_find?_eq_none now hfind, removedKeys, hfind]
    exact .of_eq rfl rfl
  | some entry =>
    rw [removedKeys, hfind, Option.any_some, Entry.isExpired]
    by_cases hexpired : entry.expiresAt < now
    · rw [read_of_expired hfind hexpired, decide_eq_true hexpired, if_pos rfl,
        entrySizes_of_find? hfind]
      exact ⟨rfl, heldBytes_without hfind⟩
    · rw [read_of_live hfind (by omega), decide_eq_false hexpired]
      exact ⟨rfl, heldBytes_touched now hfind⟩

end Store

theorem MakesRoom.sheds {incoming : Nat} {store last : Store} {gone : List Row}
    (h : MakesRoom incoming store gone last) :
    store.Sheds (gone.map fun row => row.2.size) last := by
  induction h with
  | fits _ => exact .of_eq rfl rfl
  | exhausted _ _ => exact .of_eq rfl rfl
  | @evict store _ recency row _ _ _ hfind _ ih =>
    have hone : store.Sheds [row.2.size] (store.evicting recency row) :=
      ⟨rfl, @Store.heldBytes_without { store with recency } _ _ hfind⟩
    exact hone.trans ih

namespace Store

variable {store : Store} {now : Nat} {operation : Operation}

/-! ### Operations -/

theorem filterMap_ofEvent?_evicted (gone : List Row) :
    (gone.map fun row => Event.evicted row.1 row.2.size).filterMap Posting.ofEvent?
      = (gone.map fun row => row.2.size).map Posting.release := by
  rw [List.filterMap_map, List.map_map, ← List.filterMap_eq_map]
  rfl

theorem filterMap_ofEvent?_putWarnings (store : Store) (key : String) (size : Nat) :
    (store.putWarnings key size).filterMap Posting.ofEvent? = [] := by
  unfold putWarnings
  split <;> rfl

/-- **The postings of a put.** -/
theorem postings_put (store : Store) (now : Nat) (key : String) (value : Json.Payload)
    (ttl : Int) :
    ∃ sizes gone last, MakesRoom value.size (store.drop key) gone last
      ∧ last.entries.find? key = none
      ∧ store.postings now (.put key value ttl) = sizes.map .release ++ [.add value.size]
      ∧ store.Sheds sizes last
      ∧ (store.apply now (.put key value ttl)).store
        = last.filed now key value (store.effectiveTtl ttl) := by
  obtain ⟨gone, last, hroom, hnone, hstore, hevents⟩ := exists_put_eq store now key value ttl
  refine ⟨_, gone, last, hroom, hnone, ?_, (sheds_drop store key).trans hroom.sheds, hstore⟩
  rw [postings, hevents, List.filterMap_append, filterMap_ofEvent?_putWarnings,
    filterMap_ofEvent?_evicted, List.nil_append, List.map_append]
  rfl

/-- **The postings of all other operations**, but for a clear. -/
theorem postings_of_not_put (store : Store) (now : Nat) (hput : operation.putKey? = none)
    (hclear : operation ≠ .clear) :
    ∃ sizes, store.postings now operation = sizes.map .release
      ∧ store.Sheds sizes (store.apply now operation).store := by
  have hclosing : operation.closing = [] := by
    cases operation <;> simp [Operation.closing, Operation.putKey?] at hput hclear ⊢
  cases hbytes : operation.newBudget? with
  | some bytes =>
    obtain ⟨gone, last, hroom, hstore, hevents, -⟩ := exists_resize_eq store now hbytes
    have hkeys : store.removedKeys now operation = [] := by
      cases operation <;> simp [removedKeys, Operation.newBudget?] at hbytes ⊢
    refine ⟨gone.map fun row => row.2.size, ?_, ?_⟩
    · rw [postings, hclosing, hkeys, hevents, filterMap_ofEvent?_evicted, List.append_nil]
      rfl
    · rw [hstore]
      exact ⟨hroom.sheds.used_eq, hroom.sheds.held_add⟩
  | none =>
    have hpostings : store.postings now operation
        = (store.entrySizes (store.removedKeys now operation)).map .release := by
      rw [postings, hclosing, events_apply store now hput hbytes, List.filterMap_nil,
        List.append_nil, List.append_nil]
    refine ⟨_, hpostings, ?_⟩
    cases operation with
    | get key => exact sheds_read store now key
    | getWithTtl key => exact sheds_read store now key
    | put key value ttl => simp [Operation.putKey?] at hput
    | invalidate key => exact sheds_drop store key
    | invalidatePattern pattern =>
      exact sheds_foldl sheds_drop find?_drop (store.nodup_keysMatching pattern) store
    | clear => exact absurd rfl hclear
    | setBudget bytes => simp [Operation.newBudget?] at hbytes
    | setBudgetMegabytes megabytes => simp [Operation.newBudget?] at hbytes
    | reconfigure budget defaultTtl =>
      obtain rfl : budget = none := hbytes
      exact .of_eq rfl rfl
    | sweep => exact sheds_foldl sheds_expel find?_expel (store.nodup_keysDue now) store
    | _ => exact .of_eq rfl rfl

theorem postings_clear (store : Store) (now : Nat) : store.postings now .clear = [.reset] := rfl

/-- **The postings are all that happens to the byte count.** -/
theorem usedBytes_apply (store : Store) (now : Nat) (operation : Operation) :
    (store.apply now operation).store.usedBytes
      = (store.postings now operation).foldl Posting.next store.usedBytes := by
  cases hput : operation.putKey? with
  | some key =>
    obtain ⟨value, ttl, rfl⟩ := Operation.eq_put_of_putKey? hput
    obtain ⟨sizes, gone, last, -, -, hpostings, hsheds, hstore⟩ :=
      postings_put store now key value ttl
    rw [hstore, hpostings, List.foldl_append, ← hsheds.used_eq]
    rfl
  | none =>
    by_cases hclear : operation = .clear
    · rw [hclear, postings_clear]
      rfl
    · obtain ⟨sizes, hpostings, hsheds⟩ := postings_of_not_put store now hput hclear
      rw [hpostings, hsheds.used_eq]

end Store

end BoundedCache
