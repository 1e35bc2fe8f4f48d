import BoundedCache.Proofs.Recency
import Mathlib.Data.List.Induction
import Mathlib.Data.List.Nodup
import Mathlib.Data.Set.Card

namespace BoundedCache.Recency

/-!
# The order of use, told by its history

`Recency` does not know under which tick it has filed a key.  Its user keeps the tick that the
latest touch of a key has returned, and hands it in at the next touch of the key, or to have it
removed.  So what the order of use does is told by its history alone, the `Note`s of what was asked
and what came back:

* `tickOf? notes key` is the bookkeeping of the user: the tick of the latest touch of a key, unless
  the key was removed or popped or all of them were forgotten since then.
* `Careful requests` says that every touch hands in what the bookkeeping tells, and for a key that
  is not held nothing, or a tick that is out of use.
* `Mirrors notes recency` ties the rows to the bookkeeping.  It is kept by every request that fits
  (`Mirrors.serve`), hence by every careful run (`mirrors_after`).
* `queue_after` — so the order of use is a queue: it holds the keys that the history tells, and
  gives them back by their latest touches.
-/

/-- What is asked of the order of use. -/
inductive Request
  | touch (key : String) (previous : Option Nat)
  | remove (tick : Nat)
  | popOldest
  | clear

/-- What was asked and what came back. -/
inductive Note
  | touched (key : String) (tick : Nat)
  | removed (tick : Nat)
  | popped (key : Option String)
  | cleared

/-! ### Runs -/

/-- The note of a request, and the order of use after it. -/
def serve (recency : Recency) : Request → Note × Recency
  | .touch key previous =>
    (.touched key (recency.touch key previous).1, (recency.touch key previous).2)
  | .remove tick => (.removed tick, recency.remove tick)
  | .popOldest =>
    match recency.popOldest? with
    | none => (.popped none, recency)
    | some (key, rest) => (.popped (some key), rest)
  | .clear => (.cleared, recency.clear)

/-- The order of use after some requests. -/
def after (recency : Recency) : List Request → Recency
  | [] => recency
  | request :: requests => (recency.serve request).2.after requests

/-- The notes of some requests. -/
def notes (recency : Recency) : List Request → List Note
  | [] => []
  | request :: requests => (recency.serve request).1 :: (recency.serve request).2.notes requests

theorem after_append (recency : Recency) (requests more : List Request) :
    recency.after (requests ++ more) = (recency.after requests).after more := by
  induction requests generalizing recency with
  | nil => rfl
  | cons request requests ih => exact ih _

theorem notes_append (recency : Recency) (requests more : List Request) :
    recency.notes (requests ++ more)
      = recency.notes requests ++ (recency.after requests).notes more := by
  induction requests generalizing recency with
  | nil => rfl
  | cons request requests ih => rw [List.cons_append, notes, ih, notes, after, List.cons_append]

/-! ### What the history tells -/

/-- What a note leaves of the tick under which a key is held. -/
def Note.update (key : String) (held : Option Nat) : Note → Option Nat
  | .touched other tick => if other = key then some tick else held
  | .removed tick => if held = some tick then none else held
  | .popped other => if other = some key then none else held
  | .cleared => none

/-- **The bookkeeping of the user**: the tick that the latest touch of a key has returned, unless
    the key was removed or popped or all keys were forgotten since then. -/
def tickOf? (notes : List Note) (key : String) : Option Nat :=
  notes.foldl (Note.update key) none

/-- A touch as the row that it files. -/
def Note.touch? : Note → Option (Nat × String)
  | .touched key tick => some (tick, key)
  | _ => none

/-- The touches of a history, each as the row that it files. -/
def touches (notes : List Note) : List (Nat × String) := notes.filterMap Note.touch?

/-- The keys that are held, by their latest touches; `dedup` keeps the last one of several
    occurrences. -/
def lineup (notes : List Note) : List String :=
  ((touches notes).map Prod.snd).dedup.filter fun key => (tickOf? notes key).isSome

/-- Whether a request hands in the tick that it has to: a touch hands in the tick of a key that is
    held, and for any other key nothing, or a tick under which no key is held. -/
def Fits (notes : List Note) : Request → Prop
  | .touch key previous => (∀ tick ∈ tickOf? notes key, previous = some tick)
      ∧ (tickOf? notes key = none → ∀ tick ∈ previous, ∀ row ∈ touches notes,
          tickOf? notes row.2 ≠ some tick)
  | _ => True

instance (notes : List Note) (request : Request) : Decidable (Fits notes request) :=
  match request with
  | .touch key previous => inferInstanceAs (Decidable
      ((∀ tick ∈ tickOf? notes key, previous = some tick)
        ∧ (tickOf? notes key = none → ∀ tick ∈ previous, ∀ row ∈ touches notes,
          tickOf? notes row.2 ≠ some tick)))
  | .remove _ | .popOldest | .clear => inferInstanceAs (Decidable True)

/-- **Every request of a run fits** what the requests before it have told. -/
def Careful (requests : List Request) : Prop :=
  ∀ i (hi : i < requests.length), Fits (empty.notes (requests.take i)) requests[i]

instance (requests : List Request) : Decidable (Careful requests) :=
  inferInstanceAs (Decidable
    (∀ i (hi : i < requests.length), Fits (empty.notes (requests.take i)) requests[i]))

theorem tickOf?_concat (notes : List Note) (note : Note) (key : String) :
    tickOf? (notes ++ [note]) key = note.update key (tickOf? notes key) := by
  rw [tickOf?, List.foldl_append, List.foldl_cons, List.foldl_nil, tickOf?]

theorem touches_concat (notes : List Note) (note : Note) :
    touches (notes ++ [note]) = touches notes ++ note.touch?.toList := by
  rw [touches, List.filterMap_append, touches]
  cases note <;> rfl

theorem careful_concat {requests : List Request} {request : Request}
    (h : Careful (requests ++ [request])) :
    Careful requests ∧ Fits (empty.notes requests) request := by
  constructor
  · intro i hi
    have hfits := h i (by rw [List.length_append]; omega)
    rwa [List.take_append_of_le_length (Nat.le_of_lt hi), List.getElem_append_left hi] at hfits
  · have hfits := h requests.length (by rw [List.length_append, List.length_singleton]; omega)
    rwa [List.take_left, List.getElem_concat_length rfl] at hfits

/-! ### Rows and bookkeeping -/

/-- The order of use at the end of a history: the rows are those of the bookkeeping, in the order of
    the latest touches, and the touches have drawn the ticks from 1 on. -/
structure Mirrors (notes : List Note) (recency : Recency) : Prop where
  mem_iff : ∀ tick key, (tick, key) ∈ recency.order ↔ tickOf? notes key = some tick
  rows_sublist : recency.order.Sublist (touches notes)
  keys_sublist : recency.keys.Sublist ((touches notes).map Prod.snd).dedup
  ticks_eq : (touches notes).map Prod.fst = List.range' 1 (touches notes).length
  next_eq : recency.next = (touches notes).length + 1

theorem mirrors_empty : Mirrors [] empty where
  mem_iff := fun tick _ => iff_of_false List.not_mem_nil (Option.some_ne_none tick).symm
  rows_sublist := .slnil
  keys_sublist := .slnil
  ticks_eq := rfl
  next_eq := rfl

variable {notes : List Note} {recency : Recency}

/-- Ticks are drawn in ascending order. -/
theorem Mirrors.pairwise_ticks (h : Mirrors notes recency) :
    ((touches notes).map Prod.fst).Pairwise (· < ·) := by
  rw [h.ticks_eq]
  exact List.pairwise_lt_range' 1

theorem Mirrors.nodup_keys (h : Mirrors notes recency) : recency.keys.Nodup :=
  h.keys_sublist.nodup (List.nodup_dedup _)

/-- No two keys are filed under one tick. -/
theorem Mirrors.key_eq (h : Mirrors notes recency) {tick : Nat} {key other : String}
    (hkey : (tick, key) ∈ recency.order) (hother : (tick, other) ∈ recency.order) :
    key = other := by
  have hticks : ((touches notes).map Prod.fst).Nodup := h.pairwise_ticks.imp Nat.ne_of_lt
  have hrows : (recency.order.map Prod.fst).Nodup := (h.rows_sublist.map _).nodup hticks
  exact congrArg Prod.snd (List.inj_on_of_nodup_map hrows hkey hother rfl)

theorem Mirrors.ahead (h : Mirrors notes recency) : recency.Ahead := by
  intro row hrow
  have htick : row.1 ∈ (touches notes).map Prod.fst :=
    List.mem_map_of_mem (h.rows_sublist.subset hrow)
  rw [h.ticks_eq, List.mem_range'_1] at htick
  rw [h.next_eq]
  omega

theorem Mirrors.mem_keys_iff (h : Mirrors notes recency) (key : String) :
    key ∈ recency.keys ↔ (tickOf? notes key).isSome = true := by
  rw [Option.isSome_iff_exists, keys, List.mem_map]
  constructor
  · rintro ⟨⟨tick, _⟩, hrow, rfl⟩
    exact ⟨tick, (h.mem_iff tick _).1 hrow⟩
  · rintro ⟨tick, htick⟩
    exact ⟨(tick, key), (h.mem_iff tick key).2 htick, rfl⟩

/-- **The held keys stand in the order of their latest touches.** -/
theorem Mirrors.lineup_eq (h : Mirrors notes recency) : lineup notes = recency.keys := by
  rw [eq_filter_of_sublist h.keys_sublist (List.nodup_dedup _), lineup]
  refine List.filter_congr fun key _ => ?_
  rw [Bool.eq_iff_iff, decide_eq_true_iff, h.mem_keys_iff]

/-! ### One more request -/

/-- A touch that fits moves the row of its key to the end. -/
theorem Mirrors.order_touch (h : Mirrors notes recency) {key : String} {previous : Option Nat}
    (hfits : Fits notes (.touch key previous)) :
    (recency.touch key previous).2.order
      = (recency.order.filter fun row => row.2 != key) ++ [(recency.next, key)] := by
  obtain ⟨hheld, hfresh⟩ := hfits
  cases htick : tickOf? notes key with
  | some tick =>
    -- The tick that is handed in is that of the key, and of no other one.
    rw [hheld tick htick]
    show ((recency.remove tick).add key).order = _
    rw [order_add (ahead_remove h.ahead tick)]
    refine congrArg (· ++ _) (List.filter_congr fun row hrow => ?_)
    have hsame : row.1 = tick ↔ row.2 = key := by
      constructor
      · rintro rfl
        exact h.key_eq hrow ((h.mem_iff _ _).2 htick)
      · rintro rfl
        exact Option.some.inj (((h.mem_iff _ _).1 hrow).symm.trans htick)
    rw [Bool.eq_iff_iff, bne_iff_ne, bne_iff_ne, ne_eq, ne_eq, hsame]
  | none =>
    have hother : (recency.order.filter fun row => row.2 != key) = recency.order := by
      refine List.filter_eq_self.2 fun row hrow => bne_iff_ne.2 ?_
      rintro rfl
      exact Option.some_ne_none _ (((h.mem_iff _ _).1 hrow).symm.trans htick)
    rw [hother]
    cases previous with
    | none => exact order_add h.ahead key
    | some tick =>
      have hunused : (recency.remove tick).order = recency.order := by
        refine List.filter_eq_self.2 fun row hrow => bne_iff_ne.2 ?_
        rintro rfl
        exact hfresh htick row.1 rfl row (h.rows_sublist.subset hrow) ((h.mem_iff _ _).1 hrow)
      show ((recency.remove tick).add key).order = _
      rw [order_add (ahead_remove h.ahead tick), hunused]
      rfl

theorem next_touch (recency : Recency) (key : String) (previous : Option Nat) :
    (recency.touch key previous).2.next = Word.succWrap recency.next := by
  cases previous <;> rfl

theorem fst_touch (recency : Recency) (key : String) (previous : Option Nat) :
    (recency.touch key previous).1 = recency.next := by
  cases previous <;> rfl

theorem Mirrors.touch (h : Mirrors notes recency) {key : String} {previous : Option Nat}
    (hfits : Fits notes (.touch key previous)) (hcount : (touches notes).length + 1 < Word.top) :
    Mirrors (notes ++ [.touched key recency.next]) (recency.touch key previous).2 where
  mem_iff := by
    intro tick other
    rw [h.order_touch hfits, List.mem_append, List.mem_filter, List.mem_singleton, h.mem_iff,
      tickOf?_concat, Note.update]
    by_cases hkey : key = other
    · subst hkey
      simp [eq_comm]
    · simp [hkey, Ne.symm hkey]
  rows_sublist := by
    rw [h.order_touch hfits, touches_concat]
    exact (List.filter_sublist.trans h.rows_sublist).append (List.Sublist.refl _)
  keys_sublist := by
    have hkeys : (recency.touch key previous).2.keys
        = (recency.keys.filter fun other => other != key) ++ [key] := by
      rw [keys, h.order_touch hfits, List.map_append, keys, List.filter_map]
      rfl
    rw [hkeys, touches_concat, List.map_append]
    show List.Sublist _ (_ ++ [key]).dedup
    rw [dedup_concat]
    exact (h.keys_sublist.filter _).append (List.Sublist.refl _)
  ticks_eq := by
    rw [touches_concat, List.map_append, h.ticks_eq, List.length_append]
    show _ ++ [recency.next] = List.range' 1 ((touches notes).length + 1)
    rw [List.range'_1_concat, h.next_eq, Nat.add_comm]
  next_eq := by
    rw [next_touch, h.next_eq, touches_concat, List.length_append, Word.succWrap,
      Word.addWrap_eq_add (by omega)]
    rfl

/-- A request that draws no tick leaves some of the rows, those that the bookkeeping keeps. -/
theorem Mirrors.keep (h : Mirrors notes recency) {note : Note} {order : List (Nat × String)}
    (hsub : order.Sublist recency.order) (hnote : note.touch? = none)
    (hmem : ∀ tick key, (tick, key) ∈ order
      ↔ note.update key (tickOf? notes key) = some tick) :
    Mirrors (notes ++ [note]) { recency with order := order } := by
  have htouches : touches (notes ++ [note]) = touches notes := by
    rw [touches_concat, hnote, Option.toList_none, List.append_nil]
  constructor
  · intro tick key
    rw [tickOf?_concat]
    exact hmem tick key
  · rw [htouches]
    exact hsub.trans h.rows_sublist
  · rw [htouches]
    exact (hsub.map _).trans h.keys_sublist
  · rw [htouches]
    exact h.ticks_eq
  · rw [htouches]
    exact h.next_eq

theorem Mirrors.remove (h : Mirrors notes recency) (tick : Nat) :
    Mirrors (notes ++ [.removed tick]) (recency.remove tick) := by
  refine h.keep List.filter_sublist rfl fun other key => ?_
  rw [List.mem_filter, h.mem_iff, Note.update, bne_iff_ne]
  by_cases hheld : tickOf? notes key = some tick
  · rw [if_pos hheld, hheld, Option.some.injEq]
    exact iff_of_false (fun hboth => hboth.2 hboth.1.symm) (Option.some_ne_none other).symm
  · rw [if_neg hheld]
    refine and_iff_left_of_imp fun hother => ?_
    rintro rfl
    exact hheld hother

theorem Mirrors.popOldest (h : Mirrors notes recency) :
    Mirrors (notes ++ [(recency.serve .popOldest).1]) (recency.serve .popOldest).2 := by
  obtain ⟨order, next⟩ := recency
  cases order with
  | nil => exact h.keep (List.Sublist.refl _) rfl h.mem_iff
  | cons row rest =>
    refine h.keep (List.sublist_cons_self row rest) rfl fun tick key => ?_
    have hkeys : row.2 ∉ rest.map Prod.snd := (List.nodup_cons.1 h.nodup_keys).1
    show _ ↔ (if some row.2 = some key then none else tickOf? notes key) = some tick
    by_cases hkey : some row.2 = some key
    · obtain rfl := Option.some.inj hkey
      rw [if_pos hkey]
      refine iff_of_false (fun hrow => hkeys ?_) (Option.some_ne_none tick).symm
      exact List.mem_map.2 ⟨(tick, row.2), hrow, rfl⟩
    · rw [if_neg hkey]
      have hne : (tick, key) ≠ row := fun heq => hkey (congrArg (some ∘ Prod.snd) heq).symm
      rw [← h.mem_iff, List.mem_cons, or_iff_right hne]

/-- **A request that fits keeps the rows and the bookkeeping together.** -/
theorem Mirrors.serve (h : Mirrors notes recency) {request : Request} (hfits : Fits notes request)
    (hcount : (touches (notes ++ [(recency.serve request).1])).length < Word.top) :
    Mirrors (notes ++ [(recency.serve request).1]) (recency.serve request).2 := by
  cases request with
  | touch key previous =>
    rw [touches_concat, List.length_append] at hcount
    show Mirrors (notes ++ [.touched key (recency.touch key previous).1]) _
    rw [fst_touch]
    exact h.touch hfits hcount
  | remove tick => exact h.remove tick
  | popOldest => exact h.popOldest
  | clear =>
    refine h.keep (List.nil_sublist _) rfl fun tick key => ?_
    exact iff_of_false List.not_mem_nil (Option.some_ne_none tick).symm

/-! ### Runs -/

/-- **Every careful run** with fewer touches than there are ticks keeps them together. -/
theorem mirrors_after {requests : List Request} (hcareful : Careful requests)
    (hcount : (touches (empty.notes requests)).length < Word.top) :
    Mirrors (empty.notes requests) (empty.after requests) := by
  -- Induction from the end of the run, since the bookkeeping is that of the requests before.
  induction requests using List.reverseRecOn with
  | nil => exact mirrors_empty
  | append_singleton requests request ih =>
    obtain ⟨hbefore, hfits⟩ := careful_concat hcareful
    rw [notes_append] at hcount ⊢
    rw [after_append]
    have hless : (touches (empty.notes requests)).length < Word.top := by
      rw [touches, List.filterMap_append, List.length_append] at hcount
      exact Nat.lt_of_le_of_lt (Nat.le_add_right _ _) hcount
    exact (ih hbefore hless).serve hfits hcount

/-- Popping gives the keys one by one, and then nothing. -/
theorem notes_popOldest (recency : Recency) (more : Nat) :
    recency.notes (List.replicate (recency.size + more) .popOldest)
      = recency.keys.map (fun key => .popped (some key)) ++ List.replicate more (.popped none) := by
  obtain ⟨order, next⟩ := recency
  induction order with
  | nil =>
    show notes ⟨[], next⟩ (List.replicate (0 + more) .popOldest) = List.replicate more _
    rw [Nat.zero_add]
    induction more with
    | zero => rfl
    | succ more ih => exact congrArg (Note.popped none :: ·) ih
  | cons row rest ih =>
    have hsize : size ⟨row :: rest, next⟩ + more = (size ⟨rest, next⟩ + more) + 1 := by
      simp only [size, List.length_cons]
      omega
    rw [hsize, List.replicate_succ]
    exact congrArg (Note.popped (some row.2) :: ·) ih

/-- **The order of use is a queue by latest touches.**  In every careful run the ticks ascend, also
    across `clear`; every key that the history holds is filed exactly once and no other key is; and
    popping gives exactly the held keys, each once, by their latest touches, and then nothing. -/
theorem queue_after {requests : List Request} (hcareful : Careful requests)
    (hcount : (touches (empty.notes requests)).length < Word.top) :
    let notes := empty.notes requests
    let recency := empty.after requests
    ((touches notes).map Prod.fst).Pairwise (· < ·)
      ∧ (∀ key, recency.keys.count key = if (tickOf? notes key).isSome then 1 else 0)
      ∧ recency.size = {key | (tickOf? notes key).isSome}.ncard
      ∧ ∀ more, recency.notes (List.replicate (recency.size + more) .popOldest)
        = (lineup notes).map (fun key => .popped (some key))
          ++ List.replicate more (.popped none) := by
  intro notes recency
  have h : Mirrors notes recency := mirrors_after hcareful hcount
  refine ⟨h.pairwise_ticks, fun key => ?_, ?_, fun more => ?_⟩
  · by_cases hkey : key ∈ recency.keys
    · rw [if_pos ((h.mem_keys_iff key).1 hkey)]
      exact List.count_eq_one_of_mem h.nodup_keys hkey
    · rw [if_neg (mt (h.mem_keys_iff key).2 hkey)]
      exact List.count_eq_zero_of_not_mem hkey
  · have hset : {key | (tickOf? notes key).isSome} = (recency.keys.toFinset : Set String) := by
      ext key
      rw [List.coe_toFinset]
      exact (h.mem_keys_iff key).symm
    rw [hset, Set.ncard_coe_finset, List.toFinset_card_of_nodup h.nodup_keys, keys, List.length_map,
      size]
  · rw [h.lineup_eq]
    exact notes_popOldest recency more

/-- Keys that are touched again, removed, popped and forgotten; `b` comes back with a tick that is
    out of use, and falls behind `a` once it is touched again. -/
theorem queue_after_return :
    let requests : List Request := [.touch "a" none, .touch "b" none, .touch "c" none,
      .touch "a" (some 1), .remove 2, .popOldest, .clear, .touch "b" (some 2), .touch "a" none,
      .touch "b" (some 5)]
    Careful requests ∧ (touches (empty.notes requests)).length < Word.top
      ∧ (empty.after requests).keys.count "b" = 1
      ∧ (empty.after requests).notes [.popOldest, .popOldest, .popOldest]
        = [.popped (some "a"), .popped (some "b"), .popped none] := by
  intro requests
  have hcareful : Careful requests := by decide +kernel
  have hcount : (touches (empty.notes requests)).length < Word.top := by decide +kernel
  obtain ⟨-, hheld, -, hpopped⟩ := queue_after hcareful hcount
  have hlineup : lineup (empty.notes requests) = ["a", "b"] := by decide +kernel
  have hpops := hpopped 1
  rw [hlineup] at hpops
  exact ⟨hcareful, hcount, hheld "b", hpops⟩

end BoundedCache.Recency
