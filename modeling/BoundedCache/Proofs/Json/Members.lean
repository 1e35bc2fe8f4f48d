import BoundedCache.Proofs.Json.Reader.Value

namespace BoundedCache.Json

/-!
# The members of an object

An object is made by inserting members one after another, and `arrange` says what comes of that.
What counts is the last value of each key (`lookup_arrange`), and nothing else does: two sequences
of members make the same object iff each key has the same last value in both
(`arrange_eq_arrange_iff`).
-/

variable {member : String × Value} {members others : List (String × Value)} {key : String}

/-- The value that was inserted last with a key. -/
def lastValue? (members : List (String × Value)) (key : String) : Option Value :=
  members.reverse.lookup key

theorem lookup_cons_self (member : String × Value) (members : List (String × Value)) :
    (member :: members).lookup member.1 = some member.2 := by
  rw [List.lookup_cons, beq_self_eq_true]

theorem lookup_cons_of_ne (h : key ≠ member.1) (members : List (String × Value)) :
    (member :: members).lookup key = members.lookup key := by
  rw [List.lookup_cons, beq_eq_false_iff_ne.2 h]

theorem lookup_eq_none (h : ∀ member ∈ members, member.1 ≠ key) : members.lookup key = none :=
  List.lookup_eq_none_iff.2 fun member hmember => bne_iff_ne.2 (h member hmember).symm

/-! ### Members that are sorted already -/

/-- Members in ascending order of their keys, where a key may come several times. -/
def Sorted (members : List (String × Value)) : Prop :=
  members.Pairwise fun member later => member.1 ≤ later.1

theorem mem_of_mem_consMember {other : String × Value} (h : other ∈ consMember member members) :
    other ∈ member :: members := by
  unfold consMember at h
  split at h
  · exact h
  · split at h
    · exact List.mem_cons_of_mem _ h
    · exact h

theorem mem_of_mem_foldr_consMember (h : member ∈ members.foldr consMember []) :
    member ∈ members := by
  induction members with
  | nil => exact h
  | cons first members ih =>
    rcases List.mem_cons.1 (mem_of_mem_consMember h) with rfl | hrest
    · exact List.mem_cons_self
    · exact List.mem_cons_of_mem _ (ih hrest)

theorem Ascending.lt_of_mem {next other : String × Value} (h : Ascending (next :: members))
    (hnext : member.1 < next.1) (hother : other ∈ next :: members) : member.1 < other.1 := by
  rcases List.mem_cons.1 hother with rfl | hother
  · exact hnext
  · exact Std.lt_trans hnext ((List.pairwise_cons.1 h).1 other hother)

/-- A member that comes before others with its key does not stay. -/
theorem ascending_consMember (hmembers : Ascending members)
    (hfirst : ∀ other ∈ members, member.1 ≤ other.1) : Ascending (consMember member members) := by
  unfold consMember
  split
  · exact List.pairwise_singleton _ _
  · next next members =>
    split
    · exact hmembers
    · next hne =>
      have hlt : member.1 < next.1 := Std.lt_of_le_of_ne (hfirst next List.mem_cons_self) hne
      exact List.pairwise_cons.2 ⟨fun other hother => hmembers.lt_of_mem hlt hother, hmembers⟩

theorem lookup_consMember (hmembers : Ascending members)
    (hfirst : ∀ other ∈ members, member.1 ≤ other.1) (key : String) :
    (consMember member members).lookup key
      = (members.lookup key).or (List.lookup key [member]) := by
  by_cases hkey : key = member.1
  · subst hkey
    rw [lookup_cons_self]
    unfold consMember
    split
    · exact lookup_cons_self member []
    · next next members =>
      split
      · next heq => rw [heq, lookup_cons_self, Option.some_or]
      · next hne =>
        have hlt : member.1 < next.1 := Std.lt_of_le_of_ne (hfirst next List.mem_cons_self) hne
        have hnone : (next :: members).lookup member.1 = none :=
          lookup_eq_none fun other hother => (String.ne_of_lt (hmembers.lt_of_mem hlt hother)).symm
        rw [lookup_cons_self, hnone, Option.none_or]
  · rw [lookup_cons_of_ne hkey, List.lookup_nil, Option.or_none]
    unfold consMember
    split
    · exact lookup_cons_of_ne hkey []
    · split
      · rfl
      · exact lookup_cons_of_ne hkey _

theorem ascending_foldr_consMember (h : Sorted members) :
    Ascending (members.foldr consMember []) := by
  induction members with
  | nil => exact List.Pairwise.nil
  | cons member members ih =>
    obtain ⟨hfirst, hmembers⟩ := List.pairwise_cons.1 h
    exact ascending_consMember (ih hmembers) fun other hother =>
      hfirst other (mem_of_mem_foldr_consMember hother)

theorem lookup_foldr_consMember (h : Sorted members) (key : String) :
    (members.foldr consMember []).lookup key = lastValue? members key := by
  -- From the last member on: one in front of it counts only if its key does not come again.
  induction members with
  | nil => rfl
  | cons member members ih =>
    obtain ⟨hfirst, hmembers⟩ := List.pairwise_cons.1 h
    rw [List.foldr_cons, lookup_consMember (ascending_foldr_consMember hmembers)
      (fun other hother => hfirst other (mem_of_mem_foldr_consMember hother)), ih hmembers,
      lastValue?, lastValue?, List.reverse_cons, List.lookup_append]

/-! ### Sorting -/

theorem le_key_trans (x y z : String × Value) (hxy : decide (x.1 ≤ y.1) = true)
    (hyz : decide (y.1 ≤ z.1) = true) : decide (x.1 ≤ z.1) = true :=
  decide_eq_true (Std.le_trans (of_decide_eq_true hxy) (of_decide_eq_true hyz))

theorem le_key_total (x y : String × Value) :
    (decide (x.1 ≤ y.1) || decide (y.1 ≤ x.1)) = true := by
  rw [Bool.or_eq_true, decide_eq_true_eq, decide_eq_true_eq]
  exact Std.le_total

theorem sorted_mergeSort (members : List (String × Value)) :
    Sorted (members.mergeSort fun x y => decide (x.1 ≤ y.1)) :=
  (List.pairwise_mergeSort le_key_trans le_key_total members).imp of_decide_eq_true

theorem lookup_filter (members : List (String × Value)) (key : String) :
    (members.filter fun member => member.1 = key).lookup key = members.lookup key := by
  induction members with
  | nil => rfl
  | cons member members ih =>
    by_cases hkey : key = member.1
    · subst hkey
      rw [List.filter_cons_of_pos (by simp), lookup_cons_self, lookup_cons_self]
    · rw [List.filter_cons_of_neg (by simp [Ne.symm hkey]), ih, lookup_cons_of_ne hkey]

/-- Sorting keeps the members of one key in their order. -/
theorem filter_mergeSort (members : List (String × Value)) (key : String) :
    ((members.mergeSort fun x y => decide (x.1 ≤ y.1)).filter fun member => member.1 = key)
      = members.filter fun member => member.1 = key := by
  -- Sorting is stable, and members of one key are sorted already.
  have hsame : (members.filter fun member => member.1 = key).Pairwise
      fun x y => decide (x.1 ≤ y.1) = true := by
    refine List.pairwise_of_forall_mem_list fun x hx y hy => ?_
    rw [of_decide_eq_true (List.mem_filter.1 hx).2, of_decide_eq_true (List.mem_filter.1 hy).2]
    exact decide_eq_true (Std.le_refl key)
  have hsublist := (List.sublist_mergeSort le_key_trans le_key_total hsame
    List.filter_sublist).filter fun member => member.1 = key
  rw [List.filter_filter] at hsublist
  simp only [Bool.and_self] at hsublist
  exact (hsublist.eq_of_length ((List.mergeSort_perm members _).filter _).length_eq.symm).symm

theorem lastValue?_mergeSort (members : List (String × Value)) (key : String) :
    lastValue? (members.mergeSort fun x y => decide (x.1 ≤ y.1)) key = lastValue? members key := by
  rw [lastValue?, lastValue?, ← lookup_filter, ← lookup_filter members.reverse,
    List.filter_reverse, List.filter_reverse, filter_mergeSort]

/-! ### Objects -/

theorem ascending_arrange (members : List (String × Value)) : Ascending (arrange members) :=
  ascending_foldr_consMember (sorted_mergeSort members)

/-- **The last value of a key counts.** -/
theorem lookup_arrange (members : List (String × Value)) (key : String) :
    (arrange members).lookup key = lastValue? members key :=
  (lookup_foldr_consMember (sorted_mergeSort members) key).trans (lastValue?_mergeSort members key)

theorem Ascending.mem_iff (h : Ascending members) (member : String × Value) :
    member ∈ members ↔ members.lookup member.1 = some member.2 := by
  induction members with
  | nil => exact iff_of_false List.not_mem_nil (Option.some_ne_none _).symm
  | cons first members ih =>
    obtain ⟨hfirst, hmembers⟩ := List.pairwise_cons.1 h
    rw [List.mem_cons, ih hmembers]
    by_cases hkey : member.1 = first.1
    · have hnone : members.lookup member.1 = none :=
        lookup_eq_none fun other hother => hkey ▸ (String.ne_of_lt (hfirst other hother)).symm
      rw [hnone, hkey, lookup_cons_self, Option.some.injEq, Prod.ext_iff, and_iff_right hkey]
      exact ⟨fun h => (h.resolve_right (Option.some_ne_none _).symm).symm, fun h => .inl h.symm⟩
    · rw [lookup_cons_of_ne hkey, or_iff_right fun heq => hkey (congrArg Prod.fst heq)]

/-- Members in order are known by the values of their keys. -/
theorem Ascending.eq_of_lookup (h : Ascending members) (h' : Ascending others)
    (hlookup : ∀ key, members.lookup key = others.lookup key) : members = others := by
  have hnodup {members : List (String × Value)} (h : Ascending members) : members.Nodup :=
    h.imp fun hlt heq => String.ne_of_lt hlt (congrArg Prod.fst heq)
  have hperm : members.Perm others := by
    refine (List.perm_ext_iff_of_nodup (hnodup h) (hnodup h')).2 fun member => ?_
    rw [h.mem_iff, h'.mem_iff, hlookup]
  exact hperm.eq_of_pairwise (fun x y _ _ hxy hyx => absurd (Std.lt_trans hxy hyx) Std.lt_irrefl)
    h h'

/-- **Nothing but the last values counts**, and so the order of the keys does not. -/
theorem arrange_eq_arrange_iff :
    arrange members = arrange others ↔ ∀ key, lastValue? members key = lastValue? others key := by
  constructor
  · intro h key
    rw [← lookup_arrange, h, lookup_arrange]
  · intro h
    refine (ascending_arrange members).eq_of_lookup (ascending_arrange others) fun key => ?_
    rw [lookup_arrange, lookup_arrange, h]

end BoundedCache.Json
