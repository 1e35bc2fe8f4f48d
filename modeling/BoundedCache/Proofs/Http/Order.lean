import BoundedCache.Http.Order
import BoundedCache.Proofs.Json.Reader.Record

namespace BoundedCache.Http.SetOrder

/-!
# Reading back orders to store a payload

A client writes an order as a JSON object with its members in any order (`members`).  The reader
gets the order back (`readFirst_render`).  `Pending` is the invariant of its loop: the fields of the
draft that are still free are those whose members are still to come, the others are those of the
order.
-/

/-- The members that a client writes.  Where there is no time to live, the client may say so. -/
def members (order : SetOrder) (tellsNone : Bool) : List (String × Json.Value) :=
  [("key", .text order.key), ("value", order.value.toValue)]
    ++ match order.ttl with
      | some ttl => [("ttl", .number (.integer ttl))]
      | none => if tellsNone then [("ttl", .null)] else []

/-- A member that tells something about an order. -/
inductive Tells (order : SetOrder) : String × Json.Value → Prop
  | key : Tells order ("key", .text order.key)
  | value : Tells order ("value", order.value.toValue)
  | ttl {ttl : Int} (httl : order.ttl = some ttl) : Tells order ("ttl", .number (.integer ttl))
  | noTtl (httl : order.ttl = none) : Tells order ("ttl", .null)

/-- A draft of an order when the members with some keys are still to come. -/
structure Pending (order : SetOrder) (draft : Draft) (keys : List String) : Prop where
  key : draft.key = if "key" ∈ keys then none else some order.key
  value : draft.value = if "value" ∈ keys then none else some order.value
  ttl : if "ttl" ∈ keys then draft.ttl = none else draft.ttl.getD none = order.ttl

/-- What a reader can get back of an order: its time to live is a signed word, and its payload fits
    into the object around it. -/
structure IsWritable (order : SetOrder) : Prop where
  value : Json.Readable (Json.maxNesting - 1) order.value.toValue
  ttl : ∀ ttl, order.ttl = some ttl → -(Word.half : Int) ≤ ttl ∧ ttl < Word.half

variable {order : SetOrder}

/-! ### Members -/

theorem tells_of_mem_members {tellsNone : Bool} {member : String × Json.Value}
    (h : member ∈ order.members tellsNone) : Tells order member := by
  unfold members at h
  cases httl : order.ttl with
  | some ttl =>
    simp only [httl, List.cons_append, List.nil_append, List.mem_cons, List.not_mem_nil,
      or_false] at h
    rcases h with rfl | rfl | rfl
    · exact .key
    · exact .value
    · exact .ttl httl
  | none =>
    cases tellsNone with
    | true =>
      simp only [httl, if_true, List.cons_append, List.nil_append, List.mem_cons,
        List.not_mem_nil, or_false] at h
      rcases h with rfl | rfl | rfl
      · exact .key
      · exact .value
      · exact .noTtl httl
    | false =>
      simp only [httl, Bool.false_eq_true, if_false, List.append_nil, List.mem_cons,
        List.not_mem_nil, or_false] at h
      rcases h with rfl | rfl
      · exact .key
      · exact .value

/-- The keys of the members; the time to live is missing only if there is none. -/
theorem keys_members (order : SetOrder) (tellsNone : Bool) :
    (order.members tellsNone).map Prod.fst = ["key", "value", "ttl"]
      ∨ (order.members tellsNone).map Prod.fst = ["key", "value"] ∧ order.ttl = none := by
  unfold members
  cases httl : order.ttl with
  | some ttl => exact .inl rfl
  | none =>
    cases tellsNone with
    | true => exact .inl rfl
    | false => exact .inr ⟨rfl, rfl⟩

/-! ### Fields -/

theorem gives_requiredField {α δ : Type} {name : String} {get : δ → Option α} {set : δ → α → δ}
    {reader : Nat → Json.Reader α} {room : Nat} {text rest : Bytes} {value : α}
    (h : Json.Gives (reader room text) value rest) :
    Json.Gives ((requiredField name get set reader).read room text) (fun draft => set draft value)
      rest := by
  obtain ⟨shorter, h⟩ := h
  simp only [requiredField, h]
  exact ⟨shorter, rfl⟩

theorem gives_optionalField {α δ : Type} {name : String} {get : δ → Option (Option α)}
    {set : δ → Option α → δ} {reader : Nat → Json.Reader α} {room : Nat} {text rest : Bytes}
    {value : Option α} (h : Json.Gives (Json.readOptional (reader room) text) value rest) :
    Json.Gives ((optionalField name get set reader).read room text) (fun draft => set draft value)
      rest := by
  obtain ⟨shorter, h⟩ := h
  simp only [optionalField, h]
  exact ⟨shorter, rfl⟩

theorem gives_readOptional_signed {ttl : Int} (room : Nat)
    (httl : -(Word.half : Int) ≤ ttl ∧ ttl < Word.half) {rest : Bytes} (hrest : Json.Ends rest) :
    Json.Gives (Json.readOptional (readSigned room)
      (encodeChars (Json.Value.number (.integer ttl)).chars ++ rest)) (some ttl) rest := by
  have hexact : Json.Number.IsExact ttl := by
    simp only [Json.Number.IsExact, Word.half, Word.modulus] at httl ⊢
    omega
  have hread := Json.gives_readInteger hexact ⟨httl.1, Int.le_sub_one_of_lt httl.2⟩ hrest
  obtain ⟨b, more, hbytes, hb⟩ := Json.encodeChars_signedDecimal_cons ttl
  show Json.Gives (Json.readOptional _ (encodeChars (signedDecimal ttl) ++ rest)) _ rest
  rw [hbytes, List.cons_append] at hread ⊢
  exact Json.gives_readOptional (Json.isBlank_of_startsNumber hb)
    (Json.ne_of_startsNumber hb (by decide)) hread

/-! ### Drafts -/

section

variable {draft : Draft} {keys : List String}

theorem Pending.takeKey (h : Pending order draft ("key" :: keys)) (hgone : "key" ∉ keys) :
    draft.key = none ∧ Pending order { draft with key := some order.key } keys := by
  obtain ⟨hkey, hvalue, httl⟩ := h
  simp only [List.mem_cons, String.reduceEq, true_or, false_or, if_true] at hkey hvalue httl
  exact ⟨hkey, (if_neg hgone).symm, hvalue, httl⟩

theorem Pending.takeValue (h : Pending order draft ("value" :: keys)) (hgone : "value" ∉ keys) :
    draft.value = none ∧ Pending order { draft with value := some order.value } keys := by
  obtain ⟨hkey, hvalue, httl⟩ := h
  simp only [List.mem_cons, String.reduceEq, true_or, false_or, if_true] at hkey hvalue httl
  exact ⟨hvalue, hkey, (if_neg hgone).symm, httl⟩

theorem Pending.takeTtl (h : Pending order draft ("ttl" :: keys)) (hgone : "ttl" ∉ keys) :
    draft.ttl = none ∧ Pending order { draft with ttl := some order.ttl } keys := by
  obtain ⟨hkey, hvalue, httl⟩ := h
  simp only [List.mem_cons, String.reduceEq, true_or, false_or, if_true] at hkey hvalue httl
  exact ⟨httl, hkey, hvalue, by rw [if_neg hgone]; rfl⟩

/-- With nothing to come, a draft is the order. -/
theorem Pending.finish_eq (h : Pending order draft []) : form.finish draft = some order := by
  obtain ⟨hkey, hvalue, httl⟩ := h
  simp only [List.not_mem_nil, if_false] at hkey hvalue httl
  simp only [form, hkey, hvalue, httl]
  rfl

end

/-- A member whose field is free and reads it back is one more member of the order. -/
theorem exists_fills_cons {key : String} {value : Json.Value} {left : List (String × Json.Value)}
    {draft : Draft} {field : Json.Field Draft} {update : Draft → Draft}
    (hfield : (form.fields.find? fun field => field.name == key) = some field)
    (hfree : field.isFilled draft = false)
    (hread : ∀ rest, Json.Ends rest → Json.Gives
      (field.read (Json.maxNesting - 1) (encodeChars value.chars ++ rest)) update rest)
    (hmore : ∃ final, Json.Fills form.fields (Json.maxNesting - 1) (update draft) left final
      ∧ form.finish final = some order) :
    ∃ final, Json.Fills form.fields (Json.maxNesting - 1) draft ((key, value) :: left) final
      ∧ form.finish final = some order := by
  obtain ⟨final, hfills, hfinal⟩ := hmore
  exact ⟨final, .cons hfield hfree hread hfills, hfinal⟩

/-- **The members of an order fill its draft**, in whatever order they come. -/
theorem exists_fills (hwritable : order.IsWritable) {left : List (String × Json.Value)}
    (htells : ∀ member ∈ left, Tells order member) (honce : (left.map Prod.fst).Nodup)
    {draft : Draft} (hpending : Pending order draft (left.map Prod.fst)) :
    ∃ final, Json.Fills form.fields (Json.maxNesting - 1) draft left final
      ∧ form.finish final = some order := by
  induction left generalizing draft with
  | nil => exact ⟨draft, .nil draft, hpending.finish_eq⟩
  | cons member left ih =>
    have hmore := fun other h => htells other (List.mem_cons_of_mem member h)
    rw [List.map_cons] at honce hpending
    obtain ⟨hgone, hrest⟩ := List.nodup_cons.1 honce
    cases htells member List.mem_cons_self with
    | key =>
      obtain ⟨hfree, hnext⟩ := hpending.takeKey hgone
      refine exists_fills_cons rfl ?_ (fun rest _ => gives_requiredField ?_) (ih hmore hrest hnext)
      · simp [requiredField, hfree]
      · exact Json.gives_readText order.key rest
    | value =>
      obtain ⟨hfree, hnext⟩ := hpending.takeValue hgone
      refine exists_fills_cons rfl ?_ (fun rest _ => gives_requiredField ?_) (ih hmore hrest hnext)
      · simp [requiredField, hfree]
      · exact Json.gives_readPayload hwritable.value rest
    | ttl httl =>
      obtain ⟨hfree, hnext⟩ := hpending.takeTtl hgone
      rw [httl] at hnext
      refine exists_fills_cons rfl ?_ (fun rest hends => gives_optionalField ?_)
        (ih hmore hrest hnext)
      · simp [optionalField, hfree]
      · exact gives_readOptional_signed _ (hwritable.ttl _ httl) hends
    | noTtl httl =>
      obtain ⟨hfree, hnext⟩ := hpending.takeTtl hgone
      rw [httl] at hnext
      refine exists_fills_cons rfl ?_ (fun rest _ => gives_optionalField ?_) (ih hmore hrest hnext)
      · simp [optionalField, hfree]
      · exact Json.gives_readOptional_null _ rest

/-- **An order is read back as it is written**, its members in any order. -/
theorem readFirst_render (hwritable : order.IsWritable) {tellsNone : Bool}
    {written : List (String × Json.Value)} (hwritten : written.Perm (order.members tellsNone)) :
    Json.readFirst reader (encodeUtf8 (Json.Value.object written).render) = .ok order := by
  have hkeys := hwritten.map Prod.fst
  have htells : ∀ member ∈ written, Tells order member := fun member hmember =>
    tells_of_mem_members (hwritten.mem_iff.1 hmember)
  have hstart : (written.map Prod.fst).Nodup ∧ Pending order {} (written.map Prod.fst) := by
    rcases keys_members order tellsNone with h | ⟨h, hnone⟩
    · rw [h] at hkeys
      refine ⟨hkeys.nodup_iff.2 (by decide), ?_, ?_, ?_⟩
      all_goals rw [if_pos (hkeys.mem_iff.2 (by decide))]
    · rw [h] at hkeys
      refine ⟨hkeys.nodup_iff.2 (by decide), ?_, ?_, ?_⟩
      · rw [if_pos (hkeys.mem_iff.2 (by decide))]
      · rw [if_pos (hkeys.mem_iff.2 (by decide))]
      · -- The field of a missing time to live stays free, which means that there is none.
        rw [if_neg fun hmem => absurd (hkeys.mem_iff.1 hmem) (by decide), hnone]
        rfl
  obtain ⟨final, hfills, hfinal⟩ := exists_fills hwritable htells hstart.1 hstart.2
  have hread := Json.gives_readRecord hfills hfinal []
  rw [List.append_nil] at hread
  rw [Json.encodeUtf8_render]
  exact hread.readFirst_eq

end BoundedCache.Http.SetOrder
