import BoundedCache.Proofs.Json.Members
import BoundedCache.Proofs.Json.Size
import BoundedCache.Proofs.Store.Change

namespace BoundedCache

/-!
# What a payload is charged

A put charges a payload the bytes of its compact text in UTF-8, though it never writes that text
(`Store.put_charges_text_length`): so many bytes are counted for the entry and added to the byte
count, room is made for so many, and so many are held against the budget.
-/

namespace Store

/-- A put counts a payload as so many `bytes`. -/
structure Charges (store : Store) (now : Nat) (key : String) (payload : Json.Payload) (ttl : Int)
    (bytes : Nat) : Prop where
  /-- The entry counts for them. -/
  find?_eq : ((store.put now key payload ttl).store.entries.find? key).map
    (fun entry => (entry.value, entry.size)) = some (payload, bytes)
  /-- They are added to what is left when room has been made for them. -/
  usedBytes_eq : (store.put now key payload ttl).store.usedBytes
    = Word.addWrap ((store.drop key).evictUntilFits bytes).store.usedBytes bytes
  /-- So the byte count grows by them, unless it leaves the words. -/
  usedBytes_eq_add :
    ((store.drop key).evictUntilFits bytes).store.usedBytes + bytes ≤ Word.top →
      (store.put now key payload ttl).store.usedBytes
        = ((store.drop key).evictUntilFits bytes).store.usedBytes + bytes
  /-- They are held against the budget. -/
  oversized_mem_iff : .oversized key bytes store.budget ∈ (store.put now key payload ttl).events
    ↔ store.budget < bytes

theorem usedBytes_put_eq (store : Store) (now : Nat) (key : String) (payload : Json.Payload)
    (ttl : Int) : (store.put now key payload ttl).store.usedBytes
      = Word.addWrap ((store.drop key).evictUntilFits payload.size).store.usedBytes
        payload.size := by
  rw [put_eq]
  rfl

theorem charges_size (store : Store) (now : Nat) (key : String) (payload : Json.Payload)
    (ttl : Int) : store.Charges now key payload ttl payload.size where
  find?_eq := by
    rw [put_eq, filed, Table.find?_insert, if_pos rfl]
    rfl
  usedBytes_eq := store.usedBytes_put_eq now key payload ttl
  usedBytes_eq_add hfits :=
    (store.usedBytes_put_eq now key payload ttl).trans (Word.addWrap_eq_add hfits)
  oversized_mem_iff := by
    obtain ⟨gone, last, -, hroom⟩ := (store.drop key).evictUntilFits_makesRoom payload.size
    have hevicted : Event.oversized key payload.size store.budget
        ∉ gone.map fun row => Event.evicted row.1 row.2.size := by simp
    rw [put_eq, hroom, List.mem_append, or_iff_left hevicted, putWarnings]
    split
    · next hover => exact iff_of_true List.mem_cons_self hover
    · next hover => exact iff_of_false List.not_mem_nil hover

/-- **A put charges the bytes of the text.**  The size of a payload, which is counted without
    writing it, is the number of the bytes of its compact text; there are two at least, every
    character of a string takes those of its escape, and the order in which members were inserted
    has no part in them. -/
theorem put_charges_text_length :
    (∀ payload : Json.Payload,
      let length := (encodeUtf8 payload.render).length
      payload.size = length ∧ 2 ≤ length
        ∧ (∀ store now key ttl, Charges store now key payload ttl length)
        ∧ ∀ other : Json.Payload, payload.toValue.Reorders other.toValue →
          other.size = length ∧ (encodeUtf8 other.render).length = length)
      ∧ (∀ s : String, (encodeUtf8 (Json.Value.text s).render).length
        = 2 + (s.toList.map fun c =>
          if c ∈ Json.shortEscapes then 2 else if c.toNat < 0x20 then 6 else c.utf8Size).sum)
      ∧ ∀ members others,
        (∀ key, Json.lastValue? members key = Json.lastValue? others key) →
          Json.arrange members = Json.arrange others := by
  refine ⟨fun payload => ?_, fun s => ?_, fun members others => Json.arrange_eq_arrange_iff.2⟩
  · intro length
    have hlength : length = payload.size := Json.length_render payload.toValue
    rw [hlength]
    refine ⟨rfl, Json.two_le_size payload,
      fun store now key ttl => store.charges_size now key payload ttl, fun other hother => ?_⟩
    have hsize : other.size = payload.size := hother.size_eq.symm
    exact ⟨hsize, (Json.length_render other.toValue).trans hsize⟩
  · rw [Json.length_render, Json.Value.size, Json.quotedSize_eq,
      List.map_congr_left fun c _ => Json.escapeWidth_eq c]

/-- A payload whose members stand in another order at two depths, with characters of all kinds. -/
theorem put_charges_text_length_reordered :
    let inner : List (String × Json.Value) :=
      [("é", .number (.integer (-7))), ("b", .array [.boolean true, .null])]
    let note : String × Json.Value := ("\n", .text "\x01\"ß")
    let mark : String × Json.Value := ("k", .null)
    let payload : Json.Payload := ⟨[("k", .object inner), note]⟩
    let other : Json.Payload := ⟨[note, ("k", .object inner.reverse)]⟩
    payload.size = 49 ∧ (encodeUtf8 other.render).length = 49
      ∧ Json.arrange [note, mark, note] = Json.arrange [mark, note] := by
  intro inner note mark payload other
  have hreorders : payload.toValue.Reorders other.toValue :=
    .trans (.members (.swap ..))
      (.ofMember "k" [note] [] (.members (List.reverse_perm inner).symm))
  obtain ⟨hsize, -, -, hother⟩ := put_charges_text_length.1 payload
  have hbytes : payload.size = 49 := by
    simp only [payload, inner, note, Json.Payload.size, Json.Payload.toValue, Json.Value.size,
      Json.membersSize, Json.itemsSize, Json.quotedSize_eq]
    decide +kernel
  refine ⟨hbytes, (hother other hreorders).2.trans (hsize.symm.trans hbytes), ?_⟩
  refine put_charges_text_length.2.2 _ _ fun key => ?_
  show List.lookup key [note, mark, note] = List.lookup key [note, mark]
  by_cases hnote : key = note.1
  · rw [hnote, Json.lookup_cons_self, Json.lookup_cons_self]
  · rw [Json.lookup_cons_of_ne hnote, Json.lookup_cons_of_ne hnote]
    by_cases hmark : key = mark.1
    · rw [hmark, Json.lookup_cons_self, Json.lookup_cons_self]
    · rw [Json.lookup_cons_of_ne hmark, Json.lookup_cons_of_ne hmark,
        Json.lookup_cons_of_ne hnote]

end Store

end BoundedCache
