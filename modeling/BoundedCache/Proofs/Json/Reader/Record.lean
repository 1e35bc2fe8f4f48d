import BoundedCache.Json.Reader.Record
import BoundedCache.Proofs.Json.Reader.Value

namespace BoundedCache.Json

/-!
# Reading back records

`Fills` says how the members of an object fill the draft of a record, one after the other: each
member finds its field free, and the field reads the member's value back.  `gives_readRecord` is
then that the text of the object gives the record of the filled draft.  Members may come in any
order that fills the draft.

The fields themselves are strings, objects, integers and values that may be missing; each of them is
read back by its own reader.
-/

variable {α δ ρ : Type} {bound room : Nat} {rest : Bytes}

/-! ### Readers of fields -/

theorem gives_readText (s : String) (rest : Bytes) :
    Gives (readText (encodeChars (Value.text s).chars ++ rest)) s rest := by
  rw [Value.chars, encodeChars_quotedChars_append, readText]
  split
  · next hnil => exact absurd hnil (skipBlanks_cons_ne_nil (by decide))
  next c behind hcons =>
  obtain ⟨rfl, rfl⟩ := eq_of_skipBlanks (by decide) hcons
  rw [if_pos rfl]
  exact (gives_readQuoted s rest).widen _

theorem gives_readPayload {payload : Payload} (h : Readable room payload.toValue) (rest : Bytes) :
    Gives (readPayload room (encodeChars payload.toValue.chars ++ rest)) payload rest := by
  obtain ⟨members⟩ := payload
  -- An object takes a bracket itself, so there is room for one.
  cases h with
  | object horder hmembers =>
    have hread := gives_readMembers (fun member hmember => (hmembers member hmember).readsBack)
      horder rest
    rw [Payload.toValue, encodeChars_object_append, readPayload]
    split
    · next hnil => exact absurd hnil (skipBlanks_cons_ne_nil (by decide))
    next c behind hcons =>
    obtain ⟨rfl, rfl⟩ := eq_of_skipBlanks (by decide) hcons
    rw [if_pos rfl]
    exact hread.map Payload.mk _

/-- **The text of a payload is parsed to the payload.** -/
theorem parse_render {payload : Payload} (h : Readable maxNesting payload.toValue) :
    Payload.parse (encodeUtf8 payload.render) = .ok payload := by
  have hread := gives_readPayload h []
  rw [List.append_nil] at hread
  rw [Payload.render, encodeUtf8_render]
  exact hread.readWhole_eq

theorem gives_readInteger {n least greatest : Int} (hn : Number.IsExact n)
    (hbounds : least ≤ n ∧ n ≤ greatest) (hrest : Ends rest) :
    Gives (readInteger least greatest (encodeChars (signedDecimal n) ++ rest)) n rest := by
  obtain ⟨b, more, hbytes, hb⟩ := encodeChars_signedDecimal_cons n
  have hblank := isBlank_of_startsNumber hb
  have hread := gives_readNumber hn hrest
  rw [hbytes, List.cons_append] at hread ⊢
  obtain ⟨_, hread⟩ := hread
  rw [readInteger]
  split
  · next hnil => exact absurd hnil (skipBlanks_cons_ne_nil hblank)
  next c behind hcons =>
  obtain ⟨rfl, rfl⟩ := eq_of_skipBlanks hblank hcons
  rw [if_pos hb]
  simp only [hread, if_pos hbounds]
  exact ⟨_, rfl⟩

theorem gives_readOptional_null (reader : Reader α) (rest : Bytes) :
    Gives (readOptional reader (encodeChars Value.null.chars ++ rest)) none rest := by
  have hbytes : encodeChars Value.null.chars = byte 'n' :: [byte 'u', byte 'l', byte 'l'] := by
    decide
  rw [hbytes, List.cons_append, readOptional]
  split
  · next hnil => exact absurd hnil (skipBlanks_cons_ne_nil (by decide))
  next c behind hcons =>
  obtain ⟨rfl, rfl⟩ := eq_of_skipBlanks (by decide) hcons
  rw [if_pos rfl]
  exact (gives_readWord _ _ rest).widen _

theorem gives_readOptional {reader : Reader α} {b : UInt8} {behind : Bytes} {value : α}
    (hblank : isBlank b = false) (hnull : b ≠ byte 'n')
    (hread : Gives (reader (b :: behind)) value rest) :
    Gives (readOptional reader (b :: behind)) (some value) rest := by
  rw [readOptional]
  split
  · next hnil => exact absurd hnil (skipBlanks_cons_ne_nil hblank)
  next c behind hcons =>
  obtain ⟨rfl, rfl⟩ := eq_of_skipBlanks hblank hcons
  rw [if_neg hnull]
  exact hread.map some _

/-! ### Drafts -/

/-- The members that turn a draft into another one. -/
inductive Fills (fields : List (Field δ)) (room : Nat) : δ → List (String × Value) → δ → Prop
  | nil (draft : δ) : Fills fields room draft [] draft
  | cons {draft final : δ} {key : String} {value : Value} {members : List (String × Value)}
      {field : Field δ} {update : δ → δ}
      (hfield : (fields.find? fun field => field.name == key) = some field)
      (hfree : field.isFilled draft = false)
      (hread : ∀ rest, Ends rest →
        Gives (field.read room (encodeChars value.chars ++ rest)) update rest)
      (hmembers : Fills fields room (update draft) members final) :
      Fills fields room draft ((key, value) :: members) final

/-- A member is read into its field. -/
theorem gives_readMember {fields : List (Field δ)} {draft : δ} {key : String} {field : Field δ}
    {update : δ → δ} {value : Bytes}
    (hfield : (fields.find? fun field => field.name == key) = some field)
    (hfree : field.isFilled draft = false)
    (hread : Gives (field.read room value) update rest) :
    Gives (readMember fields room draft key (byte ':' :: value)) (update draft) rest := by
  have hblank : isBlank (byte ':') = false := by decide
  obtain ⟨_, hcolon⟩ := gives_expectByte hblank value
  simp only [readMember, hfield, hfree, Bool.false_eq_true, if_false, hcolon]
  exact hread.map (fun f => f draft) _

theorem gives_readRecordMembers {form : Form δ ρ} {record : ρ} {draft final : δ}
    {members : List (String × Value)} (hfills : Fills form.fields room draft members final)
    (hrecord : form.finish final = some record) (first : Bool) {text : Bytes}
    (htext : text = encodeChars (membersChars first members) ++ byte '\x7d' :: rest)
    (hle : text.length ≤ bound) :
    Gives (readRecordMembers form room bound first draft text hle) record rest := by
  induction hfills generalizing first text with
  | nil draft =>
    rw [membersChars, encodeChars_nil, List.nil_append] at htext
    subst htext
    obtain ⟨_, hend⟩ := gives_readNextKey_end first rest
    rw [readRecordMembers]
    simp only [hend, Form.complete, hrecord]
    exact ⟨_, rfl⟩
  | @cons draft final key value members field update hfield hfree hread _ ih =>
    have hends := ends_members members rest
    obtain ⟨_, hmember⟩ := gives_readMember hfield hfree (hread _ hends)
    obtain ⟨_, hkey⟩ := gives_readNextKey first key (byte ':' :: (encodeChars value.chars
      ++ (encodeChars (membersChars false members) ++ byte '\x7d' :: rest)))
    rw [encodeChars_membersChars_cons, List.append_assoc, List.append_assoc, List.cons_append,
      List.append_assoc] at htext
    subst htext
    rw [readRecordMembers]
    simp only [hkey, hmember]
    exact ih hrecord false rfl _

/-- **A record is read back from an object** that fills its draft. -/
theorem gives_readRecord {form : Form δ ρ} {record : ρ} {final : δ}
    {members : List (String × Value)} (hfills : Fills form.fields room form.blank members final)
    (hrecord : form.finish final = some record) (rest : Bytes) :
    Gives (readRecord form (room + 1) (encodeChars (Value.object members).chars ++ rest)) record
      rest := by
  have hbrace : byte '\x7b' ≠ byte '[' := by decide
  rw [encodeChars_object_append, readRecord]
  split
  · next hnil => exact absurd hnil (skipBlanks_cons_ne_nil (by decide))
  next c behind hcons =>
  obtain ⟨rfl, rfl⟩ := eq_of_skipBlanks (by decide) hcons
  rw [if_pos (.inr rfl)]
  simp only [if_neg hbrace]
  exact gives_readRecordMembers hfills hrecord true rfl _

end BoundedCache.Json
