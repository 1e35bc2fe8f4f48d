import BoundedCache.Json.Reader.Value
import BoundedCache.Json.Reader.Skip

namespace BoundedCache.Json

/-!
# Reading records

A record has named fields of known shapes.  It is read into a draft, field by field, either from an
object, by name and in any order, or from an array, by position.

* In an object, a field that the record does not have is skipped.  A field that comes a second time
  is a mismatch as soon as its key is read, and a missing one at the closing brace.
* In an array, fields may be missing at the end only, and there must be no further item.
-/

/-- A field of a record whose draft has type `δ`. -/
structure Field (δ : Type) where
  /-- The key in an object. -/
  name : String
  /-- Whether the draft has the field already. -/
  isFilled : δ → Bool
  /-- Reads the field, inside which a number of brackets may be opened, and fills it in. -/
  read : Nat → Reader (δ → δ)

/-- The form of a record of type `ρ`: its fields, the draft without any of them, and the record that
    a draft stands for unless the draft lacks a field that the record needs. -/
structure Form (δ ρ : Type) where
  fields : List (Field δ)
  blank : δ
  finish : δ → Option ρ

variable {δ ρ : Type}

/-- The record of a draft, in front of the given rest. -/
def Form.complete (form : Form δ ρ) {bound : Nat} (draft : Parsed δ bound) :
    Except Fault (Parsed ρ bound) :=
  match form.finish draft.value with
  | some record => .ok (draft.map fun _ => record)
  | none => .error .mismatched

/-- The value of the member `key`, behind its colon, as an update of the draft. -/
def readMember (fields : List (Field δ)) (room : Nat) (draft : δ) (key : String) : Reader δ :=
  fun input =>
    match fields.find? fun field => field.name == key with
    | some field =>
      if field.isFilled draft then .error .mismatched
      else
        match expectByte (byte ':') input with
        | .error fault => .error fault
        | .ok colon =>
          (field.read room colon.rest).map fun update =>
            (update.map fun f => f draft).widen (Nat.le_of_lt colon.shorter)
    | none =>
      match expectByte (byte ':') input with
      | .error fault => .error fault
      | .ok colon =>
        (skipValue colon.rest).map fun value =>
          (value.map fun _ => draft).widen (Nat.le_of_lt colon.shorter)

/-- The members of an object that is read as a record, behind its opening brace or behind a
    member. -/
def readRecordMembers (form : Form δ ρ) (room : Nat) (bound : Nat) (first : Bool)
    (draft : δ) (input : Bytes) (h : input.length ≤ bound) : Except Fault (Parsed ρ bound) :=
  match readNextKey first input with
  | .error fault => .error fault
  | .ok ⟨none, rest, shorter⟩ => form.complete ⟨draft, rest, Nat.lt_of_lt_of_le shorter h⟩
  | .ok ⟨some key, afterKey, shorter⟩ =>
    match readMember form.fields room draft key afterKey with
    | .error fault => .error fault
    | .ok member =>
      have decreased : member.rest.length < input.length := Nat.lt_trans member.shorter shorter
      readRecordMembers form room bound false member.value member.rest
        (Nat.le_trans (Nat.le_of_lt decreased) h)
termination_by input.length

/-- The items of an array that is read as a record, where `fields` are still to come. -/
def readRecordItems (form : Form δ ρ) (room : Nat) (bound : Nat) (first : Bool) (draft : δ) :
    (fields : List (Field δ)) → (input : Bytes) → input.length ≤ bound →
      Except Fault (Parsed ρ bound)
  | [], input, h =>
    match expectByte (byte ']') input with
    | .error fault => .error fault
    | .ok closing => form.complete ((closing.map fun _ => draft).widen h)
  | field :: fields, input, h =>
    match h₁ : skipBlanks input with
    | [] => .error .truncated
    | b :: rest =>
      have lt : rest.length < input.length := length_rest_lt_of_skipBlanks h₁
      if b = byte ']' then form.complete ⟨draft, rest, Nat.lt_of_lt_of_le lt h⟩
      else if first then
        match field.read room (b :: rest) with
        | .error fault => .error fault
        | .ok update =>
          have le : update.rest.length ≤ bound := by
            have := update.shorter
            simp only [List.length_cons] at this
            omega
          readRecordItems form room bound false (update.value draft) fields update.rest le
      else if b = byte ',' then
        match h₂ : skipBlanks rest with
        | [] => .error .truncated
        | c :: rest' =>
          if c = byte ']' then .error .malformed
          else
            match field.read room (c :: rest') with
            | .error fault => .error fault
            | .ok update =>
              have le : update.rest.length ≤ bound := by
                have := update.shorter
                have := length_rest_lt_of_skipBlanks h₂
                simp only [List.length_cons] at *
                omega
              readRecordItems form room bound false (update.value draft) fields update.rest le
      else .error .malformed

/-- A record of a given form, inside which, itself included, `room` brackets may be opened. -/
def readRecord (form : Form δ ρ) (room : Nat) : Reader ρ := fun input =>
  match h : skipBlanks input with
  | [] => .error .truncated
  | b :: rest =>
    have le : rest.length ≤ input.length := length_rest_le_of_skipBlanks h
    if b = byte '[' ∨ b = byte '\x7b' then
      match room with
      | 0 => .error .malformed
      | room + 1 =>
        if b = byte '[' then
          readRecordItems form room input.length true form.blank form.fields rest le
        else
          readRecordMembers form room input.length true form.blank rest le
    else .error (otherShape b rest)

end BoundedCache.Json
