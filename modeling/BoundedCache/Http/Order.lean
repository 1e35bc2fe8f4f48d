import BoundedCache.Json.Reader.Record
import BoundedCache.Word

namespace BoundedCache.Http

/-!
# Orders of clients

The JSON bodies that clients send: `SetOrder`, `InvalidateOrder` and `LimitsOrder`, each with the
reader of its record.  A body that can be read may still ask for something impossible; an
`OrderProblem` says what.
-/

/-- Why an order that can be read is refused. -/
inductive OrderProblem
  | emptyKey
  | longKey
  | emptyPattern
  | zeroBudget
  | zeroTtl
  deriving DecidableEq, Repr

/-- The bytes that a key may have. -/
def longestKey : Nat := 256

/-- The wording of a problem. -/
def OrderProblem.message : OrderProblem → String
  | emptyKey => "Key cannot be empty"
  | longKey => "Key exceeds maximum length of 256 bytes"
  | emptyPattern => "Pattern cannot be empty; use /clear to drop everything"
  | zeroBudget => "max_size_bytes must be greater than 0"
  | zeroTtl => "default_ttl must be greater than 0"

/-- What is wrong with a key that a client sends. -/
def keyProblem? (key : String) : Option OrderProblem :=
  if key.isEmpty then some .emptyKey
  else if longestKey < key.utf8ByteSize then some .longKey
  else none

/-- A field whose value is read as it is. -/
def requiredField {α δ : Type} (name : String) (get : δ → Option α) (set : δ → α → δ)
    (reader : Nat → Json.Reader α) : Json.Field δ :=
  { name, isFilled := fun draft => (get draft).isSome
    read := fun room input => (reader room input).map fun x => x.map fun value draft =>
      set draft value }

/-- A field that may be missing or `null`. -/
def optionalField {α δ : Type} (name : String) (get : δ → Option (Option α))
    (set : δ → Option α → δ) (reader : Nat → Json.Reader α) : Json.Field δ :=
  { name, isFilled := fun draft => (get draft).isSome
    read := fun room input => (Json.readOptional (reader room) input).map fun x =>
      x.map fun value draft => set draft value }

/-- An integer of a signed word. -/
def readSigned (_room : Nat) : Json.Reader Int :=
  Json.readInteger (-(Word.half : Int)) (Word.half - 1)

/-- An integer of an unsigned word. -/
def readUnsigned (_room : Nat) : Json.Reader Nat := fun input =>
  (Json.readInteger 0 Word.top input).map fun n => n.map Int.toNat

/-! ### Storing a payload -/

/-- An order to store a payload. -/
structure SetOrder where
  key : String
  value : Json.Payload
  ttl : Option Int
  deriving Repr

namespace SetOrder

/-- What is read of an order so far. -/
structure Draft where
  key : Option String := none
  value : Option Json.Payload := none
  ttl : Option (Option Int) := none

/-- The form of an order: key and payload are needed. -/
def form : Json.Form Draft SetOrder :=
  { fields :=
      [requiredField "key" Draft.key (fun draft key => { draft with key := some key })
          fun _ => Json.readText,
        requiredField "value" Draft.value (fun draft value => { draft with value := some value })
          Json.readPayload,
        optionalField "ttl" Draft.ttl (fun draft ttl => { draft with ttl := some ttl }) readSigned]
    blank := {}
    finish := fun draft => do
      return { key := ← draft.key, value := ← draft.value, ttl := draft.ttl.getD none } }

/-- Reads an order. -/
def reader : Json.Reader SetOrder := Json.readRecord form Json.maxNesting

/-- The seconds that the payload is to live, 0 where the order does not say. -/
def ttlSeconds (order : SetOrder) : Int := order.ttl.getD 0

/-- What is wrong with an order. -/
def problem? (order : SetOrder) : Option OrderProblem := keyProblem? order.key

end SetOrder

/-! ### Dropping by a pattern -/

/-- An order to drop the keys that contain a pattern. -/
structure InvalidateOrder where
  pattern : String
  deriving Repr

namespace InvalidateOrder

/-- The form of an order, whose draft is its pattern. -/
def form : Json.Form (Option String) InvalidateOrder :=
  { fields := [requiredField "pattern" id (fun _ pattern => some pattern) fun _ => Json.readText]
    blank := none
    finish := fun draft => draft.map InvalidateOrder.mk }

/-- Reads an order. -/
def reader : Json.Reader InvalidateOrder := Json.readRecord form Json.maxNesting

/-- What is wrong with an order. -/
def problem? (order : InvalidateOrder) : Option OrderProblem :=
  if order.pattern.isEmpty then some .emptyPattern else none

end InvalidateOrder

/-! ### Changing the limits -/

/-- An order to change the limits that it gives. -/
structure LimitsOrder where
  budget : Option Nat
  defaultTtl : Option Nat
  deriving DecidableEq, Repr

namespace LimitsOrder

/-- What is read of an order so far. -/
structure Draft where
  budget : Option (Option Nat) := none
  defaultTtl : Option (Option Nat) := none

/-- The form of an order; nothing is needed. -/
def form : Json.Form Draft LimitsOrder :=
  { fields :=
      [optionalField "max_size_bytes" Draft.budget
          (fun draft budget => { draft with budget := some budget }) readUnsigned,
        optionalField "default_ttl" Draft.defaultTtl
          (fun draft defaultTtl => { draft with defaultTtl := some defaultTtl }) readUnsigned]
    blank := {}
    finish := fun draft => some ⟨draft.budget.getD none, draft.defaultTtl.getD none⟩ }

/-- Reads an order. -/
def reader : Json.Reader LimitsOrder := Json.readRecord form Json.maxNesting

/-- What is wrong with an order. -/
def problem? (order : LimitsOrder) : Option OrderProblem :=
  if order.budget = some 0 then some .zeroBudget
  else if order.defaultTtl = some 0 then some .zeroTtl
  else none

end LimitsOrder

end BoundedCache.Http
