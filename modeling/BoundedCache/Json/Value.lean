import BoundedCache.Decimal.Binary64
import BoundedCache.Word

namespace BoundedCache.Json

/-!
# JSON values

`Value` is a JSON value and `Payload` a JSON object, the only kind of value that the cache stores.
The members of an object are kept in ascending order of their keys, each key once; `arrange` brings
the members of an object text into that form, where the last of several members with one key
counts.
-/

/-- A JSON number: an integer, or a sign and a binary magnitude. -/
inductive Number
  | integer (n : Int)
  | float (negative : Bool) (magnitude : Binary64)
  deriving DecidableEq, Repr

/-- The integers that are kept exactly: those of a signed or an unsigned 64-bit word. -/
def Number.IsExact (n : Int) : Prop := -(Word.half : Int) ≤ n ∧ n < (Word.modulus : Int)

/-- A JSON value. -/
inductive Value
  | null
  | boolean (b : Bool)
  | number (n : Number)
  | text (s : String)
  | array (items : List Value)
  | object (members : List (String × Value))
  deriving Repr

/-- A JSON object. -/
structure Payload where
  members : List (String × Value)
  deriving Repr

/-- An object as a value. -/
def Payload.toValue (payload : Payload) : Value := .object payload.members

/-! ### Members in order -/

/-- Puts a member before members with greater or equal keys, unless its key comes again. -/
def consMember (member : String × Value) : List (String × Value) → List (String × Value)
  | [] => [member]
  | next :: rest => if member.1 = next.1 then next :: rest else member :: next :: rest

/-- Members in ascending order of their keys; of members with the same key the last one stays. -/
def arrange (members : List (String × Value)) : List (String × Value) :=
  (members.mergeSort fun x y => decide (x.1 ≤ y.1)).foldr consMember []

end BoundedCache.Json
