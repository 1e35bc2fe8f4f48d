import BoundedCache.Decimal.Text
import BoundedCache.Text.Lowercase
import BoundedCache.Text.WhiteSpace

namespace BoundedCache

/-!
# Keys of the cached lookups

The cache accepts any text as a key.  `Key` is the vocabulary of the lookups that a chat client
repeats, and `Key.text` the text that such a lookup is cached under.  A search query is normalised
first (`normalizeQuery`), so that it does not matter how it was typed.
-/

/-- A lookup whose result is worth keeping. -/
inductive Key
  /-- All chats. -/
  | chatList
  /-- One chat. -/
  | chatInfo (chat : Int)
  /-- One user. -/
  | userInfo (user : Int)
  /-- The latest messages of a chat. -/
  | messages (chat : Int) (limit : Nat)
  /-- One part of the settings. -/
  | settings (area : String)
  /-- The best matches of a search. -/
  | search (query : String) (limit : Nat)
  /-- A figure about a chat. -/
  | analytics (chat : Int) (metric : String)
  deriving DecidableEq, Repr

namespace Key

/-- A search query in lower case, without the white space around it. -/
def normalizeQuery (query : String) : String :=
  String.ofList (Text.lowercase (Text.trim query.toList))

/-- The parts of a key's text between its colons. -/
def parts : Key → List String
  | chatList => ["chats", "list"]
  | chatInfo chat => ["chat", String.ofList (signedDecimal chat), "info"]
  | userInfo user => ["user", String.ofList (signedDecimal user), "info"]
  | messages chat limit =>
    ["messages", String.ofList (signedDecimal chat), "limit", String.ofList (decimal limit)]
  | settings area => ["settings", area]
  | search query limit =>
    ["search", normalizeQuery query, "limit", String.ofList (decimal limit)]
  | analytics chat metric => ["analytics", String.ofList (signedDecimal chat), metric]

/-- The text that a lookup is cached under. -/
def text (key : Key) : String := ":".intercalate key.parts

end Key

end BoundedCache
