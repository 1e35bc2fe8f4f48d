import BoundedCache.Proofs.Store.Holding

namespace BoundedCache

/-!
# A cache as a list

A `Stock` is all that a cache is to its users, apart from its counters: the rows that it holds, the
least recently used one first, and the two limits.  There are no ticks, no index, no running byte
count and no hash table; the order of use is the order of the list.

Its operations are those of a `Store`.  `Stock.act` is any action on one key, `Stock.discard` drops
the rows of a kind and `Stock.resize` makes the rows fit a budget.
-/

/-- The rows of a cache in the order of use, and its limits. -/
structure Stock where
  rows : List (String × Holding)
  budget : Nat
  defaultTtl : Nat

/-- What an operation on a stock gives. -/
structure Response where
  reply : Reply
  stock : Stock
  events : List Event := []

namespace Stock

/-! ### Rows -/

/-- The bytes that some rows count for. -/
def bytes (rows : List (String × Holding)) : Nat := (rows.map fun row => row.2.size).sum

/-- The rows that have to go until `incoming` further bytes fit, and the rows that stay. -/
def makeRoom (budget incoming : Nat) :
    List (String × Holding) → List (String × Holding) × List (String × Holding)
  | [] => ([], [])
  | row :: rest =>
    if Word.addSat (bytes (row :: rest)) incoming ≤ budget then ([], row :: rest)
    else
      let room := makeRoom budget incoming rest
      (row :: room.1, room.2)

/-- What is reported of the rows that had to go. -/
def evictions (gone : List (String × Holding)) : List Event :=
  gone.map fun row => .evicted row.1 row.2.size

/-- What is held for a key. -/
def held? (stock : Stock) (key : String) : Option Holding :=
  (stock.rows.find? fun row => row.1 == key).map Prod.snd

/-- The rows of all other keys. -/
def others (stock : Stock) (key : String) : List (String × Holding) :=
  stock.rows.filter fun row => row.1 != key

/-- The row of a key for which something is held. -/
def latest (key : String) (held : Option Holding) : List (String × Holding) :=
  (held.map fun held => (key, held)).toList

/-- The extent of a cache, with no word about its counters. -/
def extent (stock : Stock) : Statistics :=
  { size := stock.rows.length, sizeBytes := bytes stock.rows, maxSizeBytes := stock.budget }

/-! ### Operations -/

/-- An action on a key: its row goes, a put makes room, and what is held then is the latest row. -/
def act (stock : Stock) (now : Nat) (key : String) (action : KeyAction) : Response :=
  let outcome := action.outcome now stock.defaultTtl (stock.held? key)
  match action with
  | .put value _ =>
    let room := makeRoom stock.budget value.size (stock.others key)
    let warnings := if stock.budget < value.size
      then [Event.oversized key value.size stock.budget] else []
    { reply := outcome.reply
      stock := { stock with rows := room.2 ++ latest key outcome.held }
      events := warnings ++ evictions room.1 }
  | _ =>
    { reply := outcome.reply
      stock := { stock with rows := stock.others key ++ latest key outcome.held } }

/-- Drops the rows of a kind; the reply is their number. -/
def discard (stock : Stock) (kind : String × Holding → Bool) : Response :=
  { reply := .count (stock.rows.filter kind).length
    stock := { stock with rows := stock.rows.filter fun row => !kind row } }

/-- Sets the budget and makes the rows fit it; the reply is given the number of those that go. -/
def resize (stock : Stock) (budget : Nat) (reply : Nat → Stock → Reply) : Response :=
  let room := makeRoom budget 0 stock.rows
  let resized := { stock with rows := room.2, budget }
  { reply := reply room.1.length resized, stock := resized, events := evictions room.1 }

/-- Sets the limits that are given. -/
def reconfigure (stock : Stock) (budget defaultTtl : Option Nat) : Response :=
  let stock := { stock with defaultTtl := defaultTtl.getD stock.defaultTtl }
  let reply (evicted : Nat) (stock : Stock) : Reply :=
    .limits ⟨stock.budget, stock.defaultTtl, bytes stock.rows, evicted⟩
  match budget with
  | some budget => stock.resize budget reply
  | none => { reply := reply 0 stock, stock }

/-- Carries out an operation at a clock reading. -/
def apply (stock : Stock) (now : Nat) : Operation → Response
  | .get key => stock.act now key .get
  | .getWithTtl key => stock.act now key .getWithTtl
  | .put key value ttl => stock.act now key (.put value ttl)
  | .invalidate key => stock.act now key .invalidate
  | .invalidatePattern pattern => stock.discard fun row =>
      Text.contains (Text.lowercase pattern.toList) (Text.lowercase row.1.toList)
  | .clear => { reply := .done, stock := { stock with rows := [] } }
  | .setBudget bytes => stock.resize bytes fun evicted _ => .count evicted
  | .setBudgetMegabytes megabytes =>
    stock.resize (Word.mulSat megabytes Store.megabyte) fun evicted _ => .count evicted
  | .setDefaultTtl defaultTtl => { reply := .done, stock := { stock with defaultTtl } }
  | .reconfigure budget defaultTtl => stock.reconfigure budget defaultTtl
  | .sweep => stock.discard fun row => row.2.expiresAt ≤ now
  | .statistics => { reply := .statistics stock.extent, stock }
  | .resetStatistics => { reply := .statistics stock.extent, stock }
  | .isEmpty => { reply := .flag stock.rows.isEmpty, stock }
  | .hitCount key => { reply := .hitCount ((stock.held? key).map Holding.hitCount), stock }

end Stock

/-! ### The stock of a store -/

/-- The stock of a store: its rows in the order of its index. -/
def Store.stock (store : Store) : Stock :=
  { rows := store.recency.keys.filterMap fun key =>
      (store.holding? key).map fun held => (key, held)
    budget := store.budget
    defaultTtl := store.defaultTtl }

/-- A reply without the counters and the largest extent in it. -/
def Reply.withoutCounters : Reply → Reply
  | .statistics snapshot =>
    .statistics { snapshot with hits := 0, misses := 0, evictions := 0, maxSizeObserved := 0 }
  | reply => reply

end BoundedCache
