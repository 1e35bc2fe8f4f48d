import BoundedCache.Proofs.Http.Effect
import BoundedCache.Proofs.Http.Order
import BoundedCache.Proofs.Store.Contents
import BoundedCache.Proofs.Text.Percent

namespace BoundedCache.Http

/-!
# What is written is read

A client stores a payload (`Stores`) and reads it at the same instant (`Fetches`).  The first
request stands for a put of exactly the order that the client wrote down, the second one for a read
of exactly its key, whatever characters it has (`operation?_of_stores`, `operation?_of_fetches`).
A put is never refused by the store, so the read finds the payload with its whole time to live
(`fetch_after_store`).
-/

/-- A request that stores what an order says, its members in any order. -/
structure Stores (order : SetOrder) (request : Request) : Prop where
  method : request.method = "PUT"
  path : request.path = "/set"
  announced : (request.header? contentType).any isJsonMediaType = true
  written : ∃ tellsNone members, members.Perm (order.members tellsNone)
    ∧ request.body = encodeUtf8 (Json.Value.object members).render
  fits : request.body.length ≤ longestBody

/-- A request that reads a key. -/
structure Fetches (key : String) (request : Request) : Prop where
  method : request.method = "GET"
  path : request.path = "/get/" ++ segmentOf key

variable {order : SetOrder} {key : String} {request : Request}

/-! ### Paths -/

/-- A segment behind the stem of reads is an endpoint of its own. -/
theorem ofPath?_get_append {segment : String} (hne : segment.toList ≠ [])
    (hslash : '/' ∉ segment.toList) :
    Endpoint.ofPath? ("/get/" ++ segment) = some (.read segment) := by
  -- None of the fixed paths starts like this one.
  have hpath (other : String) (hother : other.toList.take 5 ≠ "/get/".toList) :
      "/get/" ++ segment ≠ other := by
    rintro rfl
    rw [String.toList_append] at hother
    exact hother rfl
  have hsegment : Endpoint.segmentAfter? "/get/".toList ("/get/" ++ segment).toList
      = some segment := by
    have hprefix := List.isPrefixOf_iff_prefix.2 (List.prefix_append "/get/".toList segment.toList)
    simp only [Endpoint.segmentAfter?, String.toList_append, hprefix, if_true, List.drop_left]
    rw [if_pos ⟨hne, hslash⟩, String.ofList_toList]
  unfold Endpoint.ofPath?
  rw [if_neg (hpath _ (by decide)), if_neg (hpath _ (by decide)), if_neg (hpath _ (by decide)),
    if_neg (hpath _ (by decide)), if_neg (hpath _ (by decide)), if_neg (hpath _ (by decide)),
    if_neg (hpath _ (by decide)), hsegment]

/-! ### Operations -/

theorem keyProblem?_isNone (hkey : key ≠ "") (hlength : key.utf8ByteSize ≤ longestKey) :
    (keyProblem? key).isNone = true :=
  (keyProblem?_isNone_iff key).2 (not_or.2 ⟨hkey, Nat.not_lt.2 hlength⟩)

theorem decodeOrder?_of_stores (hstores : Stores order request) (hwritable : order.IsWritable) :
    decodeOrder? request SetOrder.reader = some order := by
  obtain ⟨tellsNone, members, hmembers, hbody⟩ := hstores.written
  have hread := SetOrder.readFirst_render hwritable hmembers
  rw [← hbody] at hread
  refine decodeOrder?_eq_some_iff.2 ⟨not_or.2 ⟨?_, Nat.not_lt.2 hstores.fits⟩, hread⟩
  simp [hstores.announced]

/-- **The operation of a request to store** is a put of what the order says. -/
theorem operation?_of_stores (hstores : Stores order request) (hwritable : order.IsWritable)
    (hkey : order.key ≠ "") (hlength : order.key.utf8ByteSize ≤ longestKey) :
    operation? request = some (.put order.key order.value (order.ttl.getD 0)) := by
  have hpath : Endpoint.ofPath? request.path = some .set := by rw [hstores.path]; rfl
  have hfine := keyProblem?_isNone hkey hlength
  have hoptions : request.method ≠ "OPTIONS" := by rw [hstores.method]; decide
  have hmethod : request.method ∈ Endpoint.set.methods := by rw [hstores.method]; decide
  rw [operation?_of_endpoint hoptions hpath hmethod, Endpoint.operation?,
    decodeOrder?_of_stores hstores hwritable, Option.filter_some, SetOrder.problem?, if_pos hfine]
  rfl

/-- **The operation of a request to read** is a read of the key. -/
theorem operation?_of_fetches (hfetches : Fetches key request) (hkey : key ≠ "")
    (hlength : key.utf8ByteSize ≤ longestKey) : operation? request = some (.getWithTtl key) := by
  have hfine := keyProblem?_isNone hkey hlength
  refine operation?_eq_getWithTtl_iff.2 ⟨by rw [hfetches.method]; decide, segmentOf key, ?_, ?_⟩
  · rw [hfetches.path]
    exact ofPath?_get_append (segmentOf_ne_nil hkey) (slash_not_mem_segmentOf key)
  · rw [decodeKey?, decodeUtf8?_segmentOf, Option.filter_some, if_pos hfine]

/-! ### Responses -/

theorem sent_of_ne_head (hmethod : request.method ≠ "HEAD") (response : Response) :
    (sent request response).body = response.body := by
  rw [sent, if_neg hmethod]

/-- The response to a request that finds its payload. -/
theorem body_of_fetches {store : Store} {now left : Nat} {value : Json.Payload}
    (hfetches : Fetches key request) (hkey : key ≠ "") (hlength : key.utf8ByteSize ≤ longestKey)
    (hfound : (store.read now key).result = some (value, left)) (timestamp : String) :
    let response := (respond store now timestamp request).result
    response.status = 200 ∧ response.body = .json (foundAnswer key value left).render := by
  obtain ⟨response, hanswers, hresult⟩ := exists_answer store now timestamp
    (operation?_of_fetches hfetches hkey hlength)
  have hreply : (store.apply now (.getWithTtl key)).result
      = .payloadWithTtl (some (value, left)) := by
    rw [← hfound]
    rfl
  rw [hreply] at hanswers
  have hhead : request.method ≠ "HEAD" := by rw [hfetches.method]; decide
  intro found
  show (respond store now timestamp request).result.status = 200
    ∧ (respond store now timestamp request).result.body = _
  rw [hresult, status_sent, sent_of_ne_head hhead]
  cases hanswers
  exact ⟨rfl, rfl⟩

/-! ### Round trips -/

/-- The seconds that a stored payload is to live: those that its order tells, if they are positive,
    and else the default. -/
def secondsOf (defaultTtl : Nat) : Option Int → Nat
  | some seconds => if 0 < seconds then seconds.toNat else defaultTtl
  | none => defaultTtl

theorem effectiveTtl_getD (store : Store) (ttl : Option Int) :
    store.effectiveTtl (ttl.getD 0) = secondsOf store.defaultTtl ttl := by
  cases ttl with
  | none => rfl
  | some seconds =>
    show (if seconds ≤ 0 then store.defaultTtl else seconds.toNat)
      = if 0 < seconds then seconds.toNat else store.defaultTtl
    by_cases hpositive : 0 < seconds
    · rw [if_pos hpositive, if_neg (Int.not_le.2 hpositive)]
    · rw [if_neg hpositive, if_pos (Int.not_lt.1 hpositive)]

/-- **What is written is read.**  Whatever a store contains and however small its budget is, a
    payload that is stored with a key of 1 to 256 bytes is found under the key at the same instant,
    and the answer shows it with the key and the milliseconds until it expires, as it was
    written. -/
theorem fetch_after_store (store : Store) {now : Nat} (hnow : now ≤ Word.top) {order : SetOrder}
    (hwritable : order.IsWritable) (hkey : order.key ≠ "")
    (hlength : order.key.utf8ByteSize ≤ 256) {put get : Request} (hput : Stores order put)
    (hget : Fetches order.key get) (putTime getTime : String) :
    let stored := respond store now putTime put
    let found := (respond stored.store now getTime get).result
    let seconds := secondsOf store.defaultTtl order.ttl
    let expiry := min (now + min (1000 * seconds) Word.top) Word.top
    stored.result.status = 200 ∧ found.status = 200
      ∧ found.body = .json (Json.Value.object [("key", .text order.key),
        ("value", order.value.toValue),
        ("ttl_remaining_ms", .number (.integer (expiry - now : Nat)))]).render := by
  intro stored found seconds expiry
  have hoperation := operation?_of_stores hput hwritable hkey hlength
  have hexpiry : Entry.expiry now (store.effectiveTtl (order.ttl.getD 0)) = expiry := by
    rw [effectiveTtl_getD, Entry.expiry, Word.addSat, Word.mulSat, Nat.mul_comm]
  have hstore : stored.store
      = (store.apply now (.put order.key order.value (order.ttl.getD 0))).store := by
    rw [show stored.store = _ from store_respond store now put putTime, hoperation]
    rfl
  -- A put is never refused: whatever it takes away to make room, it leaves a lease of its key.
  have hlease : stored.store.lease? order.key = some (order.value, expiry) := by
    rw [hstore, Store.lease?_put, hexpiry]
  -- No clock reading is beyond the last one, so not even the shortest lease is over already.
  have hlive : now ≤ expiry := Nat.le_min.2 ⟨Nat.le_add_right _ _, hnow⟩
  have hread : (stored.store.read now order.key).result = some (order.value, expiry - now) :=
    (Store.read_result ..).2 ⟨expiry, hlease, hlive, rfl⟩
  refine ⟨?_, body_of_fetches hget hkey hlength hread getTime⟩
  obtain ⟨response, hanswers, hresult⟩ := exists_answer store now putTime hoperation
  rw [show stored.result = _ from hresult, status_sent]
  cases hanswers
  rfl

/-- A key with a slash, a quotation mark and a letter outside ASCII, and a payload that is larger
    than the whole budget.  It lives for the 5 seconds that its order tells; with a time to live
    that is not positive, or without one, it gets the 7 seconds of the store. -/
theorem fetch_after_store_escaped :
    let key := "a/\"ü"
    let value : Json.Payload :=
      ⟨[("\n", .array [.null, .number (.integer (-5)), .object []]), ("é", .text "\x1f")]⟩
    let put (ttl : Option Int) : Request :=
      { method := "PUT", path := "/set", headers := [("Content-Type", "application/json")]
        body := encodeUtf8
          (Json.Value.object ((SetOrder.mk key value ttl).members false)).render }
    let get : Request := { method := "GET", path := "/get/a%2F%22%C3%BC" }
    let stored (ttl : Option Int) := respond (Store.new 1 7) 9 "" (put ttl)
    let found (ttl : Option Int) := (respond (stored ttl).store 9 "" get).result
    let finds (ttl : Option Int) (left : String) : Prop :=
      (stored ttl).result.status = 200 ∧ (found ttl).status = 200
        ∧ (found ttl).body = .json ("\x7b\"key\":\"a/\\\"ü\","
          ++ "\"value\":\x7b\"\\n\":[null,-5,\x7b\x7d],\"é\":\"\\u001f\"\x7d,"
          ++ "\"ttl_remaining_ms\":" ++ left ++ "\x7d")
    finds (some 5) "5000" ∧ finds (some (-3)) "7000" ∧ finds none "7000" := by
  intro key value put get stored found finds
  have hvalue : Json.Readable (Json.maxNesting - 1) value.toValue := by
    refine .object (List.pairwise_pair.2 (by decide)) fun member hmember => ?_
    simp only [value, List.mem_cons, List.not_mem_nil, or_false] at hmember
    rcases hmember with rfl | rfl
    · refine .array fun item hitem => ?_
      simp only [List.mem_cons, List.not_mem_nil, or_false] at hitem
      rcases hitem with rfl | rfl | rfl
      · exact .null _
      · exact .integer _ ⟨by decide, by decide⟩
      · exact .object .nil fun member hmember => nomatch hmember
    · exact .text _ _
  have hget : Fetches key get := ⟨rfl, by decide +kernel⟩
  have hnow : 9 ≤ Word.top := by decide
  have hwritten (ttl : Option Int) : (put ttl).body
      = encodeChars (Json.Value.object ((SetOrder.mk key value ttl).members false)).chars :=
    Json.encodeUtf8_render _
  have hround (ttl : Option Int)
      (hrange : ∀ seconds, ttl = some seconds → -(Word.half : Int) ≤ seconds ∧ seconds < Word.half)
      (hfits : (put ttl).body.length ≤ longestBody) :=
    have hput : Stores (SetOrder.mk key value ttl) (put ttl) :=
      ⟨rfl, rfl, rfl, ⟨false, _, .refl _, rfl⟩, hfits⟩
    fetch_after_store (Store.new 1 7) hnow ⟨hvalue, hrange⟩ (by decide : key ≠ "")
      (by decide : key.utf8ByteSize ≤ 256) hput hget "" ""
  refine ⟨?_, ?_, ?_⟩
  · obtain ⟨hstored, hfound, hbody⟩ :=
      hround (some 5) (by rintro _ ⟨⟩; decide) (by rw [hwritten]; decide)
    refine ⟨hstored, hfound, hbody.trans ?_⟩
    rw [Json.render_eq]
    decide +kernel
  · obtain ⟨hstored, hfound, hbody⟩ :=
      hround (some (-3)) (by rintro _ ⟨⟩; decide) (by rw [hwritten]; decide)
    refine ⟨hstored, hfound, hbody.trans ?_⟩
    rw [Json.render_eq]
    decide +kernel
  · obtain ⟨hstored, hfound, hbody⟩ := hround none (by rintro _ ⟨⟩) (by rw [hwritten]; decide)
    refine ⟨hstored, hfound, hbody.trans ?_⟩
    rw [Json.render_eq]
    decide +kernel

end BoundedCache.Http
