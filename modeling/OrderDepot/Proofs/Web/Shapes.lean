import OrderDepot.Proofs.Web.Path
import OrderDepot.Proofs.Web.Query

/-!
# What an answer looks like

A lookup ends with an order, or with an error that is told to the client in JSON. Only the store is waited for, and not
longer than its own limit. When the limit of the whole request has passed by then, nothing is left of the lookup, and
the answer is empty.
-/

namespace OrderDepot.Web

/-- An order with its source, or what went wrong. -/
inductive Response.Documented (r : Response) : Prop where
  | order {o : Order} {source : Source} (real : source ≠ .miss) (gives : r.Gives o source)
    (json : r.header? contentType = some "application/json")
  | error {status : Nat} {text : String} (expected : status ∈ [400, 404, 500]) (fails : r.Fails status)
    (json : r.header? contentType = some "application/json")
    (body : r.body = (Json.Value.object [("error", .text text)]).compact)

def Response.tooLate (id : String) : Response :=
  (Response.bare 408).withHeader requestIdHeader id

theorem Response.Documented.is_json {r : Response} (h : r.Documented) :
    r.header? contentType = some "application/json" := by
  cases h with
  | order _ _ json => exact json
  | error _ _ json => exact json

theorem not_documented_tooLate (id : String) : ¬ (Response.tooLate id).Documented := by
  intro h
  cases h.is_json

theorem status_expected (e : RequestError) : e.status ∈ [400, 404, 500] := by
  cases e with
  | database cause => cases cause <;> simp [RequestError.status]
  | timeout | notFound | badRequest => simp [RequestError.status]

theorem documented_found {r : Found} (hreal : ∀ o, r ≠ .ok (o, .miss)) (id : String) :
    (r.response.withHeader requestIdHeader id).Documented := by
  cases r with
  | ok found =>
    obtain ⟨o, source⟩ := found
    have hsource : source ≠ .miss := by
      rintro rfl
      exact hreal o rfl
    exact .order hsource (gives_found o source id) rfl
  | error e => exact .error (status_expected e) (fails_error e id) rfl rfl

section

variable {limits : Limits} {store : Backend} {cache : OrderCache} {now : Nat} {fresh : String}

def lookupTime (limits : Limits) (store : Backend) (cache : OrderCache) (now : Nat) (segment : List UInt8) : Nat :=
  match Text.text? (Percent.decode segment) with
  | none => 0
  | some text =>
    match readOrderId text with
    | .error _ => 0
    | .ok uid => if (cache.get now uid).1.isSome then 0 else ((store.get uid).within limits.lookup.nanos).1

theorem start_real {text : String} {r : Found} {after : OrderCache}
    (h : Lookup.start cache now text = (.settled r, after)) (o : Order) : r ≠ .ok (o, .miss) := by
  unfold Lookup.start at h
  split at h
  · cases h
    exact nofun
  · split at h
    · cases h
      exact nofun
    · cases h

theorem finish_real (cache : OrderCache) (now : Nat) (uid : OrderUid) (answer : StoreAnswer) (o : Order) :
    (Lookup.finish cache now uid answer).1 ≠ .ok (o, .miss) := by
  cases answer with
  | order | late => simp [Lookup.finish]
  | failed cause => cases cause <;> simp [Lookup.finish]

theorem serveOrder_documented (limits : Limits) (store : Backend) (cache : OrderCache) (now : Nat)
    (text id : String) :
    ((serveOrder limits store cache now text).response.withHeader requestIdHeader id).Documented := by
  unfold serveOrder
  split
  · next hstart => exact documented_found (start_real hstart) id
  · exact documented_found (finish_real _ _ _ _) id

theorem serveOrder_elapsed {segment : List UInt8} {text : String}
    (hdecoded : Text.text? (Percent.decode segment) = some text) :
    (serveOrder limits store cache now text).elapsed = lookupTime limits store cache now segment := by
  simp only [lookupTime, hdecoded, serveOrder, Lookup.start]
  cases readOrderId text with
  | error e => rfl
  | ok uid =>
    rcases hcached : cache.get now uid with ⟨_ | o, after⟩ <;>
    · simp only [hcached]
      rfl

variable {r : Request} {segment : List UInt8}

theorem serve_order (limits : Limits) (store : Backend) (cache : OrderCache) (now : Nat) (hget : r.method = "GET")
    (hnamed : Resource.of? r.resourcePath = some (.order segment)) :
    (serve limits store cache now r).elapsed = lookupTime limits store cache now segment ∧
      ∀ text, Text.text? (Percent.decode segment) = some text → ∀ id,
        ((serve limits store cache now r).response.withHeader requestIdHeader id).Documented := by
  simp only [serve, hnamed, hget, if_true, serveGet, segmentText]
  cases hdecoded : Text.text? (Percent.decode segment) with
  | none =>
    simp only [lookupTime, hdecoded]
    refine ⟨rfl, fun text htext => ?_⟩
    cases htext
  | some text => exact ⟨serveOrder_elapsed hdecoded, fun _ _ => serveOrder_documented limits store cache now text⟩

/-- The limit of the request is the one thing that keeps an order, or the reason why there is none, from being told. The
cache may hold anything, and the store may answer at any time, or never. -/
theorem order_answer_documented (hget : r.method = "GET") (hpath : r.path = orderPath segment)
    (hsegment : IsSegment segment) (hne : segment ≠ []) :
    let response := (answer limits store cache now fresh r).response
    (limits.request.nanos ≤ lookupTime limits store cache now segment →
      response = .tooLate (r.givenId?.getD fresh)) ∧
    ((∃ text, Text.text? (Percent.decode segment) = some text) →
      (response.Documented ↔ lookupTime limits store cache now segment < limits.request.nanos)) := by
  intro response
  obtain ⟨helapsed, hdocumented⟩ := serve_order limits store cache now hget (resource_orderPath hsegment hne hpath)
  have hlate : limits.request.nanos ≤ lookupTime limits store cache now segment →
      response = .tooLate (r.givenId?.getD fresh) := by
    intro hlimit
    simp only [response, answer, serveInTime, helapsed, Nat.not_lt.2 hlimit, if_false]
    split <;> rfl
  refine ⟨hlate, ?_⟩
  rintro ⟨text, hdecoded⟩
  constructor
  · intro h
    by_contra hlimit
    rw [hlate (Nat.not_lt.1 hlimit)] at h
    exact not_documented_tooLate _ h
  · intro hlimit
    have hsome : limits.request.nanos ≠ 0 := Nat.ne_of_gt (Nat.zero_lt_of_lt hlimit)
    have hresponse : response =
        (serve limits store cache now r).response.withHeader requestIdHeader (r.givenId?.getD fresh) := by
      simp only [response, answer, serveInTime, helapsed, hlimit, hsome, if_true, if_false]
    rw [hresponse]
    exact hdocumented text hdecoded _

end

def slowStore : Backend where
  get _ := ⟨some 2000000000, .error .notFound⟩
  ping := ⟨some 0, .ok ()⟩

def emptyCache : OrderCache := ⟨⟨10, .ofSeconds 30⟩, {}⟩

theorem isSegment_a : IsSegment (Text.bytes "a") := by
  intro b hb
  obtain rfl := List.mem_singleton.1 hb
  decide

theorem answer_of_slow_store :
    let r : Request := { path := orderPath (Text.bytes "a") }
    r.method = "GET" ∧ IsSegment (Text.bytes "a") ∧ Text.bytes "a" ≠ [] ∧
      (∃ text, Text.text? (Percent.decode (Text.bytes "a")) = some text) ∧
      (answer ⟨.ofSeconds 3, .ofSeconds 1⟩ slowStore emptyCache 0 "" r).response = .tooLate "" ∧
      (answer ⟨.ofSeconds 1, .ofSeconds 3⟩ slowStore emptyCache 0 "" r).response.Documented := by
  intro r
  have hne : Text.bytes "a" ≠ [] := by decide
  have hdecoded : ∃ text, Text.text? (Percent.decode (Text.bytes "a")) = some text := ⟨"a", by decide⟩
  have hlate : 1000000000 ≤ lookupTime ⟨.ofSeconds 3, .ofSeconds 1⟩ slowStore emptyCache 0 (Text.bytes "a") := by
    decide +kernel
  have hsoon : lookupTime ⟨.ofSeconds 1, .ofSeconds 3⟩ slowStore emptyCache 0 (Text.bytes "a") < 3000000000 := by
    decide +kernel
  exact ⟨rfl, isSegment_a, hne, hdecoded, (order_answer_documented rfl rfl isSegment_a hne).1 hlate,
    ((order_answer_documented rfl rfl isSegment_a hne).2 hdecoded).2 hsoon⟩

theorem isSegment_undecodable : IsSegment (Text.bytes "%FF") := by
  unfold IsSegment
  decide +kernel

/-- The limit of the request ends one lookup. The other one does not even begin, for want of a text. -/
theorem answers_not_documented :
    (IsSegment (Text.bytes "a") ∧ Text.bytes "a" ≠ [] ∧
      ¬ (answer ⟨.ofSeconds 3, .ofSeconds 1⟩ slowStore emptyCache 0 ""
        { path := orderPath (Text.bytes "a") }).response.Documented) ∧
    (IsSegment (Text.bytes "%FF") ∧ Text.bytes "%FF" ≠ [] ∧
      ¬ (answer ⟨.ofSeconds 3, .ofSeconds 10⟩ slowStore emptyCache 0 ""
        { path := orderPath (Text.bytes "%FF") }).response.Documented) := by
  have hlate : (answer ⟨.ofSeconds 3, .ofSeconds 1⟩ slowStore emptyCache 0 ""
      { path := orderPath (Text.bytes "a") }).response.header? Response.contentType = none := by
    decide +kernel
  have hundecoded : (answer ⟨.ofSeconds 3, .ofSeconds 10⟩ slowStore emptyCache 0 ""
      { path := orderPath (Text.bytes "%FF") }).response.header? Response.contentType =
        some "text/plain; charset=utf-8" := by
    decide +kernel
  refine ⟨⟨isSegment_a, by decide, fun h => ?_⟩, isSegment_undecodable, by decide, fun h => ?_⟩
  · cases hlate.symm.trans h.is_json
  · exact absurd (Option.some.inj (hundecoded.symm.trans h.is_json)) (by decide)

end OrderDepot.Web
