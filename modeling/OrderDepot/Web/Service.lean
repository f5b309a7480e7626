import OrderDepot.Store.Memory
import OrderDepot.Web.Lookup
import OrderDepot.Web.Request

/-!
The service that answers requests for orders. Orders are read through the cache; the store is given a limit
of time for its answer, and so is the request as a whole. A request that takes too long is broken off, and
the second step of its lookup is never taken. Times are nanoseconds since the start of the clock.
-/

namespace OrderDepot.Web

/-- An answer and the time that it takes; none if it never comes. -/
structure Timed (α : Type) where
  delay : Option Nat
  answer : α

structure Backend where
  get : OrderUid → Timed (Except Store.Failure Order)
  ping : Timed (Except Store.Failure Unit)

def Backend.ofMemory (s : Store.Memory) : Backend where
  get uid := ⟨some 0, (s.get uid).1⟩
  ping := ⟨some 0, s.ping⟩

structure Limits where
  lookup : Time.Duration
  request : Time.Duration
  deriving DecidableEq, Repr

def Timed.within {α : Type} (t : Timed α) (limit : Nat) : Nat × Option α :=
  match t.delay with
  | some d => if d ≤ limit then (d, some t.answer) else (limit, none)
  | none => (limit, none)

structure Served where
  response : Response
  cache : OrderCache
  /-- The cache after what was done at once, before the store was waited for. -/
  cacheAtStart : OrderCache
  elapsed : Nat := 0
  calls : Nat := 0

def Served.fixed (cache : OrderCache) (response : Response) : Served :=
  { response, cache, cacheAtStart := cache }

def serveOrder (limits : Limits) (store : Backend) (cache : OrderCache) (now : Nat) (text : String) : Served :=
  match Lookup.start cache now text with
  | (.settled r, cache) => .fixed cache r.response
  | (.asking uid, started) =>
    let (elapsed, answer) := (store.get uid).within limits.lookup.nanos
    let answer : StoreAnswer := match answer with
      | some (.ok o) => .order o
      | some (.error cause) => .failed cause
      | none => .late
    let (r, cache) := Lookup.finish started (now + elapsed) uid answer
    { response := r.response, cache, cacheAtStart := started, elapsed, calls := 1 }

def serveReadiness (limits : Limits) (store : Backend) (cache : OrderCache) : Served :=
  let (elapsed, answer) := store.ping.within limits.lookup.nanos
  let response := match answer with
    | some (.ok ()) => Response.bare 200
    | some (.error _) | none => Response.bare 503
  { response, cache, cacheAtStart := cache, elapsed, calls := 1 }

def segmentText (segment : List UInt8) : Except Response String :=
  match Text.text? (Percent.decode segment) with
  | some s => .ok s
  | none => .error (.plain 400 "Invalid URL: Invalid UTF-8 in `order_uid`")

def serveGet (limits : Limits) (store : Backend) (cache : OrderCache) (now : Nat) : Resource → Served
  | .health => .fixed cache (.plain 200 "ok")
  | .readiness => serveReadiness limits store cache
  | .order segment =>
    match segmentText segment with
    | .ok text => serveOrder limits store cache now text
    | .error response => .fixed cache response

def serve (limits : Limits) (store : Backend) (cache : OrderCache) (now : Nat) (r : Request) : Served :=
  match Resource.of? r.resourcePath with
  | none => .fixed cache (.bare 404)
  | some resource =>
    if r.method = "GET" then serveGet limits store cache now resource
    else if r.method = "HEAD" then
      let s := serveGet limits store cache now resource
      { s with response := s.response.withoutBody }
    else .fixed cache ((Response.bare 405).withHeader "allow" "GET,HEAD")

/-- Serves a request within its limit. The limit is looked at before the request, so nothing is done for one
that has no time at all. -/
def serveInTime (limits : Limits) (store : Backend) (cache : OrderCache) (now : Nat) (r : Request) : Served :=
  let limit := limits.request.nanos
  if limit = 0 then .fixed cache (.bare 408)
  else
    let s := serve limits store cache now r
    if s.elapsed < limit then s
    else { s with response := .bare 408, cache := s.cacheAtStart, elapsed := limit }

def answer (limits : Limits) (store : Backend) (cache : OrderCache) (now : Nat) (fresh : String)
    (r : Request) : Served :=
  let s := serveInTime limits store cache now r
  { s with response := s.response.withHeader requestIdHeader (r.givenId?.getD fresh) }

end OrderDepot.Web
