import OrderDepot.Web.Service

/-!
Requests for an order whose segment reads as an identifier, answered over a store in memory. The answer comes from
the cache without a call of the store, or from the store after one call; only an order that the store gave is
written to the cache.
-/

namespace OrderDepot.Web

structure Query where
  request : Request
  segment : List UInt8
  text : String
  uid : OrderUid
  get : request.method = "GET"
  named : Resource.of? request.resourcePath = some (.order segment)
  decoded : Text.text? (Percent.decode segment) = some text
  accepted : readOrderId text = .ok uid

structure Response.Gives (r : Response) (o : Order) (source : Source) : Prop where
  status : r.status = 200
  source : r.header? sourceHeader = some source.name
  body : r.body = o.encode

structure Response.Fails (r : Response) (status : Nat) : Prop where
  status : r.status = status
  source : r.header? sourceHeader = some Source.miss.name

theorem Response.Gives.not_fails {r : Response} {o : Order} {source : Source} {status : Nat} (h : r.Gives o source)
    (hne : 200 ≠ status) : ¬ r.Fails status := fun hfails => hne (h.status.symm.trans hfails.status)

theorem Response.Fails.not_status {r : Response} {status status' : Nat} (h : r.Fails status)
    (hne : status ≠ status') : r.status ≠ status' := fun hstatus => hne (h.status.symm.trans hstatus)

theorem gives_found (o : Order) (source : Source) (id : String) :
    ((Found.response (.ok (o, source))).withHeader requestIdHeader id).Gives o source :=
  ⟨rfl, rfl, rfl⟩

theorem fails_error (e : RequestError) (id : String) :
    ((Found.response (.error e)).withHeader requestIdHeader id).Fails e.status :=
  ⟨rfl, rfl⟩

theorem orders_get (store : Store.Memory) (uid : OrderUid) : (store.get uid).2.orders = store.orders := by
  unfold Store.Memory.get
  split <;> rfl

namespace Lookup

variable {cache : OrderCache} {now : Nat} {text : String} {uid : OrderUid}

theorem start_malformed {e : OrderIdError} (h : readOrderId text = .error e) :
    start cache now text = (.settled (.error (.badRequest e.message)), cache) := by
  simp only [start, h]

theorem start_hit {o : Order} (h : readOrderId text = .ok uid) (hget : (cache.get now uid).1 = some o) :
    start cache now text = (.settled (.ok (o, .cache)), (cache.get now uid).2) := by
  simp only [start, h]
  split
  · next hfound =>
    rw [hfound] at hget ⊢
    rw [← Option.some.inj hget]
  · next hnone => cases (congrArg Prod.fst hnone).symm.trans hget

theorem start_miss (h : readOrderId text = .ok uid) (hget : (cache.get now uid).1 = none) :
    start cache now text = (.asking uid, (cache.get now uid).2) := by
  simp only [start, h]
  split
  · next hfound => cases (congrArg Prod.fst hfound).symm.trans hget
  · next hnone => rw [hnone]

end Lookup

/-- What can become of a query at a time, by what the cache and the store hold. -/
inductive Answered (store : Store.Memory) (cache : OrderCache) (now : Nat) (uid : OrderUid) (s : Served) : Prop where
  | hit {o : Order} (get : (cache.get now uid).1 = some o) (response : s.response.Gives o .cache)
    (kept : s.cache = (cache.get now uid).2) (calls : s.calls = 0)
  | found {o : Order} (get : (cache.get now uid).1 = none) (online : store.online = true)
    (held : store.orders.find? uid = some o) (response : s.response.Gives o .db)
    (kept : s.cache = (cache.get now uid).2.set now uid o) (calls : s.calls = 1)
  | absent (get : (cache.get now uid).1 = none) (online : store.online = true)
    (held : store.orders.find? uid = none) (response : s.response.Fails 404)
    (kept : s.cache = (cache.get now uid).2) (calls : s.calls = 1)
  | down (get : (cache.get now uid).1 = none) (offline : store.online = false) (response : s.response.Fails 500)
    (kept : s.cache = (cache.get now uid).2) (calls : s.calls = 1)

section

variable {limits : Limits} {store : Store.Memory} {cache : OrderCache} {now : Nat} {fresh : String}

theorem answer_order (hlimit : 0 < limits.request.nanos) {r : Request} {segment : List UInt8} {text : String}
    (hget : r.method = "GET") (hnamed : Resource.of? r.resourcePath = some (.order segment))
    (hdecoded : Text.text? (Percent.decode segment) = some text)
    (helapsed : (serveOrder limits (.ofMemory store) cache now text).elapsed = 0) :
    answer limits (.ofMemory store) cache now fresh r =
      { serveOrder limits (.ofMemory store) cache now text with
        response := (serveOrder limits (.ofMemory store) cache now text).response.withHeader requestIdHeader
          (r.givenId?.getD fresh) } := by
  have hserve : serve limits (.ofMemory store) cache now r = serveOrder limits (.ofMemory store) cache now text := by
    simp only [serve, hnamed, hget, if_true, serveGet, segmentText, hdecoded]
  simp only [answer, serveInTime, hserve, helapsed, hlimit, Nat.ne_of_gt hlimit, if_true, if_false]

def storeAnswer (store : Store.Memory) (uid : OrderUid) : StoreAnswer :=
  match (store.get uid).1 with
  | .ok o => .order o
  | .error cause => .failed cause

theorem find?_of_storeAnswer {uid : OrderUid} {o : Order} (h : storeAnswer store uid = .order o) :
    store.orders.find? uid = some o := by
  unfold storeAnswer Store.Memory.get at h
  cases honline : store.online with
  | false => simp [honline] at h
  | true =>
    cases hfind : store.orders.find? uid with
    | none => simp [honline, hfind] at h
    | some a => simpa [honline, hfind] using h

theorem serveOrder_asking {text : String} {uid : OrderUid} {after : OrderCache}
    (hstart : Lookup.start cache now text = (.asking uid, after)) :
    serveOrder limits (.ofMemory store) cache now text =
      { response := (Lookup.finish after now uid (storeAnswer store uid)).1.response
        cache := (Lookup.finish after now uid (storeAnswer store uid)).2
        cacheAtStart := after
        calls := 1 } := by
  have hwithin : ((Backend.ofMemory store).get uid).within limits.lookup.nanos = (0, some (store.get uid).1) := by
    simp only [Backend.ofMemory, Timed.within, Nat.zero_le, if_true]
  simp only [serveOrder, hstart, hwithin, Nat.add_zero, storeAnswer]
  cases (store.get uid).1 <;> rfl

theorem answer_query (hlimit : 0 < limits.request.nanos) (q : Query) :
    Answered store cache now q.uid (answer limits (.ofMemory store) cache now fresh q.request) := by
  cases hcache : cache.get now q.uid with
  | mk found after =>
    have hfound : (cache.get now q.uid).1 = found := by rw [hcache]
    have hafter : (cache.get now q.uid).2 = after := by rw [hcache]
    cases found with
    | some o =>
      have hserve : serveOrder limits (.ofMemory store) cache now q.text =
          .fixed after (Found.response (.ok (o, .cache))) := by
        simp only [serveOrder, Lookup.start_hit q.accepted hfound, hafter]
      rw [answer_order hlimit q.get q.named q.decoded (by rw [hserve]; rfl), hserve]
      exact .hit hfound (gives_found o .cache _) hafter.symm rfl
    | none =>
      have hstart : Lookup.start cache now q.text = (.asking q.uid, after) :=
        hafter ▸ Lookup.start_miss q.accepted hfound
      have hserve : serveOrder limits (.ofMemory store) cache now q.text = _ := serveOrder_asking hstart
      rw [answer_order hlimit q.get q.named q.decoded (by rw [hserve]), hserve]
      cases honline : store.online with
      | true =>
        cases hheld : store.orders.find? q.uid with
        | some o =>
          have hanswer : storeAnswer store q.uid = .order o := by
            simp only [storeAnswer, Store.Memory.get, honline, if_true, hheld]
          rw [hanswer]
          exact .found hfound honline hheld (gives_found o .db _) (by rw [hafter]; rfl) rfl
        | none =>
          have hanswer : storeAnswer store q.uid = .failed .notFound := by
            simp only [storeAnswer, Store.Memory.get, honline, if_true, hheld]
          rw [hanswer]
          exact .absent hfound honline hheld (fails_error (.notFound "order") _) hafter.symm rfl
      | false =>
        have hanswer : storeAnswer store q.uid = .failed Store.Memory.switchedOff := by
          simp only [storeAnswer, Store.Memory.get, honline, Bool.false_eq_true, if_false]
        rw [hanswer]
        exact .down hfound honline (fails_error (.database Store.Memory.switchedOff) _) hafter.symm rfl

theorem answer_malformed (hlimit : 0 < limits.request.nanos) {r : Request} {segment : List UInt8} {text : String}
    {e : OrderIdError} (hget : r.method = "GET") (hnamed : Resource.of? r.resourcePath = some (.order segment))
    (hdecoded : Text.text? (Percent.decode segment) = some text) (hmalformed : readOrderId text = .error e) :
    (answer limits (.ofMemory store) cache now fresh r).response.Fails 400 := by
  have hserve : serveOrder limits (.ofMemory store) cache now text =
      .fixed cache (Found.response (.error (.badRequest e.message))) := by
    simp only [serveOrder, Lookup.start_malformed hmalformed]
  rw [answer_order hlimit hget hnamed hdecoded (by rw [hserve]; rfl), hserve]
  exact fails_error (.badRequest e.message) _

end

def wholeSecond : Limits := ⟨.ofSeconds 1, .ofSeconds 1⟩

end OrderDepot.Web
