import OrderDepot.Proofs.Cache.Entries
import OrderDepot.Proofs.Order.RoundTrip
import OrderDepot.Proofs.Web.Query
import OrderDepot.Proofs.Web.Writers

/-!
# What readers see

One store in memory, written by handles of messages alone and read through one cache. Whatever is done in which
order, an order that is served from the cache was read from the store before its time to live was over, and every
order that is served came out of a message that was stored. Every entry of the cache is tied to the answer that
wrote it, and every order in the store to the message that brought it.
-/

namespace OrderDepot.Web

open Delivery (Attempts Message Outcome Outside Pipeline)
open Delivery.Outside (quiet sampleOrder sampleMessage sample_decoded sample_stored)

structure Handle where
  payload : List UInt8
  date : Time.Instant
  outcome : Outcome

structure Exchange where
  time : Nat
  uid : OrderUid
  response : Response

/-- The state of all, with what has happened so far, the latest first. -/
structure Site (σ : Type) where
  store : Store.Memory := {}
  cache : OrderCache
  clock : Nat := 0
  outside : σ
  handles : List Handle := []
  exchanges : List Exchange := []

inductive Event where
  | handle (p : Pipeline) (tracked : Attempts) (msg : Message)
  | available (value : Bool)
  | advance (nanos : Nat)
  | ask (q : Query) (fresh : String)

namespace Site

variable {σ : Type}

def start (bounds : Cache.Bounds) (w : σ) : Site σ :=
  { cache := ⟨bounds, {}⟩, outside := w }

def answer (s : Site σ) (limits : Limits) (q : Query) (fresh : String) : Served :=
  Web.answer limits (.ofMemory s.store) s.cache s.clock fresh q.request

def apply (out : Outside σ) (limits : Limits) (s : Site σ) : Event → Site σ
  | .handle p tracked msg =>
    let (outcome, store, outside) := out.handle p tracked msg s.store s.outside
    { s with store, outside, handles := ⟨msg.payload, (out.now s.outside).1, outcome⟩ :: s.handles }
  | .available value => { s with store := { s.store with online := value } }
  | .advance nanos => { s with clock := s.clock + nanos }
  | .ask q fresh =>
    let served := s.answer limits q fresh
    { s with
      store := if served.calls = 0 then s.store else (s.store.get q.uid).2
      cache := served.cache
      exchanges := ⟨s.clock, q.uid, served.response⟩ :: s.exchanges }

def run (out : Outside σ) (limits : Limits) (s : Site σ) (events : List Event) : Site σ :=
  events.foldl (apply out limits) s

end Site

/-- The order has the identifier and was, when it was judged, the valid payload of a message that ended stored. -/
def Origin (handles : List Handle) (uid : OrderUid) (o : Order) : Prop :=
  o.uid = uid ∧ ∃ h ∈ handles, h.outcome = .stored ∧ Order.decode h.payload = .ok o ∧ o.violations h.date = []

theorem Origin.cons {handles : List Handle} {uid : OrderUid} {o : Order} (h : Origin handles uid o)
    (latest : Handle) : Origin (latest :: handles) uid o := by
  obtain ⟨huid, handle, hmem, hhandle⟩ := h
  exact ⟨huid, handle, List.mem_cons_of_mem _ hmem, hhandle⟩

theorem Origin.writable {handles : List Handle} {uid : OrderUid} {o : Order} (h : Origin handles uid o) :
    o.dateCreated.Writable := by
  obtain ⟨_, _, _, _, hdecode, _⟩ := h
  exact decode_writable hdecode

/-- The entry was written when its order was read from the store, and lives from then. -/
def Loaded (ttl : Time.Duration) (exchanges : List Exchange) (clock : Nat) (e : Cache.Entry OrderUid Order) : Prop :=
  ∃ x ∈ exchanges, x.uid = e.key ∧ x.response.Gives e.value .db ∧ x.time ≤ clock ∧
    e.expiry = Cache.expiryFrom ttl x.time

theorem Loaded.later {ttl : Time.Duration} {exchanges : List Exchange} {clock clock' : Nat}
    {e : Cache.Entry OrderUid Order} (h : Loaded ttl exchanges clock e) (hle : clock ≤ clock') :
    Loaded ttl exchanges clock' e := by
  obtain ⟨x, hmem, huid, hgives, htime, hexpiry⟩ := h
  exact ⟨x, hmem, huid, hgives, Nat.le_trans htime hle, hexpiry⟩

theorem Loaded.cons {ttl : Time.Duration} {exchanges : List Exchange} {clock : Nat}
    {e : Cache.Entry OrderUid Order} (h : Loaded ttl exchanges clock e) (latest : Exchange) :
    Loaded ttl (latest :: exchanges) clock e := by
  obtain ⟨x, hmem, hx⟩ := h
  exact ⟨x, List.mem_cons_of_mem _ hmem, hx⟩

theorem fresh_of_not_expired {ttl : Time.Duration} {time clock : Nat}
    (h : Cache.isExpired (Cache.expiryFrom ttl time) clock = false) (hpos : 0 < ttl.nanos)
    (hhorizon : time + ttl.nanos < Cache.horizon) : clock < time + ttl.nanos := by
  refine Nat.lt_of_not_le fun hle => Bool.eq_false_iff.1 h ?_
  exact Cache.isExpired_iff.2 ⟨hpos, hhorizon, hle⟩

structure Site.Sound {σ : Type} (bounds : Cache.Bounds) (s : Site σ) : Prop where
  held : ∀ uid o, s.store.orders.find? uid = some o → Origin s.handles uid o
  cached : ∃ r, s.cache.Holds r ∧ ∀ e ∈ r, Origin s.handles e.key e.value ∧ Loaded bounds.ttl s.exchanges s.clock e
  bounds : s.cache.bounds = bounds

namespace Site

variable {σ : Type} {out : Outside σ} {limits : Limits} {bounds : Cache.Bounds} {s : Site σ}

theorem sound_start (w : σ) : (start bounds w).Sound bounds :=
  ⟨fun _ _ h => (nomatch h), ⟨[], Cache.holds_empty bounds, fun _ h => (nomatch h)⟩, rfl⟩

theorem sound_handle (hs : s.Sound bounds) (p : Pipeline) (tracked : Attempts) (msg : Message) :
    (s.apply out limits (.handle p tracked msg)).Sound bounds := by
  obtain ⟨hheld, ⟨r, hr, hentries⟩, hbounds⟩ := hs
  have hends := out.handle_store p tracked msg s.store s.outside
  simp only [apply]
  refine ⟨?_, ⟨r, hr, fun e he => ⟨(hentries e he).1.cons _, (hentries e he).2⟩⟩, hbounds⟩
  simp only
  generalize (out.handle p tracked msg s.store s.outside).1 = outcome,
    (out.handle p tracked msg s.store s.outside).2.1 = store at hends ⊢
  -- Only a handle that ends stored writes to the store, and what it writes is the order of its own payload.
  cases hends with
  | other => exact fun uid o h => (hheld uid o h).cons _
  | @stored accepted online haccepted =>
    obtain ⟨hdecode, hvalid⟩ := Verdict.accepted_of haccepted
    intro uid o h
    rw [Store.Memory.save, if_pos online, Keyed.find?_put] at h
    split at h
    · next huid =>
      cases h
      exact ⟨huid.symm, _, List.mem_cons_self, rfl, hdecode, hvalid⟩
    · exact (hheld uid o h).cons _

theorem store_handled (w : σ) (p : Pipeline) (tracked : Attempts) (msg : Message) :
    ((start bounds w).apply out limits (.handle p tracked msg)).store = (out.handle p tracked msg {} w).2.1 := rfl

theorem cache_handled (w : σ) (p : Pipeline) (tracked : Attempts) (msg : Message) :
    ((start bounds w).apply out limits (.handle p tracked msg)).cache = ⟨bounds, {}⟩ := rfl

theorem cache_asked (s : Site σ) (q : Query) (fresh : String) :
    (s.apply out limits (.ask q fresh)).cache = (s.answer limits q fresh).cache := rfl

theorem clock_handled (w : σ) (p : Pipeline) (tracked : Attempts) (msg : Message) :
    ((start bounds w).apply out limits (.handle p tracked msg)).clock = 0 := rfl

theorem clock_asked (s : Site σ) (q : Query) (fresh : String) :
    (s.apply out limits (.ask q fresh)).clock = s.clock := rfl

theorem answer_answered (hlimit : 0 < limits.request.nanos) (s : Site σ) (q : Query) (fresh : String) :
    Answered s.store s.cache s.clock q.uid (s.answer limits q fresh) :=
  answer_query hlimit q

theorem cache_answered (hs : s.Sound bounds) {q : Query} {served : Served}
    (h : Answered s.store s.cache s.clock q.uid served) :
    served.cache.bounds = bounds ∧ ∃ r, served.cache.Holds r ∧ ∀ e ∈ r, Origin s.handles e.key e.value ∧
      Loaded bounds.ttl (⟨s.clock, q.uid, served.response⟩ :: s.exchanges) s.clock e := by
  obtain ⟨hheld, ⟨r, hr, hentries⟩, rfl⟩ := hs
  obtain ⟨hget, -⟩ := hr.get s.clock q.uid
  have hbounds := Cache.call_bounds s.cache (.get s.clock q.uid)
  simp only [Cache.call] at hbounds
  have hkept : ∀ e ∈ (r.get s.clock q.uid).2, Origin s.handles e.key e.value ∧
      Loaded s.cache.bounds.ttl (⟨s.clock, q.uid, served.response⟩ :: s.exchanges) s.clock e := fun e he =>
    ⟨(hentries e (Cache.Recency.mem_get he)).1, (hentries e (Cache.Recency.mem_get he)).2.cons _⟩
  cases h with
  | hit _ _ kept => exact kept ▸ ⟨hbounds, _, hget, hkept⟩
  | absent _ _ _ _ kept => exact kept ▸ ⟨hbounds, _, hget, hkept⟩
  | down _ _ _ kept => exact kept ▸ ⟨hbounds, _, hget, hkept⟩
  | @found o _ _ held response kept =>
    have hset := hget.set s.clock q.uid o
    have hsetBounds := Cache.call_bounds (s.cache.get s.clock q.uid).2 (.set s.clock q.uid o)
    simp only [Cache.call] at hsetBounds
    rw [hbounds] at hset hsetBounds
    refine kept ▸ ⟨hsetBounds, _, hset, fun e he => ?_⟩
    rcases Cache.Recency.mem_set he with rfl | he
    · exact ⟨hheld _ _ held, _, List.mem_cons_self, rfl, response, Nat.le_refl _, rfl⟩
    · exact hkept e he

theorem sound_ask (hlimit : 0 < limits.request.nanos) (hs : s.Sound bounds) (q : Query) (fresh : String) :
    (s.apply out limits (.ask q fresh)).Sound bounds := by
  obtain ⟨hbounds, hcached⟩ := cache_answered hs (answer_answered hlimit s q fresh)
  refine ⟨fun uid o h => hs.held uid o ?_, hcached, hbounds⟩
  simp only [apply] at h
  split at h
  · exact h
  · rwa [orders_get] at h

theorem sound_apply (hlimit : 0 < limits.request.nanos) (hs : s.Sound bounds) (event : Event) :
    (s.apply out limits event).Sound bounds := by
  cases event with
  | handle p tracked msg => exact sound_handle hs p tracked msg
  | available value => exact ⟨hs.held, hs.cached, hs.bounds⟩
  | advance nanos =>
    obtain ⟨r, hr, hentries⟩ := hs.cached
    exact ⟨hs.held, ⟨r, hr, fun e he => ⟨(hentries e he).1, (hentries e he).2.later (Nat.le_add_right _ _)⟩⟩, hs.bounds⟩
  | ask q fresh => exact sound_ask hlimit hs q fresh

theorem sound_run (hlimit : 0 < limits.request.nanos) (hs : s.Sound bounds) (events : List Event) :
    (s.run out limits events).Sound bounds := by
  induction events generalizing s with
  | nil => exact hs
  | cons event events ih => exact ih (sound_apply hlimit hs event)

/-- The store was not asked. The same order was read from it for the same identifier, and it has not been longer
ago than orders live in the cache. -/
structure FromCache (ttl : Time.Duration) (s : Site σ) (uid : OrderUid) (served : Served) : Prop where
  calls : served.calls = 0
  order : ∃ o, served.response.Gives o .cache ∧ ∃ x ∈ s.exchanges, x.uid = uid ∧ x.response.Gives o .db ∧
    x.time ≤ s.clock ∧ (0 < ttl.nanos → x.time + ttl.nanos < Cache.horizon → s.clock < x.time + ttl.nanos)

/-- The store was asked once, and what it holds at that time decides the answer. -/
structure FromStore (store : Store.Memory) (uid : OrderUid) (served : Served) : Prop where
  calls : served.calls = 1
  order : ∀ o, store.online = true → store.orders.find? uid = some o → served.response.Gives o .db
  found : served.response.status = 200 ↔ store.online = true ∧ ∃ o, store.orders.find? uid = some o
  absent : served.response.Fails 404 ↔ store.online = true ∧ store.orders.find? uid = none
  down : served.response.Fails 500 ↔ store.online = false

def Untouched (before after : OrderCache) (now : Nat) (uid : OrderUid) : Prop :=
  ∀ k, after.entry? k = before.entry? k ∨
    k = uid ∧ after.entry? k = none ∧ ∃ e, before.entry? k = some e ∧ Cache.isExpired e.expiry now = true

theorem untouched_get {cache : OrderCache} {r : Cache.Recency OrderUid Order} {now : Nat} {uid : OrderUid}
    (hr : cache.Holds r) (hmiss : (cache.get now uid).1 = none) : Untouched cache (cache.get now uid).2 now uid := by
  obtain ⟨hget, hfound⟩ := hr.get now uid
  intro k
  rw [hget.entry?, hr.entry?]
  exact Cache.Recency.find?_get (hfound.trans hmiss) k

theorem fromStore_of_answered {store : Store.Memory} {cache : OrderCache} {now : Nat} {uid : OrderUid}
    {served : Served} (h : Answered store cache now uid served)
    (hsource : served.response.header? sourceHeader ≠ some Source.cache.name) : FromStore store uid served := by
  cases h with
  | hit _ response => exact absurd response.source hsource
  | @found o _ online held response _ calls =>
    have hsame : ∀ o', store.orders.find? uid = some o' → o = o' := fun o' h => Option.some.inj (held.symm.trans h)
    exact
      { calls
        order := fun o' _ h => hsame o' h ▸ response
        found := iff_of_true response.status ⟨online, o, held⟩
        absent := iff_of_false (response.not_fails (by decide)) fun h => nomatch held.symm.trans h.2
        down := iff_of_false (response.not_fails (by decide)) fun h => nomatch online.symm.trans h }
  | absent _ online held response _ calls =>
    exact
      { calls
        order := fun _ _ h => nomatch held.symm.trans h
        found := iff_of_false (response.not_status (by decide)) fun ⟨_, _, h⟩ => nomatch held.symm.trans h
        absent := iff_of_true response ⟨online, held⟩
        down := iff_of_false (fun h => response.not_status (by decide) h.status) fun h => nomatch online.symm.trans h }
  | down _ offline response _ calls =>
    exact
      { calls
        order := fun _ h _ => nomatch offline.symm.trans h
        found := iff_of_false (response.not_status (by decide)) fun h => nomatch offline.symm.trans h.1
        absent := iff_of_false (fun h => response.not_status (by decide) h.status) fun h =>
          nomatch offline.symm.trans h.1
        down := iff_of_true response offline }

theorem source_db_ne_cache {r : Response} {o : Order} (h : r.Gives o .db) :
    r.header? sourceHeader ≠ some Source.cache.name := by
  rw [h.source]
  decide

theorem source_miss_ne_cache {r : Response} {status : Nat} (h : r.Fails status) :
    r.header? sourceHeader ≠ some Source.cache.name := by
  rw [h.source]
  decide

theorem fromCache_of_answered {s : Site σ} {q : Query} {served : Served} (hs : s.Sound bounds)
    (h : Answered s.store s.cache s.clock q.uid served)
    (hsource : served.response.header? sourceHeader = some Source.cache.name) :
    FromCache bounds.ttl s q.uid served := by
  cases h with
  | @hit o hget response _ calls =>
    obtain ⟨-, ⟨r, hr, hentries⟩, -⟩ := hs
    -- The entry that was hit names the answer that wrote it.
    obtain ⟨e, he, hkey, rfl, hfresh⟩ := Cache.Recency.get_some ((hr.get s.clock q.uid).2.trans hget)
    obtain ⟨-, x, hx, huid, hgives, htime, hexpiry⟩ := hentries e he
    rw [hexpiry] at hfresh
    exact ⟨calls, _, response, x, hx, huid.trans hkey, hgives, htime, fresh_of_not_expired hfresh⟩
  | found _ _ _ response => exact absurd hsource (source_db_ne_cache response)
  | absent _ _ _ response => exact absurd hsource (source_miss_ne_cache response)
  | down _ _ response => exact absurd hsource (source_miss_ne_cache response)

theorem source_of_hit {store : Store.Memory} {cache : OrderCache} {now : Nat} {uid : OrderUid} {served : Served}
    {o : Order} (h : Answered store cache now uid served) (hget : (cache.get now uid).1 = some o) :
    served.response.header? sourceHeader = some Source.cache.name := by
  cases h with
  | hit _ response => exact response.source
  | found get => cases get.symm.trans hget
  | absent get => cases get.symm.trans hget
  | down get => cases get.symm.trans hget

theorem origin_of_answered {s : Site σ} {q : Query} {served : Served} (hs : s.Sound bounds)
    (h : Answered s.store s.cache s.clock q.uid served) (hstatus : served.response.status = 200) :
    ∃ o, served.response.body = o.encode ∧ Origin s.handles q.uid o := by
  obtain ⟨hheld, ⟨r, hr, hentries⟩, -⟩ := hs
  cases h with
  | hit hget response =>
    obtain ⟨e, he, hkey, rfl, -⟩ := Cache.Recency.get_some ((hr.get s.clock q.uid).2.trans hget)
    exact ⟨_, response.body, hkey ▸ (hentries e he).1⟩
  | found _ _ held response => exact ⟨_, response.body, hheld _ _ held⟩
  | absent _ _ _ response => exact absurd (response.status.symm.trans hstatus) (by decide)
  | down _ _ response => exact absurd (response.status.symm.trans hstatus) (by decide)

theorem untouched_of_answered {s : Site σ} {q : Query} {served : Served} (hs : s.Sound bounds)
    (h : Answered s.store s.cache s.clock q.uid served) (hstatus : served.response.status ≠ 200) :
    Untouched s.cache served.cache s.clock q.uid := by
  obtain ⟨-, ⟨r, hr, -⟩, -⟩ := hs
  cases h with
  | hit _ response => exact absurd response.status hstatus
  | found _ _ _ response => exact absurd response.status hstatus
  | absent hget _ _ _ kept => exact kept ▸ untouched_get hr hget
  | down hget _ _ kept => exact kept ▸ untouched_get hr hget

/-- After any run the answer to a query comes from the cache or from the store. -/
theorem answer_after_run (out : Outside σ) (limits : Limits) (hlimit : 0 < limits.request.nanos)
    (bounds : Cache.Bounds) (w : σ) (events : List Event) (q : Query) (fresh : String) :
    let s := (start bounds w).run out limits events
    let served := s.answer limits q fresh
    (served.response.header? sourceHeader = some Source.cache.name → FromCache bounds.ttl s q.uid served) ∧
    (served.response.header? sourceHeader ≠ some Source.cache.name → FromStore s.store q.uid served) ∧
    (served.response.status = 200 → ∃ o, served.response.body = o.encode ∧
      Order.decode (Text.bytes served.response.body) = .ok o ∧ Origin s.handles q.uid o) ∧
    (served.response.status ≠ 200 → Untouched s.cache served.cache s.clock q.uid) := by
  intro s served
  have hs : s.Sound bounds := sound_run hlimit (sound_start w) events
  have hanswered : Answered s.store s.cache s.clock q.uid served := answer_answered hlimit s q fresh
  refine ⟨fromCache_of_answered hs hanswered, fromStore_of_answered hanswered, fun hstatus => ?_,
    untouched_of_answered hs hanswered⟩
  obtain ⟨o, hbody, horigin⟩ := origin_of_answered hs hanswered hstatus
  refine ⟨o, hbody, ?_, horigin⟩
  rw [hbody]
  exact decode_compact horigin.writable

end Site

def sampleQuery : Query where
  request := { path := Text.bytes "/order/a" }
  segment := Text.bytes "a"
  text := "a"
  uid := ⟨"a"⟩
  get := rfl
  named := by decide
  decoded := by decide
  accepted := by decide

def sampleStored : Site Unit :=
  (Site.start ⟨1, .ofSeconds 1⟩ ()).apply quiet wholeSecond (.handle {} .empty (sampleMessage "a"))

def sampleAsked : Site Unit :=
  sampleStored.apply quiet wholeSecond (.ask sampleQuery "")

theorem sampleStored_holds :
    sampleStored.store.online = true ∧ sampleStored.store.orders.find? ⟨"a"⟩ = some (sampleOrder "a") := by
  have hvalid : (sampleOrder "a").violations ⟨1700000000, 0⟩ = [] := by
    decide +kernel
  obtain ⟨-, o, haccepted, hstore⟩ := Delivery.Outside.stored_accepted (sample_stored hvalid)
  obtain rfl : sampleOrder "a" = o :=
    Except.ok.inj ((sample_decoded "a").symm.trans (Verdict.accepted_of haccepted).1)
  have hsaved : sampleStored.store = (({} : Store.Memory).save (sampleOrder "a")).2 := by
    rw [sampleStored, Site.store_handled, hstore]
  have huid : (⟨"a"⟩ : OrderUid) = (sampleOrder "a").uid := rfl
  rw [hsaved, Store.Memory.save, if_pos rfl, Keyed.find?_put, if_pos huid]
  exact ⟨rfl, rfl⟩

theorem sampleStored_clock : sampleStored.clock = 0 := by
  rw [sampleStored, Site.clock_handled]

theorem get_after_load (o : Order) :
    ((((⟨⟨1, .ofSeconds 1⟩, {}⟩ : OrderCache).get 0 sampleQuery.uid).2.set 0 sampleQuery.uid o).get 0
      sampleQuery.uid).1 = some o := rfl

theorem sampleAsked_holds : (sampleAsked.cache.get sampleAsked.clock sampleQuery.uid).1 = some (sampleOrder "a") := by
  have hlimit : 0 < wholeSecond.request.nanos := by
    decide
  obtain ⟨honline, hheld⟩ := sampleStored_holds
  have hanswered := Site.answer_answered hlimit sampleStored sampleQuery ""
  have hempty : sampleStored.cache = ⟨⟨1, .ofSeconds 1⟩, {}⟩ := by
    rw [sampleStored, Site.cache_handled]
  rw [sampleAsked, Site.cache_asked, Site.clock_asked, sampleStored_clock]
  rw [hempty, sampleStored_clock] at hanswered
  generalize sampleStored.answer wholeSecond sampleQuery "" = served at hanswered ⊢
  generalize sampleStored.store = store, sampleOrder "a" = o at honline hheld hanswered ⊢
  cases hanswered with
  | hit get => cases get
  | @found o' _ _ held _ kept =>
    obtain rfl : o' = o := Option.some.inj (held.symm.trans hheld)
    rw [kept, get_after_load]
  | absent _ _ held => cases held.symm.trans hheld
  | down _ offline => cases offline.symm.trans honline

theorem sample_served_from_cache : 0 < wholeSecond.request.nanos ∧
    Site.FromCache (.ofSeconds 1) sampleAsked ⟨"a"⟩ (sampleAsked.answer wholeSecond sampleQuery "") := by
  have hlimit : 0 < wholeSecond.request.nanos := by
    decide
  have hsource : (sampleAsked.answer wholeSecond sampleQuery "").response.header? sourceHeader =
      some Source.cache.name := by
    have hanswered := Site.answer_answered hlimit sampleAsked sampleQuery ""
    exact Site.source_of_hit hanswered sampleAsked_holds
  exact ⟨hlimit, (Site.answer_after_run quiet wholeSecond hlimit ⟨1, .ofSeconds 1⟩ ()
    [.handle {} .empty (sampleMessage "a"), .ask sampleQuery ""] sampleQuery "").1 hsource⟩

end OrderDepot.Web
