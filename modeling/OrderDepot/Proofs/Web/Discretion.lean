import Mathlib.Data.List.Forall2
import OrderDepot.Proofs.Web.Query

/-!
# Why the store failed is not told

Two stores are alike for clients if they answer alike, except that either may fail for a reason of its own, as long as
the reason is not that there is no such order. Clients of such stores are told the same and leave the same cache, in
one request and in any number of them.
-/

namespace OrderDepot.Web

/-- The same answer, or two failures of the store. That an order is absent is an answer. -/
inductive AnsweredAlike {α : Type} : Except Store.Failure α → Except Store.Failure α → Prop where
  | same (answer : Except Store.Failure α) : AnsweredAlike answer answer
  | failed {cause cause' : Store.Failure} (given : cause ≠ .notFound) (given' : cause' ≠ .notFound) :
      AnsweredAlike (.error cause) (.error cause')

structure Timed.Alike {α : Type} (t t' : Timed (Except Store.Failure α)) : Prop where
  delay : t.delay = t'.delay
  answer : AnsweredAlike t.answer t'.answer

structure Backend.Alike (store store' : Backend) : Prop where
  get : ∀ uid, (store.get uid).Alike (store'.get uid)
  ping : store.ping.Alike store'.ping

section

variable {store store' : Backend} {cache : OrderCache} {now : Nat}

theorem Timed.Alike.within {α : Type} {t t' : Timed (Except Store.Failure α)} (h : t.Alike t') (limit : Nat) :
    (t.within limit).1 = (t'.within limit).1 ∧
      Option.Rel AnsweredAlike (t.within limit).2 (t'.within limit).2 := by
  simp only [Timed.within, h.delay]
  cases t'.delay with
  | none => exact ⟨rfl, .none⟩
  | some d =>
    dsimp only
    split
    · exact ⟨rfl, .some h.answer⟩
    · exact ⟨rfl, .none⟩

theorem finish_failed {cause : Store.Failure} (h : cause ≠ .notFound) (uid : OrderUid) :
    Lookup.finish cache now uid (.failed cause) = (.error (.database cause), cache) := by
  cases cause with
  | notFound => exact absurd rfl h
  | database | dataCorruption | unavailable => rfl

theorem response_failed {cause : Store.Failure} (h : cause ≠ .notFound) :
    Found.response (.error (.database cause)) = Found.response (.error .timeout) := by
  cases cause with
  | notFound => exact absurd rfl h
  | database | dataCorruption | unavailable => rfl

theorem serveOrder_alike (h : store.Alike store') (limits : Limits) (cache : OrderCache) (now : Nat) (text : String) :
    serveOrder limits store cache now text = serveOrder limits store' cache now text := by
  simp only [serveOrder]
  cases Lookup.start cache now text with
  | mk lookup started =>
    cases lookup with
    | settled result => rfl
    | asking uid =>
      have hwithin := (h.get uid).within limits.lookup.nanos
      dsimp only
      generalize (store.get uid).within limits.lookup.nanos = waited at hwithin ⊢
      generalize (store'.get uid).within limits.lookup.nanos = waited' at hwithin ⊢
      obtain ⟨elapsed, answer⟩ := waited
      obtain ⟨elapsed', answer'⟩ := waited'
      obtain ⟨rfl, hanswer⟩ := hwithin
      cases hanswer with
      | none => rfl
      | some hsame =>
        cases hsame with
        | same => rfl
        | failed given given' =>
          simp only [finish_failed given, finish_failed given', response_failed given, response_failed given']

theorem serveReadiness_alike (h : store.Alike store') (limits : Limits) (cache : OrderCache) :
    serveReadiness limits store cache = serveReadiness limits store' cache := by
  have hwithin := h.ping.within limits.lookup.nanos
  simp only [serveReadiness]
  generalize store.ping.within limits.lookup.nanos = waited at hwithin ⊢
  generalize store'.ping.within limits.lookup.nanos = waited' at hwithin ⊢
  obtain ⟨elapsed, answer⟩ := waited
  obtain ⟨elapsed', answer'⟩ := waited'
  obtain ⟨rfl, hanswer⟩ := hwithin
  cases hanswer with
  | none => rfl
  | some hsame => cases hsame <;> rfl

theorem serveGet_alike (h : store.Alike store') (limits : Limits) (cache : OrderCache) (now : Nat)
    (resource : Resource) : serveGet limits store cache now resource = serveGet limits store' cache now resource := by
  cases resource with
  | health => rfl
  | readiness => exact serveReadiness_alike h limits cache
  | order segment =>
    simp only [serveGet]
    cases segmentText segment with
    | ok text => exact serveOrder_alike h limits cache now text
    | error response => rfl

theorem serve_alike (h : store.Alike store') (limits : Limits) (cache : OrderCache) (now : Nat) (r : Request) :
    serve limits store cache now r = serve limits store' cache now r := by
  simp only [serve]
  cases Resource.of? r.resourcePath with
  | none => rfl
  | some resource => simp only [serveGet_alike h]

theorem answer_alike (h : store.Alike store') {r : Request} {fresh fresh' : String}
    (hid : r.givenId? = none → fresh = fresh') (limits : Limits) (cache : OrderCache) (now : Nat) :
    answer limits store cache now fresh r = answer limits store' cache now fresh' r := by
  have hsame : r.givenId?.getD fresh = r.givenId?.getD fresh' := by
    cases hgiven : r.givenId? with
    | none => exact hid hgiven
    | some id => rfl
  simp only [answer, serveInTime, serve_alike h, hsame]

end

structure Visit where
  store : Backend
  now : Nat
  fresh : String
  request : Request

structure Visit.Alike (v v' : Visit) : Prop where
  store : v.store.Alike v'.store
  now : v.now = v'.now
  request : v.request = v'.request
  fresh : v.request.givenId? = none → v.fresh = v'.fresh

def serveAll (limits : Limits) : OrderCache → List Visit → List Response × OrderCache
  | cache, [] => ([], cache)
  | cache, v :: visits =>
    let served := answer limits v.store cache v.now v.fresh v.request
    let (responses, cache) := serveAll limits served.cache visits
    (served.response :: responses, cache)

theorem serveAll_alike {visits visits' : List Visit} (h : List.Forall₂ Visit.Alike visits visits') (limits : Limits)
    (cache : OrderCache) : serveAll limits cache visits = serveAll limits cache visits' := by
  induction h generalizing cache with
  | nil => rfl
  | @cons v v' visits visits' hvisit _ ih =>
    have hanswer : answer limits v.store cache v.now v.fresh v.request =
        answer limits v'.store cache v'.now v'.fresh v'.request := by
      rw [← hvisit.now, ← hvisit.request]
      exact answer_alike hvisit.store hvisit.fresh limits cache v.now
    simp only [serveAll, hanswer, ih]

/-- Why the store failed shows neither in what a client is told nor in the cache, and so in nothing that later clients
are told. -/
theorem causes_not_told :
    (∀ (limits : Limits) (store store' : Backend) (cache : OrderCache) (now : Nat) (fresh fresh' : String)
        (r : Request), store.Alike store' → (r.givenId? = none → fresh = fresh') →
        let served := answer limits store cache now fresh r
        let served' := answer limits store' cache now fresh' r
        served.response.status = served'.response.status ∧ served.response.headers = served'.response.headers ∧
          served.response.body = served'.response.body ∧ served.cache = served'.cache) ∧
    ∀ (limits : Limits) (cache : OrderCache) (visits visits' : List Visit), List.Forall₂ Visit.Alike visits visits' →
      serveAll limits cache visits = serveAll limits cache visits' := by
  refine ⟨?_, fun limits cache visits visits' h => serveAll_alike h limits cache⟩
  intro limits store store' cache now fresh fresh' r h hid
  rw [answer_alike h hid]
  exact ⟨rfl, rfl, rfl, rfl⟩

def Backend.failing (cause : Store.Failure) : Backend where
  get _ := ⟨some 0, .error cause⟩
  ping := ⟨some 0, .error cause⟩

theorem failing_alike {cause cause' : Store.Failure} (h : cause ≠ .notFound) (h' : cause' ≠ .notFound) :
    (Backend.failing cause).Alike (.failing cause') :=
  ⟨fun _ => ⟨rfl, .failed h h'⟩, ⟨rfl, .failed h h'⟩⟩

def knockingRequest : Request :=
  { path := Text.bytes "/order/a", headers := [("X-Request-Id", Text.bytes "edge-42")] }

theorem failing_stores_not_told_apart :
    let store := Backend.failing (.unavailable "pool exhausted at 10.0.0.5")
    let store' := Backend.failing (.dataCorruption "order a has no payment row")
    let cache : OrderCache := ⟨⟨10, .ofSeconds 30⟩, {}⟩
    let probe : Request := { path := Text.bytes "/health/ready" }
    let visits := [Visit.mk store 0 "1" knockingRequest, .mk store 5 "3" probe]
    let visits' := [Visit.mk store' 0 "2" knockingRequest, .mk store' 5 "3" probe]
    store.Alike store' ∧ knockingRequest.givenId? = some "edge-42" ∧
      (answer wholeSecond store cache 0 "1" knockingRequest).response.body =
        "\x7b\"error\":\"internal server error\"\x7d" ∧
      (answer wholeSecond store' cache 0 "2" knockingRequest).response.body =
        "\x7b\"error\":\"internal server error\"\x7d" ∧
      List.Forall₂ Visit.Alike visits visits' ∧
      serveAll wholeSecond cache visits = serveAll wholeSecond cache visits' := by
  intro store store' cache probe visits visits'
  have halike : store.Alike store' := failing_alike (by decide) (by decide)
  have hgiven : knockingRequest.givenId? = some "edge-42" := by decide +kernel
  have hid : knockingRequest.givenId? = none → "1" = "2" := fun hnone => nomatch hgiven.symm.trans hnone
  have hbody : (answer wholeSecond store cache 0 "1" knockingRequest).response.body =
      "\x7b\"error\":\"internal server error\"\x7d" := by decide +kernel
  have hvisits : List.Forall₂ Visit.Alike visits visits' :=
    .cons ⟨halike, rfl, rfl, hid⟩ (.cons ⟨halike, rfl, rfl, fun _ => rfl⟩ .nil)
  obtain ⟨-, -, hsame, -⟩ := causes_not_told.1 wholeSecond store store' cache 0 "1" "2" knockingRequest halike hid
  exact ⟨halike, hgiven, hbody, hsame.symm.trans hbody, hvisits,
    causes_not_told.2 wholeSecond cache visits visits' hvisits⟩

end OrderDepot.Web
