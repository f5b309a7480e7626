import OrderDepot.Proofs.Order.RoundTrip
import OrderDepot.Proofs.Web.Path
import OrderDepot.Proofs.Web.Query
import OrderDepot.Proofs.Web.Writers

/-!
Whether a stored order can be read at its own path. Validation only wants an identifier that is not blank, but the
path drops white space around it and refuses long ones and control characters. So an order is served under its
identifier when that is as the path reads it; any other order can be stored and not be asked for.
-/

namespace OrderDepot

theorem requireText_eq_nil {path value : String} (h : requireText path value = []) :
    Text.isBlank value = false := by
  cases hblank : Text.isBlank value with
  | false => rfl
  | true =>
    rw [requireText, breachIf, hblank] at h
    cases h

theorem uid_not_blank {o : Order} {now : Time.Instant} (h : o.violations now = []) :
    Text.isBlank o.uid.text = false := by
  simp only [Order.violations, checkHeader, List.append_assoc, List.append_eq_nil_iff] at h
  exact requireText_eq_nil h.1

namespace Web

open Delivery.Outside (quiet sampleOrder sampleMessage sample_decoded sample_stored)

theorem trim_not_empty {text : String} (h : Text.isBlank text = false) : (Text.trim text).isEmpty = false := by
  cases hempty : (Text.trim text).isEmpty with
  | false => rfl
  | true =>
    have htrimmed := congrArg String.toList (String.isEmpty_iff.1 hempty)
    rw [Text.trim, String.toList_ofList] at htrimmed
    rw [Text.isBlank, List.all_eq_true.2 ((Text.trimmed_eq_nil_iff _).1 htrimmed)] at h
    cases h

/-- The identifier is written as paths read it. -/
structure Readable (text : String) : Prop where
  trimmed : Text.trim text = text
  short : text.utf8ByteSize ≤ maxOrderIdBytes
  plain : text.toList.any Text.isControl = false

theorem readOrderId_trimmed {text : String} (hblank : Text.isBlank text = false)
    (hshort : (Text.trim text).utf8ByteSize ≤ maxOrderIdBytes)
    (hplain : (Text.trim text).toList.any Text.isControl = false) : readOrderId text = .ok ⟨Text.trim text⟩ := by
  simp only [readOrderId, trim_not_empty hblank, Nat.not_lt.2 hshort, hplain, Bool.false_eq_true, if_false]

theorem readOrderId_malformed {text : String}
    (h : maxOrderIdBytes < (Text.trim text).utf8ByteSize ∨ (Text.trim text).toList.any Text.isControl = true) :
    ∃ e, readOrderId text = .error e := by
  simp only [readOrderId]
  split
  · exact ⟨_, rfl⟩
  · split
    · exact ⟨_, rfl⟩
    · next hshort =>
      rw [if_pos (h.resolve_left hshort)]
      exact ⟨_, rfl⟩

/-- A request for the order with an identifier, however that is percent-encoded. -/
structure AsksFor (r : Request) (text : String) : Prop where
  get : r.method = "GET"
  path : ∃ segment, IsSegment segment ∧ r.path = orderPath segment ∧ Percent.decode segment = Text.bytes text

theorem asksFor_encoded (text : String) (headers : List (String × List UInt8)) :
    AsksFor ⟨"GET", orderPath (Percent.encode (Text.bytes text)), headers⟩ text :=
  ⟨rfl, _, isSegment_encode _, rfl, Percent.decode_encode _⟩

theorem AsksFor.named {r : Request} {text : String} (h : AsksFor r text) (hblank : Text.isBlank text = false) :
    ∃ segment, Resource.of? r.resourcePath = some (.order segment) ∧
      Text.text? (Percent.decode segment) = some text := by
  obtain ⟨segment, hsegment, hpath, hdecode⟩ := h.path
  have htext := Text.text?_bytes text
  have hne : segment ≠ [] := by
    rintro rfl
    rw [← hdecode] at htext
    cases htext
    cases hblank
  exact ⟨segment, resource_orderPath hsegment hne hpath, hdecode ▸ htext⟩

theorem answer_trimmed {limits : Limits} (store : Store.Memory) (bounds : Cache.Bounds) (now : Nat)
    (fresh : String) {r : Request} {text : String} (hlimit : 0 < limits.request.nanos) (hr : AsksFor r text)
    (hblank : Text.isBlank text = false) (hshort : (Text.trim text).utf8ByteSize ≤ maxOrderIdBytes)
    (hplain : (Text.trim text).toList.any Text.isControl = false) :
    Answered store ⟨bounds, {}⟩ now ⟨Text.trim text⟩ (answer limits (.ofMemory store) ⟨bounds, {}⟩ now fresh r) := by
  obtain ⟨segment, hnamed, htext⟩ := hr.named hblank
  let q : Query := ⟨r, segment, text, _, hr.get, hnamed, htext, readOrderId_trimmed hblank hshort hplain⟩
  exact answer_query hlimit q

section

variable {σ : Type} {out : Delivery.Outside σ} {p : Delivery.Pipeline} {tracked : Delivery.Attempts}
  {msg : Delivery.Message} {store : Store.Memory} {w : σ} {o : Order} {limits : Limits} {bounds : Cache.Bounds}
  {now : Nat} {fresh : String} {r : Request}

theorem stored_held (hdecode : Order.decode msg.payload = .ok o)
    (hstored : (out.handle p tracked msg store w).1 = .stored) :
    Text.isBlank o.uid.text = false ∧ (out.handle p tracked msg store w).2.1.online = true ∧
      ∀ uid, (out.handle p tracked msg store w).2.1.orders.find? uid =
        if uid = o.uid then some o else store.orders.find? uid := by
  obtain ⟨honline, o', haccepted, hstore⟩ := Delivery.Outside.stored_accepted hstored
  obtain ⟨hdecode', hvalid⟩ := Verdict.accepted_of haccepted
  obtain rfl : o' = o := by
    rw [hdecode'] at hdecode
    exact Except.ok.inj hdecode
  rw [hstore, Store.Memory.save, if_pos honline]
  exact ⟨uid_not_blank hvalid, honline, fun uid => Keyed.find?_put _ _ _ _⟩

theorem readable_order_served (hdecode : Order.decode msg.payload = .ok o)
    (hstored : (out.handle p tracked msg store w).1 = .stored) (hlimit : 0 < limits.request.nanos)
    (hr : AsksFor r o.uid.text) (hreadable : Readable o.uid.text) :
    (answer limits (.ofMemory (out.handle p tracked msg store w).2.1) ⟨bounds, {}⟩ now fresh r).response.Gives
      o .db := by
  obtain ⟨hblank, honline, hheld⟩ := stored_held hdecode hstored
  obtain ⟨htrim, hshort, hplain⟩ := hreadable
  have hanswered := answer_trimmed (out.handle p tracked msg store w).2.1 bounds now fresh hlimit hr hblank
    (htrim.symm ▸ hshort) (htrim.symm ▸ hplain)
  have hself := hheld o.uid
  rw [htrim] at hanswered
  rw [if_pos rfl] at hself
  cases hanswered with
  | hit get => cases get
  | found _ _ held response =>
    rw [hself] at held
    cases held
    exact response
  | absent _ _ held => rw [hself] at held; cases held
  | down _ offline => rw [honline] at offline; cases offline

theorem malformed_order_refused (hdecode : Order.decode msg.payload = .ok o)
    (hstored : (out.handle p tracked msg store w).1 = .stored) (hlimit : 0 < limits.request.nanos)
    (hr : AsksFor r o.uid.text) (hmalformed : maxOrderIdBytes < (Text.trim o.uid.text).utf8ByteSize ∨
      (Text.trim o.uid.text).toList.any Text.isControl = true) :
    (answer limits (.ofMemory (out.handle p tracked msg store w).2.1) ⟨bounds, {}⟩ now fresh r).response.Fails
      400 := by
  obtain ⟨hblank, -, -⟩ := stored_held hdecode hstored
  obtain ⟨segment, hnamed, htext⟩ := hr.named hblank
  obtain ⟨e, hread⟩ := readOrderId_malformed hmalformed
  exact answer_malformed hlimit hr.get hnamed htext hread

theorem untrimmed_order_missed (hdecode : Order.decode msg.payload = .ok o)
    (hstored : (out.handle p tracked msg store w).1 = .stored) (hlimit : 0 < limits.request.nanos)
    (hr : AsksFor r o.uid.text) (htrim : Text.trim o.uid.text ≠ o.uid.text)
    (hshort : (Text.trim o.uid.text).utf8ByteSize ≤ maxOrderIdBytes)
    (hplain : (Text.trim o.uid.text).toList.any Text.isControl = false)
    (habsent : store.orders.find? ⟨Text.trim o.uid.text⟩ = none) :
    (answer limits (.ofMemory (out.handle p tracked msg store w).2.1) ⟨bounds, {}⟩ now fresh r).response.Fails
      404 := by
  obtain ⟨hblank, honline, hheld⟩ := stored_held hdecode hstored
  have hanswered := answer_trimmed (out.handle p tracked msg store w).2.1 bounds now fresh hlimit hr hblank hshort
    hplain
  have hne : (⟨Text.trim o.uid.text⟩ : OrderUid) ≠ o.uid := fun h => htrim (congrArg Ident.text h)
  have hother := hheld ⟨Text.trim o.uid.text⟩
  rw [if_neg hne, habsent] at hother
  cases hanswered with
  | hit get => cases get
  | found _ _ held => rw [hother] at held; cases held
  | absent _ _ _ response => exact response
  | down _ offline => rw [honline] at offline; cases offline

end

/-- A stored order is served from the store at its path if its identifier is as paths read it. An identifier that
is too long or has control characters is refused, and one with white space around it is looked up without that. -/
theorem stored_order_answered {σ : Type} (out : Delivery.Outside σ) (p : Delivery.Pipeline)
    (tracked : Delivery.Attempts) (msg : Delivery.Message) (store : Store.Memory) (w : σ) {o : Order}
    (hdecode : Order.decode msg.payload = .ok o) (hstored : (out.handle p tracked msg store w).1 = .stored)
    (limits : Limits) (hlimit : 0 < limits.request.nanos) (bounds : Cache.Bounds) (now : Nat) (fresh : String)
    {r : Request} (hr : AsksFor r o.uid.text) :
    let response :=
      (answer limits (.ofMemory (out.handle p tracked msg store w).2.1) ⟨bounds, {}⟩ now fresh r).response
    (Readable o.uid.text → response.Gives o .db ∧ Order.decode (Text.bytes response.body) = .ok o) ∧
    (maxOrderIdBytes < (Text.trim o.uid.text).utf8ByteSize ∨
        (Text.trim o.uid.text).toList.any Text.isControl = true → response.Fails 400) ∧
    (Text.trim o.uid.text ≠ o.uid.text → (Text.trim o.uid.text).utf8ByteSize ≤ maxOrderIdBytes →
      (Text.trim o.uid.text).toList.any Text.isControl = false →
        store.orders.find? ⟨Text.trim o.uid.text⟩ = none → response.Fails 404) := by
  intro response
  refine ⟨?_, ?_, ?_⟩
  · intro hreadable
    have hgives : response.Gives o .db := readable_order_served hdecode hstored hlimit hr hreadable
    refine ⟨hgives, ?_⟩
    rw [hgives.body]
    exact decode_compact (decode_writable hdecode)
  · exact malformed_order_refused hdecode hstored hlimit hr
  · exact untrimmed_order_missed hdecode hstored hlimit hr

def request (uid : String) : Request :=
  ⟨"GET", orderPath (Percent.encode (Text.bytes uid)), []⟩

theorem sample_order_served :
    (Order.decode (sampleMessage "a").payload = .ok (sampleOrder "a") ∧
      (quiet.handle {} .empty (sampleMessage "a") {} ()).1 = .stored ∧ 0 < wholeSecond.request.nanos ∧
      AsksFor (request "a") "a" ∧ Readable "a") ∧
    (answer wholeSecond (.ofMemory (quiet.handle {} .empty (sampleMessage "a") {} ()).2.1) ⟨⟨1, .ofSeconds 1⟩, {}⟩ 0 ""
      (request "a")).response.Gives (sampleOrder "a") .db := by
  have hvalid : (sampleOrder "a").violations ⟨1700000000, 0⟩ = [] := by
    decide +kernel
  have hlimit : 0 < wholeSecond.request.nanos := by
    decide
  have hreadable : Readable "a" := by
    constructor <;> decide
  have hanswered := stored_order_answered quiet {} .empty (sampleMessage "a") {} () (sample_decoded "a")
    (sample_stored hvalid) wholeSecond hlimit ⟨1, .ofSeconds 1⟩ 0 "" (asksFor_encoded "a" [])
  exact ⟨⟨sample_decoded "a", sample_stored hvalid, hlimit, asksFor_encoded "a" [], hreadable⟩,
    (hanswered.1 hreadable).1⟩

/-- A valid order whose identifier starts with a space is stored, and its own path does not find it. -/
theorem order_of_untrimmed_uid_missed :
    Order.decode (sampleMessage " a").payload = .ok (sampleOrder " a") ∧
    (sampleOrder " a").violations ⟨1700000000, 0⟩ = [] ∧
    (quiet.handle {} .empty (sampleMessage " a") {} ()).1 = .stored ∧
    (answer wholeSecond (.ofMemory (quiet.handle {} .empty (sampleMessage " a") {} ()).2.1) ⟨⟨1, .ofSeconds 1⟩, {}⟩ 0 ""
      (request " a")).response.status = 404 := by
  have hvalid : (sampleOrder " a").violations ⟨1700000000, 0⟩ = [] := by
    decide +kernel
  have hlimit : 0 < wholeSecond.request.nanos := by
    decide
  refine ⟨sample_decoded " a", hvalid, sample_stored hvalid, ?_⟩
  exact (untrimmed_order_missed (sample_decoded " a") (sample_stored hvalid) hlimit (asksFor_encoded " a" [])
    (by decide) (by decide) (by decide) rfl).status

end Web

end OrderDepot
