import OrderDepot.Order.Reader
import OrderDepot.Proofs.Json.Records
import OrderDepot.Proofs.Json.Unambiguous

/-!
# The documents of orders

A payload is decoded just if it is a document whose tree is that of an order: records of declared fields, texts,
integers of 64 bits and a date that can be read.
-/

namespace OrderDepot

open Json (Tree Document Reordered Insensitive Strange Exact Space Quoted Spelled field? fillAll fillAll_of
  commutes_of exact_text exact_int64 insensitive_text insensitive_int64 insensitive_record space_nil)

def Ident.ofTree? (named : Named) (t : Tree) : Option (Ident named) :=
  t.text?.map Ident.mk

def instantOfTree? (t : Tree) : Option Time.Instant :=
  t.text?.bind fun s => (Time.Instant.read s).toOption

def Delivery.names : List String :=
  ["name", "phone", "zip", "city", "address", "region", "email"]

def Delivery.ofFields? (fs : List (String × Tree)) : Option Delivery := do
  let name ← field? fs "name" Tree.text? ""
  let phone ← field? fs "phone" Tree.text? ""
  let zip ← field? fs "zip" Tree.text? ""
  let city ← field? fs "city" Tree.text? ""
  let address ← field? fs "address" Tree.text? ""
  let region ← field? fs "region" Tree.text? ""
  let email ← field? fs "email" Tree.text? ""
  return { name, phone, zip, city, address, region, email }

def Delivery.ofTree? (t : Tree) : Option Delivery :=
  (t.fields? Delivery.names).bind Delivery.ofFields?

def Payment.names : List String :=
  ["transaction", "request_id", "currency", "provider", "amount", "payment_dt", "bank", "delivery_cost", "goods_total",
    "custom_fee"]

def Payment.ofFields? (fs : List (String × Tree)) : Option Payment := do
  let transaction ← field? fs "transaction" (Ident.ofTree? .transaction) ⟨""⟩
  let requestId ← field? fs "request_id" Tree.text? ""
  let currency ← field? fs "currency" Tree.text? ""
  let provider ← field? fs "provider" Tree.text? ""
  let amount ← field? fs "amount" Tree.int64? 0
  let paidAt ← field? fs "payment_dt" Tree.int64? 0
  let bank ← field? fs "bank" Tree.text? ""
  let deliveryCost ← field? fs "delivery_cost" Tree.int64? 0
  let goodsTotal ← field? fs "goods_total" Tree.int64? 0
  let customFee ← field? fs "custom_fee" Tree.int64? 0
  return { transaction, requestId, currency, provider, amount, paidAt, bank, deliveryCost, goodsTotal, customFee }

def Payment.ofTree? (t : Tree) : Option Payment :=
  (t.fields? Payment.names).bind Payment.ofFields?

def Item.names : List String :=
  ["chrt_id", "track_number", "price", "rid", "name", "sale", "size", "total_price", "nm_id", "brand", "status"]

def Item.ofFields? (fs : List (String × Tree)) : Option Item := do
  let chrtId ← field? fs "chrt_id" Tree.int64? 0
  let trackNumber ← field? fs "track_number" Tree.text? ""
  let price ← field? fs "price" Tree.int64? 0
  let rid ← field? fs "rid" Tree.text? ""
  let name ← field? fs "name" Tree.text? ""
  let sale ← field? fs "sale" Tree.int64? 0
  let size ← field? fs "size" Tree.text? ""
  let totalPrice ← field? fs "total_price" Tree.int64? 0
  let nmId ← field? fs "nm_id" Tree.int64? 0
  let brand ← field? fs "brand" Tree.text? ""
  let status ← field? fs "status" Tree.int64? 0
  return { chrtId, trackNumber, price, rid, name, sale, size, totalPrice, nmId, brand, status }

def Item.ofTree? (t : Tree) : Option Item :=
  (t.fields? Item.names).bind Item.ofFields?

def Order.names : List String :=
  ["order_uid", "track_number", "entry", "delivery", "payment", "items", "locale", "internal_signature", "customer_id",
    "delivery_service", "shardkey", "sm_id", "date_created", "oof_shard"]

def Order.ofFields? (fs : List (String × Tree)) : Option Order := do
  let uid ← field? fs "order_uid" (Ident.ofTree? .order) ⟨""⟩
  let trackNumber ← field? fs "track_number" Tree.text? ""
  let entry ← field? fs "entry" Tree.text? ""
  let delivery ← field? fs "delivery" Delivery.ofTree? {}
  let payment ← field? fs "payment" Payment.ofTree? {}
  let items ← field? fs "items" (Tree.list? Item.ofTree?) []
  let locale ← field? fs "locale" Tree.text? ""
  let internalSignature ← field? fs "internal_signature" Tree.text? ""
  let customerId ← field? fs "customer_id" Tree.text? ""
  let deliveryService ← field? fs "delivery_service" Tree.text? ""
  let shardKey ← field? fs "shardkey" Tree.text? ""
  let smId ← field? fs "sm_id" Tree.int64? 0
  let dateCreated ← field? fs "date_created" instantOfTree? .epoch
  let oofShard ← field? fs "oof_shard" Tree.text? ""
  return { uid, trackNumber, entry, delivery, payment, items, locale, internalSignature, customerId, deliveryService,
           shardKey, smId, dateCreated, oofShard }

def Order.ofTree? (t : Tree) : Option Order :=
  (t.fields? Order.names).bind Order.ofFields?

theorem exact_ident (named : Named) : Exact identReader (Ident.ofTree? named) :=
  exact_text.map Ident.mk

theorem exact_instant : Exact instantReader instantOfTree? := by
  have h : Exact instantReader _ := Json.exact_textAs _ _
  refine h.congr fun t => congrArg _ (funext fun s => ?_)
  cases Time.Instant.read s <;> rfl

theorem exact_delivery : Exact (Json.record Delivery.shape) Delivery.ofTree? := by
  have hfields : List.Forall₂ Json.Field.Matches Delivery.shape.fields _ :=
    .cons (exact_text.column _ _) <| .cons (exact_text.column _ _) <| .cons (exact_text.column _ _) <|
    .cons (exact_text.column _ _) <| .cons (exact_text.column _ _) <| .cons (exact_text.column _ _) <|
    .cons (exact_text.column _ _) .nil
  refine Exact.record rfl rfl (by decide) hfields ?_ fun fs => ?_
  · simp only [List.pairwise_cons, List.forall_mem_cons, List.not_mem_nil, false_imp_iff, implies_true,
      List.Pairwise.nil, and_true]
    and_intros <;> exact commutes_of fun _ _ _ => rfl
  · exact fillAll_of rfl fun _ => fillAll_of rfl fun _ => fillAll_of rfl fun _ => fillAll_of rfl fun _ =>
      fillAll_of rfl fun _ => fillAll_of rfl fun _ => fillAll_of rfl fun _ => rfl

theorem exact_payment : Exact (Json.record Payment.shape) Payment.ofTree? := by
  have hfields : List.Forall₂ Json.Field.Matches Payment.shape.fields _ :=
    .cons ((exact_ident _).column _ _) <| .cons (exact_text.column _ _) <| .cons (exact_text.column _ _) <|
    .cons (exact_text.column _ _) <| .cons (exact_int64.column _ _) <| .cons (exact_int64.column _ _) <|
    .cons (exact_text.column _ _) <| .cons (exact_int64.column _ _) <| .cons (exact_int64.column _ _) <|
    .cons (exact_int64.column _ _) .nil
  refine Exact.record rfl rfl (by decide) hfields ?_ fun fs => ?_
  · simp only [List.pairwise_cons, List.forall_mem_cons, List.not_mem_nil, false_imp_iff, implies_true,
      List.Pairwise.nil, and_true]
    and_intros <;> exact commutes_of fun _ _ _ => rfl
  · exact fillAll_of rfl fun _ => fillAll_of rfl fun _ => fillAll_of rfl fun _ => fillAll_of rfl fun _ =>
      fillAll_of rfl fun _ => fillAll_of rfl fun _ => fillAll_of rfl fun _ => fillAll_of rfl fun _ =>
      fillAll_of rfl fun _ => fillAll_of rfl fun _ => rfl

theorem exact_item : Exact (Json.record Item.shape) Item.ofTree? := by
  have hfields : List.Forall₂ Json.Field.Matches Item.shape.fields _ :=
    .cons (exact_int64.column _ _) <| .cons (exact_text.column _ _) <| .cons (exact_int64.column _ _) <|
    .cons (exact_text.column _ _) <| .cons (exact_text.column _ _) <| .cons (exact_int64.column _ _) <|
    .cons (exact_text.column _ _) <| .cons (exact_int64.column _ _) <| .cons (exact_int64.column _ _) <|
    .cons (exact_text.column _ _) <| .cons (exact_int64.column _ _) .nil
  refine Exact.record rfl rfl (by decide) hfields ?_ fun fs => ?_
  · simp only [List.pairwise_cons, List.forall_mem_cons, List.not_mem_nil, false_imp_iff, implies_true,
      List.Pairwise.nil, and_true]
    and_intros <;> exact commutes_of fun _ _ _ => rfl
  · exact fillAll_of rfl fun _ => fillAll_of rfl fun _ => fillAll_of rfl fun _ => fillAll_of rfl fun _ =>
      fillAll_of rfl fun _ => fillAll_of rfl fun _ => fillAll_of rfl fun _ => fillAll_of rfl fun _ =>
      fillAll_of rfl fun _ => fillAll_of rfl fun _ => fillAll_of rfl fun _ => rfl

theorem exact_order : Exact (Json.record Order.shape) Order.ofTree? := by
  have hfields : List.Forall₂ Json.Field.Matches Order.shape.fields _ :=
    .cons ((exact_ident _).column _ _) <| .cons (exact_text.column _ _) <| .cons (exact_text.column _ _) <|
    .cons (exact_delivery.column _ _) <| .cons (exact_payment.column _ _) <|
    .cons (exact_item.listOf.column _ _) <| .cons (exact_text.column _ _) <| .cons (exact_text.column _ _) <|
    .cons (exact_text.column _ _) <| .cons (exact_text.column _ _) <| .cons (exact_text.column _ _) <|
    .cons (exact_int64.column _ _) <| .cons (exact_instant.column _ _) <| .cons (exact_text.column _ _) .nil
  refine Exact.record rfl rfl (by decide) hfields ?_ fun fs => ?_
  · simp only [List.pairwise_cons, List.forall_mem_cons, List.not_mem_nil, false_imp_iff, implies_true,
      List.Pairwise.nil, and_true]
    and_intros <;> exact commutes_of fun _ _ _ => rfl
  · exact fillAll_of rfl fun _ => fillAll_of rfl fun _ => fillAll_of rfl fun _ => fillAll_of rfl fun _ =>
      fillAll_of rfl fun _ => fillAll_of rfl fun _ => fillAll_of rfl fun _ => fillAll_of rfl fun _ =>
      fillAll_of rfl fun _ => fillAll_of rfl fun _ => fillAll_of rfl fun _ => fillAll_of rfl fun _ =>
      fillAll_of rfl fun _ => fillAll_of rfl fun _ => rfl

theorem insensitive_ident (named : Named) : Insensitive (Ident.ofTree? named) := by
  intro t u h
  rw [Ident.ofTree?, Ident.ofTree?, insensitive_text h]

theorem insensitive_instant : Insensitive instantOfTree? := by
  intro t u h
  rw [instantOfTree?, instantOfTree?, insensitive_text h]

theorem insensitive_delivery : Insensitive Delivery.ofTree? :=
  insensitive_record (fun _ _ h => by simp only [Delivery.ofFields?, insensitive_text.field h]) Delivery.names

theorem insensitive_payment : Insensitive Payment.ofTree? :=
  insensitive_record (fun _ _ h => by
    simp only [Payment.ofFields?, (insensitive_ident _).field h, insensitive_text.field h, insensitive_int64.field h])
    Payment.names

theorem insensitive_item : Insensitive Item.ofTree? :=
  insensitive_record (fun _ _ h => by
    simp only [Item.ofFields?, insensitive_text.field h, insensitive_int64.field h]) Item.names

theorem insensitive_order : Insensitive Order.ofTree? :=
  insensitive_record (fun _ _ h => by
    simp only [Order.ofFields?, (insensitive_ident _).field h, insensitive_text.field h, insensitive_int64.field h,
      insensitive_delivery.field h, insensitive_payment.field h, insensitive_item.list.field h,
      insensitive_instant.field h]) Order.names

inductive Order.Level (t : Tree) : List String → Tree → Prop where
  | order : Order.Level t Order.names t
  | delivery {fs : List (String × Tree)} {u : Tree} (fields : t.fields? Order.names = some fs)
      (value : fs.lookup "delivery" = some u) : Order.Level t Delivery.names u
  | payment {fs : List (String × Tree)} {u : Tree} (fields : t.fields? Order.names = some fs)
      (value : fs.lookup "payment" = some u) : Order.Level t Payment.names u
  | item {fs : List (String × Tree)} {us : List Tree} {u : Tree} (fields : t.fields? Order.names = some fs)
      (value : fs.lookup "items" = some (.array us)) (listed : u ∈ us) : Order.Level t Item.names u

theorem Order.ofFields?_inner {fs : List (String × Tree)} {o : Order} (h : Order.ofFields? fs = some o) :
    field? fs "delivery" Delivery.ofTree? {} = some o.delivery ∧
      field? fs "payment" Payment.ofTree? {} = some o.payment ∧
      field? fs "items" (Tree.list? Item.ofTree?) [] = some o.items := by
  obtain ⟨_, -, h⟩ := Option.bind_eq_some_iff.1 h
  obtain ⟨_, -, h⟩ := Option.bind_eq_some_iff.1 h
  obtain ⟨_, -, h⟩ := Option.bind_eq_some_iff.1 h
  obtain ⟨delivery, hdelivery, h⟩ := Option.bind_eq_some_iff.1 h
  obtain ⟨payment, hpayment, h⟩ := Option.bind_eq_some_iff.1 h
  obtain ⟨items, hitems, h⟩ := Option.bind_eq_some_iff.1 h
  obtain ⟨_, -, h⟩ := Option.bind_eq_some_iff.1 h
  obtain ⟨_, -, h⟩ := Option.bind_eq_some_iff.1 h
  obtain ⟨_, -, h⟩ := Option.bind_eq_some_iff.1 h
  obtain ⟨_, -, h⟩ := Option.bind_eq_some_iff.1 h
  obtain ⟨_, -, h⟩ := Option.bind_eq_some_iff.1 h
  obtain ⟨_, -, h⟩ := Option.bind_eq_some_iff.1 h
  obtain ⟨_, -, h⟩ := Option.bind_eq_some_iff.1 h
  obtain ⟨_, -, h⟩ := Option.bind_eq_some_iff.1 h
  cases h
  exact ⟨hdelivery, hpayment, hitems⟩

theorem Order.Level.fields_given {t u : Tree} {names : List String} (h : Order.Level t names u) {o : Order}
    (ho : Order.ofTree? t = some o) : ∃ fs, u.fields? names = some fs := by
  obtain ⟨fs, hfs, hbuild⟩ := Option.bind_eq_some_iff.1 ho
  obtain ⟨hdelivery, hpayment, hitems⟩ := Order.ofFields?_inner hbuild
  have hgiven : ∀ {α : Type} {names : List String} {build : List (String × Tree) → Option α} {u : Tree} {a : α},
      (u.fields? names).bind build = some a → ∃ fs, u.fields? names = some fs := fun h =>
    (Option.bind_eq_some_iff.1 h).imp fun _ hfs => hfs.1
  cases h with
  | order => exact ⟨fs, hfs⟩
  | delivery fields value =>
    cases hfs.symm.trans fields
    rw [Json.field?_given value] at hdelivery
    exact hgiven hdelivery
  | payment fields value =>
    cases hfs.symm.trans fields
    rw [Json.field?_given value] at hpayment
    exact hgiven hpayment
  | item fields value listed =>
    cases hfs.symm.trans fields
    rw [Json.field?_given value] at hitems
    obtain ⟨i, hi⟩ := Json.meaning_of_mem hitems listed
    exact hgiven hi

/-- A payload is decoded just if it is a document whose tree is that of an order, and then as that order. So neither
white space nor the order of members matters, and no name may be unknown or given twice, at any level. -/
theorem Order.decode_exact :
    (∀ payload o, Order.decode payload = .ok o ↔ ∃ t, Document payload t ∧ Order.ofTree? t = some o) ∧
      (∀ payload payload' t t', Document payload t → Document payload' t' → Reordered t t' →
        ∀ o, Order.decode payload = .ok o ↔ Order.decode payload' = .ok o) ∧
      ∀ payload t names u, Document payload t → Order.Level t names u → Strange names u →
        ∀ o, Order.decode payload ≠ .ok o := by
  have hexact := fun payload o => exact_order.readDocument payload o
  have htree : ∀ {payload t}, Document payload t → ∀ o, Order.decode payload = .ok o ↔ Order.ofTree? t = some o := by
    intro payload t ht o
    refine (hexact payload o).trans ⟨?_, fun ho => ⟨t, ht, ho⟩⟩
    rintro ⟨t', ht', ho⟩
    exact ht.unique ht' ▸ ho
  refine ⟨hexact, fun payload payload' t t' ht ht' hsame o => ?_, fun payload t names u ht hlevel hstrange o ho => ?_⟩
  · rw [htree ht, htree ht', insensitive_order hsame]
  · obtain ⟨fs, hfs⟩ := hlevel.fields_given ((htree ht o).1 ho)
    rw [hstrange.no_fields] at hfs
    cases hfs

theorem small_order_reordered :
    (∀ o, Order.decode (Text.bytes "\x7b\"entry\":\"a\",\"sm_id\":7\x7d") = .ok o ↔
      Order.decode (Text.bytes " \x7b\"sm_id\":7,\"entry\":\"a\"\x7d\n") = .ok o) ∧
      ∀ o, Order.decode (Text.bytes "\x7b\"sm_id\":7,\"sm_id\":7\x7d") ≠ .ok o := by
  have hentry : Quoted (some "entry") "\"entry\"".toList := @Json.quoted_plain ['e', 'n', 't', 'r', 'y'] (by simp)
  have hid : Quoted (some "sm_id") "\"sm_id\"".toList := @Json.quoted_plain ['s', 'm', '_', 'i', 'd'] (by simp)
  have ha : Quoted (some "a") "\"a\"".toList := @Json.quoted_plain ['a'] (by simp)
  have hseven : Spelled (.number false ['7'] [] []) "7".toList :=
    .number false ⟨⟨by simp, by simp⟩, by simp⟩ (.inl rfl) (.inl rfl)
  have hblank : Space " ".toList ∧ Space "\n".toList := by simp [Space]
  have hfirst : Document (Text.bytes "\x7b\"entry\":\"a\",\"sm_id\":7\x7d") _ :=
    ⟨_, [], _, [], rfl, rfl, space_nil, Json.spelled_pair hentry (.string ha) hid hseven, space_nil⟩
  have hsecond : Document (Text.bytes " \x7b\"sm_id\":7,\"entry\":\"a\"\x7d\n") _ :=
    ⟨_, _, _, _, rfl, rfl, hblank.1, Json.spelled_pair hid hseven hentry (.string ha), hblank.2⟩
  have htwice : Document (Text.bytes "\x7b\"sm_id\":7,\"sm_id\":7\x7d") _ :=
    ⟨_, [], _, [], rfl, rfl, space_nil, Json.spelled_pair hid hseven hid hseven, space_nil⟩
  refine ⟨Order.decode_exact.2.1 _ _ _ _ hfirst hsecond (.members (.swap ..)), ?_⟩
  exact Order.decode_exact.2.2 _ _ _ _ htwice .order ⟨_, rfl, .inr (by simp)⟩

end OrderDepot
