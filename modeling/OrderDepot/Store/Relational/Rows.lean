import OrderDepot.Order.Basic
import OrderDepot.Store.Relational.Value

/-!
Orders as rows of four tables, and back. Every row names its order. Columns are read in their order, so the
first one without a value is the one that is reported.
-/

namespace OrderDepot.Store.Relational

inductive Table where
  | orders
  | deliveries
  | payments
  | items
  deriving DecidableEq, Repr

namespace Table

def name : Table → String
  | .orders => "orders"
  | .deliveries => "deliveries"
  | .payments => "payments"
  | .items => "items"

def columns : Table → List String
  | .orders =>
    ["order_uid", "track_number", "entry", "locale", "internal_signature", "customer_id", "delivery_service",
     "shardkey", "sm_id", "date_created", "oof_shard"]
  | .deliveries => ["order_uid", "name", "phone", "zip", "city", "address", "region", "email"]
  | .payments =>
    ["transaction", "order_uid", "request_id", "currency", "provider", "amount", "payment_dt", "bank",
     "delivery_cost", "goods_total", "custom_fee"]
  | .items =>
    ["order_uid", "chrt_id", "track_number", "price", "rid", "name", "sale", "size", "total_price", "nm_id",
     "brand", "status"]

def columnsBut (t : Table) (column : String) : List String :=
  t.columns.filter (· ≠ column)

def key? : Table → Option String
  | .orders | .deliveries => some "order_uid"
  | .payments => some "transaction"
  | .items => none

end Table

def uidColumn : String := "order_uid"

def integerOf (n : Int64) : Value := .integer n.toInt

def orderRow (o : Order) : Row :=
  Table.orders.columns.zip
    [.text o.uid.text, .text o.trackNumber, .text o.entry, .text o.locale, .text o.internalSignature,
     .text o.customerId, .text o.deliveryService, .text o.shardKey, integerOf o.smId,
     .integer (microsOf o.dateCreated), .text o.oofShard]

def deliveryRow (uid : OrderUid) (d : Delivery) : Row :=
  Table.deliveries.columns.zip
    [.text uid.text, .text d.name, .text d.phone, .text d.zip, .text d.city, .text d.address,
     .text d.region, .text d.email]

def paymentRow (uid : OrderUid) (p : Payment) : Row :=
  Table.payments.columns.zip
    [.text p.transaction.text, .text uid.text, .text p.requestId, .text p.currency, .text p.provider,
     integerOf p.amount, integerOf p.paidAt, .text p.bank, integerOf p.deliveryCost, integerOf p.goodsTotal,
     integerOf p.customFee]

def itemRow (uid : OrderUid) (i : Item) : Row :=
  Table.items.columns.zip
    [.text uid.text, integerOf i.chrtId, .text i.trackNumber, integerOf i.price, .text i.rid, .text i.name,
     integerOf i.sale, .text i.size, integerOf i.totalPrice, integerOf i.nmId, .text i.brand,
     integerOf i.status]

def Row.int64 (r : Row) (column : String) : Except DatabaseFault Int64 :=
  (r.integer column).map Int64.ofInt

def readOrder (r : Row) : Except DatabaseFault Order := do
  let uid ← r.text "order_uid"
  let trackNumber ← r.text "track_number"
  let entry ← r.text "entry"
  let locale ← r.text "locale"
  let internalSignature ← r.text "internal_signature"
  let customerId ← r.text "customer_id"
  let deliveryService ← r.text "delivery_service"
  let shardKey ← r.text "shardkey"
  let smId ← r.int64 "sm_id"
  let dateCreated ← r.integer "date_created"
  let oofShard ← r.text "oof_shard"
  return {
    uid := ⟨uid⟩, trackNumber, entry, locale, internalSignature, customerId, deliveryService, shardKey, smId
    dateCreated := ofMicros dateCreated, oofShard }

def readDelivery (r : Row) : Except DatabaseFault Delivery := do
  let name ← r.text "name"
  let phone ← r.text "phone"
  let zip ← r.text "zip"
  let city ← r.text "city"
  let address ← r.text "address"
  let region ← r.text "region"
  let email ← r.text "email"
  return { name, phone, zip, city, address, region, email }

def readPayment (r : Row) : Except DatabaseFault Payment := do
  let transaction ← r.text "transaction"
  let requestId ← r.text "request_id"
  let currency ← r.text "currency"
  let provider ← r.text "provider"
  let amount ← r.int64 "amount"
  let paidAt ← r.int64 "payment_dt"
  let bank ← r.text "bank"
  let deliveryCost ← r.int64 "delivery_cost"
  let goodsTotal ← r.int64 "goods_total"
  let customFee ← r.int64 "custom_fee"
  return {
    transaction := ⟨transaction⟩, requestId, currency, provider, amount, paidAt, bank, deliveryCost
    goodsTotal, customFee }

def readItem (r : Row) : Except DatabaseFault Item := do
  let chrtId ← r.int64 "chrt_id"
  let trackNumber ← r.text "track_number"
  let price ← r.int64 "price"
  let rid ← r.text "rid"
  let name ← r.text "name"
  let sale ← r.int64 "sale"
  let size ← r.text "size"
  let totalPrice ← r.int64 "total_price"
  let nmId ← r.int64 "nm_id"
  let brand ← r.text "brand"
  let status ← r.int64 "status"
  return { chrtId, trackNumber, price, rid, name, sale, size, totalPrice, nmId, brand, status }

end OrderDepot.Store.Relational
