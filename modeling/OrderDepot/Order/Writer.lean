import OrderDepot.Json.Value
import OrderDepot.Order.Basic

/-!
Orders as JSON. All fields are written, in the order in which the types declare them.
-/

namespace OrderDepot

open Json (Value)

def Delivery.toJson (d : Delivery) : Value :=
  .object
    [("name", .text d.name), ("phone", .text d.phone), ("zip", .text d.zip), ("city", .text d.city),
     ("address", .text d.address), ("region", .text d.region), ("email", .text d.email)]

def Payment.toJson (p : Payment) : Value :=
  .object
    [("transaction", .text p.transaction.text), ("request_id", .text p.requestId),
     ("currency", .text p.currency), ("provider", .text p.provider), ("amount", .integer p.amount.toInt),
     ("payment_dt", .integer p.paidAt.toInt), ("bank", .text p.bank),
     ("delivery_cost", .integer p.deliveryCost.toInt), ("goods_total", .integer p.goodsTotal.toInt),
     ("custom_fee", .integer p.customFee.toInt)]

def Item.toJson (i : Item) : Value :=
  .object
    [("chrt_id", .integer i.chrtId.toInt), ("track_number", .text i.trackNumber),
     ("price", .integer i.price.toInt), ("rid", .text i.rid), ("name", .text i.name),
     ("sale", .integer i.sale.toInt), ("size", .text i.size), ("total_price", .integer i.totalPrice.toInt),
     ("nm_id", .integer i.nmId.toInt), ("brand", .text i.brand), ("status", .integer i.status.toInt)]

def Order.toJson (o : Order) : Value :=
  .object
    [("order_uid", .text o.uid.text), ("track_number", .text o.trackNumber), ("entry", .text o.entry),
     ("delivery", o.delivery.toJson), ("payment", o.payment.toJson),
     ("items", .list (o.items.map Item.toJson)), ("locale", .text o.locale),
     ("internal_signature", .text o.internalSignature), ("customer_id", .text o.customerId),
     ("delivery_service", .text o.deliveryService), ("shardkey", .text o.shardKey),
     ("sm_id", .integer o.smId.toInt), ("date_created", .text o.dateCreated.text),
     ("oof_shard", .text o.oofShard)]

def Order.encode (o : Order) : String :=
  o.toJson.compact

end OrderDepot
