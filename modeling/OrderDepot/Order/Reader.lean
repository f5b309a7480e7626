import OrderDepot.Json.Reader
import OrderDepot.Order.Basic
import OrderDepot.Time.InstantReader

/-!
Orders from JSON. The documents are closed: a name that is no field's is refused at every level, and so is
anything but white space behind the order. A field that is absent keeps its empty value, and each record may
also be written as the list of its field values.
-/

namespace OrderDepot

open Json (Reader Shape)

def instantReader : Reader Time.Instant :=
  Json.textAs "an RFC 3339 formatted date and time string" fun s =>
    match Time.Instant.read s with
    | .ok t => .ok t
    | .error e => .error (.refused e.message)

def identReader {named : Named} : Reader (Ident named) :=
  Json.text.map Ident.mk

def Delivery.shape : Shape Delivery where
  title := "struct Delivery"
  fields :=
    [.of "name" Json.text fun v d => { d with name := v },
     .of "phone" Json.text fun v d => { d with phone := v },
     .of "zip" Json.text fun v d => { d with zip := v },
     .of "city" Json.text fun v d => { d with city := v },
     .of "address" Json.text fun v d => { d with address := v },
     .of "region" Json.text fun v d => { d with region := v },
     .of "email" Json.text fun v d => { d with email := v }]
  start := {}
  closed := true
  full := false

def Payment.shape : Shape Payment where
  title := "struct Payment"
  fields :=
    [.of "transaction" identReader fun v p => { p with transaction := v },
     .of "request_id" Json.text fun v p => { p with requestId := v },
     .of "currency" Json.text fun v p => { p with currency := v },
     .of "provider" Json.text fun v p => { p with provider := v },
     .of "amount" Json.int64 fun v p => { p with amount := v },
     .of "payment_dt" Json.int64 fun v p => { p with paidAt := v },
     .of "bank" Json.text fun v p => { p with bank := v },
     .of "delivery_cost" Json.int64 fun v p => { p with deliveryCost := v },
     .of "goods_total" Json.int64 fun v p => { p with goodsTotal := v },
     .of "custom_fee" Json.int64 fun v p => { p with customFee := v }]
  start := {}
  closed := true
  full := false

def Item.shape : Shape Item where
  title := "struct Item"
  fields :=
    [.of "chrt_id" Json.int64 fun v i => { i with chrtId := v },
     .of "track_number" Json.text fun v i => { i with trackNumber := v },
     .of "price" Json.int64 fun v i => { i with price := v },
     .of "rid" Json.text fun v i => { i with rid := v },
     .of "name" Json.text fun v i => { i with name := v },
     .of "sale" Json.int64 fun v i => { i with sale := v },
     .of "size" Json.text fun v i => { i with size := v },
     .of "total_price" Json.int64 fun v i => { i with totalPrice := v },
     .of "nm_id" Json.int64 fun v i => { i with nmId := v },
     .of "brand" Json.text fun v i => { i with brand := v },
     .of "status" Json.int64 fun v i => { i with status := v }]
  start := {}
  closed := true
  full := false

def Order.shape : Shape Order where
  title := "struct Order"
  fields :=
    [.of "order_uid" identReader fun v o => { o with uid := v },
     .of "track_number" Json.text fun v o => { o with trackNumber := v },
     .of "entry" Json.text fun v o => { o with entry := v },
     .of "delivery" (Json.record Delivery.shape) fun v o => { o with delivery := v },
     .of "payment" (Json.record Payment.shape) fun v o => { o with payment := v },
     .of "items" (Json.listOf (Json.record Item.shape)) fun v o => { o with items := v },
     .of "locale" Json.text fun v o => { o with locale := v },
     .of "internal_signature" Json.text fun v o => { o with internalSignature := v },
     .of "customer_id" Json.text fun v o => { o with customerId := v },
     .of "delivery_service" Json.text fun v o => { o with deliveryService := v },
     .of "shardkey" Json.text fun v o => { o with shardKey := v },
     .of "sm_id" Json.int64 fun v o => { o with smId := v },
     .of "date_created" instantReader fun v o => { o with dateCreated := v },
     .of "oof_shard" Json.text fun v o => { o with oofShard := v }]
  start := {}
  closed := true
  full := false

def Order.decode (payload : List UInt8) : Except Json.Error Order :=
  Json.readDocument (Json.record Order.shape) payload

def decodeMessage (e : Json.Error) : String :=
  "decode order: " ++ e.message

end OrderDepot
