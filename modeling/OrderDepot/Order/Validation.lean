import OrderDepot.Order.Email
import OrderDepot.Order.Reader
import OrderDepot.Order.Violation

/-!
The rules that an order has to keep before it is stored. Every rule is checked, so the report names all that
are broken; only the total of the goods is not judged where there are no items. An order is valid when the
report is empty. The verdict on a payload is that it is no order, or an order that breaks rules, or an order
that may be stored.
-/

namespace OrderDepot

inductive Breach where
  | blank
  | noTimestamp
  | inFuture
  | badEmail
  | badPhone
  | noItems
  | notPositive
  | negative
  | duplicateRid
  | goodsTotal
  | badCurrency
  | unsupportedCurrency
  | badPaymentTime
  | amount
  deriving DecidableEq, Repr

def allowedCurrencies : List String :=
  ["RUB", "KZT", "BYN", "KGS", "AMD", "TRY", "UZS", "AZN", "GEL"]

def latestPayment : Int64 := 4102444800

def clockTolerance : Nat := 300

def Breach.kind : Breach → ViolationKind
  | .blank | .noTimestamp | .noItems => .required
  | .badEmail | .badPhone | .badCurrency | .unsupportedCurrency => .format
  | .inFuture | .notPositive | .negative | .badPaymentTime => .outOfRange
  | .duplicateRid | .goodsTotal | .amount => .inconsistent

def Breach.message : Breach → String
  | .blank => "must not be empty"
  | .noTimestamp => "missing timestamp"
  | .inFuture => "timestamp in the future"
  | .badEmail => "invalid email"
  | .badPhone => "expected + followed by 11 digits"
  | .noItems => "at least one item"
  | .notPositive => "must be > 0"
  | .negative => "negative"
  | .duplicateRid => "duplicate rid"
  | .goodsTotal => "!= sum(items.total_price)"
  | .badCurrency => "expect 3-letter ISO code"
  | .unsupportedCurrency => "unsupported currency; allowed: " ++ String.intercalate "," allowedCurrencies
  | .badPaymentTime => "invalid unix seconds"
  | .amount => "amount != goods_total + delivery_cost + custom_fee"

def breachIf (broken : Bool) (path : String) (b : Breach) : Report :=
  if broken then [⟨path, b.kind, b.message⟩] else []

def requireText (path value : String) : Report :=
  breachIf (Text.isBlank value) path .blank

def requireNonNegative (path : String) (value : Int64) : Report :=
  breachIf (value < 0) path .negative

def checkDate (created now : Time.Instant) : Report :=
  if created.seconds ≤ 0 then breachIf true "date_created" .noTimestamp
  else breachIf ((now.later clockTolerance).before created) "date_created" .inFuture

def checkHeader (o : Order) (now : Time.Instant) : Report :=
  requireText "order_uid" o.uid.text ++ requireText "track_number" o.trackNumber ++
    requireText "entry" o.entry ++ requireText "customer_id" o.customerId ++
    requireText "delivery_service" o.deliveryService ++ requireText "locale" o.locale ++
    requireText "shardkey" o.shardKey ++ requireText "oof_shard" o.oofShard ++ checkDate o.dateCreated now

def isPhone (s : String) : Bool :=
  match s.toList with
  | '+' :: ds => ds.length == 11 && ds.all fun c => '0' ≤ c && c ≤ '9'
  | _ => false

def isEmail (s : String) : Bool :=
  match Email.parse s with
  | .ok _ => true
  | .error _ => false

def checkDelivery (d : Delivery) : Report :=
  requireText "delivery.name" d.name ++ requireText "delivery.phone" d.phone ++
    requireText "delivery.city" d.city ++ requireText "delivery.address" d.address ++
    requireText "delivery.region" d.region ++
    breachIf (!d.email.isEmpty && !isEmail d.email) "delivery.email" .badEmail ++
    breachIf (!d.phone.isEmpty && !isPhone d.phone) "delivery.phone" .badPhone

def itemPath (index : Nat) (field : String) : String :=
  s!"items[{index}].{field}"

/-- The rules of one item; `earlier` are the non-empty `rid`s of the items in front of it. -/
def checkItem (index : Nat) (earlier : List String) (i : Item) : Report :=
  breachIf (i.chrtId ≤ 0) (itemPath index "chrt_id") .notPositive ++
    requireText (itemPath index "name") i.name ++
    requireNonNegative (itemPath index "price") i.price ++
    requireNonNegative (itemPath index "total_price") i.totalPrice ++
    requireNonNegative (itemPath index "sale") i.sale ++
    requireNonNegative (itemPath index "status") i.status ++
    breachIf (earlier.contains i.rid) (itemPath index "rid") .duplicateRid

def checkItemsFrom (index : Nat) (earlier : List String) : List Item → Report
  | [] => []
  | i :: items =>
    checkItem index earlier i ++
      checkItemsFrom (index + 1) (if i.rid.isEmpty then earlier else i.rid :: earlier) items

def checkItems (o : Order) : Report :=
  if o.items.isEmpty then breachIf true "items" .noItems
  else
    checkItemsFrom 0 [] o.items ++
      breachIf (o.itemsTotal ≠ some o.payment.goodsTotal) "payment.goods_total" .goodsTotal

/-- What is wrong with a currency code, if anything is. Case and surrounding white space do not matter. -/
def currencyBreach? (code : String) : Option Breach :=
  if Text.isBlank code then some .blank
  else
    match Text.asciiUpperText? (Text.trimmed code.toList) with
    | some upper =>
      if upper.length ≠ 3 ∨ !upper.all Text.isAsciiLetter then some .badCurrency
      else if allowedCurrencies.contains (String.ofList upper) then none
      else some .unsupportedCurrency
    | none => some .badCurrency

def checkCurrency (code : String) : Report :=
  match currencyBreach? code with
  | some b => breachIf true "payment.currency" b
  | none => []

def Payment.expectedAmount (p : Payment) : Option Int64 := do
  addChecked (← addChecked p.goodsTotal p.deliveryCost) p.customFee

def checkPayment (p : Payment) : Report :=
  requireText "payment.transaction" p.transaction.text ++ requireText "payment.provider" p.provider ++
    requireNonNegative "payment.amount" p.amount ++
    requireNonNegative "payment.delivery_cost" p.deliveryCost ++
    requireNonNegative "payment.goods_total" p.goodsTotal ++
    requireNonNegative "payment.custom_fee" p.customFee ++ checkCurrency p.currency ++
    breachIf (p.paidAt ≤ 0 || latestPayment < p.paidAt) "payment.payment_dt" .badPaymentTime ++
    breachIf (p.expectedAmount ≠ some p.amount) "payment.amount" .amount

def Order.violations (o : Order) (now : Time.Instant) : Report :=
  checkHeader o now ++ checkDelivery o.delivery ++ checkItems o ++ checkPayment o.payment

def Order.isValid (o : Order) (now : Time.Instant) : Bool :=
  (o.violations now).isEmpty

inductive Verdict where
  | undecodable (error : Json.Error)
  | invalid (order : Order) (report : Report)
  | accepted (order : Order)

def Verdict.of (payload : List UInt8) (now : Time.Instant) : Verdict :=
  match Order.decode payload with
  | .error e => .undecodable e
  | .ok o =>
    match o.violations now with
    | [] => .accepted o
    | v :: vs => .invalid o (v :: vs)

end OrderDepot
