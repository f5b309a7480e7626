import OrderDepot.Text.Character
import OrderDepot.Time.Instant

/-!
Orders: one delivery, one payment and a list of items each. Amounts, counts and foreign keys are 64-bit
integers. A field that a producer leaves out has the empty text, zero or 1970 as its value.
-/

namespace OrderDepot

inductive Named where
  | order
  | transaction
  deriving DecidableEq, Repr

structure Ident (named : Named) where
  text : String
  deriving DecidableEq, Repr, Inhabited

abbrev OrderUid := Ident .order

abbrev TransactionId := Ident .transaction

def Ident.isBlank {named : Named} (i : Ident named) : Bool :=
  Text.isBlank i.text

def Ident.compare {named : Named} (a b : Ident named) : Ordering :=
  compareOfLessAndEq a.text b.text

structure Delivery where
  name : String := ""
  phone : String := ""
  zip : String := ""
  city : String := ""
  address : String := ""
  region : String := ""
  email : String := ""
  deriving DecidableEq, Repr, Inhabited

structure Payment where
  transaction : TransactionId := ⟨""⟩
  requestId : String := ""
  currency : String := ""
  provider : String := ""
  amount : Int64 := 0
  paidAt : Int64 := 0
  bank : String := ""
  deliveryCost : Int64 := 0
  goodsTotal : Int64 := 0
  customFee : Int64 := 0
  deriving DecidableEq, Repr, Inhabited

structure Item where
  chrtId : Int64 := 0
  trackNumber : String := ""
  price : Int64 := 0
  rid : String := ""
  name : String := ""
  sale : Int64 := 0
  size : String := ""
  totalPrice : Int64 := 0
  nmId : Int64 := 0
  brand : String := ""
  status : Int64 := 0
  deriving DecidableEq, Repr, Inhabited

structure Order where
  uid : OrderUid := ⟨""⟩
  trackNumber : String := ""
  entry : String := ""
  delivery : Delivery := {}
  payment : Payment := {}
  items : List Item := []
  locale : String := ""
  internalSignature : String := ""
  customerId : String := ""
  deliveryService : String := ""
  shardKey : String := ""
  smId : Int64 := 0
  dateCreated : Time.Instant := .epoch
  oofShard : String := ""
  deriving DecidableEq, Repr, Inhabited

def addChecked (a b : Int64) : Option Int64 :=
  let sum := a.toInt + b.toInt
  if Int64.minValue.toInt ≤ sum ∧ sum ≤ Int64.maxValue.toInt then some (Int64.ofInt sum) else none

/-- The sum of the items' total prices, if all partial sums from the left are in range. -/
def itemsTotal (items : List Item) : Option Int64 :=
  items.foldlM (fun sum item => addChecked sum item.totalPrice) 0

def Order.itemsTotal (o : Order) : Option Int64 :=
  OrderDepot.itemsTotal o.items

end OrderDepot
