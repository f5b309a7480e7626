import OrderDepot.Order.Basic

/-!
A valid order with two items, to try things out with.
-/

namespace OrderDepot

def Order.sampleItems (uid : String) : List Item :=
  [{ chrtId := 9934930, trackNumber := "WBILMTESTTRACK", price := 453, rid := uid ++ "-rid-1",
     name := "Mascaras", sale := 30, size := "0", totalPrice := 317, nmId := 2389212,
     brand := "Vivienne Sabo", status := 202 },
   { chrtId := 9934931, trackNumber := "WBILMTESTTRACK", price := 1000, rid := uid ++ "-rid-2",
     name := "Lip balm", sale := 10, size := "M", totalPrice := 900, nmId := 2389213,
     brand := "Carmex", status := 202 }]

def Order.sample (uid : String) (now : Time.Instant) : Order where
  uid := ⟨uid⟩
  trackNumber := "WBILMTESTTRACK"
  entry := "WBIL"
  delivery :=
    { name := "Test Testov", phone := "+97200000000", zip := "2639809", city := "Kiryat Mozkin",
      address := "Ploshad Mira 15", region := "Kraiot", email := "test@gmail.com" }
  payment :=
    { transaction := ⟨uid ++ "-tx"⟩, requestId := "", currency := "RUB", provider := "wbpay",
      amount := 2717, paidAt := 1637907727, bank := "alpha", deliveryCost := 1500, goodsTotal := 1217,
      customFee := 0 }
  items := sampleItems uid
  locale := "en"
  internalSignature := ""
  customerId := "test"
  deliveryService := "meest"
  shardKey := "9"
  smId := 99
  dateCreated := ⟨now.seconds - 60, 0⟩
  oofShard := "1"

end OrderDepot
