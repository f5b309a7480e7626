import OrderDepot.Cache.Basic
import OrderDepot.Order.Writer
import OrderDepot.Web.Response

/-!
Looking up an order, in two steps with the store's answer between them. The first step reads the identifier,
white space around which is ignored, and asks the cache; it ends the lookup if the order is there or the
identifier is none. The second takes the store's answer and writes an order that was found to the cache.
Nothing else is cached.
-/

namespace OrderDepot.Web

def maxOrderIdBytes : Nat := 128

inductive OrderIdError where
  | blank
  | tooLong
  | controlCharacter
  deriving DecidableEq, Repr

def OrderIdError.message : OrderIdError → String
  | .blank => "order id must not be blank"
  | .tooLong => s!"order id must be at most {maxOrderIdBytes} bytes"
  | .controlCharacter => "order id must not contain control characters"

def readOrderId (s : String) : Except OrderIdError OrderUid :=
  let trimmed := Text.trim s
  if trimmed.isEmpty then .error .blank
  else if maxOrderIdBytes < trimmed.utf8ByteSize then .error .tooLong
  else if trimmed.toList.any Text.isControl then .error .controlCharacter
  else .ok ⟨trimmed⟩

abbrev OrderCache := Cache OrderUid Order

inductive Source where
  | cache
  | db
  | miss
  deriving DecidableEq, Repr

def Source.name : Source → String
  | .cache => "cache"
  | .db => "db"
  | .miss => "miss"

def sourceHeader : String := "x-source"

abbrev Found := Except RequestError (Order × Source)

def Found.response (r : Found) : Response :=
  match r with
  | .ok (o, source) => (Response.json 200 o.toJson).withHeader sourceHeader source.name
  | .error e => e.response.withHeader sourceHeader Source.miss.name

inductive StoreAnswer where
  | order (o : Order)
  | failed (cause : Store.Failure)
  | late
  deriving DecidableEq, Repr

inductive Lookup where
  | settled (result : Found)
  | asking (uid : OrderUid)

namespace Lookup

def start (cache : OrderCache) (now : Nat) (text : String) : Lookup × OrderCache :=
  match readOrderId text with
  | .error e => (.settled (.error (.badRequest e.message)), cache)
  | .ok uid =>
    match cache.get now uid with
    | (some o, cache) => (.settled (.ok (o, .cache)), cache)
    | (none, cache) => (.asking uid, cache)

def finish (cache : OrderCache) (now : Nat) (uid : OrderUid) : StoreAnswer → Found × OrderCache
  | .order o => (.ok (o, .db), cache.set now uid o)
  | .failed .notFound => (.error (.notFound "order"), cache)
  | .failed cause => (.error (.database cause), cache)
  | .late => (.error .timeout, cache)

end Lookup

end OrderDepot.Web
