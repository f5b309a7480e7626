import OrderDepot.Keyed
import OrderDepot.Order.Basic
import OrderDepot.Store.Failure

/-!
Orders held in memory, one for each identifier. A store that is switched off refuses every call and forgets
nothing. It counts the saves that succeeded and the reads that it answered, also those that found nothing.
-/

namespace OrderDepot.Store

structure Memory where
  orders : Keyed OrderUid Order := .empty
  online : Bool := true
  saves : Nat := 0
  reads : Nat := 0
  deriving DecidableEq, Repr, Inhabited

namespace Memory

def switchedOff : Failure := .unavailable "in-memory store switched off"

def save (s : Memory) (o : Order) : Except Failure Unit × Memory :=
  if s.online then (.ok (), { s with orders := s.orders.put o.uid o, saves := s.saves + 1 })
  else (.error switchedOff, s)

def get (s : Memory) (uid : OrderUid) : Except Failure Order × Memory :=
  if s.online then
    let found := match s.orders.find? uid with
      | some o => .ok o
      | none => .error .notFound
    (found, { s with reads := s.reads + 1 })
  else (.error switchedOff, s)

def ping (s : Memory) : Except Failure Unit :=
  if s.online then .ok () else .error switchedOff

def size (s : Memory) : Nat := s.orders.size

end Memory

end OrderDepot.Store
