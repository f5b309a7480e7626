import OrderDepot.Store.Relational.Server

/-!
Orders in a relational database. An order is written in one transaction: its own row, its delivery and its
payment take the place of the rows with the same keys, other payments of the order are deleted, and so are
its items before the new ones are inserted. It is read in one transaction, too. An error ends a transaction
and takes back all that it did.
-/

namespace OrderDepot.Store.Relational

/-- Work with a database; what was done up to an error stays done. -/
abbrev Session := ExceptT Failure (StateM Server)

namespace Session

def perform (s : Statement) : Session (List Row) := fun server =>
  match server.execute s with
  | (.ok rows, server) => (.ok rows, server)
  | (.error message, server) => (.error (.database (.refused message)), server)

def attempt (s : Statement) : Session Unit := fun server =>
  (.ok (), (server.execute s).2)

def decoded {α : Type} (r : Except DatabaseFault α) : Session α :=
  match r with
  | .ok a => return a
  | .error f => throw (.database f)

/-- Does all of the work or nothing of it. Without a beginning there is nothing to take back. -/
def transaction {α : Type} (work : Session α) : Session α := do
  let _ ← perform .begin
  tryCatch
    (do
      let a ← work
      let _ ← perform .commit
      return a)
    fun failure => do
      attempt .rollback
      throw failure

end Session

open Session

/-- How many items one statement inserts at most: twelve values for each stay below the number of values
that a statement may bind. -/
def itemsPerInsert : Nat := 5000

def chunksOfSucc {α : Type} (size : Nat) : List α → List (List α)
  | [] => []
  | a :: as => (a :: as.take size) :: chunksOfSucc size (as.drop size)
termination_by as => as.length
decreasing_by simp only [List.length_drop, List.length_cons]; omega

def chunks {α : Type} (size : Nat) (as : List α) : List (List α) :=
  chunksOfSucc (size - 1) as

def itemStatements (o : Order) : List Statement :=
  .deleteItems o.uid.text ::
    (chunks itemsPerInsert o.items).map fun is => .insertItems (is.map (itemRow o.uid))

def saveStatements (o : Order) : List Statement :=
  [.replace .orders "order_uid" (orderRow o),
   .replace .deliveries "order_uid" (deliveryRow o.uid o.delivery),
   .replace .payments "transaction" (paymentRow o.uid o.payment),
   .deleteOtherPayments o.uid.text o.payment.transaction.text] ++ itemStatements o

def performAll : List Statement → Session Unit
  | [] => return ()
  | s :: rest => do
    let _ ← perform s
    performAll rest

def save (o : Order) : Session Unit :=
  transaction (performAll (saveStatements o))

def noRow (uid : OrderUid) (what : String) : Failure :=
  .dataCorruption s!"order {uid.text} has {what}"

def readRows (uid : OrderUid) : Session Order := do
  let _ ← perform .snapshot
  let order ← match ← perform (.select .orders Table.orders.columns uid.text) with
    | r :: _ => decoded (readOrder r)
    | [] => throw .notFound
  let delivery ← match ← perform (.select .deliveries (Table.deliveries.columnsBut uidColumn) uid.text) with
    | r :: _ => decoded (readDelivery r)
    | [] => throw (noRow uid "no delivery row")
  let rows ← perform (.select .payments (Table.payments.columnsBut uidColumn) uid.text)
  let payment ← match ← decoded (rows.mapM readPayment) with
    | [p] => pure p
    | [] => throw (noRow uid "no payment row")
    | _ => throw (noRow uid "more than one payment row")
  let rows ← perform (.select .items (Table.items.columnsBut uidColumn) uid.text)
  let items ← decoded (rows.mapM readItem)
  return { order with delivery, payment, items }

def get (uid : OrderUid) : Session Order :=
  transaction (readRows uid)

def ping : Session Unit := do
  let _ ← perform .probe

structure Connection where
  server : Server
  closed : Bool := false
  deriving DecidableEq, Repr

def Connection.call {α : Type} (c : Connection) (work : Session α) : Except Failure α × Connection :=
  if c.closed then (.error (.database .poolClosed), c)
  else
    let (r, server) := work.run.run c.server
    (r, { c with server })

inductive Link where
  | down (reason : String)
  | refusing (message : String)
  | up (server : Server)

def connect : Link → Except DatabaseFault Connection
  | .down reason => .error (.link reason)
  | .refusing message => .error (.refused message)
  | .up server => .ok { server }

end OrderDepot.Store.Relational
