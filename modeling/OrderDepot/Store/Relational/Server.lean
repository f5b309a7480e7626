import OrderDepot.Store.Relational.Statement

/-!
A database server, as far as the store can see it: tables, one transaction at a time, and faults that were
arranged for statements to come. Rows keep the order in which they were written. A strict server also
enforces the constraints of the schema and refuses values that no column can hold.
-/

namespace OrderDepot.Store.Relational

structure Tables where
  orders : List Row := []
  deliveries : List Row := []
  payments : List Row := []
  items : List Row := []
  deriving DecidableEq, Repr, Inhabited

namespace Tables

def rows (t : Tables) : Table → List Row
  | .orders => t.orders
  | .deliveries => t.deliveries
  | .payments => t.payments
  | .items => t.items

def setRows (t : Tables) (table : Table) (rows : List Row) : Tables :=
  match table with
  | .orders => { t with orders := rows }
  | .deliveries => { t with deliveries := rows }
  | .payments => { t with payments := rows }
  | .items => { t with items := rows }

end Tables

/-- Changes columns of the first row with the same key, or appends the row. -/
def upsertRow (key : String) (changes : List String) (row : Row) : List Row → List Row
  | [] => [row]
  | r :: rest =>
    if (r.value key).equals (row.value key) then r.updated changes row :: rest
    else r :: upsertRow key changes row rest

def Row.ofOrder (uid : String) (r : Row) : Bool :=
  (r.value uidColumn).equals (.text uid)

namespace Tables

def write (t : Tables) : Statement → Tables
  | .upsert table key changes row => t.setRows table (upsertRow key changes row (t.rows table))
  | .insertItems rows => { t with items := t.items ++ rows }
  | .deleteItems uid => { t with items := t.items.filter fun r => !r.ofOrder uid }
  | .deleteOtherPayments uid transaction =>
    { t with payments := t.payments.filter fun r =>
        !(r.ofOrder uid && (r.value "transaction").differs (.text transaction)) }
  | .begin | .commit | .rollback | .snapshot | .probe | .select _ _ _ => t

def read (t : Tables) : Statement → List Row
  | .select table columns uid => ((t.rows table).filter (Row.ofOrder uid)).map fun r => r.project columns
  | _ => []

end Tables

/-- A fault for the next statement whose text begins so. One without a message lets its statement pass. -/
structure Fault where
  start : String
  message : Option String
  deriving DecidableEq, Repr

def Fault.strikes (f : Fault) (s : Statement) : Bool :=
  f.start.toList.isPrefixOf s.text.toList

def strike (s : Statement) : List Fault → Option String × List Fault
  | [] => (none, [])
  | f :: rest =>
    if f.strikes s then (f.message, rest)
    else
      let (m, rest) := strike s rest
      (m, f :: rest)

def isNul (c : Char) : Bool := c.toNat = 0

/-- The last microsecond of the year 294276 is the last point in time that a column can hold. -/
def latestMicros : Int := 9223371331200000000

def earliestMicros : Int := -211813488000000000

def refuseValue (column : String) : Value → Option String
  | .null => some s!"null value in column \"{column}\" violates not-null constraint"
  | .text s => if s.toList.any isNul then some "invalid byte sequence for encoding \"UTF8\": 0x00" else none
  | .integer n =>
    if column = "date_created" ∧ ¬(earliestMicros ≤ n ∧ n < latestMicros) then some "timestamp out of range"
    else none

def Tables.refuseRow (t : Tables) (table : Table) (row : Row) : Option String :=
  match row.findSome? fun (column, v) => refuseValue column v with
  | some m => some m
  | none =>
    if table = .orders ∨ t.orders.any fun r => (r.value uidColumn).equals (row.value uidColumn) then none
    else some s!"insert or update on table \"{table.name}\" violates foreign key constraint"

/-- Why a statement is none of this schema: it names a column that its table does not have, or looks for a
conflict where no key is. -/
def Statement.misfit : Statement → Option String
  | .upsert table key changes row =>
    match (row.names ++ changes).find? (· ∉ table.columns) with
    | some column => some s!"column \"{column}\" of relation \"{table.name}\" does not exist"
    | none =>
      if table.key? = some key then none
      else some "there is no unique or exclusion constraint matching the ON CONFLICT specification"
  | .select table columns _ =>
    (columns.find? (· ∉ table.columns)).map fun column => s!"column \"{column}\" does not exist"
  | _ => none

def Tables.refusal (t : Tables) (s : Statement) : Option String :=
  s.misfit.or <|
    match s with
    | .upsert table _ _ row => t.refuseRow table row
    | .insertItems rows => rows.findSome? (t.refuseRow .items)
    | _ => s.params.findSome? (refuseValue uidColumn)

structure Server where
  tables : Tables := {}
  before : Option Tables := none
  faults : List Fault := []
  log : List Statement := []
  strict : Bool := false
  deriving DecidableEq, Repr, Inhabited

namespace Server

def effect (server : Server) (s : Statement) : Server :=
  match s with
  | .begin => { server with before := some server.tables }
  | .commit => { server with before := none }
  | .rollback => { server with tables := server.before.getD server.tables, before := none }
  | s => { server with tables := server.tables.write s }

def execute (server : Server) (s : Statement) : Except String (List Row) × Server :=
  let server := { server with log := s :: server.log }
  let (fault, faults) := strike s server.faults
  let server := { server with faults }
  let refusal := if server.strict then server.tables.refusal s else none
  match fault.or refusal with
  | some message => (.error message, server)
  | none => (.ok (server.tables.read s), server.effect s)

end Server

end OrderDepot.Store.Relational
