import OrderDepot.Store.Relational.Rows

/-!
The statements that a database is sent: their texts and the values bound to their placeholders, which are
numbered from 1 in every statement.
-/

namespace OrderDepot.Store.Relational

inductive Statement where
  | begin
  | commit
  | rollback
  | snapshot
  | probe
  /-- Inserts a row, or changes these columns of the row with the same key to the values of the new one. -/
  | upsert (table : Table) (key : String) (changes : List String) (row : Row)
  | insertItems (rows : List Row)
  | deleteItems (uid : String)
  | deleteOtherPayments (uid transaction : String)
  | select (table : Table) (columns : List String) (uid : String)
  deriving DecidableEq, Repr

namespace Statement

def replace (table : Table) (key : String) (row : Row) : Statement :=
  .upsert table key (table.columnsBut key) row

def commas (parts : List String) : String :=
  String.intercalate ", " parts

def placeholders (first count : Nat) : String :=
  "(" ++ commas ((List.range' first count).map fun n => "$" ++ toString n) ++ ")"

def columnList (t : Table) (columns : List String) : String :=
  match t with
  | .orders | .payments => "( " ++ commas columns ++ " )"
  | .deliveries | .items => "(" ++ commas columns ++ ")"

def excluded (column : String) : String :=
  column ++ " = EXCLUDED." ++ column

def placeholderRows (width first : Nat) : Nat → List String
  | 0 => []
  | n + 1 => placeholders first width :: placeholderRows width (first + width) n

def text : Statement → String
  | .begin => "BEGIN"
  | .commit => "COMMIT"
  | .rollback => "ROLLBACK"
  | .snapshot => "SET TRANSACTION ISOLATION LEVEL REPEATABLE READ READ ONLY"
  | .probe => "SELECT 1"
  | .upsert t key changes row =>
    "INSERT INTO " ++ t.name ++ " " ++ columnList t row.names ++ " VALUES " ++ placeholders 1 row.length ++
      " ON CONFLICT (" ++ key ++ ") DO UPDATE SET " ++ commas (changes.map excluded)
  | .insertItems rows =>
    "INSERT INTO items " ++ columnList .items Table.items.columns ++ " VALUES " ++
      commas (placeholderRows Table.items.columns.length 1 rows.length) ++ " ON CONFLICT DO NOTHING"
  | .deleteItems _ => "DELETE FROM items WHERE order_uid = $1"
  | .deleteOtherPayments _ _ => "DELETE FROM payments WHERE order_uid = $1 AND transaction <> $2"
  | .select t columns _ =>
    "SELECT " ++ commas columns ++ " FROM " ++ t.name ++ " WHERE order_uid = $1" ++
      (if t = .items then " ORDER BY id" else "")

def params : Statement → List Value
  | .begin | .commit | .rollback | .snapshot | .probe => []
  | .upsert _ _ _ row => row.map (·.2)
  | .insertItems rows => rows.flatMap fun row => row.map (·.2)
  | .deleteItems uid => [.text uid]
  | .deleteOtherPayments uid transaction => [.text uid, .text transaction]
  | .select _ _ uid => [.text uid]

@[simp]
theorem params_replace (table : Table) (key : String) (row : Row) :
    (replace table key row).params = row.map (·.2) := rfl

end Statement

end OrderDepot.Store.Relational
