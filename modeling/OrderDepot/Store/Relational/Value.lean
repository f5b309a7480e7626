import OrderDepot.Store.Failure
import OrderDepot.Time.Instant

/-!
Values in the columns of a row. Points in time are kept to the microsecond, counted from the start of the
year 2000; what is finer is cut off toward that point.
-/

namespace OrderDepot.Store.Relational

inductive Value where
  | null
  | text (s : String)
  | integer (n : Int)
  deriving DecidableEq, Repr

namespace Value

def equals : Value → Value → Bool
  | .null, _ => false
  | a, b => a == b

def differs : Value → Value → Bool
  | .null, _ | _, .null => false
  | a, b => a != b

end Value

def millennium : Int := 946684800

def microsOf (t : Time.Instant) : Int :=
  Int.tdiv ((t.seconds - millennium) * 1000000000 + t.nanos) 1000

def ofMicros (micros : Int) : Time.Instant :=
  ⟨millennium + micros / 1000000, (micros % 1000000).toNat * 1000⟩

abbrev Row := List (String × Value)

namespace Row

def names (r : Row) : List String := r.map fun field => field.1

/-- The value of a column; a column that is not there is null. -/
def value (r : Row) (column : String) : Value :=
  (List.lookup column r).getD .null

def project (r : Row) (columns : List String) : Row :=
  columns.map fun column => (column, r.value column)

def updated (r : Row) (columns : List String) (new : Row) : Row :=
  r.map fun (column, v) => (column, if column ∈ columns then new.value column else v)

def mismatch (column : String) : DatabaseFault :=
  .protocol s!"mismatched type in column {column}"

def text (r : Row) (column : String) : Except DatabaseFault String :=
  match List.lookup column r with
  | some (.text s) => .ok s
  | some .null => .error (.nullColumn column)
  | some (.integer _) => .error (mismatch column)
  | none => .error (.missingColumn column)

def integer (r : Row) (column : String) : Except DatabaseFault Int :=
  match List.lookup column r with
  | some (.integer n) => .ok n
  | some .null => .error (.nullColumn column)
  | some (.text _) => .error (mismatch column)
  | none => .error (.missingColumn column)

end Row

end OrderDepot.Store.Relational
