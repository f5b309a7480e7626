import OrderDepot.Json.Value

/-!
Violations of an order's rules: where, of which kind, and in what words. A report lists all of them in the
order in which the rules were checked.
-/

namespace OrderDepot

inductive ViolationKind where
  | required
  | format
  | outOfRange
  | inconsistent
  deriving DecidableEq, Repr

def ViolationKind.code : ViolationKind → String
  | .required => "required"
  | .format => "format"
  | .outOfRange => "out_of_range"
  | .inconsistent => "inconsistent"

/-- A broken rule at a field path such as `order_uid` or `items[0].price`. -/
structure Violation where
  path : String
  kind : ViolationKind
  message : String
  deriving DecidableEq, Repr

def Violation.describe (v : Violation) : String :=
  if v.message.isEmpty then s!"{v.path}: {v.kind.code}"
  else s!"{v.path}: {v.message} ({v.kind.code})"

def Violation.toJson (v : Violation) : Json.Value :=
  .object [("path", .text v.path), ("kind", .text v.kind.code), ("message", .text v.message)]

abbrev Report := List Violation

namespace Report

def has (r : Report) (path : String) (kind : ViolationKind) : Bool :=
  r.any fun v => v.path == path && v.kind == kind

def describe (r : Report) : String :=
  "validation failed: " ++ String.intercalate "; " (r.map Violation.describe)

def toJson (r : Report) : Json.Value :=
  .list (r.map Violation.toJson)

end Report

end OrderDepot
