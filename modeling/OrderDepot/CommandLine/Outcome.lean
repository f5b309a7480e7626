import OrderDepot.CommandLine.Invocation
import OrderDepot.Order.Validation
import OrderDepot.Order.Writer
import OrderDepot.OsError
import OrderDepot.Settings.Pool
import OrderDepot.Store.Relational.Orders

/-!
What the operators' tool prints and how it ends. A payload gets the same verdict as in the pipeline. An order
that is looked up is printed in the pretty layout.
-/

namespace OrderDepot.CommandLine

structure Outcome where
  exit : Nat
  stdout : String := ""
  failure : Option String := none
  deriving DecidableEq, Repr

namespace Outcome

def printed (text : String) : Outcome := { exit := 0, stdout := text }

def failed (reason : String) : Outcome := { exit := 1, failure := some reason }

def misuse : Outcome := { exit := 2 }

end Outcome

def validate (payload : Except OsError (List UInt8)) (now : Time.Instant) : Outcome :=
  match payload with
  | .error e => .failed ("Failed to read payload: " ++ e.message)
  | .ok bytes =>
    match Verdict.of bytes now with
    | .undecodable e => .failed ("Payload does not decode: " ++ decodeMessage e)
    | .invalid _ report =>
      { exit := 1
        stdout := String.join (report.map fun v => v.describe ++ "\n")
        failure := some s!"Order is invalid ({report.length} violations)" }
    | .accepted o => .printed s!"ok: order {o.uid.text} ({o.items.length} items)\n"

def databaseVariable : String := "DATABASE_URL"

def connectionFailed (fault : Store.DatabaseFault) : Outcome :=
  .failed ("Database connection error: " ++ fault.message)

def lookUp (url : Option String) (link : Store.Relational.Link) (uid : String) : Outcome :=
  match url with
  | none => .failed ("Missing environment variable: " ++ databaseVariable)
  | some url =>
    match Settings.checkDatabaseUrl url with
    | .error fault => connectionFailed fault
    | .ok () =>
      match Store.Relational.connect link with
      | .error fault => connectionFailed fault
      | .ok connection =>
        match (connection.call (Store.Relational.get ⟨uid⟩)).1 with
        | .ok o => .printed (o.toJson.pretty ++ "\n")
        | .error .notFound => .failed ("Order not found: " ++ uid)
        | .error f => .failed f.message

def outcome (i : Invocation) (payload : Except OsError (List UInt8)) (now : Time.Instant)
    (url : Option String) (link : Store.Relational.Link) : Outcome :=
  match i with
  | .run .validate _ => validate payload now
  | .run .lookUp uid => lookUp url link uid
  | .help c => .printed (helpText c)
  | .version => .printed (programName ++ " " ++ version ++ "\n")
  | .misuse => .misuse

end OrderDepot.CommandLine
