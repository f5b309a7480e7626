import OrderDepot.Json.Value
import OrderDepot.Store.Failure

/-!
Answers to requests, and what a request is told when it fails. A failure of the store is never described to
the client, except that an order is absent.
-/

namespace OrderDepot.Web

structure Response where
  status : Nat
  headers : List (String × String) := []
  body : String := ""
  deriving DecidableEq, Repr

namespace Response

def contentType : String := "content-type"

def json (status : Nat) (body : Json.Value) : Response :=
  ⟨status, [(contentType, "application/json")], body.compact⟩

def plain (status : Nat) (body : String) : Response :=
  ⟨status, [(contentType, "text/plain; charset=utf-8")], body⟩

def bare (status : Nat) : Response := { status }

def withHeader (r : Response) (name value : String) : Response :=
  { r with headers := r.headers ++ [(name, value)] }

def withoutBody (r : Response) : Response := { r with body := "" }

def header? (r : Response) (name : String) : Option String :=
  r.headers.lookup name

end Response

inductive RequestError where
  | database (cause : Store.Failure)
  | timeout
  | notFound (what : String)
  | badRequest (text : String)
  deriving DecidableEq, Repr

namespace RequestError

def message : RequestError → String
  | .database f => "Database error: " ++ f.message
  | .timeout => "Database lookup timed out"
  | .notFound what => "Not found: " ++ what
  | .badRequest text => "Bad request: " ++ text

def status : RequestError → Nat
  | .database .notFound | .notFound _ => 404
  | .badRequest _ => 400
  | .database _ | .timeout => 500

def publicMessage : RequestError → String
  | .database .notFound => "order not found"
  | .notFound what => what ++ " not found"
  | .badRequest text => text
  | .database _ | .timeout => "internal server error"

def response (e : RequestError) : Response :=
  .json e.status (.object [("error", .text e.publicMessage)])

end RequestError

end OrderDepot.Web
