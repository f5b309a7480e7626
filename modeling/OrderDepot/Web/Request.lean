import OrderDepot.Text.Numeral
import OrderDepot.Text.Utf8

/-!
Requests, the resource that a path names, and the identifier that a request carries through all services. In a
path a percent sign with two hexadecimal digits stands for a byte; anything else, also a percent sign without
such digits, stands for itself.
-/

namespace OrderDepot.Web

namespace Percent

def sign : UInt8 := 0x25

def byte? (a b : UInt8) : Option UInt8 := do
  let high ← Text.hexValue? a.toNat
  let low ← Text.hexValue? b.toNat
  return UInt8.ofNat (high * 16 + low)

def decode : List UInt8 → List UInt8
  | c :: a :: b :: rest =>
    if c = sign then
      match byte? a b with
      | some d => d :: decode rest
      | none => c :: decode (a :: b :: rest)
    else c :: decode (a :: b :: rest)
  | c :: rest => c :: decode rest
  | [] => []

def digit (n : Nat) : UInt8 :=
  UInt8.ofNat (if n < 10 then 48 + n else 55 + n)

def encode (bs : List UInt8) : List UInt8 :=
  bs.flatMap fun b => [sign, digit (b.toNat / 16), digit (b.toNat % 16)]

end Percent

structure Request where
  method : String := "GET"
  path : List UInt8
  headers : List (String × List UInt8) := []
  deriving DecidableEq, Repr

inductive Resource where
  | order (segment : List UInt8)
  | health
  | readiness
  deriving DecidableEq, Repr

def Request.resourcePath (r : Request) : List UInt8 :=
  r.path.takeWhile fun b => b ≠ 0x3F ∧ b ≠ 0x23

def behind? : List UInt8 → List UInt8 → Option (List UInt8)
  | [], path => some path
  | _ :: _, [] => none
  | a :: start, b :: path => if a = b then behind? start path else none

/-- The resource that a path names. The segment of an order is not empty. -/
def Resource.of? (path : List UInt8) : Option Resource :=
  if path = Text.bytes "/healthz" then some .health
  else if path = Text.bytes "/health/ready" then some .readiness
  else
    match behind? (Text.bytes "/order/") path with
    | some (b :: segment) => if (b :: segment).contains 0x2F then none else some (.order (b :: segment))
    | _ => none

def requestIdHeader : String := "x-request-id"

def maxRequestIdBytes : Nat := 128

def isGraphic (b : UInt8) : Bool := 0x21 ≤ b && b ≤ 0x7E

def lowerName (name : String) : String :=
  String.ofList (name.toList.map Char.toLower)

/-- The identifier that came with the request, if it is acceptable. Only the first such header counts. -/
def Request.givenId? (r : Request) : Option String :=
  match r.headers.find? fun h => lowerName h.1 = requestIdHeader with
  | none => none
  | some (_, value) =>
    if value ≠ [] ∧ value.length ≤ maxRequestIdBytes ∧ value.all isGraphic then
      some (String.ofList (value.map fun b => Char.ofNat b.toNat))
    else none

end OrderDepot.Web
