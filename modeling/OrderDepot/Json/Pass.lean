import OrderDepot.Json.Literal
import OrderDepot.Json.Number

/-!
Passing over a value of any kind. The value has to be well formed as far as its brackets, commas, words and
numbers go; the brackets that are open are kept in a list, so nesting may be of any depth.
-/

namespace OrderDepot.Json

def isBlankByte (b : UInt8) : Bool :=
  b == 0x20 || b == 0x0A || b == 0x09 || b == 0x0D

def skipBlank (s : List UInt8) : List UInt8 :=
  s.dropWhile isBlankByte

def word : List UInt8 → List UInt8 → Except Fault (List UInt8)
  | [], s => .ok s
  | _ :: _, [] => .error (.here .endInValue [])
  | l :: letters, b :: s => if b = l then word letters s else .error (.here .expectedIdent s)

def restOfNull : List UInt8 := [0x75, 0x6C, 0x6C]

def restOfTrue : List UInt8 := [0x72, 0x75, 0x65]

def restOfFalse : List UInt8 := [0x61, 0x6C, 0x73, 0x65]

def passExponent (s : List UInt8) : Except Fault (List UInt8) :=
  let s :=
    match s with
    | 0x2B :: r => r
    | 0x2D :: r => r
    | _ => s
  match s with
  | [] => .error (.here .invalidNumber [])
  | b :: rest => if isDigit b then .ok (rest.dropWhile isDigit) else .error (.here .invalidNumber rest)

def passExponentPart (s : List UInt8) : Except Fault (List UInt8) :=
  match s with
  | 0x65 :: r | 0x45 :: r => passExponent r
  | _ => .ok s

def passNumber (s : List UInt8) : Except Fault (List UInt8) :=
  let (ds, rest) := splitDigits s
  match ds with
  | [] => .error (.here .invalidNumber (rest.drop 1))
  | 0x30 :: d :: ds => .error (.next .invalidNumber (d :: ds ++ rest))
  | _ =>
    match rest with
    | 0x2E :: r =>
      let (fs, rest) := splitDigits r
      if fs.isEmpty then .error (.next .invalidNumber rest) else passExponentPart rest
    | _ => passExponentPart rest

inductive Bracket where
  | list
  | object
  deriving DecidableEq, Repr

def Bracket.closing : Bracket → UInt8
  | .list => 0x5D
  | .object => 0x7D

def Bracket.endCause : Bracket → Cause
  | .list => .endInList
  | .object => .endInObject

def Bracket.separatorCause : Bracket → Cause
  | .list => .expectedListEnd
  | .object => .expectedObjectEnd

def colon (s : List UInt8) : Except Fault (List UInt8) :=
  match skipBlank s with
  | [] => .error (.next .endInObject [])
  | 0x3A :: rest => .ok rest
  | rest => .error (.next .expectedColon rest)

def passName (b : Bracket) (s : List UInt8) : Except Fault (List UInt8) :=
  match b with
  | .list => .ok s
  | .object =>
    match skipBlank s with
    | [] => .error (.next .endInObject [])
    | 0x22 :: rest => do colon (← passLiteral .plain rest)
    | rest => .error (.next .nameNotText rest)

def passOne (s : List UInt8) : Except Fault (Option Bracket × List UInt8) :=
  match skipBlank s with
  | [] => .error (.next .endInValue [])
  | b :: rest =>
    match b with
    | 0x6E => return (none, ← word restOfNull rest)
    | 0x74 => return (none, ← word restOfTrue rest)
    | 0x66 => return (none, ← word restOfFalse rest)
    | 0x22 => return (none, ← passLiteral .plain rest)
    | 0x5B => return (some .list, rest)
    | 0x7B => return (some .object, rest)
    | 0x2D => return (none, ← passNumber rest)
    | _ =>
      if isDigit b then return (none, ← passNumber (b :: rest))
      else .error (.next .expectedValue (b :: rest))

def passEnds : List Bracket → List UInt8 → Except Fault (List Bracket × List UInt8)
  | [], s => .ok ([], s)
  | b :: outer, s =>
    match skipBlank s with
    | [] => .error (.next b.endCause [])
    | c :: rest =>
      if c = 0x2C then .ok (b :: outer, rest)
      else if c = b.closing then passEnds outer rest
      else .error (.next b.separatorCause (c :: rest))

def passStart (b : Bracket) (outer : List Bracket) (s : List UInt8) :
    Except Fault (List Bracket × List UInt8) :=
  match skipBlank s with
  | [] => .error (.next b.endCause [])
  | c :: rest => if c = b.closing then passEnds outer rest else .ok (b :: outer, c :: rest)

def passOpen : Nat → List Bracket → List UInt8 → Except Fault (List UInt8)
  | 0, _, s => .error (.next .endInValue s)
  | fuel + 1, brackets, s => do
    let (opened, rest) ← passOne s
    let (brackets, rest) ←
      match opened with
      | some b => passStart b brackets rest
      | none => passEnds brackets rest
    match brackets with
    | [] => return rest
    | b :: _ => passOpen fuel brackets (← passName b rest)

/-- Passes over a value. Each round takes at least one byte. -/
def pass (s : List UInt8) : Except Fault (List UInt8) :=
  passOpen (s.length + 1) [] s

end OrderDepot.Json
