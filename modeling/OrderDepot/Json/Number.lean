import OrderDepot.Json.Fault

/-!
Numbers of a JSON document. A literal with neither fraction nor exponent that fits 64 bits is an integer;
any other literal becomes a binary64 value, made from the first digits that fit 64 bits and one power of ten.
-/

namespace OrderDepot.Json

def isDigit (b : UInt8) : Bool :=
  0x30 ≤ b && b ≤ 0x39

def digitValue (b : UInt8) : Nat :=
  b.toNat - 0x30

def splitDigits (s : List UInt8) : List UInt8 × List UInt8 :=
  s.span isDigit

def largestWord : Nat := UInt64.size - 1

/-- Appends digits to a significand until one does not fit 64 bits; also gives how many were left out. -/
def accumulate : Nat → List UInt8 → Nat × Nat
  | value, [] => (value, 0)
  | value, d :: ds =>
    let next := value * 10 + digitValue d
    if next ≤ largestWord then accumulate next ds else (value, (d :: ds).length)

def scaleDown (value : Float) (e : Nat) : Float :=
  if e ≤ 308 then value / Float.ofScientific 1 false e
  else if value == 0 then value
  else scaleDown (value / Float.ofScientific 1 false 308) (e - 308)
termination_by e

def scaleUp? (value : Float) (e : Nat) : Option Float :=
  if e ≤ 308 then
    let product := value * Float.ofScientific 1 false e
    if product.isInf then none else some product
  else if value == 0 then some value
  else none

def binary? (negative : Bool) (significand : Nat) (exponent : Int) : Option Number :=
  let start := Float.ofNat significand
  let size? := if 0 ≤ exponent then scaleUp? start exponent.toNat else some (scaleDown start exponent.natAbs)
  size?.map fun size => .binary (if negative then -size else size).toBits

def largestExponent : Nat := 2147483647

def clampExponent (e : Int) : Int :=
  max (-largestExponent - 1) (min largestExponent e)

/-- The digits of an exponent while it fits 32 bits; `none` in place of the value once it does not. -/
def readExponent : Nat → List UInt8 → Option Nat × List UInt8
  | e, [] => (some e, [])
  | e, b :: rest =>
    if isDigit b then
      if e * 10 + digitValue b ≤ largestExponent then readExponent (e * 10 + digitValue b) rest
      else (none, rest)
    else (some e, b :: rest)

def finish (negative : Bool) (significand : Nat) (exponent : Int) (rest : List UInt8) :
    Except Fault (Number × List UInt8) :=
  match binary? negative significand exponent with
  | some n => .ok (n, rest)
  | none => .error (.here .numberOutOfRange rest)

def afterMark (negative : Bool) (significand : Nat) (exponent : Int) (s : List UInt8) :
    Except Fault (Number × List UInt8) :=
  let (down, s) :=
    match s with
    | 0x2B :: r => (false, r)
    | 0x2D :: r => (true, r)
    | _ => (false, s)
  match s with
  | [] => .error (.here .endInValue [])
  | b :: rest =>
    if isDigit b then
      match readExponent (digitValue b) rest with
      | (some e, rest) =>
        finish negative significand (clampExponent (if down then exponent - e else exponent + e)) rest
      | (none, rest) =>
        if significand ≠ 0 ∧ !down then .error (.here .numberOutOfRange rest)
        else .ok (.binary (if negative then -0.0 else (0.0 : Float)).toBits, rest.dropWhile isDigit)
    else .error (.here .invalidNumber rest)

def exponentPart (negative : Bool) (significand : Nat) (exponent : Int) (s : List UInt8) :
    Except Fault (Number × List UInt8) :=
  match s with
  | 0x65 :: r | 0x45 :: r => afterMark negative significand exponent r
  | _ => finish negative significand exponent s

def afterPoint (negative : Bool) (significand : Nat) (exponent : Int) (s : List UInt8) :
    Except Fault (Number × List UInt8) :=
  let (ds, rest) := splitDigits s
  if ds.isEmpty then
    if rest.isEmpty then .error (.next .endInValue rest) else .error (.next .invalidNumber rest)
  else
    let (value, out) := accumulate significand ds
    exponentPart negative value (exponent - (ds.length - out : Nat)) rest

/-- An integer literal is kept as such when it is in the range of 64 bits and not a negative zero. -/
def integer? (negative : Bool) (significand : Nat) : Option Number :=
  if !negative then some (.integer significand)
  else if 0 < significand ∧ significand ≤ Int64.minValue.toInt.natAbs then some (.integer (-significand))
  else none

def unsigned (negative : Bool) (s : List UInt8) : Except Fault (Number × List UInt8) :=
  let (ds, rest) := splitDigits s
  match ds with
  | [] =>
    match rest with
    | [] => .error (.here .endInValue [])
    | _ :: rest => .error (.here .invalidNumber rest)
  | 0x30 :: d :: ds => .error (.next .invalidNumber (d :: ds ++ rest))
  | _ =>
    let (significand, out) := accumulate 0 ds
    match rest with
    | 0x2E :: r => afterPoint negative significand out r
    | 0x65 :: _ | 0x45 :: _ => exponentPart negative significand out rest
    | _ =>
      match (if out = 0 then integer? negative significand else none) with
      | some n => .ok (n, rest)
      | none => finish negative significand out rest

def number : List UInt8 → Except Fault (Number × List UInt8)
  | 0x2D :: s => unsigned true s
  | s => unsigned false s

end OrderDepot.Json
