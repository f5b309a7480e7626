/-!
The fewest decimal digits that identify a binary64 value. A decimal identifies a value when it lies between
the midpoints to the two neighbours, an end counting exactly if the significand is even. For one digit, two
digits and so on, only the two points of that decimal grid next to the value are tried, in exact arithmetic.
-/

namespace OrderDepot.Decimal

/-- A positive binary64 value `significand * 2 ^ scale`. -/
structure Binary where
  significand : Nat
  scale : Int
  narrowBelow : Bool
  deriving DecidableEq, Repr

def leadingBit : Nat := 4503599627370496

def signBit : Nat := 9223372036854775808

def Binary.ofBits (bits : UInt64) : Binary :=
  let e : Nat := (bits.toNat / leadingBit) % 2048
  let f : Nat := bits.toNat % leadingBit
  if e = 0 then ⟨f, -1074, false⟩ else ⟨leadingBit + f, (e : Int) - 1075, f == 0 && e > 1⟩

structure Digits where
  digits : Nat
  scale : Int
  deriving DecidableEq, Repr

def compareScaled (a : Nat) (i : Int) (n : Nat) (j : Int) : Ordering :=
  compare (a * Nat.pow 10 i.toNat * Nat.pow 2 (-j).toNat) (n * Nat.pow 2 j.toNat * Nat.pow 10 (-i).toNat)

/-- Whether the decimal lies in the rounding interval of the value. -/
def Binary.identifiedBy (x : Binary) (d : Digits) : Bool :=
  let low := if x.narrowBelow then 4 * x.significand - 1 else 4 * x.significand - 2
  let closed := x.significand % 2 == 0
  let fromLow := compareScaled d.digits d.scale low (x.scale - 2)
  let toHigh := compareScaled d.digits d.scale (4 * x.significand + 2) (x.scale - 2)
  (fromLow == .gt || (closed && fromLow == .eq)) && (toHigh == .lt || (closed && toHigh == .eq))

def Binary.magnitude (x : Binary) : Int :=
  let e := ((x.significand.log2 : Int) + x.scale) * 30103 / 100000
  let below (k : Int) := compareScaled 1 k x.significand x.scale == .gt
  if below (e - 1) then e - 1 else if below e then e else if below (e + 1) then e + 1 else e + 2

def Binary.floorOn (x : Binary) (grid : Int) : Nat :=
  (x.significand * Nat.pow 2 x.scale.toNat * Nat.pow 10 (-grid).toNat) /
    (Nat.pow 2 (-x.scale).toNat * Nat.pow 10 grid.toNat)

/-- The point of the grid that identifies the value: of the two next to it the nearer, a tie going to even. -/
def Binary.onGrid? (x : Binary) (grid : Int) : Option Digits :=
  let n := x.floorOn grid
  let low : Digits := ⟨n, grid⟩
  let high : Digits := ⟨n + 1, grid⟩
  match x.identifiedBy low, x.identifiedBy high with
  | true, true =>
    match compareScaled (2 * n + 1) grid (2 * x.significand) x.scale with
    | .gt => some low
    | .lt => some high
    | .eq => some (if n % 2 = 0 then low else high)
  | true, false => some low
  | false, true => some high
  | false, false => none

def Binary.exact (x : Binary) : Digits :=
  if 0 ≤ x.scale then ⟨x.significand * Nat.pow 2 x.scale.toNat, 0⟩
  else ⟨x.significand * Nat.pow 5 (-x.scale).toNat, x.scale⟩

def Digits.strip : Nat → Digits → Digits
  | 0, d => d
  | fuel + 1, d => if d.digits ≠ 0 ∧ d.digits % 10 = 0 then strip fuel ⟨d.digits / 10, d.scale + 1⟩ else d

def Binary.shortest (x : Binary) : Digits :=
  let k := x.magnitude
  let found := (List.range 17).findSome? fun (n : Nat) => x.onGrid? (k - 1 - n)
  (found.getD x.exact).strip 800

/-- Decimal notation: positional while the point falls inside or next to the digits (at most sixteen digits
before it, at most four zeros after it), else one digit before the point and a signed exponent. -/
def Digits.layout (d : Digits) : List Char :=
  let ds := (toString d.digits).toList
  let point : Int := ds.length + d.scale
  if 0 < point ∧ point ≤ 16 then
    if 0 ≤ d.scale then ds ++ List.replicate d.scale.toNat '0' ++ ['.', '0']
    else ds.take point.toNat ++ ['.'] ++ ds.drop point.toNat
  else if -5 < point ∧ point ≤ 0 then
    ['0', '.'] ++ List.replicate (-point).toNat '0' ++ ds
  else
    let fraction := if ds.length = 1 then [] else '.' :: ds.drop 1
    let exponent := point - 1
    let sign := if exponent < 0 then '-' else '+'
    ds.take 1 ++ fraction ++ ['e', sign] ++ (toString exponent.natAbs).toList

def shortestText (bits : UInt64) : String :=
  let magnitude := bits.toNat % signBit
  let sign := if bits.toNat = magnitude then [] else ['-']
  let body := if magnitude = 0 then ['0', '.', '0'] else (Binary.ofBits (UInt64.ofNat magnitude)).shortest.layout
  String.ofList (sign ++ body)

end OrderDepot.Decimal
