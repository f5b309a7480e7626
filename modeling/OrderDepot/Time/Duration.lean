import OrderDepot.Text.Character
import OrderDepot.Text.Numeral

/-!
Lengths of time, to the nanosecond. A written duration is a whole number with a unit; a number without unit
counts seconds. What it stands for has to fit 64 bits of seconds, or of milliseconds where that is the unit.
-/

namespace OrderDepot.Time

structure Duration where
  nanos : Nat
  deriving DecidableEq, Repr, Inhabited

namespace Duration

def perSecond : Nat := 1000000000

def ofSeconds (n : Nat) : Duration := ⟨n * perSecond⟩

def ofMillis (n : Nat) : Duration := ⟨n * 1000000⟩

def longest : Duration := ⟨UInt64.size * perSecond - 1⟩

def seconds (d : Duration) : Nat := d.nanos / perSecond

def subsecond (d : Duration) : Nat := d.nanos % perSecond

def fractionChars (part whole : Nat) : List Char :=
  if part = 0 then []
  else
    let width := (Nat.toDigits 10 whole).length - 1
    let ds := Nat.toDigits 10 part
    let all := List.replicate (width - ds.length) '0' ++ ds
    '.' :: (all.reverse.dropWhile (· = '0')).reverse

def describe (d : Duration) : String :=
  let inUnit (unit : Nat) (name : String) : String :=
    toString (d.nanos / unit) ++ String.ofList (fractionChars (d.nanos % unit) unit) ++ name
  if perSecond ≤ d.nanos then inUnit perSecond "s"
  else if 1000000 ≤ d.nanos then inUnit 1000000 "ms"
  else if 1000 ≤ d.nanos then inUnit 1000 "\u00b5s"
  else inUnit 1 "ns"

end Duration

inductive DurationError where
  | notWhole (text : String)
  | unknownUnit (unit : String)
  | tooLarge (text : String)
  deriving DecidableEq, Repr

def DurationError.message : DurationError → String
  | .notWhole s => s!"`{s}` does not start with a whole number"
  | .unknownUnit u => s!"unknown duration unit `{u}`"
  | .tooLarge s => s!"`{s}` is too large"

def largestCount : Nat := UInt64.size - 1

/-- Reads a number of 64 bits and a unit, with white space around and between them. -/
def Duration.read (s : String) : Except DurationError Duration :=
  let text := Text.trimmed s.toList
  let digits := text.takeWhile fun c => (Text.digit? c).isSome
  let unit := String.ofList (Text.trimmed (text.drop digits.length))
  let inSeconds (factor amount : Nat) : Except DurationError Duration :=
    if amount * factor ≤ largestCount then .ok (ofSeconds (amount * factor))
    else .error (.tooLarge (String.ofList text))
  match Text.readUnsigned largestCount digits with
  | .error _ => .error (.notWhole (String.ofList text))
  | .ok amount =>
    if unit = "ms" then .ok (ofMillis amount)
    else if unit = "" ∨ unit = "s" then inSeconds 1 amount
    else if unit = "m" then inSeconds 60 amount
    else if unit = "h" then inSeconds 3600 amount
    else .error (.unknownUnit unit)

end OrderDepot.Time
