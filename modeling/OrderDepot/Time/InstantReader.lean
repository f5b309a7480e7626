import OrderDepot.Text.Character
import OrderDepot.Text.Numeral
import OrderDepot.Time.Instant

/-!
Reading the text of an instant: a date, one of `T`, `t` and a space, a time of day with optional fraction,
and an offset from universal time. White space may stand in front of numbers, separators and the offset, and
behind the offset. Each number is checked against its own range as soon as it is read; whether the day exists
and the offset is less than a day is looked at when the whole text has been read.
-/

namespace OrderDepot.Time

open OrderDepot.Text (trimStart digit? isSpace)

inductive InstantError where
  | tooShort
  | invalid
  | outOfRange
  | impossible
  | trailing
  deriving DecidableEq, Repr

def InstantError.message : InstantError → String
  | .tooShort => "premature end of input"
  | .invalid => "input contains invalid characters"
  | .outOfRange => "input is out of range"
  | .impossible => "no possible date and time matching input"
  | .trailing => "trailing input"

abbrev Scan (α : Type) := List Char → Except InstantError (α × List Char)

def digitsValue (ds : List Char) : Nat :=
  ds.foldl (fun n c => n * 10 + (digit? c).getD 0) 0

def numberIn (window s : List Char) : Except InstantError (Nat × List Char) :=
  let ds := window.takeWhile fun c => (digit? c).isSome
  if s.isEmpty then .error .tooShort
  else if ds.isEmpty then .error .invalid
  else if digitsValue ds ≤ Int64.maxValue.toInt.toNat then .ok (digitsValue ds, s.drop ds.length)
  else .error .outOfRange

def number (width : Nat) : Scan Nat := fun s =>
  numberIn (s.take width) s

def longNumber : Scan Nat := fun s =>
  numberIn s s

def field (low high : Nat) : Scan Nat := fun s => do
  let (n, rest) ← number 2 (trimStart s)
  if low ≤ n ∧ n ≤ high then return (n, rest) else throw .outOfRange

def yearField : Scan Int := fun s => do
  let (year, rest) ← match trimStart s with
    | '-' :: r => do
      let (n, rest) ← longNumber r
      pure (-(n : Int), rest)
    | '+' :: r => do
      let (n, rest) ← longNumber r
      pure ((n : Int), rest)
    | r => do
      let (n, rest) ← number 4 r
      pure ((n : Int), rest)
  if Int32.minValue.toInt ≤ year ∧ year ≤ Int32.maxValue.toInt then return (year, rest) else throw .outOfRange

def separator (c : Char) (s : List Char) : Except InstantError (List Char) :=
  match trimStart s with
  | [] => .error .tooShort
  | d :: rest => if d = c then .ok rest else .error .invalid

def dateEnd : List Char → Except InstantError (List Char)
  | [] => .error .tooShort
  | c :: rest => if c = 'T' ∨ c = 't' ∨ c = ' ' then .ok rest else .error .invalid

/-- Nanoseconds, if a point follows. Of the digits behind the ninth none counts. -/
def fraction : Scan Nat
  | '.' :: s => do
    let (n, rest) ← number 9 s
    let read := s.length - rest.length
    return (n * Nat.pow 10 (9 - read), rest.dropWhile fun c => (digit? c).isSome)
  | s => .ok (0, s)

def twoDigits : List Char → Except InstantError (Nat × Nat × List Char)
  | [] => .error .tooShort
  | [c] => if c.toNat < 0x80 then .error .tooShort else .error .invalid
  | a :: b :: rest =>
    match digit? a, digit? b with
    | some m, some n => .ok (m, n, rest)
    | _, _ => .error .invalid

def zoneSize : Scan Nat := fun s => do
  let (a, b, rest) ← twoDigits s
  let (c, d, rest) ← twoDigits (rest.dropWhile fun c => c = ':' || isSpace c)
  if 6 ≤ c then throw .outOfRange
  return ((a * 10 + b) * 3600 + (c * 10 + d) * 60, rest)

def zone : Scan Int
  | [] => .error .tooShort
  | s@(c :: rest) =>
    if (s.take 3).map Char.toLower = ['u', 't', 'c'] then .ok (0, s.drop 3)
    else if c = 'Z' ∨ c = 'z' then .ok (0, rest)
    else if c = '+' then do
      let (n, rest) ← zoneSize rest
      return (n, rest)
    else if c = '-' ∨ c = '\u2212' then do
      let (n, rest) ← zoneSize rest
      return (-(n : Int), rest)
    else .error .invalid

structure LocalTime where
  date : Date
  hour : Nat
  minute : Nat
  second : Nat
  nanos : Nat
  ahead : Int
  deriving DecidableEq, Repr

def LocalTime.read (s : List Char) : Except InstantError LocalTime := do
  let (year, s) ← yearField s
  let (month, s) ← field 1 12 (← separator '-' s)
  let (day, s) ← field 1 31 (← separator '-' s)
  let (hour, s) ← field 0 23 (← dateEnd s)
  let (minute, s) ← field 0 59 (← separator ':' s)
  let (second, s) ← field 0 60 (← separator ':' s)
  let (nanos, s) ← fraction s
  let (ahead, s) ← zone (trimStart s)
  unless (trimStart s).isEmpty do throw .trailing
  return ⟨⟨year, month, day⟩, hour, minute, second, nanos, ahead⟩

def firstSecond : Int := (Date.mk firstYear 1 1).toDays * secondsPerDay

def lastSecond : Int := (Date.mk lastYear 12 31).toDays * secondsPerDay + 86399

def LocalTime.instant (t : LocalTime) : Except InstantError Instant :=
  if !t.date.isValid then .error .outOfRange
  else if secondsPerDay ≤ t.ahead.natAbs then .error .outOfRange
  else
    let leap := t.second = 60
    let ofDay : Int := t.hour * 3600 + t.minute * 60 + (if leap then 59 else t.second)
    let seconds := t.date.toDays * secondsPerDay + ofDay - t.ahead
    if firstSecond ≤ seconds ∧ seconds ≤ lastSecond then
      .ok ⟨seconds, if leap then t.nanos + 1000000000 else t.nanos⟩
    else .error .impossible

def Instant.read (s : String) : Except InstantError Instant := do
  (← LocalTime.read s.toList).instant

end OrderDepot.Time
