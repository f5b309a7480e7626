import OrderDepot.Time.Calendar

/-!
Instants in universal time and their text. An instant is the number of seconds since 1970 and the nanoseconds
on top; inside a leap second the nanoseconds run on from 10⁹ on top of second 59. The text has as many
fraction digits as are needed out of 0, 3, 6 and 9, and a sign in front of a year that has no four digits.
-/

namespace OrderDepot.Time

structure Instant where
  seconds : Int
  nanos : Nat
  deriving DecidableEq, Repr, Inhabited

def Instant.epoch : Instant := ⟨0, 0⟩

def Instant.before (a b : Instant) : Bool :=
  a.seconds < b.seconds || (a.seconds = b.seconds && a.nanos < b.nanos)

/-- A positive number of seconds later. A leap second counts as the second it extends. -/
def Instant.later (t : Instant) (seconds : Nat) : Instant :=
  ⟨t.seconds + seconds, if 1000000000 ≤ t.nanos then t.nanos - 1000000000 else t.nanos⟩

def secondsPerDay : Int := 86400

def padded (width n : Nat) : List Char :=
  let ds := Nat.toDigits 10 n
  List.replicate (width - ds.length) '0' ++ ds

def yearChars (year : Int) : List Char :=
  if 0 ≤ year ∧ year ≤ 9999 then padded 4 year.toNat
  else (if year < 0 then '-' else '+') :: padded 4 year.natAbs

def fractionChars (nanos : Nat) : List Char :=
  if nanos = 0 then []
  else if nanos % 1000000 = 0 then '.' :: padded 3 (nanos / 1000000)
  else if nanos % 1000 = 0 then '.' :: padded 6 (nanos / 1000)
  else '.' :: padded 9 nanos

def Instant.chars (t : Instant) : List Char :=
  let date := Date.ofDays (t.seconds / secondsPerDay)
  let time := (t.seconds % secondsPerDay).toNat
  let second := time % 60 + t.nanos / 1000000000
  yearChars date.year ++ '-' :: padded 2 date.month ++ '-' :: padded 2 date.day ++
    'T' :: padded 2 (time / 3600) ++ ':' :: padded 2 (time / 60 % 60) ++ ':' :: padded 2 second ++
    fractionChars (t.nanos % 1000000000) ++ ['Z']

def Instant.text (t : Instant) : String :=
  String.ofList t.chars

end OrderDepot.Time
