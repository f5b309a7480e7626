/-!
The proleptic Gregorian calendar. Days are counted from 1 January 1970. For the conversion a year is taken
to begin in March, so that the leap day is the last day of its year and 400 years form a whole cycle.
-/

namespace OrderDepot.Time

structure Date where
  year : Int
  month : Nat
  day : Nat
  deriving DecidableEq, Repr

def isLeap (year : Int) : Bool :=
  year % 4 = 0 && (year % 100 ≠ 0 || year % 400 = 0)

def monthLength (year : Int) (month : Nat) : Nat :=
  if month = 2 then (if isLeap year then 29 else 28)
  else if month = 4 ∨ month = 6 ∨ month = 9 ∨ month = 11 then 30
  else 31

def firstYear : Int := -262143

def lastYear : Int := 262142

def Date.isValid (d : Date) : Bool :=
  firstYear ≤ d.year && d.year ≤ lastYear && 1 ≤ d.month && d.month ≤ 12 && 1 ≤ d.day &&
    d.day ≤ monthLength d.year d.month

def daysPerCycle : Int := 146097

/-- The number of days from 1 March of the year 0 to 1 January 1970. -/
def epochShift : Int := 719468

def Date.toDays (d : Date) : Int :=
  let year := if d.month ≤ 2 then d.year - 1 else d.year
  let month : Int := if d.month ≤ 2 then d.month + 9 else d.month - 3
  let ofCycle := year % 400
  let ofYear := (153 * month + 2) / 5 + d.day - 1
  year / 400 * daysPerCycle + (ofCycle * 365 + ofCycle / 4 - ofCycle / 100 + ofYear) - epochShift

def Date.ofDays (n : Int) : Date :=
  let shifted := n + epochShift
  let day := shifted % daysPerCycle
  let ofCycle := (day - day / 1460 + day / 36524 - day / 146096) / 365
  let ofYear := day - (365 * ofCycle + ofCycle / 4 - ofCycle / 100)
  let month := (5 * ofYear + 2) / 153
  let year := shifted / daysPerCycle * 400 + ofCycle
  ⟨if month < 10 then year else year + 1,
    (if month < 10 then month + 3 else month - 9).toNat,
    (ofYear - (153 * month + 2) / 5 + 1).toNat⟩

end OrderDepot.Time
