/-!
Unsigned decimal numerals with an upper limit. Reading goes from left to right and stops at the first
character that is no digit or that takes the value past the limit, so an overflow that comes first is
reported even if the rest of the text is no numeral.
-/

namespace OrderDepot.Text

inductive NumeralError where
  | empty
  | invalidDigit
  | tooLarge
  deriving DecidableEq, Repr

def NumeralError.message : NumeralError → String
  | .empty => "cannot parse integer from empty string"
  | .invalidDigit => "invalid digit found in string"
  | .tooLarge => "number too large to fit in target type"

def digit? (c : Char) : Option Nat :=
  if '0' ≤ c ∧ c ≤ '9' then some (c.toNat - 48) else none

def appendDigits (limit : Nat) : Nat → List Char → Except NumeralError Nat
  | value, [] => .ok value
  | value, c :: rest =>
    match digit? c with
    | none => .error .invalidDigit
    | some d =>
      if value * 10 + d ≤ limit then appendDigits limit (value * 10 + d) rest
      else .error .tooLarge

/-- Reads an unsigned numeral of at most `limit`; a plus sign may stand in front of the digits. -/
def readUnsigned (limit : Nat) : List Char → Except NumeralError Nat
  | [] => .error .empty
  | ['+'] => .error .invalidDigit
  | '+' :: rest => appendDigits limit 0 rest
  | s => appendDigits limit 0 s

def hexValue? (n : Nat) : Option Nat :=
  if 48 ≤ n ∧ n ≤ 57 then some (n - 48)
  else if 97 ≤ n ∧ n ≤ 102 then some (n - 87)
  else if 65 ≤ n ∧ n ≤ 70 then some (n - 55)
  else none

end OrderDepot.Text
