import OrderDepot.Text.Character

/-!
Email addresses: a local part and a dotted domain on the two sides of a single `@`, without white space and
control characters, and of at most 254 bytes. The first condition that is broken names the error.
-/

namespace OrderDepot

inductive EmailError where
  | empty
  | tooLong
  | invalidCharacter
  | missingAt
  | severalAts
  | emptyLocal
  | emptyDomain
  | emptyLabel
  deriving DecidableEq, Repr

def Email.maxLength : Nat := 254

def EmailError.message : EmailError → String
  | .empty => "email cannot be empty"
  | .tooLong => s!"email must be at most {Email.maxLength} characters"
  | .invalidCharacter => "email must not contain whitespace"
  | .missingAt => "email must contain an @ symbol"
  | .severalAts => "email must contain exactly one @ symbol"
  | .emptyLocal => "email local part cannot be empty"
  | .emptyDomain => "email domain cannot be empty"
  | .emptyLabel => "email domain is malformed"

structure Email where
  text : String
  deriving DecidableEq, Repr

/-- The part in front of the first `@`, or all if there is none. -/
def Email.localPart (e : Email) : String :=
  String.ofList (e.text.toList.takeWhile (· ≠ '@'))

/-- The part between the first and the second `@`, or what follows the first. -/
def Email.domain (e : Email) : String :=
  String.ofList (((e.text.toList.dropWhile (· ≠ '@')).drop 1).takeWhile (· ≠ '@'))

def domainLabels (domain : List Char) : List (List Char) :=
  domain.splitOnP (· = '.')

def Email.parse (s : String) : Except EmailError Email :=
  let cs := s.toList
  let domain := (cs.dropWhile (· ≠ '@')).drop 1
  if cs.isEmpty then .error .empty
  else if s.utf8ByteSize > Email.maxLength then .error .tooLong
  else if cs.any fun c => Text.isSpace c || Text.isControl c then .error .invalidCharacter
  else if !cs.contains '@' then .error .missingAt
  else if domain.contains '@' then .error .severalAts
  else if cs.head? = some '@' then .error .emptyLocal
  else if domain.isEmpty then .error .emptyDomain
  else if (domainLabels domain).any List.isEmpty then .error .emptyLabel
  else .ok ⟨s⟩

end OrderDepot
