import OrderDepot.Json.Pass

/-!
Typed reading of a JSON document. A reader takes a value off the front of the bytes that are left, so syntax
and type of the document are checked together from left to right, and the first fault ends the reading.
A `Shape` says how a record is read, from an object or from the list of its field values.
-/

namespace OrderDepot.Json

abbrev Reader (α : Type) := List UInt8 → Except Fault (α × List UInt8)

def Reader.map {α β : Type} (f : α → β) (r : Reader α) : Reader β := fun s => do
  let (a, rest) ← r s
  return (f a, rest)

def wrongType (expected : String) (s : List UInt8) : Fault :=
  let found (f : Found) (rest : List UInt8) : Fault := .here (.wrongType f expected) rest
  let afterWord (f : Found) : Except Fault (List UInt8) → Fault
    | .ok rest => found f rest
    | .error fault => fault
  match s with
  | 0x6E :: r => afterWord .null (word restOfNull r)
  | 0x74 :: r => afterWord (.boolean true) (word restOfTrue r)
  | 0x66 :: r => afterWord (.boolean false) (word restOfFalse r)
  | 0x22 :: r =>
    match literal r with
    | .ok (t, rest) => found (.text t) rest
    | .error fault => fault
  | 0x5B :: _ => found .list s
  | 0x7B :: _ => found .object s
  | b :: _ =>
    if b = 0x2D ∨ isDigit b then
      match number s with
      | .ok (n, rest) => found (.number n) rest
      | .error fault => fault
    else .next .expectedValue s
  | [] => .next .endInValue s

def textAs {α : Type} (expected : String) (convert : String → Except Cause α) : Reader α := fun s =>
  match skipBlank s with
  | 0x22 :: r => do
    let (t, rest) ← literal r
    match convert t with
    | .ok a => return (a, rest)
    | .error cause => throw (.here cause rest)
  | s => .error (wrongType expected s)

def text : Reader String :=
  textAs "a string" .ok

def integer (expected : String) (low high : Int) : Reader Int := fun s =>
  match skipBlank s with
  | [] => .error (wrongType expected [])
  | b :: r =>
    if b = 0x2D ∨ isDigit b then do
      let (n, rest) ← number (b :: r)
      match n with
      | .integer v =>
        if low ≤ v ∧ v ≤ high then return (v, rest)
        else throw (.here (.wrongValue (.number n) expected) rest)
      | .binary _ => throw (.here (.wrongType (.number n) expected) rest)
    else .error (wrongType expected (b :: r))

def int64 : Reader Int64 :=
  (integer "i64" Int64.minValue.toInt Int64.maxValue.toInt).map Int64.ofInt

def int32 : Reader Int32 :=
  (integer "i32" Int32.minValue.toInt Int32.maxValue.toInt).map Int32.ofInt

def uint32 : Reader UInt32 :=
  (integer "u32" 0 (UInt32.size - 1)).map fun n => UInt32.ofNat n.toNat

/-- Looks for the next element of a list: the input in front of it, or in front of the closing bracket. -/
def element? (first : Bool) (s : List UInt8) : Except Fault (Bool × List UInt8) :=
  match skipBlank s with
  | [] => .error (.next .endInList [])
  | 0x5D :: rest => .ok (false, 0x5D :: rest)
  | b :: rest =>
    if first then .ok (true, b :: rest)
    else if b = 0x2C then
      match skipBlank rest with
      | [] => .error (.next .endInValue [])
      | 0x5D :: rest => .error (.next .trailingComma (0x5D :: rest))
      | rest => .ok (true, rest)
    else .error (.next .expectedListEnd (b :: rest))

def name? (first : Bool) (s : List UInt8) : Except Fault (Bool × List UInt8) :=
  let opened (s : List UInt8) : Except Fault (Bool × List UInt8) :=
    match s with
    | 0x22 :: rest => .ok (true, rest)
    | _ => .error (.next .nameNotText s)
  match skipBlank s with
  | [] => .error (.next .endInObject [])
  | 0x7D :: rest => .ok (false, 0x7D :: rest)
  | b :: rest =>
    if first then opened (b :: rest)
    else if b = 0x2C then
      match skipBlank rest with
      | [] => .error (.next .endInValue [])
      | 0x7D :: rest => .error (.next .trailingComma (0x7D :: rest))
      | rest => opened rest
    else .error (.next .expectedObjectEnd (b :: rest))

def listEnd (s : List UInt8) : Except Fault (List UInt8) :=
  match skipBlank s with
  | [] => .error (.next .endInList [])
  | 0x5D :: rest => .ok rest
  | 0x2C :: rest =>
    match skipBlank rest with
    | 0x5D :: rest => .error (.next .trailingComma (0x5D :: rest))
    | rest => .error (.next .trailingCharacters rest)
  | rest => .error (.next .trailingCharacters rest)

/-- The place of a fault that concerns a list as a whole: behind its end, if that comes next, else as far
as the end was looked for. -/
def afterList (cause : Cause) (s : List UInt8) : Fault :=
  match skipBlank s with
  | 0x5D :: rest => .here cause rest
  | 0x2C :: rest => .here cause (skipBlank rest)
  | rest => .here cause rest

def afterObject (cause : Cause) (s : List UInt8) : Fault :=
  match skipBlank s with
  | 0x7D :: rest => .here cause rest
  | rest => .here cause rest

/-- Reads the elements of a list up to its closing bracket. There are fewer of them than bytes in `limit`. -/
def elements {α : Type} (r : Reader α) (limit : List UInt8) (first : Bool) : Reader (List α) := fun s =>
  match limit with
  | [] => .error (.next .endInList s)
  | _ :: limit => do
    let (more, rest) ← element? first s
    if more then
      let (a, rest) ← r rest
      let (as, rest) ← elements r limit false rest
      return (a :: as, rest)
    else return ([], rest)

def listOf {α : Type} (r : Reader α) : Reader (List α) := fun s =>
  match skipBlank s with
  | 0x5B :: rest => do
    let (as, rest) ← elements r (0x5B :: rest) true rest
    return (as, ← listEnd rest)
  | s => .error (wrongType "a sequence" s)

structure Field (α : Type) where
  name : String
  read : Reader (α → Except Cause α)

def Field.of {α β : Type} (name : String) (r : Reader β) (put : β → α → α) : Field α :=
  ⟨name, r.map fun b a => .ok (put b a)⟩

structure Shape (α : Type) where
  title : String
  fields : List (Field α)
  start : α
  /-- Names that are no field's are refused, else they are passed over with their values. -/
  closed : Bool
  /-- Every field has to be given, else it keeps its value from `start`. -/
  full : Bool

def Shape.names {α : Type} (sh : Shape α) : List String :=
  sh.fields.map (·.name)

def positional {α : Type} (sh : Shape α) : List (Field α) → Bool → α → Reader α
  | [], _, a, s => .ok (a, s)
  | f :: fs, first, a, s => do
    let (more, rest) ← element? first s
    if more then
      let (put, rest) ← f.read rest
      match put a with
      | .ok a => positional sh fs false a rest
      | .error cause => throw (afterList cause rest)
    else if sh.full then
      let read := sh.fields.length - (fs.length + 1)
      throw (afterList (.wrongLength read s!"{sh.title} with {sh.fields.length} elements") rest)
    else return (a, rest)

/-- Reads the members of an object up to its closing bracket; also gives the names of the fields that were
read. There are fewer members than bytes in `limit`. -/
def members {α : Type} (sh : Shape α) (limit : List UInt8) (first : Bool) (seen : List String) (a : α) :
    Reader (List String × α) := fun s =>
  match limit with
  | [] => .error (.next .endInObject s)
  | _ :: limit => do
    let (more, rest) ← name? first s
    if more then
      let (name, rest) ← literal rest
      match sh.fields.find? (·.name == name) with
      | some f =>
        if seen.contains name then throw (afterObject (.duplicateField name) rest)
        else
          let (put, rest) ← f.read (← colon rest)
          match put a with
          | .ok a => members sh limit false (name :: seen) a rest
          | .error cause => throw (afterObject cause rest)
      | none =>
        if sh.closed then throw (afterObject (.unknownField name sh.names) rest)
        else members sh limit false seen a (← pass (← colon rest))
    else return ((seen, a), rest)

def Shape.missing? {α : Type} (sh : Shape α) (seen : List String) : Option String :=
  if sh.full then sh.names.find? fun n => !seen.contains n else none

def objectEnd (s : List UInt8) : Except Fault (List UInt8) :=
  match skipBlank s with
  | [] => .error (.next .endInObject [])
  | 0x7D :: rest => .ok rest
  | 0x2C :: rest => .error (.next .trailingComma (0x2C :: rest))
  | rest => .error (.next .trailingCharacters rest)

def record {α : Type} (sh : Shape α) : Reader α := fun s =>
  match skipBlank s with
  | 0x5B :: rest => do
    let (a, rest) ← positional sh sh.fields true sh.start rest
    return (a, ← listEnd rest)
  | 0x7B :: rest => do
    let ((seen, a), rest) ← members sh (0x7B :: rest) true [] sh.start rest
    match sh.missing? seen with
    | some name => throw (afterObject (.missingField name) rest)
    | none => return (a, ← objectEnd rest)
  | s => .error (wrongType sh.title s)

def variant {α : Type} (names : List (String × α)) : Reader α :=
  let choose (t : String) : Except Cause α :=
    match names.lookup t with
    | some a => .ok a
    | none => .error (.unknownVariant t (names.map (·.1)))
  fun s =>
    match skipBlank s with
    | [] => .error (.next .endInValue [])
    | 0x22 :: rest => textAs "variant identifier" choose (0x22 :: rest)
    | 0x7B :: rest => do
      let (a, rest) ← textAs "variant identifier" choose rest
      match skipBlank (← colon rest) with
      | 0x6E :: rest =>
        match skipBlank (← word restOfNull rest) with
        | [] => throw (.here .endInObject [])
        | 0x7D :: rest => return (a, rest)
        | rest => throw (.here .expectedValue rest)
      | rest => throw (wrongType "unit" rest)
    | rest => .error (.next .expectedValue rest)

def readDocument {α : Type} (r : Reader α) (document : List UInt8) : Except Error α :=
  match r document with
  | .error fault => .error (fault.locate document)
  | .ok (a, rest) =>
    match skipBlank rest with
    | [] => .ok a
    | rest => .error (Fault.locate document (.next .trailingCharacters rest))

end OrderDepot.Json
