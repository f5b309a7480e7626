import OrderDepot.Decimal.Shortest
import OrderDepot.Text.Quoted

/-!
Why and where the reading of a JSON document stops. A place in the document is kept as the number of bytes
that are left behind it; line and column are worked out from the document itself once reading has stopped.
-/

namespace OrderDepot.Json

inductive Number where
  | integer (value : Int)
  | binary (bits : UInt64)
  deriving DecidableEq, Repr

inductive Found where
  | null
  | boolean (value : Bool)
  | number (value : Number)
  | text (value : String)
  | list
  | object
  deriving DecidableEq, Repr

def Found.describe : Found → String
  | .null => "null"
  | .boolean true => "boolean `true`"
  | .boolean false => "boolean `false`"
  | .number (.integer n) => s!"integer `{n}`"
  | .number (.binary bits) => s!"floating point `{Decimal.shortestText bits}`"
  | .text s => "string " ++ Text.quoted s
  | .list => "sequence"
  | .object => "map"

inductive Cause where
  | endInList
  | endInObject
  | endInText
  | endInValue
  | expectedColon
  | expectedListEnd
  | expectedObjectEnd
  | expectedIdent
  | expectedValue
  | invalidEscape
  | invalidNumber
  | numberOutOfRange
  | invalidCodePoint
  | controlCharacter
  | nameNotText
  | unpairedSurrogate
  | brokenSurrogatePair
  | trailingComma
  | trailingCharacters
  | wrongType (found : Found) (expected : String)
  | wrongValue (found : Found) (expected : String)
  | unknownField (name : String) (known : List String)
  | duplicateField (name : String)
  | missingField (name : String)
  | wrongLength (length : Nat) (expected : String)
  | unknownVariant (name : String) (known : List String)
  | refused (reason : String)
  deriving DecidableEq, Repr

def oneOf (names : List String) : String :=
  let marked := names.map fun n => "`" ++ n ++ "`"
  match marked with
  | [a] => a
  | [a, b] => a ++ " or " ++ b
  | _ => "one of " ++ String.intercalate ", " marked

def Cause.message : Cause → String
  | .endInList => "EOF while parsing a list"
  | .endInObject => "EOF while parsing an object"
  | .endInText => "EOF while parsing a string"
  | .endInValue => "EOF while parsing a value"
  | .expectedColon => "expected `:`"
  | .expectedListEnd => "expected `,` or `]`"
  | .expectedObjectEnd => "expected `,` or `\x7d`"
  | .expectedIdent => "expected ident"
  | .expectedValue => "expected value"
  | .invalidEscape => "invalid escape"
  | .invalidNumber => "invalid number"
  | .numberOutOfRange => "number out of range"
  | .invalidCodePoint => "invalid unicode code point"
  | .controlCharacter => "control character (\\u0000-\\u001F) found while parsing a string"
  | .nameNotText => "key must be a string"
  | .unpairedSurrogate => "lone leading surrogate in hex escape"
  | .brokenSurrogatePair => "unexpected end of hex escape"
  | .trailingComma => "trailing comma"
  | .trailingCharacters => "trailing characters"
  | .wrongType found expected => s!"invalid type: {found.describe}, expected {expected}"
  | .wrongValue found expected => s!"invalid value: {found.describe}, expected {expected}"
  | .unknownField name known => s!"unknown field `{name}`, expected {oneOf known}"
  | .duplicateField name => s!"duplicate field `{name}`"
  | .missingField name => s!"missing field `{name}`"
  | .wrongLength n expected => s!"invalid length {n}, expected {expected}"
  | .unknownVariant name known => s!"unknown variant `{name}`, expected {oneOf known}"
  | .refused reason => reason

inductive Category where
  | syntactic
  | data
  | truncated
  deriving DecidableEq, Repr

def Cause.category : Cause → Category
  | .endInList | .endInObject | .endInText | .endInValue => .truncated
  | .wrongType .. | .wrongValue .. | .unknownField .. | .duplicateField .. | .missingField ..
  | .wrongLength .. | .unknownVariant .. | .refused .. => .data
  | _ => .syntactic

/-- A cause, and the number of bytes behind the place where it shows. -/
structure Fault where
  cause : Cause
  left : Nat
  deriving DecidableEq, Repr

def Fault.here (cause : Cause) (rest : List UInt8) : Fault :=
  ⟨cause, rest.length⟩

def Fault.next (cause : Cause) (rest : List UInt8) : Fault :=
  ⟨cause, rest.length - 1⟩

structure Position where
  line : Nat
  column : Nat
  deriving DecidableEq, Repr

/-- The place behind all the bytes: lines count from 1, columns are the bytes since the last line feed. -/
def Position.after (before : List UInt8) : Position :=
  ⟨1 + before.count 0x0A, (before.reverse.takeWhile (· != 0x0A)).length⟩

structure Error where
  cause : Cause
  position : Position
  deriving DecidableEq, Repr

def Fault.locate (document : List UInt8) (f : Fault) : Error :=
  ⟨f.cause, .after (document.take (document.length - f.left))⟩

def Error.message (e : Error) : String :=
  s!"{e.cause.message} at line {e.position.line} column {e.position.column}"

end OrderDepot.Json
