import OrderDepot.Json.Fault
import OrderDepot.Text.Numeral
import OrderDepot.Text.Utf8

/-!
String literals of a JSON document, read behind their opening quote. Reading goes byte by byte through the
states of `Scan`. The bytes between the quotes have to be UTF-8 once the escapes are resolved, which is
looked at when the closing quote is found; an escaped surrogate has to be half of a pair.
-/

namespace OrderDepot.Json

inductive Scan where
  | plain
  | escape
  | unit (seen : List UInt8) (lead : Option Nat)
  | pair (lead : Nat)
  | pairEscape (lead : Nat)
  deriving DecidableEq, Repr

def escaped? (b : UInt8) : Option UInt8 :=
  match b with
  | 0x22 => some 0x22
  | 0x5C => some 0x5C
  | 0x2F => some 0x2F
  | 0x62 => some 0x08
  | 0x66 => some 0x0C
  | 0x6E => some 0x0A
  | 0x72 => some 0x0D
  | 0x74 => some 0x09
  | _ => none

def hexNumber? (ds : List UInt8) : Option Nat :=
  ds.foldl (fun n? d => do return (← n?) * 16 + (← Text.hexValue? d.toNat)) (some 0)

def isLead (n : Nat) : Bool :=
  0xD800 ≤ n && n ≤ 0xDBFF

def isTrail (n : Nat) : Bool :=
  0xDC00 ≤ n && n ≤ 0xDFFF

def closeUnit (lead : Option Nat) (n : Nat) : Except Cause (List UInt8 × Scan) :=
  match lead with
  | none =>
    if isTrail n then .error .unpairedSurrogate
    else if isLead n then .ok ([], .pair n)
    else .ok (Text.encodeChar (Char.ofNat n), .plain)
  | some h =>
    if isTrail n then
      .ok (Text.encodeChar (Char.ofNat (0x10000 + (h - 0xD800) * 0x400 + (n - 0xDC00))), .plain)
    else .error .unpairedSurrogate

def Scan.step : Scan → UInt8 → Except Cause (List UInt8 × Scan)
  | .plain, b =>
    if b = 0x5C then .ok ([], .escape)
    else if b < 0x20 then .error .controlCharacter
    else .ok ([b], .plain)
  | .escape, b =>
    if b = 0x75 then .ok ([], .unit [] none)
    else match escaped? b with
      | some c => .ok ([c], .plain)
      | none => .error .invalidEscape
  | .unit seen lead, b =>
    if seen.length < 3 then .ok ([], .unit (b :: seen) lead)
    else match hexNumber? (b :: seen).reverse with
      | some n => closeUnit lead n
      | none => .error .invalidEscape
  | .pair lead, b => if b = 0x5C then .ok ([], .pairEscape lead) else .error .brokenSurrogatePair
  | .pairEscape lead, b => if b = 0x75 then .ok ([], .unit [] (some lead)) else .error .brokenSurrogatePair

def Scan.closes (q : Scan) (b : UInt8) : Bool :=
  match q with
  | .plain => b == 0x22
  | _ => false

def scan (q : Scan) : List UInt8 → Except Fault (List UInt8 × List UInt8)
  | [] => .error (.here .endInText [])
  | b :: rest =>
    if q.closes b then .ok ([], rest)
    else
      match q.step b with
      | .error cause => .error (.here cause rest)
      | .ok (settled, next) => do
        let (more, rest) ← scan next rest
        return (settled ++ more, rest)

/-- Reads a literal behind its opening quote. Where its content stops being UTF-8 is reported as a distance
from the end of the literal. -/
def literal (s : List UInt8) : Except Fault (String × List UInt8) := do
  let (content, rest) ← scan .plain s
  match Text.text? content with
  | some t => return (t, rest)
  | none => throw ⟨.invalidCodePoint, rest.length + (content.length - Text.validLength content)⟩

inductive Pass where
  | plain
  | escape
  | unit (seen : List UInt8)
  deriving DecidableEq, Repr

def Pass.step : Pass → UInt8 → Except Cause Pass
  | .plain, b => .ok (if b = 0x5C then .escape else .plain)
  | .escape, b =>
    if b = 0x75 then .ok (.unit [])
    else if (escaped? b).isSome then .ok .plain
    else .error .invalidEscape
  | .unit seen, b =>
    if seen.length < 3 then .ok (.unit (b :: seen))
    else if (hexNumber? (b :: seen).reverse).isSome then .ok .plain
    else .error .invalidEscape

def passLiteral (q : Pass) : List UInt8 → Except Fault (List UInt8)
  | [] => .error (.here .endInText [])
  | b :: rest =>
    if q = .plain ∧ b = 0x22 then .ok rest
    else if q = .plain ∧ b < 0x20 then .error (.here .controlCharacter (b :: rest))
    else
      match q.step b with
      | .error cause => .error (.here cause rest)
      | .ok next => passLiteral next rest

end OrderDepot.Json
