/-!
UTF-8 in both directions. `text?` refuses bytes that are not UTF-8, and `lossyText` puts U+FFFD in place of
every longest run of bytes that starts a character without finishing it.
-/

namespace OrderDepot.Text

def bytes (s : String) : List UInt8 :=
  s.toByteArray.data.toList

def text? (bs : List UInt8) : Option String :=
  String.fromUTF8? bs.toByteArray

/-- A character of which only the first bytes have been seen. -/
structure Partial where
  value : Nat
  missing : Nat
  low : UInt8
  high : UInt8

/-- What the first byte of a longer character says about the bytes to come. The bounds on the second byte
keep out overlong forms, surrogates and values past U+10FFFF. -/
def Partial.ofLead? (b : UInt8) : Option Partial :=
  if 0xC2 ≤ b ∧ b ≤ 0xDF then some ⟨b.toNat % 32, 1, 0x80, 0xBF⟩
  else if b = 0xE0 then some ⟨0, 2, 0xA0, 0xBF⟩
  else if b = 0xED then some ⟨13, 2, 0x80, 0x9F⟩
  else if 0xE1 ≤ b ∧ b ≤ 0xEF then some ⟨b.toNat % 16, 2, 0x80, 0xBF⟩
  else if b = 0xF0 then some ⟨0, 3, 0x90, 0xBF⟩
  else if 0xF1 ≤ b ∧ b ≤ 0xF3 then some ⟨b.toNat % 8, 3, 0x80, 0xBF⟩
  else if b = 0xF4 then some ⟨4, 3, 0x80, 0x8F⟩
  else none

def replacement : Char := '\ufffd'

def startByte (b : UInt8) : List Char × Option Partial :=
  if b < 0x80 then ([Char.ofNat b.toNat], none)
  else match Partial.ofLead? b with
    | some p => ([], some p)
    | none => ([replacement], none)

def stepByte : Option Partial → UInt8 → List Char × Option Partial
  | none, b => startByte b
  | some p, b =>
    if p.low ≤ b ∧ b ≤ p.high then
      let value := p.value * 64 + b.toNat % 64
      if p.missing ≤ 1 then ([Char.ofNat value], none)
      else ([], some ⟨value, p.missing - 1, 0x80, 0xBF⟩)
    else
      let next := startByte b
      (replacement :: next.1, next.2)

def lossyFrom : Option Partial → List UInt8 → List Char
  | none, [] => []
  | some _, [] => [replacement]
  | pending, b :: rest =>
    let next := stepByte pending b
    next.1 ++ lossyFrom next.2 rest

def lossyText (bs : List UInt8) : String :=
  String.ofList (lossyFrom none bs)

/-- The length of the longest start of the bytes that is UTF-8. `read` bytes have been looked at, and the
first `whole` of them are whole characters. -/
def validLengthFrom (whole read : Nat) : Option Partial → List UInt8 → Nat
  | _, [] => whole
  | none, b :: rest =>
    if b < 0x80 then validLengthFrom (read + 1) (read + 1) none rest
    else match Partial.ofLead? b with
      | some p => validLengthFrom whole (read + 1) (some p) rest
      | none => whole
  | some p, b :: rest =>
    if p.low ≤ b ∧ b ≤ p.high then
      if p.missing ≤ 1 then validLengthFrom (read + 1) (read + 1) none rest
      else validLengthFrom whole (read + 1) (some ⟨p.value, p.missing - 1, 0x80, 0xBF⟩) rest
    else whole

def validLength (bs : List UInt8) : Nat :=
  validLengthFrom 0 0 none bs

def encodeChar (c : Char) : List UInt8 :=
  String.utf8EncodeChar c

end OrderDepot.Text
