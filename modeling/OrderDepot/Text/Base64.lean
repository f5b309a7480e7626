import OrderDepot.Text.Numeral

/-!
Base64 with the standard alphabet and obligatory padding. Reading is strict: padding only closes the last
group of four, and the bits of the last symbol that carry no data are zero, so each byte string has one
written form.
-/

namespace OrderDepot.Text.Base64

inductive Error where
  | symbol (byte : UInt8) (offset : Nat)
  | lastSymbol (byte : UInt8) (offset : Nat)
  | length (n : Nat)
  | padding
  deriving DecidableEq, Repr

def Error.message : Error → String
  | .symbol b i => s!"Invalid symbol {b}, offset {i}."
  | .lastSymbol b i => s!"Invalid last symbol {b}, offset {i}."
  | .length n => s!"Invalid input length: {n}"
  | .padding => "Invalid padding"

def symbol (n : Nat) : Char :=
  if n < 26 then Char.ofNat (65 + n)
  else if n < 52 then Char.ofNat (71 + n)
  else if n < 62 then Char.ofNat (n - 4)
  else if n = 62 then '+'
  else '/'

def value? (b : UInt8) : Option Nat :=
  if 65 ≤ b ∧ b ≤ 90 then some (b.toNat - 65)
  else if 97 ≤ b ∧ b ≤ 122 then some (b.toNat - 71)
  else if 48 ≤ b ∧ b ≤ 57 then some (b.toNat + 4)
  else if b = 43 then some 62
  else if b = 47 then some 63
  else none

def pad : UInt8 := 61

def encodeChars : List UInt8 → List Char
  | [] => []
  | [a] =>
    let n := a.toNat * 16
    [symbol (n / 64), symbol (n % 64), '=', '=']
  | [a, b] =>
    let n := (a.toNat * 256 + b.toNat) * 4
    [symbol (n / 4096), symbol (n / 64 % 64), symbol (n % 64), '=']
  | a :: b :: c :: rest =>
    let n := (a.toNat * 256 + b.toNat) * 256 + c.toNat
    symbol (n / 262144) :: symbol (n / 4096 % 64) :: symbol (n / 64 % 64) :: symbol (n % 64) ::
      encodeChars rest

def encode (bs : List UInt8) : String :=
  String.ofList (encodeChars bs)

def values : Nat → List UInt8 → Except Error (List Nat)
  | _, [] => .ok []
  | offset, b :: rest =>
    match value? b with
    | none => .error (.symbol b offset)
    | some v => return v :: (← values (offset + 1) rest)

def checkPadding (offset : Nat) (group : List UInt8) : Except Error Unit :=
  let body := group.takeWhile (· != pad)
  let tail := group.drop body.length
  if tail.isEmpty then .ok ()
  else if body.length < 2 ∨ tail.any (· != pad) then .error (.symbol pad (offset + body.length))
  else .ok ()

def groupBytes : List Nat → List UInt8
  | [a, b] => [UInt8.ofNat (a * 4 + b / 16)]
  | [a, b, c] => [UInt8.ofNat (a * 4 + b / 16), UInt8.ofNat (b % 16 * 16 + c / 4)]
  | [a, b, c, d] =>
    [UInt8.ofNat (a * 4 + b / 16), UInt8.ofNat (b % 16 * 16 + c / 4), UInt8.ofNat (c % 4 * 64 + d)]
  | _ => []

def spareBits : List Nat → Nat
  | [_, b] => b % 16
  | [_, _, c] => c % 4
  | _ => 0

def lastGroup (offset : Nat) (group : List UInt8) : Except Error (List UInt8) := do
  let body := group.takeWhile (· != pad)
  let vs ← values offset body
  checkPadding offset group
  if vs.length < 2 then .error (.length (offset + vs.length))
  else if group.length < 4 then .error .padding
  else if spareBits vs ≠ 0 then
    .error (.lastSymbol (body.getLast?.getD 0) (offset + vs.length - 1))
  else .ok (groupBytes vs)

def groups : Nat → List UInt8 → Except Error (List UInt8)
  | _, [] => .ok []
  | offset, a :: b :: c :: d :: e :: rest => do
    let vs ← values offset [a, b, c, d]
    return groupBytes vs ++ (← groups (offset + 4) (e :: rest))
  | offset, group => lastGroup offset group

def strayEnd (bs : List UInt8) : Except Error Unit :=
  match bs.getLast? with
  | some b =>
    if bs.length % 4 = 1 ∧ b ≠ pad ∧ (value? b).isNone then .error (.symbol b (bs.length - 1))
    else .ok ()
  | none => .ok ()

def decode (bs : List UInt8) : Except Error (List UInt8) := do
  strayEnd bs
  groups 0 bs

end OrderDepot.Text.Base64
