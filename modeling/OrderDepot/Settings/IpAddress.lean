import OrderDepot.Text.Numeral

/-!
Internet addresses of both families. An address of the first family is four decimal numbers without leading
zeros. One of the second is eight groups of hexadecimal digits; `::` stands for at least one group of zeros,
and the last two groups may be written like an address of the first family. It is written with the first of
the longest runs of two or more zero groups left out, and in the mixed form where it stands for an address
of the first family.
-/

namespace OrderDepot.Settings

inductive IpAddress where
  | v4 (octets : List Nat)
  | v6 (groups : List Nat)
  deriving DecidableEq, Repr

namespace IpAddress

def hexValue? (c : Char) : Option Nat :=
  Text.hexValue? c.toNat

def digits? (value? : Char → Option Nat) (base width : Nat) (s : List Char) :
    Option (Nat × List Char) :=
  let ds := s.takeWhile fun c => (value? c).isSome
  if ds.isEmpty ∨ width < ds.length then none
  else some (ds.foldl (fun n c => n * base + (value? c).getD 0) 0, s.drop ds.length)

def octet? (s : List Char) : Option (Nat × List Char) := do
  let (n, rest) ← digits? Text.digit? 10 3 s
  let leadingZero := s.head? = some '0' ∧ rest.length + 1 < s.length
  if n ≤ 255 ∧ ¬leadingZero then some (n, rest) else none

def point? : List Char → Option (List Char)
  | '.' :: rest => some rest
  | _ => none

def octets? (s : List Char) : Option (List Nat × List Char) := do
  let (a, s) ← octet? s
  let (b, s) ← octet? (← point? s)
  let (c, s) ← octet? (← point? s)
  let (d, s) ← octet? (← point? s)
  return ([a, b, c, d], s)

def group? (s : List Char) : Option (Nat × List Char) :=
  digits? hexValue? 16 4 s

def colon? (first : Bool) (s : List Char) : Option (List Char) :=
  if first then some s
  else
    match s with
    | ':' :: rest => some rest
    | _ => none

def groups : Nat → Bool → List Char → List Nat × Bool × List Char
  | 0, _, s => ([], false, s)
  | limit + 1, first, s =>
    let mixed := if limit = 0 then none else (colon? first s).bind octets?
    match mixed with
    | some ([a, b, c, d], rest) => ([a * 256 + b, c * 256 + d], true, rest)
    | _ =>
      match (colon? first s).bind group? with
      | some (g, rest) =>
        let (gs, mixed, rest) := groups limit false rest
        (g :: gs, mixed, rest)
      | none => ([], false, s)

def v6? (s : List Char) : Option (List Nat × List Char) :=
  let (head, mixed, rest) := groups 8 true s
  if head.length = 8 then some (head, rest)
  else if mixed then none
  else
    match rest with
    | ':' :: ':' :: rest =>
      let (tail, _, rest) := groups (7 - head.length) true rest
      some (head ++ List.replicate (8 - head.length - tail.length) 0 ++ tail, rest)
    | _ => none

def read? (s : List Char) : Option IpAddress :=
  match octets? s with
  | some (os, rest) => if rest.isEmpty then some (.v4 os) else none
  | none =>
    match v6? s with
    | some (gs, []) => some (.v6 gs)
    | _ => none

def joined (separator : String) (part : Nat → String) (ns : List Nat) : String :=
  String.intercalate separator (ns.map part)

def octetText (os : List Nat) : String :=
  joined "." toString os

def groupText (gs : List Nat) : String :=
  joined ":" (fun g => String.ofList (Nat.toDigits 16 g)) gs

def zeroRun (gs : List Nat) : Nat :=
  (gs.takeWhile (· = 0)).length

def longestRun (index : Nat) : List Nat → Nat × Nat
  | [] => (0, 0)
  | g :: gs =>
    let later := longestRun (index + 1) gs
    let here := zeroRun (g :: gs)
    if later.2 ≤ here ∧ 0 < here then (index, here) else later

def v6Text (gs : List Nat) : String :=
  match gs with
  | [0, 0, 0, 0, 0, 0xFFFF, a, b] =>
    "::ffff:" ++ octetText [a / 256, a % 256, b / 256, b % 256]
  | _ =>
    let (start, length) := longestRun 0 gs
    if 1 < length then groupText (gs.take start) ++ "::" ++ groupText (gs.drop (start + length))
    else groupText gs

def text : IpAddress → String
  | .v4 os => octetText os
  | .v6 gs => v6Text gs

def socketText (a : IpAddress) (port : Nat) : String :=
  match a with
  | .v4 _ => s!"{a.text}:{port}"
  | .v6 _ => s!"[{a.text}]:{port}"

end IpAddress

end OrderDepot.Settings
