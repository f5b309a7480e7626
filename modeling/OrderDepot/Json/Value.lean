/-!
JSON values that documents are made of, and their two layouts: compact, without any white space, and pretty,
with one member or element per line and two spaces for each level. Members keep their order.
-/

namespace OrderDepot.Json

inductive Value where
  | text (value : String)
  | integer (value : Int)
  | list (elements : List Value)
  | object (members : List (String × Value))

def escapedChar (c : Char) : List Char :=
  if c = '"' then ['\\', '"']
  else if c = '\\' then ['\\', '\\']
  else if c = '\x08' then ['\\', 'b']
  else if c = '\t' then ['\\', 't']
  else if c = '\n' then ['\\', 'n']
  else if c = '\x0c' then ['\\', 'f']
  else if c = '\r' then ['\\', 'r']
  else if c.toNat < 0x20 then
    ['\\', 'u', '0', '0', Nat.digitChar (c.toNat / 16), Nat.digitChar (c.toNat % 16)]
  else [c]

def stringChars (s : String) : List Char :=
  '"' :: s.toList.flatMap escapedChar ++ ['"']

def integerChars (n : Int) : List Char :=
  (toString n).toList

mutual

def Value.compactChars : Value → List Char
  | .text s => stringChars s
  | .integer n => integerChars n
  | .list vs => '[' :: compactElements true vs ++ [']']
  | .object ms => '\x7b' :: compactMembers true ms ++ ['\x7d']

def compactElements : Bool → List Value → List Char
  | _, [] => []
  | first, v :: vs => (if first then [] else [',']) ++ v.compactChars ++ compactElements false vs

def compactMembers : Bool → List (String × Value) → List Char
  | _, [] => []
  | first, (n, v) :: ms =>
    (if first then [] else [',']) ++ stringChars n ++ ':' :: v.compactChars ++ compactMembers false ms

end

def newLine (level : Nat) : List Char :=
  '\n' :: List.replicate (2 * level) ' '

mutual

def Value.prettyChars (level : Nat) : Value → List Char
  | .text s => stringChars s
  | .integer n => integerChars n
  | .list [] => ['[', ']']
  | .list (v :: vs) => '[' :: prettyElements (level + 1) true (v :: vs) ++ newLine level ++ [']']
  | .object [] => ['\x7b', '\x7d']
  | .object (m :: ms) => '\x7b' :: prettyMembers (level + 1) true (m :: ms) ++ newLine level ++ ['\x7d']

def prettyElements (level : Nat) : Bool → List Value → List Char
  | _, [] => []
  | first, v :: vs =>
    (if first then [] else [',']) ++ newLine level ++ v.prettyChars level ++ prettyElements level false vs

def prettyMembers (level : Nat) : Bool → List (String × Value) → List Char
  | _, [] => []
  | first, (n, v) :: ms =>
    (if first then [] else [',']) ++ newLine level ++ stringChars n ++ ':' :: ' ' :: v.prettyChars level ++
      prettyMembers level false ms

end

def Value.compact (v : Value) : String :=
  String.ofList v.compactChars

def Value.pretty (v : Value) : String :=
  String.ofList (v.prettyChars 0)

end OrderDepot.Json
