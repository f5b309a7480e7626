import OrderDepot.Json.Literal

/-!
# The grammar of documents

RFC 8259 as a relation between trees and the characters that spell them. Arrays and objects are spelled up to their
closing brackets, element by element. A tree keeps of a number its digits, and of a string its text, if the
surrogates that are escaped in it are paired.
-/

namespace OrderDepot.Json

def Space (cs : List Char) : Prop :=
  ∀ c ∈ cs, c = ' ' ∨ c = '\t' ∨ c = '\n' ∨ c = '\r'

theorem space_nil : Space [] := fun _ h => absurd h List.not_mem_nil

/-- What a string consists of: characters, and units of UTF-16 that are escaped by their numbers. -/
inductive Piece where
  | char (c : Char)
  | unit (n : Nat)

def escapes : List (Char × Char) :=
  [('"', '"'), ('\\', '\\'), ('/', '/'), ('b', '\x08'), ('f', '\x0c'), ('n', '\n'), ('r', '\r'), ('t', '\t')]

def hexDigits? (ds : List Char) : Option Nat :=
  ds.foldl (fun n? d => do return (← n?) * 16 + (← Text.hexValue? d.toNat)) (some 0)

inductive Piece.Spelled : Piece → List Char → Prop where
  | plain {c : Char} (printable : 0x20 ≤ c.toNat) (quote : c ≠ '"') (backslash : c ≠ '\\') : Spelled (.char c) [c]
  | escape {e c : Char} (known : (e, c) ∈ escapes) : Spelled (.char c) ['\\', e]
  | unit {a b c d : Char} {n : Nat} (digits : hexDigits? [a, b, c, d] = some n) :
      Spelled (.unit n) ['\\', 'u', a, b, c, d]

inductive Pieces : List Piece → List Char → Prop where
  | nil : Pieces [] []
  | cons {p : Piece} {ps : List Piece} {cs more : List Char} (first : p.Spelled cs) (others : Pieces ps more) :
      Pieces (p :: ps) (cs ++ more)

def pairChar (lead trail : Nat) : Char :=
  Char.ofNat (0x10000 + (lead - 0xD800) * 0x400 + (trail - 0xDC00))

/-- The characters of a string. There are none if a surrogate lacks its other half; `lead` is one that waits. -/
def resolve : Option Nat → List Piece → Option (List Char)
  | none, [] => some []
  | some _, [] => none
  | none, .char c :: ps => (resolve none ps).map (c :: ·)
  | some _, .char _ :: _ => none
  | none, .unit n :: ps =>
    if isTrail n then none
    else if isLead n then resolve (some n) ps
    else (resolve none ps).map (Char.ofNat n :: ·)
  | some lead, .unit n :: ps => if isTrail n then (resolve none ps).map (pairChar lead n :: ·) else none

def Quoted (value : Option String) (cs : List Char) : Prop :=
  ∃ ps body, Pieces ps body ∧ value = (resolve none ps).map String.ofList ∧ cs = '"' :: body ++ ['"']

theorem Quoted.exists_cons {value : Option String} {cs : List Char} (h : Quoted value cs) :
    ∃ more, cs = '"' :: more := by
  obtain ⟨_, body, -, -, rfl⟩ := h
  exact ⟨_, rfl⟩

theorem pieces_plain {cs : List Char} (h : ∀ c ∈ cs, 0x20 ≤ c.toNat ∧ c ≠ '"' ∧ c ≠ '\\') :
    Pieces (cs.map .char) cs := by
  induction cs with
  | nil => exact .nil
  | cons c cs ih =>
    obtain ⟨⟨hprintable, hquote, hbackslash⟩, hcs⟩ := List.forall_mem_cons.1 h
    exact .cons (.plain hprintable hquote hbackslash) (ih hcs)

theorem resolve_chars (cs : List Char) : resolve none (cs.map .char) = some cs := by
  induction cs with
  | nil => rfl
  | cons c cs ih => rw [List.map_cons, resolve, ih, Option.map_some]

theorem quoted_plain {cs : List Char} (h : ∀ c ∈ cs, 0x20 ≤ c.toNat ∧ c ≠ '"' ∧ c ≠ '\\') :
    Quoted (some (String.ofList cs)) ('"' :: cs ++ ['"']) :=
  ⟨_, cs, pieces_plain h, by rw [resolve_chars, Option.map_some], rfl⟩

structure Digits (ds : List Char) : Prop where
  nonempty : ds ≠ []
  digits : ∀ c ∈ ds, c.isDigit = true

structure Whole (ds : List Char) : Prop extends Digits ds where
  leading : ds.head? = some '0' → ds = ['0']

def Fraction (cs : List Char) : Prop :=
  cs = [] ∨ ∃ ds, Digits ds ∧ cs = '.' :: ds

def Exponent (cs : List Char) : Prop :=
  cs = [] ∨ ∃ mark sign ds, (mark = 'e' ∨ mark = 'E') ∧ (sign = [] ∨ sign = ['+'] ∨ sign = ['-']) ∧ Digits ds ∧
    cs = mark :: sign ++ ds

inductive Tree where
  | null
  | boolean (value : Bool)
  | number (negative : Bool) (whole fraction exponent : List Char)
  | string (text : Option String)
  | array (elements : List Tree)
  | object (members : List (Option String × Tree))

def Gap (first : Bool) (cs : List Char) : Prop :=
  if first then Space cs else ∃ w w', Space w ∧ Space w' ∧ cs = w ++ ',' :: w'

mutual

inductive Spelled : Tree → List Char → Prop where
  | null : Spelled .null ['n', 'u', 'l', 'l']
  | true : Spelled (.boolean true) ['t', 'r', 'u', 'e']
  | false : Spelled (.boolean false) ['f', 'a', 'l', 's', 'e']
  | number (negative : Bool) {whole fraction exponent : List Char} (digits : Whole whole)
      (fractional : Fraction fraction) (exponential : Exponent exponent) :
      Spelled (.number negative whole fraction exponent)
        ((if negative then ['-'] else []) ++ whole ++ fraction ++ exponent)
  | string {text : Option String} {cs : List Char} (quoted : Quoted text cs) : Spelled (.string text) cs
  | array {ts : List Tree} {cs : List Char} (elements : Elements true ts cs) : Spelled (.array ts) ('[' :: cs)
  | object {ms : List (Option String × Tree)} {cs : List Char} (members : Members true ms cs) :
      Spelled (.object ms) ('\x7b' :: cs)

inductive Elements : Bool → List Tree → List Char → Prop where
  | close (first : Bool) {w : List Char} (space : Space w) : Elements first [] (w ++ [']'])
  | next (first : Bool) {t : Tree} {ts : List Tree} {gap cs more : List Char} (before : Gap first gap)
      (value : Spelled t cs) (others : Elements false ts more) : Elements first (t :: ts) (gap ++ cs ++ more)

inductive Members : Bool → List (Option String × Tree) → List Char → Prop where
  | close (first : Bool) {w : List Char} (space : Space w) : Members first [] (w ++ ['\x7d'])
  | next (first : Bool) {name : Option String} {t : Tree} {ms : List (Option String × Tree)}
      {gap quoted w w' cs more : List Char} (before : Gap first gap) (named : Quoted name quoted) (space : Space w)
      (space' : Space w') (value : Spelled t cs) (others : Members false ms more) :
      Members first ((name, t) :: ms) (gap ++ quoted ++ w ++ ':' :: (w' ++ cs) ++ more)

end

theorem spelled_pair {name name' : Option String} {t t' : Tree} {quoted quoted' cs cs' : List Char}
    (named : Quoted name quoted) (value : Spelled t cs) (named' : Quoted name' quoted') (value' : Spelled t' cs') :
    Spelled (.object [(name, t), (name', t')])
      ('\x7b' :: (quoted ++ ':' :: cs ++ (',' :: quoted' ++ ':' :: cs' ++ ['\x7d']))) := by
  have hgap : Gap false [','] := ⟨[], [], space_nil, space_nil, rfl⟩
  have hlast := Members.next false hgap named' space_nil space_nil value' (.close false space_nil)
  have hfirst := Members.next true space_nil named space_nil space_nil value hlast
  simp only [List.append_assoc, List.nil_append, List.cons_append, List.append_nil] at hfirst ⊢
  exact .object hfirst

def Document (document : List UInt8) (t : Tree) : Prop :=
  ∃ text w cs w', document = Text.bytes text ∧ text.toList = w ++ cs ++ w' ∧ Space w ∧ Spelled t cs ∧ Space w'

end OrderDepot.Json
