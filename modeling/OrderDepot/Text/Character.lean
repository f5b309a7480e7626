/-!
White space and control characters in Unicode's sense. A text is blank when all of it is white space,
which is the case exactly when nothing is left of it after trimming. Upper case is given as far as it leads to
ASCII: for the letters `a` to `z` and the ten other characters whose upper-case form consists of ASCII letters.
The upper-case form of any further character holds one that is not ASCII.
-/

namespace OrderDepot.Text

/-- Code points with the property White_Space, as closed ascending ranges. -/
def spaceRanges : List (Nat × Nat) :=
  [(0x09, 0x0D), (0x20, 0x20), (0x85, 0x85), (0xA0, 0xA0), (0x1680, 0x1680), (0x2000, 0x200A),
   (0x2028, 0x2029), (0x202F, 0x202F), (0x205F, 0x205F), (0x3000, 0x3000)]

def isSpace (c : Char) : Bool :=
  spaceRanges.any fun r => r.1 ≤ c.toNat && c.toNat ≤ r.2

def isControl (c : Char) : Bool :=
  c.toNat < 0x20 || (0x7F ≤ c.toNat && c.toNat < 0xA0)

def trimStart (s : List Char) : List Char :=
  s.dropWhile isSpace

def trimEnd (s : List Char) : List Char :=
  (s.reverse.dropWhile isSpace).reverse

def trimmed (s : List Char) : List Char :=
  trimEnd (trimStart s)

def trim (s : String) : String :=
  String.ofList (trimmed s.toList)

def isBlank (s : String) : Bool :=
  s.toList.all isSpace

theorem trimStart_eq_nil_iff (s : List Char) : trimStart s = [] ↔ ∀ c ∈ s, isSpace c = true := by
  unfold trimStart
  induction s with
  | nil => simp
  | cons c s ih =>
    rw [List.forall_mem_cons]
    by_cases hc : isSpace c = true
    · rw [List.dropWhile_cons_of_pos hc, ih]
      exact (and_iff_right hc).symm
    · rw [List.dropWhile_cons_of_neg hc]
      exact iff_of_false (List.cons_ne_nil c s) fun h => hc h.1

theorem trimEnd_eq_nil_iff (s : List Char) : trimEnd s = [] ↔ ∀ c ∈ s, isSpace c = true := by
  rw [trimEnd, List.reverse_eq_nil_iff, ← trimStart, trimStart_eq_nil_iff]
  exact forall_congr' fun c => imp_congr_left List.mem_reverse

theorem trimmed_eq_nil_iff (s : List Char) : trimmed s = [] ↔ ∀ c ∈ s, isSpace c = true := by
  rw [trimmed, trimEnd_eq_nil_iff]
  constructor
  · intro h c hc
    rw [← List.takeWhile_append_dropWhile (p := isSpace) (l := s)] at hc
    rcases List.mem_append.1 hc with hc | hc
    · exact List.all_eq_true.1 List.all_takeWhile c hc
    · exact h c hc
  · exact fun h c hc => h c ((List.dropWhile_sublist isSpace).subset hc)

def isAsciiLetter (c : Char) : Bool :=
  ('a' ≤ c && c ≤ 'z') || ('A' ≤ c && c ≤ 'Z')

def asciiUpper? (c : Char) : Option (List Char) :=
  if 'a' ≤ c ∧ c ≤ 'z' then some [Char.ofNat (c.toNat - 32)]
  else if c.toNat < 0x80 then some [c]
  else if c = '\u00df' then some ['S', 'S']
  else if c = '\u0131' then some ['I']
  else if c = '\u017f' then some ['S']
  else if c = '\ufb00' then some ['F', 'F']
  else if c = '\ufb01' then some ['F', 'I']
  else if c = '\ufb02' then some ['F', 'L']
  else if c = '\ufb03' then some ['F', 'F', 'I']
  else if c = '\ufb04' then some ['F', 'F', 'L']
  else if c = '\ufb05' then some ['S', 'T']
  else if c = '\ufb06' then some ['S', 'T']
  else none

def asciiUpperText? (s : List Char) : Option (List Char) :=
  (s.mapM asciiUpper?).map List.flatten

end OrderDepot.Text
