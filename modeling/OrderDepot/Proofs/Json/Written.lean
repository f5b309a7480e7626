import OrderDepot.Json.Pass
import OrderDepot.Proofs.Json.Number

/-!
The written forms of a value: its tokens in their order, with any white space in front of every name, value and
closing bracket. Both layouts are such forms, whatever follows them.
-/

namespace OrderDepot.Json

def Blanks (w : List UInt8) : Prop :=
  ∀ b ∈ w, isBlankByte b = true

def comma (first : Bool) : List UInt8 :=
  if first then [] else [0x2C]

def quotedBytes (s : String) : List UInt8 :=
  0x22 :: utf8 (s.toList.flatMap escapedChar) ++ [0x22]

mutual

inductive Written : Value → List UInt8 → Prop where
  | text (s : String) : Written (.text s) (quotedBytes s)
  | integer (n : Int) : Written (.integer n) (utf8 (integerChars n))
  | list {vs : List Value} {bs w : List UInt8} (elements : WrittenElements true vs bs) (blanks : Blanks w) :
    Written (.list vs) (0x5B :: bs ++ w ++ [0x5D])
  | object {ms : List (String × Value)} {bs w : List UInt8} (members : WrittenMembers true ms bs)
    (blanks : Blanks w) : Written (.object ms) (0x7B :: bs ++ w ++ [0x7D])

inductive WrittenElements : Bool → List Value → List UInt8 → Prop where
  | nil (first : Bool) : WrittenElements first [] []
  | cons (first : Bool) {v : Value} {vs : List Value} {w bs more : List UInt8} (blanks : Blanks w)
    (value : Written v bs) (others : WrittenElements false vs more) :
    WrittenElements first (v :: vs) (comma first ++ w ++ bs ++ more)

inductive WrittenMembers : Bool → List (String × Value) → List UInt8 → Prop where
  | nil (first : Bool) : WrittenMembers first [] []
  | cons (first : Bool) (name : String) {v : Value} {ms : List (String × Value)} {w w' bs more : List UInt8}
    (blanks : Blanks w) (gap : Blanks w') (value : Written v bs) (others : WrittenMembers false ms more) :
    WrittenMembers first ((name, v) :: ms) (comma first ++ w ++ quotedBytes name ++ 0x3A :: (w' ++ bs) ++ more)

end

theorem blanks_nil : Blanks [] := fun _ h => absurd h List.not_mem_nil

theorem blanks_newLine (level : Nat) : Blanks (utf8 (newLine level)) := by
  intro b hb
  obtain ⟨c, hc, hb⟩ := List.mem_flatMap.1 hb
  rcases List.mem_cons.1 hc with rfl | hc
  · rw [List.mem_singleton.1 hb]
    rfl
  · obtain rfl := List.eq_of_mem_replicate hc
    rw [List.mem_singleton.1 hb]
    rfl

theorem blanks_space : Blanks [0x20] := fun _ h => List.mem_singleton.1 h ▸ rfl

theorem utf8_stringChars (s : String) : utf8 (stringChars s) = quotedBytes s := by
  simp only [stringChars, utf8_append]
  rfl

theorem utf8_comma (first : Bool) : utf8 (if first then [] else [',']) = comma first := by
  cases first <;> rfl

mutual

theorem Value.written_compact : ∀ v : Value, Written v (utf8 v.compactChars)
  | .text s => utf8_stringChars s ▸ .text s
  | .integer n => .integer n
  | .list vs => by
    have h := Written.list (written_compactElements true vs) blanks_nil
    simp only [Value.compactChars, utf8_append, List.append_nil] at h ⊢
    exact h
  | .object ms => by
    have h := Written.object (written_compactMembers true ms) blanks_nil
    simp only [Value.compactChars, utf8_append, List.append_nil] at h ⊢
    exact h

theorem written_compactElements (first : Bool) : ∀ vs : List Value,
    WrittenElements first vs (utf8 (compactElements first vs))
  | [] => .nil first
  | v :: vs => by
    have h := WrittenElements.cons first blanks_nil v.written_compact (written_compactElements false vs)
    simp only [compactElements, utf8_append, utf8_comma, List.append_nil] at h ⊢
    exact h

theorem written_compactMembers (first : Bool) : ∀ ms : List (String × Value),
    WrittenMembers first ms (utf8 (compactMembers first ms))
  | [] => .nil first
  | (n, v) :: ms => by
    have h := WrittenMembers.cons first n blanks_nil blanks_nil v.written_compact (written_compactMembers false ms)
    simp only [compactMembers, utf8_append, utf8_comma, utf8_stringChars, utf8_cons, List.append_nil] at h ⊢
    exact h

end

mutual

theorem Value.written_pretty (level : Nat) : ∀ v : Value, Written v (utf8 (v.prettyChars level))
  | .text s => by
    rw [Value.prettyChars]
    exact utf8_stringChars s ▸ .text s
  | .integer n => by
    rw [Value.prettyChars]
    exact .integer n
  | .list [] => by
    rw [Value.prettyChars]
    exact .list (.nil true) blanks_nil
  | .list (v :: vs) => by
    have h := Written.list (written_prettyElements (level + 1) true (v :: vs)) (blanks_newLine level)
    simp only [Value.prettyChars, utf8_append] at h ⊢
    exact h
  | .object [] => by
    rw [Value.prettyChars]
    exact .object (.nil true) blanks_nil
  | .object (m :: ms) => by
    have h := Written.object (written_prettyMembers (level + 1) true (m :: ms)) (blanks_newLine level)
    simp only [Value.prettyChars, utf8_append] at h ⊢
    exact h

theorem written_prettyElements (level : Nat) (first : Bool) : ∀ vs : List Value,
    WrittenElements first vs (utf8 (prettyElements level first vs))
  | [] => .nil first
  | v :: vs => by
    have h := WrittenElements.cons first (blanks_newLine level) (v.written_pretty level)
      (written_prettyElements level false vs)
    simp only [prettyElements, utf8_append, utf8_comma] at h ⊢
    exact h

theorem written_prettyMembers (level : Nat) (first : Bool) : ∀ ms : List (String × Value),
    WrittenMembers first ms (utf8 (prettyMembers level first ms))
  | [] => .nil first
  | (n, v) :: ms => by
    have h := WrittenMembers.cons first n (blanks_newLine level) blanks_space (v.written_pretty level)
      (written_prettyMembers level false ms)
    simp only [prettyMembers, utf8_append, utf8_comma, utf8_stringChars, utf8_cons] at h ⊢
    exact h

end

end OrderDepot.Json
