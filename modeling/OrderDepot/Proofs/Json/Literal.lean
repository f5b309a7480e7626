import OrderDepot.Json.Literal
import OrderDepot.Json.Value
import OrderDepot.Proofs.Text.Utf8

/-!
A string that was written reads back. Each character is followed through the states of the scanner: those that
are escaped come back from their escape, and the bytes of the others are taken as they are.
-/

namespace OrderDepot.Json

open OrderDepot.Text (encodeChar bytes)

def utf8 (cs : List Char) : List UInt8 :=
  cs.flatMap encodeChar

@[simp]
theorem utf8_nil : utf8 [] = [] := rfl

@[simp]
theorem utf8_cons (c : Char) (cs : List Char) : utf8 (c :: cs) = encodeChar c ++ utf8 cs := rfl

@[simp]
theorem utf8_append (cs ds : List Char) : utf8 (cs ++ ds) = utf8 cs ++ utf8 ds :=
  List.flatMap_append

theorem bytes_eq_utf8 (cs : List Char) : bytes (String.ofList cs) = utf8 cs :=
  Text.bytes_ofList cs

section

variable {tail more rest : List UInt8}

theorem scan_step {q q' : Scan} {b : UInt8} {settled : List UInt8} (hcloses : q.closes b = false)
    (hstep : q.step b = .ok (settled, q')) (htail : scan q' tail = .ok (more, rest)) :
    scan q (b :: tail) = .ok (settled ++ more, rest) := by
  simp only [scan, hcloses, Bool.false_eq_true, if_false, hstep, htail, bind, Except.bind]
  rfl

theorem scan_silent {q q' : Scan} {b : UInt8} (hcloses : q.closes b = false) (hstep : q.step b = .ok ([], q'))
    (htail : scan q' tail = .ok (more, rest)) : scan q (b :: tail) = .ok (more, rest) := by
  have hscan := scan_step hcloses hstep htail
  exact hscan

theorem scan_plain {bs : List UInt8} (h : ∀ b ∈ bs, b ≠ 0x22 ∧ b ≠ 0x5C ∧ ¬ b < 0x20)
    (htail : scan .plain tail = .ok (more, rest)) : scan .plain (bs ++ tail) = .ok (bs ++ more, rest) := by
  induction bs with
  | nil => exact htail
  | cons b bs ih =>
    obtain ⟨hquote, hescape, hcontrol⟩ := h b List.mem_cons_self
    have hstep : Scan.plain.step b = .ok ([b], .plain) := by
      simp only [Scan.step, hescape, hcontrol, if_false]
    have hbs := ih fun b hb => h b (List.mem_cons_of_mem _ hb)
    have hcloses : Scan.plain.closes b = false := beq_false_of_ne hquote
    have hscan := scan_step hcloses hstep hbs
    exact hscan

theorem scan_escape {b c : UInt8} (hb : b ≠ 0x75) (hc : escaped? b = some c)
    (htail : scan .plain tail = .ok (more, rest)) :
    scan .plain (0x5C :: b :: tail) = .ok (c :: more, rest) := by
  have hstep : Scan.escape.step b = .ok ([c], .plain) := by
    simp only [Scan.step, hb, if_false, hc]
  have hescape := scan_step rfl hstep htail
  exact scan_silent rfl rfl hescape

def waiting : Option Nat → Scan
  | none => .plain
  | some lead => .pair lead

theorem scan_closeUnit {lead : Option Nat} {a b c d : UInt8} {n : Nat} {settled : List UInt8} {next : Scan}
    (hn : hexNumber? [a, b, c, d] = some n) (hclose : closeUnit lead n = .ok (settled, next))
    (htail : scan next tail = .ok (more, rest)) :
    scan (waiting lead) (0x5C :: 0x75 :: a :: b :: c :: d :: tail) = .ok (settled ++ more, rest) := by
  have hstep : (Scan.unit [c, b, a] lead).step d = .ok (settled, next) := by
    have hdigits : [d, c, b, a].reverse = [a, b, c, d] := rfl
    simp only [Scan.step, List.length_cons, List.length_nil, Nat.reduceAdd, Nat.lt_irrefl, if_false, hdigits, hn,
      hclose]
  have hunit := scan_step rfl hstep htail
  cases lead <;>
  exact scan_silent rfl rfl (scan_silent rfl rfl (scan_silent rfl rfl (scan_silent rfl rfl
    (scan_silent rfl rfl hunit))))

theorem scan_unit {a b c d : UInt8} {n : Nat} (hn : hexNumber? [a, b, c, d] = some n) (hlead : isLead n = false)
    (htrail : isTrail n = false) (htail : scan .plain tail = .ok (more, rest)) :
    scan .plain (0x5C :: 0x75 :: a :: b :: c :: d :: tail) = .ok (encodeChar (Char.ofNat n) ++ more, rest) := by
  have hclose : closeUnit none n = .ok (encodeChar (Char.ofNat n), .plain) := by
    simp only [closeUnit, htrail, hlead, Bool.false_eq_true, if_false]
  exact @scan_closeUnit tail more rest none a b c d n _ _ hn hclose htail

theorem digitChar_lt : ∀ n < 16, (Nat.digitChar n).toNat < 0x80 := by decide

theorem hexNumber?_control : ∀ n < 0x20, hexNumber?
    [0x30, 0x30, UInt8.ofNat (Nat.digitChar (n / 16)).toNat, UInt8.ofNat (Nat.digitChar (n % 16)).toNat] =
      some n := by decide

theorem scan_control {c : Char} (h : c.toNat < 0x20) (htail : scan .plain tail = .ok (more, rest)) :
    scan .plain (utf8 ['\\', 'u', '0', '0', Nat.digitChar (c.toNat / 16), Nat.digitChar (c.toNat % 16)] ++ tail) =
      .ok (encodeChar c ++ more, rest) := by
  have hhigh := Text.encodeChar_ascii (digitChar_lt (c.toNat / 16) (by omega))
  have hlow := Text.encodeChar_ascii (digitChar_lt (c.toNat % 16) (by omega))
  have hlead : isLead c.toNat = false := by
    simp only [isLead, Bool.and_eq_false_iff, decide_eq_false_iff_not]
    omega
  have htrail : isTrail c.toNat = false := by
    simp only [isTrail, Bool.and_eq_false_iff, decide_eq_false_iff_not]
    omega
  have hunit := scan_unit (hexNumber?_control c.toNat h) hlead htrail htail
  rw [Char.ofNat_toNat] at hunit
  rw [utf8_cons, utf8_cons, utf8_cons, utf8_cons, utf8_cons, utf8_cons, hhigh, hlow]
  exact hunit

theorem plain_of_char {c : Char} (hquote : c ≠ '"') (hescape : c ≠ '\\') (hcontrol : ¬ c.toNat < 0x20) :
    ∀ b ∈ encodeChar c, b ≠ 0x22 ∧ b ≠ 0x5C ∧ ¬ b < 0x20 := by
  intro b hb
  rw [Ne, Ne, ← UInt8.toNat_inj, ← UInt8.toNat_inj, UInt8.lt_iff_toNat_lt]
  by_cases hascii : c.toNat < 0x80
  · have hb : b.toNat = c.toNat := by
      rw [Text.encodeChar_ascii hascii, List.mem_singleton] at hb
      rw [hb, UInt8.toNat_ofNat_of_lt' (Nat.lt_trans hascii (by decide))]
    rw [hb]
    exact ⟨fun h => hquote (Char.toNat_inj.1 h), fun h => hescape (Char.toNat_inj.1 h), hcontrol⟩
  · have hhigh := UInt8.le_iff_toNat_le.1 (Text.encodeChar_high (Nat.le_of_not_lt hascii) b hb)
    have hbounds : (0x80 : UInt8).toNat = 128 ∧ (0x22 : UInt8).toNat = 34 ∧ (0x5C : UInt8).toNat = 92 ∧
        (0x20 : UInt8).toNat = 32 := ⟨rfl, rfl, rfl, rfl⟩
    omega

theorem scan_char (c : Char) (htail : scan .plain tail = .ok (more, rest)) :
    scan .plain (utf8 (escapedChar c) ++ tail) = .ok (encodeChar c ++ more, rest) := by
  unfold escapedChar
  split
  · next h =>
    subst h
    exact scan_escape (b := 0x22) (by decide) rfl htail
  split
  · next h =>
    subst h
    exact scan_escape (b := 0x5C) (by decide) rfl htail
  split
  · next h =>
    subst h
    exact scan_escape (b := 0x62) (by decide) rfl htail
  split
  · next h =>
    subst h
    exact scan_escape (b := 0x74) (by decide) rfl htail
  split
  · next h =>
    subst h
    exact scan_escape (b := 0x6E) (by decide) rfl htail
  split
  · next h =>
    subst h
    exact scan_escape (b := 0x66) (by decide) rfl htail
  split
  · next h =>
    subst h
    exact scan_escape (b := 0x72) (by decide) rfl htail
  split
  · next h => exact scan_control h htail
  · next hquote hescape _ _ _ _ _ hcontrol =>
    rw [utf8_cons, utf8_nil, List.append_nil]
    exact scan_plain (plain_of_char hquote hescape hcontrol) htail

theorem scan_chars (cs : List Char) :
    scan .plain (utf8 (cs.flatMap escapedChar) ++ 0x22 :: rest) = .ok (utf8 cs, rest) := by
  induction cs with
  | nil => rfl
  | cons c cs ih =>
    rw [List.flatMap_cons, utf8_append, List.append_assoc]
    exact scan_char c ih

theorem literal_written (s : String) :
    literal (utf8 (s.toList.flatMap escapedChar) ++ 0x22 :: rest) = .ok (s, rest) := by
  have htext : Text.text? (utf8 s.toList) = some s := by
    rw [utf8, ← Text.bytes_eq]
    exact Text.text?_bytes s
  simp only [literal, scan_chars, bind, Except.bind, htext]
  rfl

end

end OrderDepot.Json
