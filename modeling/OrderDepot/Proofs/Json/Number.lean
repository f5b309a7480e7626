import Mathlib.Data.List.TakeDrop
import OrderDepot.Json.Number
import OrderDepot.Proofs.Json.Grammar
import OrderDepot.Proofs.Json.Literal
import OrderDepot.Proofs.Text.Numeral

/-!
An integer that was written reads back if its magnitude fits 64 bits. The digits end where the input goes on with
something that continues no number. The other way round, what is read as an integer is spelled by a sign and digits
alone.
-/

namespace OrderDepot.Json

open OrderDepot.Text (encodeChar)

def Stops (rest : List UInt8) : Prop :=
  ∀ b, rest.head? = some b → isDigit b = false ∧ b ≠ 0x2E ∧ b ≠ 0x65 ∧ b ≠ 0x45

theorem isDigit_of_char {c : Char} (h : c.isDigit = true) :
    encodeChar c = [UInt8.ofNat c.toNat] ∧ isDigit (UInt8.ofNat c.toNat) = true ∧
      digitValue (UInt8.ofNat c.toNat) = c.toNat - 48 := by
  obtain ⟨hlow, hhigh⟩ := Text.isDigit_bounds h
  have hbyte : (UInt8.ofNat c.toNat).toNat = c.toNat :=
    UInt8.toNat_ofNat_of_lt' (Nat.lt_of_le_of_lt hhigh (by decide))
  refine ⟨Text.encodeChar_ascii (Nat.lt_of_le_of_lt hhigh (by decide)), ?_, ?_⟩
  · simp only [isDigit, Bool.and_eq_true, decide_eq_true_eq, UInt8.le_iff_toNat_le, hbyte]
    exact ⟨hlow, hhigh⟩
  · rw [digitValue, hbyte]

theorem utf8_digits {ds : List Char} (h : ∀ c ∈ ds, c.isDigit = true) :
    utf8 ds = ds.map fun c => UInt8.ofNat c.toNat := by
  induction ds with
  | nil => rfl
  | cons c ds ih =>
    rw [utf8_cons, (isDigit_of_char (h c List.mem_cons_self)).1, ih fun d hd => h d (List.mem_cons_of_mem _ hd)]
    rfl

theorem isDigit_utf8 {ds : List Char} (h : ∀ c ∈ ds, c.isDigit = true) : ∀ b ∈ utf8 ds, isDigit b = true := by
  intro b hb
  rw [utf8_digits h] at hb
  obtain ⟨c, hc, rfl⟩ := List.mem_map.1 hb
  exact (isDigit_of_char (h c hc)).2.1

theorem splitDigits_append {ds rest : List UInt8} (h : ∀ b ∈ ds, isDigit b = true) (hrest : Stops rest) :
    splitDigits (ds ++ rest) = (ds, rest) := by
  have hstop : rest.takeWhile isDigit = [] ∧ rest.dropWhile isDigit = rest := by
    cases rest with
    | nil => exact ⟨rfl, rfl⟩
    | cons b rest => simp [(hrest b rfl).1]
  rw [splitDigits, List.span_eq_takeWhile_dropWhile, List.takeWhile_append_of_pos h,
    List.dropWhile_append_of_pos h, hstop.1, hstop.2, List.append_nil]

theorem accumulate_utf8 {ds : List Char} (h : ∀ c ∈ ds, c.isDigit = true) (value : Nat)
    (hfits : Nat.ofDigitChars 10 ds value ≤ largestWord) :
    accumulate value (utf8 ds) = (Nat.ofDigitChars 10 ds value, 0) := by
  induction ds generalizing value with
  | nil => simp [accumulate]
  | cons c ds ih =>
    obtain ⟨hbytes, -, hvalue⟩ := isDigit_of_char (h c List.mem_cons_self)
    have hds := fun d hd => h d (List.mem_cons_of_mem _ hd)
    have hnext : value * 10 + (c.toNat - 48) = 10 * value + (c.toNat - '0'.toNat) := by
      rw [Nat.mul_comm]
      rfl
    rw [Nat.ofDigitChars_cons] at hfits ⊢
    have hgrows : 10 * value + (c.toNat - '0'.toNat) ≤ largestWord := by
      refine Nat.le_trans ?_ hfits
      rw [Nat.ofDigitChars_eq_ofDigitChars_zero]
      exact Nat.le_trans (Nat.le_mul_of_pos_left _ (Nat.pow_pos (by decide))) (Nat.le_add_right _ _)
    rw [utf8_cons, hbytes, List.singleton_append, accumulate, hvalue, hnext]
    simp only [hgrows, if_true]
    exact ih hds _ hfits

theorem digitChar_ne_zero : ∀ n < 10, 0 < n → Nat.digitChar n ≠ '0' := by decide

theorem head?_toDigits {n : Nat} (h : 0 < n) : (Nat.toDigits 10 n).head? ≠ some '0' := by
  induction n using Nat.strongRecOn with
  | ind n ih =>
    by_cases hlt : n < 10
    · rw [Nat.toDigits_of_lt_base hlt]
      exact fun hhead => digitChar_ne_zero n hlt h (Option.some.inj hhead)
    · rw [Nat.toDigits_of_base_le (by decide) (Nat.le_of_not_lt hlt), List.head?_append]
      have hhead := ih (n / 10) (by omega) (by omega)
      cases hquotient : Nat.toDigits 10 (n / 10) with
      | nil => exact absurd hquotient Nat.toDigits_ne_nil
      | cons c cs => simpa [hquotient] using hhead

theorem whole_toDigits (n : Nat) : Whole (Nat.toDigits 10 n) := by
  refine ⟨⟨Nat.toDigits_ne_nil, fun c hc => Nat.isDigit_of_mem_toDigits (by decide) (by decide) hc⟩, fun hhead => ?_⟩
  cases n with
  | zero => rfl
  | succ n => exact absurd hhead (head?_toDigits n.succ_pos)

theorem unsigned_whole (negative : Bool) {ds : List Char} {m : Number} (hds : Whole ds)
    (hfits : Nat.ofDigitChars 10 ds 0 ≤ largestWord)
    (hm : integer? negative (Nat.ofDigitChars 10 ds 0) = some m) {rest : List UInt8} (hrest : Stops rest) :
    unsigned negative (utf8 ds ++ rest) = .ok (m, rest) := by
  have hsplit := splitDigits_append (isDigit_utf8 hds.digits) hrest
  have hvalue := accumulate_utf8 hds.digits 0 hfits
  simp only [unsigned, hsplit, hvalue, if_true, hm]
  split
  · next hempty =>
    rw [utf8_digits hds.digits, List.map_eq_nil_iff] at hempty
    exact absurd hempty hds.nonempty
  · next b bs hzero =>
    rw [utf8_digits hds.digits, List.map_eq_cons_iff] at hzero
    obtain ⟨c, cs, hchars, hc, hcs⟩ := hzero
    obtain ⟨d, ds, rfl, -, -⟩ := List.map_eq_cons_iff.1 hcs
    have hbounds := Text.isDigit_bounds (hds.digits c (hchars ▸ List.mem_cons_self))
    have hvalue := congrArg UInt8.toNat hc
    rw [UInt8.toNat_ofNat_of_lt' (Nat.lt_of_le_of_lt hbounds.2 (by decide))] at hvalue
    obtain rfl : c = '0' := Char.toNat_inj.1 hvalue
    have halone := hds.leading (by rw [hchars]; rfl)
    rw [hchars] at halone
    cases halone
  · split
    · next r => exact absurd rfl (hrest 0x2E rfl).2.1
    · next r => exact absurd rfl (hrest 0x65 rfl).2.2.1
    · next r => exact absurd rfl (hrest 0x45 rfl).2.2.2
    · rfl

theorem unsigned_toDigits (negative : Bool) {n : Nat} {m : Number} (hn : n ≤ largestWord)
    (hm : integer? negative n = some m) {rest : List UInt8} (hrest : Stops rest) :
    unsigned negative (utf8 (Nat.toDigits 10 n) ++ rest) = .ok (m, rest) := by
  refine unsigned_whole negative (whole_toDigits n) ?_ ?_ hrest <;>
  rwa [Nat.ofDigitChars_ten_toDigits]

theorem number_of_digit {b : UInt8} (h : isDigit b = true) (s : List UInt8) :
    number (b :: s) = unsigned false (b :: s) := by
  unfold number
  split
  · next heq =>
    cases heq
    cases h
  · rfl

theorem integerChars_ofNat (n : Nat) : integerChars (.ofNat n) = Nat.toDigits 10 n := by
  simp [integerChars, Int.repr, Nat.repr_eq_ofList_toDigits]

theorem integerChars_negSucc (n : Nat) : integerChars (.negSucc n) = '-' :: Nat.toDigits 10 (n + 1) := by
  simp [integerChars, Int.repr, Nat.repr_eq_ofList_toDigits]

theorem toDigits_head (n : Nat) : ∃ b more, utf8 (Nat.toDigits 10 n) = b :: more ∧ isDigit b = true := by
  cases hdigits : Nat.toDigits 10 n with
  | nil => exact absurd hdigits Nat.toDigits_ne_nil
  | cons c cs =>
    obtain ⟨hbytes, hdigit, -⟩ := isDigit_of_char
      (Nat.isDigit_of_mem_toDigits (by decide) (by decide) (hdigits ▸ List.mem_cons_self))
    exact ⟨UInt8.ofNat c.toNat, utf8 cs, by rw [utf8_cons, hbytes]; rfl, hdigit⟩

theorem integerChars_head (n : Int) :
    ∃ b more, utf8 (integerChars n) = b :: more ∧ (b = 0x2D ∨ isDigit b = true) := by
  cases n with
  | ofNat n =>
    obtain ⟨b, more, hbytes, hb⟩ := toDigits_head n
    exact ⟨b, more, by rw [integerChars_ofNat, hbytes], .inr hb⟩
  | negSucc n => exact ⟨0x2D, utf8 (Nat.toDigits 10 (n + 1)), by rw [integerChars_negSucc]; rfl, .inl rfl⟩

theorem number_integerChars {n : Int} (hlow : Int64.minValue.toInt ≤ n) (hhigh : n ≤ Int64.maxValue.toInt)
    {rest : List UInt8} (hrest : Stops rest) :
    number (utf8 (integerChars n) ++ rest) = .ok (.integer n, rest) := by
  have hmin : Int64.minValue.toInt = -9223372036854775808 ∧ Int64.minValue.toInt.natAbs = 9223372036854775808 := by
    decide
  have hmax : Int64.maxValue.toInt = 9223372036854775807 := by decide
  have hword : largestWord = 18446744073709551615 := by decide
  cases n with
  | ofNat n =>
    have hn : n ≤ largestWord := by
      rw [Int.ofNat_eq_natCast] at hhigh
      omega
    have hread := unsigned_toDigits false hn (m := .integer n) rfl hrest
    obtain ⟨b, more, hbytes, hb⟩ := toDigits_head n
    rw [hbytes] at hread
    rw [integerChars_ofNat, hbytes]
    exact (number_of_digit hb _).trans hread
  | negSucc n =>
    have hn : n + 1 ≤ Int64.minValue.toInt.natAbs := by
      rw [Int.negSucc_eq] at hlow
      omega
    have hinteger : integer? true (n + 1) = some (.integer (.negSucc n)) := by
      simp only [integer?, Bool.not_true, Bool.false_eq_true, if_false, Nat.succ_pos, hn, and_self, if_true]
      rfl
    rw [integerChars_negSucc]
    exact unsigned_toDigits true (by omega) hinteger hrest

theorem finish_binary {negative : Bool} {significand : Nat} {exponent : Int} {s rest : List UInt8} {n : Number}
    (h : finish negative significand exponent s = .ok (n, rest)) : ∃ bits, n = .binary bits := by
  simp only [finish] at h
  split at h
  · next m hm =>
    obtain ⟨rfl, rfl⟩ := Prod.mk.inj (Except.ok.inj h)
    obtain ⟨size, -, rfl⟩ := Option.map_eq_some_iff.1 hm
    exact ⟨_, rfl⟩
  · cases h

theorem afterMark_binary {negative : Bool} {significand : Nat} {exponent : Int} {s rest : List UInt8} {n : Number}
    (h : afterMark negative significand exponent s = .ok (n, rest)) : ∃ bits, n = .binary bits := by
  simp only [afterMark] at h
  split at h
  · cases h
  · split at h
    · split at h
      · exact finish_binary h
      · split at h <;>
        · split at h
          · cases h
          · obtain ⟨rfl, rfl⟩ := Prod.mk.inj (Except.ok.inj h)
            exact ⟨_, rfl⟩
    · cases h

theorem exponentPart_binary {negative : Bool} {significand : Nat} {exponent : Int} {s rest : List UInt8} {n : Number}
    (h : exponentPart negative significand exponent s = .ok (n, rest)) : ∃ bits, n = .binary bits := by
  unfold exponentPart at h
  split at h
  · exact afterMark_binary h
  · exact afterMark_binary h
  · exact finish_binary h

theorem afterPoint_binary {negative : Bool} {significand : Nat} {exponent : Int} {s rest : List UInt8} {n : Number}
    (h : afterPoint negative significand exponent s = .ok (n, rest)) : ∃ bits, n = .binary bits := by
  simp only [afterPoint] at h
  split at h
  · split at h <;> cases h
  · exact exponentPart_binary h

theorem exists_digits {bs : List UInt8} (h : ∀ b ∈ bs, isDigit b = true) :
    ∃ ds, utf8 ds = bs ∧ ∀ c ∈ ds, c.isDigit = true := by
  induction bs with
  | nil => exact ⟨[], rfl, fun _ hmem => absurd hmem List.not_mem_nil⟩
  | cons b bs ih =>
    obtain ⟨hb, hbs⟩ := List.forall_mem_cons.1 h
    obtain ⟨ds, rfl, hds⟩ := ih hbs
    simp only [isDigit, Bool.and_eq_true, decide_eq_true_eq, UInt8.le_iff_toNat_le] at hb
    obtain ⟨hlow, hhigh⟩ : 48 ≤ b.toNat ∧ b.toNat ≤ 57 := hb
    have hascii : b < 0x80 := by
      rw [UInt8.lt_iff_toNat_lt]
      exact Nat.lt_of_le_of_lt hhigh (by decide)
    obtain ⟨c, hc, hutf8⟩ := Text.exists_ascii hascii
    rw [← hc] at hlow hhigh
    refine ⟨c :: ds, ?_, List.forall_mem_cons.2 ⟨Text.isDigit_of_bounds hlow hhigh, hds⟩⟩
    rw [utf8_cons, hutf8]
    rfl

theorem accumulate_all {ds : List Char} (h : ∀ c ∈ ds, c.isDigit = true) {value v : Nat}
    (hall : accumulate value (utf8 ds) = (v, 0)) : v = Nat.ofDigitChars 10 ds value := by
  induction ds generalizing value with
  | nil => exact (Prod.mk.inj hall).1.symm
  | cons c ds ih =>
    obtain ⟨hc, hds⟩ := List.forall_mem_cons.1 h
    obtain ⟨hbytes, -, hvalue⟩ := isDigit_of_char hc
    rw [utf8_cons, hbytes, List.singleton_append, accumulate, hvalue] at hall
    split at hall
    · rw [ih hds hall, Nat.ofDigitChars_cons, Nat.mul_comm]
      rfl
    · cases (Prod.mk.inj hall).2

theorem unsigned_sound {negative : Bool} {s rest : List UInt8} {v : Int}
    (h : unsigned negative s = .ok (.integer v, rest)) :
    ∃ ds, Whole ds ∧ s = utf8 ds ++ rest ∧ integer? negative (Nat.ofDigitChars 10 ds 0) = some (.integer v) := by
  have hsplit : s = (splitDigits s).1 ++ (splitDigits s).2 ∧ ∀ b ∈ (splitDigits s).1, isDigit b = true := by
    rw [splitDigits, List.span_eq_takeWhile_dropWhile]
    exact ⟨List.takeWhile_append_dropWhile.symm, List.all_eq_true.1 List.all_takeWhile⟩
  obtain ⟨⟨bs, s'⟩, hbs⟩ : ∃ r, splitDigits s = r := ⟨_, rfl⟩
  rw [hbs] at hsplit
  obtain ⟨rfl, hdigits⟩ := hsplit
  obtain ⟨ds, rfl, hds⟩ := exists_digits hdigits
  obtain ⟨⟨significand, out⟩, hvalue⟩ : ∃ r, accumulate 0 (utf8 ds) = r := ⟨_, rfl⟩
  simp only [unsigned, hbs, hvalue] at h
  split at h
  · split at h <;> cases h
  · cases h
  · next hempty hzero =>
    split at h
    · obtain ⟨bits, hbits⟩ := afterPoint_binary h
      cases hbits
    · obtain ⟨bits, hbits⟩ := exponentPart_binary h
      cases hbits
    · obtain ⟨bits, hbits⟩ := exponentPart_binary h
      cases hbits
    · split at h
      · next n hn =>
        obtain ⟨rfl, rfl⟩ := Prod.mk.inj (Except.ok.inj h)
        split at hn
        · next hout =>
          rw [hout] at hvalue
          obtain rfl := accumulate_all hds hvalue
          refine ⟨ds, ⟨⟨?_, hds⟩, ?_⟩, rfl, hn⟩
          · rintro rfl
            exact hempty rfl
          · intro hhead
            obtain ⟨more, rfl⟩ := List.head?_eq_some_iff.1 hhead
            cases more with
            | nil => rfl
            | cons d more =>
              obtain ⟨hd, -⟩ := isDigit_of_char (hds d (by simp))
              refine (hzero (UInt8.ofNat d.toNat) (utf8 more) ?_).elim
              rw [utf8_cons, utf8_cons, hd]
              rfl
        · cases hn
      · obtain ⟨bits, hbits⟩ := finish_binary h
        cases hbits

theorem number_sound {s rest : List UInt8} {v : Int} (h : number s = .ok (.integer v, rest)) :
    ∃ negative ds, Whole ds ∧ s = utf8 ((if negative then ['-'] else []) ++ ds) ++ rest ∧
      integer? negative (Nat.ofDigitChars 10 ds 0) = some (.integer v) := by
  unfold number at h
  split at h
  · obtain ⟨ds, hds, rfl, hv⟩ := unsigned_sound h
    exact ⟨true, ds, hds, rfl, hv⟩
  · obtain ⟨ds, hds, rfl, hv⟩ := unsigned_sound h
    exact ⟨false, ds, hds, rfl, hv⟩

end OrderDepot.Json
