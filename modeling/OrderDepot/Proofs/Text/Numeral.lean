import OrderDepot.Text.Numeral

/-!
Decimal digits by their code points, and what a run of them is read as.
-/

namespace OrderDepot.Text

theorem isDigit_bounds {c : Char} (h : c.isDigit = true) : 48 ≤ c.toNat ∧ c.toNat ≤ 57 := by
  simp only [Char.isDigit, Bool.and_eq_true, decide_eq_true_eq, ge_iff_le, UInt32.le_iff_toNat_le] at h
  exact h

theorem isDigit_of_bounds {c : Char} (hlow : 48 ≤ c.toNat) (hhigh : c.toNat ≤ 57) : c.isDigit = true := by
  simp only [Char.isDigit, Bool.and_eq_true, decide_eq_true_eq, ge_iff_le, UInt32.le_iff_toNat_le]
  exact ⟨hlow, hhigh⟩

theorem digit?_of_isDigit {c : Char} (h : c.isDigit = true) : digit? c = some (c.toNat - 48) := by
  simp only [Char.isDigit, Bool.and_eq_true, decide_eq_true_eq] at h
  exact if_pos h

theorem digit?_lt (c : Char) : (digit? c).getD 0 < 10 := by
  unfold digit?
  split
  · next h =>
    have hhigh : c.toNat ≤ 57 := h.2
    simp only [Option.getD_some]
    omega
  · decide

theorem isSome_digit? (c : Char) : (digit? c).isSome = c.isDigit := by
  cases h : c.isDigit with
  | true => rw [digit?_of_isDigit h, Option.isSome_some]
  | false =>
    have hnone : ¬ ('0' ≤ c ∧ c ≤ '9') := fun hc =>
      Bool.false_ne_true (h.symm.trans (isDigit_of_bounds hc.1 hc.2))
    rw [digit?, if_neg hnone, Option.isSome_none]

theorem notMem_toDigits {c : Char} (hc : c.isDigit = false) (n : Nat) : c ∉ Nat.toDigits 10 n := by
  intro hmem
  rw [Nat.isDigit_of_mem_toDigits (by decide) (by decide) hmem] at hc
  cases hc

theorem le_ofDigitChars (ds : List Char) (value : Nat) : value ≤ Nat.ofDigitChars 10 ds value := by
  induction ds generalizing value with
  | nil => exact Nat.le_refl value
  | cons c ds ih =>
    rw [Nat.ofDigitChars_cons]
    have hnext := ih (10 * value + (c.toNat - '0'.toNat))
    omega

theorem appendDigits_digits {limit value : Nat} {ds : List Char} (h : ∀ c ∈ ds, c.isDigit = true)
    (hvalue : value ≤ limit) :
    appendDigits limit value ds =
      if Nat.ofDigitChars 10 ds value ≤ limit then .ok (Nat.ofDigitChars 10 ds value) else .error .tooLarge := by
  induction ds generalizing value with
  | nil => rw [appendDigits, Nat.ofDigitChars_nil, if_pos hvalue]
  | cons c ds ih =>
    have hnext : value * 10 + (c.toNat - 48) = 10 * value + (c.toNat - '0'.toNat) := by
      rw [Nat.mul_comm]
      rfl
    simp only [appendDigits, digit?_of_isDigit (h c List.mem_cons_self)]
    rw [Nat.ofDigitChars_cons, hnext]
    split
    · next hfits => exact ih (fun c hc => h c (List.mem_cons_of_mem _ hc)) hfits
    · next hlarge =>
      have hgrows := le_ofDigitChars ds (10 * value + (c.toNat - '0'.toNat))
      rw [if_neg (by omega)]

theorem readUnsigned_digits {limit : Nat} {ds : List Char} (hne : ds ≠ []) (h : ∀ c ∈ ds, c.isDigit = true) :
    readUnsigned limit ds =
      if Nat.ofDigitChars 10 ds 0 ≤ limit then .ok (Nat.ofDigitChars 10 ds 0) else .error .tooLarge := by
  have hdigits := appendDigits_digits h (Nat.zero_le limit)
  cases ds with
  | nil => exact absurd rfl hne
  | cons c ds =>
    have hplus : c ≠ '+' := by
      rintro rfl
      exact absurd (h '+' List.mem_cons_self) (by decide)
    unfold readUnsigned
    split
    · next heq => cases heq
    · next heq => exact absurd (List.cons.inj heq).1 hplus
    · next heq => exact absurd (List.cons.inj heq).1 hplus
    · exact hdigits

end OrderDepot.Text
