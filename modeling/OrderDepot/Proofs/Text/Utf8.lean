import OrderDepot.Text.Utf8

/-!
The UTF-8 bytes of a text, character by character: a character below U+0080 is its own byte, any other consists
of bytes from 0x80 on. The bytes of a text are read as that text, also where bytes that are none are replaced.
-/

namespace OrderDepot.Text

theorem bytes_ofList (cs : List Char) : bytes (String.ofList cs) = cs.flatMap String.utf8EncodeChar := by
  simp [bytes, String.ofList, List.utf8Encode]

theorem bytes_eq (s : String) : bytes s = s.toList.flatMap encodeChar := by
  rw [← String.ofList_toList (s := s), bytes_ofList, String.toList_ofList]
  rfl

theorem bytes_append (s t : String) : bytes (s ++ t) = bytes s ++ bytes t := by
  simp [bytes_eq]

theorem text?_bytes (s : String) : text? (bytes s) = some s := by
  have hbytes : (bytes s).toByteArray = s.toByteArray := by
    apply ByteArray.ext
    rw [List.data_toByteArray]
    rfl
  rw [text?, hbytes, String.fromUTF8?, dif_pos s.isValidUTF8]
  rfl

theorem bytes_inj {s t : String} (h : bytes s = bytes t) : s = t := by
  rw [← Option.some_inj, ← text?_bytes s, h, text?_bytes]

theorem encodeChar_ascii {c : Char} (h : c.toNat < 0x80) : encodeChar c = [UInt8.ofNat c.toNat] := by
  have hlow : c.val.toNat ≤ 0x7f := Nat.le_of_lt_succ h
  simp only [encodeChar, String.utf8EncodeChar, hlow, if_true]
  rfl

theorem high_ofNat {n : Nat} (hlow : 0x80 ≤ n) (hhigh : n < 256) : (0x80 : UInt8) ≤ UInt8.ofNat n := by
  rw [UInt8.le_iff_toNat_le, UInt8.toNat_ofNat_of_lt' hhigh]
  exact hlow

theorem encodeChar_high {c : Char} (h : 0x80 ≤ c.toNat) : ∀ b ∈ encodeChar c, 0x80 ≤ b := by
  have hlow : ¬ c.val.toNat ≤ 0x7f := Nat.not_le.2 h
  intro b hb
  simp only [encodeChar, String.utf8EncodeChar, hlow, if_false] at hb
  split at hb
  · simp only [List.mem_cons, List.not_mem_nil, or_false] at hb
    rcases hb with rfl | rfl <;> apply high_ofNat <;> omega
  · split at hb
    · simp only [List.mem_cons, List.not_mem_nil, or_false] at hb
      rcases hb with rfl | rfl | rfl <;> apply high_ofNat <;> omega
    · simp only [List.mem_cons, List.not_mem_nil, or_false] at hb
      rcases hb with rfl | rfl | rfl | rfl <;> apply high_ofNat <;> omega

theorem lossyFrom_lead {b : UInt8} {p : Partial} (hb : 0x80 ≤ b) (hp : Partial.ofLead? b = some p)
    (rest : List UInt8) : lossyFrom none (b :: rest) = lossyFrom (some p) rest := by
  have hlow : ¬ b < 0x80 := UInt8.not_lt.2 hb
  simp only [lossyFrom, stepByte, startByte, hlow, if_false, hp, List.nil_append]

theorem toNat_tail (n : Nat) : (UInt8.ofNat (n % 64 + 0x80)).toNat = n % 64 + 0x80 :=
  UInt8.toNat_ofNat_of_lt' (by simp only [UInt8.size]; omega)

theorem lossyFrom_tail {value missing n : Nat} {low high : UInt8}
    (h : low.toNat ≤ n % 64 + 0x80 ∧ n % 64 + 0x80 ≤ high.toNat) (rest : List UInt8) :
    lossyFrom (some ⟨value, missing, low, high⟩) (UInt8.ofNat (n % 64 + 0x80) :: rest) =
      if missing ≤ 1 then Char.ofNat (value * 64 + n % 64) :: lossyFrom none rest
      else lossyFrom (some ⟨value * 64 + n % 64, missing - 1, 0x80, 0xBF⟩) rest := by
  have hin : low ≤ UInt8.ofNat (n % 64 + 0x80) ∧ UInt8.ofNat (n % 64 + 0x80) ≤ high := by
    rw [UInt8.le_iff_toNat_le, UInt8.le_iff_toNat_le, toNat_tail]
    exact h
  have hbits : (n % 64 + 0x80) % 64 = n % 64 := by omega
  simp only [lossyFrom, stepByte, hin, and_self, if_true, toNat_tail, hbits]
  split <;> rfl

theorem lossyFrom_lastTail {value n : Nat} {low high : UInt8}
    (h : low.toNat ≤ n % 64 + 0x80 ∧ n % 64 + 0x80 ≤ high.toNat) (rest : List UInt8) :
    lossyFrom (some ⟨value, 1, low, high⟩) (UInt8.ofNat (n % 64 + 0x80) :: rest) =
      Char.ofNat (value * 64 + n % 64) :: lossyFrom none rest :=
  lossyFrom_tail h rest

deriving instance DecidableEq for Partial

theorem ofLead?_two : ∀ k < 32, 2 ≤ k →
    Partial.ofLead? (UInt8.ofNat (k + 0xC0)) = some ⟨k, 1, 0x80, 0xBF⟩ := by decide

theorem ofLead?_three : ∀ k < 16, Partial.ofLead? (UInt8.ofNat (k + 0xE0)) =
    some ⟨k, 2, if k = 0 then 0xA0 else 0x80, if k = 13 then 0x9F else 0xBF⟩ := by decide

theorem ofLead?_four : ∀ k < 5, Partial.ofLead? (UInt8.ofNat (k + 0xF0)) =
    some ⟨k, 3, if k = 0 then 0x90 else 0x80, if k = 4 then 0x8F else 0xBF⟩ := by decide

theorem lossyFrom_encodeChar (c : Char) (rest : List UInt8) :
    lossyFrom none (encodeChar c ++ rest) = c :: lossyFrom none rest := by
  have hvalid : c.toNat < 0xD800 ∨ 0xDFFF < c.toNat ∧ c.toNat < 0x110000 := c.valid
  have hval : c.val.toNat = c.toNat := rfl
  simp only [encodeChar, String.utf8EncodeChar, hval]
  split
  · next h =>
    have hbyte : (UInt8.ofNat c.toNat).toNat = c.toNat :=
      UInt8.toNat_ofNat_of_lt' (Nat.lt_of_le_of_lt h (by decide))
    have hlow : UInt8.ofNat c.toNat < 0x80 := by
      rw [UInt8.lt_iff_toNat_lt, hbyte]
      exact Nat.lt_succ_of_le h
    simp only [List.cons_append, List.nil_append, lossyFrom, stepByte, startByte, hlow, if_true, hbyte,
      Char.ofNat_toNat]
  split
  · have hlead := ofLead?_two (c.toNat / 64 % 32) (by omega) (by omega)
    have hvalue : c.toNat / 64 % 32 * 64 + c.toNat % 64 = c.toNat := by omega
    rw [List.cons_append, List.cons_append, List.nil_append,
      lossyFrom_lead (high_ofNat (by omega) (by omega)) hlead, lossyFrom_lastTail ⟨by simp, by simp; omega⟩,
      hvalue, Char.ofNat_toNat]
  split
  · have hlead := ofLead?_three (c.toNat / 4096 % 16) (by omega)
    have hvalue : (c.toNat / 4096 % 16 * 64 + c.toNat / 64 % 64) * 64 + c.toNat % 64 = c.toNat := by omega
    have hsecond : (if c.toNat / 4096 % 16 = 0 then (0xA0 : UInt8) else 0x80).toNat ≤ c.toNat / 64 % 64 + 0x80 ∧
        c.toNat / 64 % 64 + 0x80 ≤ (if c.toNat / 4096 % 16 = 13 then (0x9F : UInt8) else 0xBF).toNat := by
      constructor <;> split <;> simp only [UInt8.reduceToNat] <;> omega
    rw [List.cons_append, List.cons_append, List.cons_append, List.nil_append,
      lossyFrom_lead (high_ofNat (by omega) (by omega)) hlead, lossyFrom_tail hsecond,
      if_neg (by decide), lossyFrom_lastTail ⟨by simp, by simp; omega⟩, hvalue, Char.ofNat_toNat]
  · have hlead := ofLead?_four (c.toNat / 262144 % 8) (by omega)
    have hvalue : ((c.toNat / 262144 % 8 * 64 + c.toNat / 4096 % 64) * 64 + c.toNat / 64 % 64) * 64 +
        c.toNat % 64 = c.toNat := by omega
    have hsecond : (if c.toNat / 262144 % 8 = 0 then (0x90 : UInt8) else 0x80).toNat ≤
          c.toNat / 4096 % 64 + 0x80 ∧
        c.toNat / 4096 % 64 + 0x80 ≤ (if c.toNat / 262144 % 8 = 4 then (0x8F : UInt8) else 0xBF).toNat := by
      constructor <;> split <;> simp only [UInt8.reduceToNat] <;> omega
    rw [List.cons_append, List.cons_append, List.cons_append, List.cons_append, List.nil_append,
      lossyFrom_lead (high_ofNat (by omega) (by omega)) hlead, lossyFrom_tail hsecond, if_neg (by decide),
      lossyFrom_tail ⟨by simp, by simp; omega⟩, if_neg (by decide),
      lossyFrom_lastTail ⟨by simp, by simp; omega⟩, hvalue, Char.ofNat_toNat]

theorem lossyText_bytes (s : String) : lossyText (bytes s) = s := by
  have hchars : ∀ cs : List Char, lossyFrom none (cs.flatMap encodeChar) = cs := by
    intro cs
    induction cs with
    | nil => rfl
    | cons c cs ih => rw [List.flatMap_cons, lossyFrom_encodeChar, ih]
  rw [lossyText, bytes_eq, hchars, String.ofList_toList]

theorem eq_bytes_of_text? {bs : List UInt8} {s : String} (h : text? bs = some s) : bs = bytes s := by
  unfold text? String.fromUTF8? at h
  split at h
  · obtain rfl := Option.some.inj h
    simp [bytes, String.fromUTF8]
  · cases h

theorem lossyText_of_text? {bs : List UInt8} {s : String} (h : text? bs = some s) : lossyText bs = s := by
  rw [eq_bytes_of_text? h, lossyText_bytes]

theorem tail_bounds (n : Nat) : 0x80 ≤ UInt8.ofNat (n % 64 + 0x80) ∧ UInt8.ofNat (n % 64 + 0x80) < 0xC0 := by
  rw [UInt8.le_iff_toNat_le, UInt8.lt_iff_toNat_lt, toNat_tail]
  exact ⟨Nat.le_add_left _ _, Nat.add_lt_add_right (Nat.mod_lt n (by decide)) 0x80⟩

theorem lead_bounds {n : Nat} (hlow : 0xC0 ≤ n) (hhigh : n < 256) :
    ¬ UInt8.ofNat n < 0x80 ∧ 0xC0 ≤ UInt8.ofNat n := by
  rw [UInt8.le_iff_toNat_le, UInt8.lt_iff_toNat_lt, UInt8.toNat_ofNat_of_lt' hhigh]
  exact ⟨Nat.not_lt.2 (Nat.le_trans (by decide) hlow), hlow⟩

theorem encodeChar_shape (c : Char) : ∃ b bs, encodeChar c = b :: bs ∧ (b < 0x80 → bs = []) ∧
    (¬ b < 0x80 → 0xC0 ≤ b) ∧ ∀ x ∈ bs, 0x80 ≤ x ∧ x < 0xC0 := by
  simp only [encodeChar, String.utf8EncodeChar]
  split
  · next h =>
    refine ⟨_, [], rfl, fun _ => rfl, fun hhigh => absurd ?_ hhigh,
      fun _ hmem => absurd hmem List.not_mem_nil⟩
    rw [UInt8.lt_iff_toNat_lt, UInt8.toNat_ofNat_of_lt' (Nat.lt_of_le_of_lt h (by decide))]
    exact Nat.lt_succ_of_le h
  split
  · obtain ⟨hhigh, hlead⟩ := lead_bounds (n := c.val.toNat / 64 % 32 + 0xC0) (by omega) (by omega)
    refine ⟨_, _, rfl, fun hlow => absurd hlow hhigh, fun _ => hlead, ?_⟩
    simp only [List.forall_mem_cons, tail_bounds, and_self, List.not_mem_nil, false_imp_iff, implies_true]
  split
  · obtain ⟨hhigh, hlead⟩ := lead_bounds (n := c.val.toNat / 4096 % 16 + 0xE0) (by omega) (by omega)
    refine ⟨_, _, rfl, fun hlow => absurd hlow hhigh, fun _ => hlead, ?_⟩
    simp only [List.forall_mem_cons, tail_bounds, and_self, List.not_mem_nil, false_imp_iff, implies_true]
  · obtain ⟨hhigh, hlead⟩ := lead_bounds (n := c.val.toNat / 262144 % 8 + 0xF0) (by omega) (by omega)
    refine ⟨_, _, rfl, fun hlow => absurd hlow hhigh, fun _ => hlead, ?_⟩
    simp only [List.forall_mem_cons, tail_bounds, and_self, List.not_mem_nil, false_imp_iff, implies_true]

theorem exists_ascii {b : UInt8} (h : b < 0x80) : ∃ c : Char, c.toNat = b.toNat ∧ encodeChar c = [b] := by
  rw [UInt8.lt_iff_toNat_lt] at h
  have hlow : b.toNat < 0x80 := h
  have hvalue : (Char.ofNat b.toNat).toNat = b.toNat := by
    rw [Char.ofNat, dif_pos (Or.inl (by omega))]
    rfl
  refine ⟨Char.ofNat b.toNat, hvalue, ?_⟩
  rw [encodeChar_ascii (by omega), hvalue, UInt8.ofNat_toNat]

/-- The bytes of a character tell it apart, whatever follows them. -/
theorem encodeChar_append_inj {c d : Char} {s t : List UInt8} (h : encodeChar c ++ s = encodeChar d ++ t) :
    c = d ∧ s = t := by
  have hchars := congrArg (lossyFrom none) h
  rw [lossyFrom_encodeChar, lossyFrom_encodeChar] at hchars
  obtain ⟨rfl, -⟩ := List.cons.inj hchars
  exact ⟨rfl, List.append_cancel_left h⟩

end OrderDepot.Text
