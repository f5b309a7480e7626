import Mathlib.Tactic.SplitIfs
import OrderDepot.Proofs.Text.Utf8
import OrderDepot.Text.Base64

/-!
Reading base64 gives back what was written, for byte strings of every length. The proof follows the groups of
three bytes; only the last group is read by the rule that also knows padding.
-/

namespace OrderDepot.Text

namespace Base64

def code (n : Nat) : UInt8 := UInt8.ofNat (symbol n).toNat

theorem utf8_symbol (n : Nat) (h : n < 64) : String.utf8EncodeChar (symbol n) = [code n] := by
  revert n
  decide

theorem value?_code (n : Nat) (h : n < 64) : value? (code n) = some n := by
  revert n
  decide

theorem code_ne_pad (n : Nat) (h : n < 64) : code n ≠ pad := by
  revert n
  decide

theorem utf8_pad : String.utf8EncodeChar '=' = [pad] := by decide

theorem values_codes (offset : Nat) (vs : List Nat) (h : ∀ v ∈ vs, v < 64) :
    values offset (vs.map code) = .ok vs := by
  induction vs generalizing offset with
  | nil => rfl
  | cons v vs ih =>
    have hv := value?_code v (h v (by simp))
    have hs := ih (offset + 1) fun x hx => h x (by simp [hx])
    simp only [List.map_cons, values, hv, hs]
    rfl

theorem takeWhile_codes (vs : List Nat) (n : Nat) (h : ∀ v ∈ vs, v < 64) :
    (vs.map code ++ List.replicate n pad).takeWhile (· != pad) = vs.map code := by
  rw [List.takeWhile_append_of_pos]
  · cases n <;> simp [List.replicate]
  · intro b hb
    obtain ⟨v, hv, rfl⟩ := List.mem_map.1 hb
    simpa using code_ne_pad v (h v hv)

theorem lastGroup_codes (offset : Nat) (vs : List Nat) (h : ∀ v ∈ vs, v < 64) (hlow : 2 ≤ vs.length)
    (hhigh : vs.length ≤ 4) (hspare : spareBits vs = 0) :
    lastGroup offset (vs.map code ++ List.replicate (4 - vs.length) pad) = .ok (groupBytes vs) := by
  have htake := takeWhile_codes vs (4 - vs.length) h
  have hcheck : checkPadding offset (vs.map code ++ List.replicate (4 - vs.length) pad) = .ok () := by
    simp only [checkPadding, htake, List.drop_left]
    split_ifs with hempty hbad
    · rfl
    · simp at hbad
      omega
    · rfl
  simp only [lastGroup, htake, hcheck, values_codes _ _ h]
  have hshort : ¬ vs.length < 2 := by omega
  have hlong : ¬ (vs.map code ++ List.replicate (4 - vs.length) pad).length < 4 := by
    simp
    omega
  simp only [bind, Except.bind, hshort, hlong, hspare, if_false, ne_eq, not_true_eq_false]

theorem flatMap_symbols (vs : List Nat) (n : Nat) (h : ∀ v ∈ vs, v < 64) :
    (vs.map symbol ++ List.replicate n '=').flatMap String.utf8EncodeChar =
      vs.map code ++ List.replicate n pad := by
  have hvs : (vs.map symbol).flatMap String.utf8EncodeChar = vs.map code := by
    induction vs with
    | nil => rfl
    | cons v vs ih =>
      have hv := utf8_symbol v (h v (by simp))
      have hrest := ih fun x hx => h x (by simp [hx])
      simp only [List.map_cons, List.flatMap_cons, hv, hrest, List.singleton_append]
  rw [List.flatMap_append, hvs]
  induction n with
  | zero => rfl
  | succ n ih => simpa [List.replicate_succ, utf8_pad] using ih

theorem groupBytes_one (a : UInt8) : groupBytes [a.toNat * 16 / 64, a.toNat * 16 % 64] = [a] := by
  have ha : a.toNat * 16 / 64 * 4 + a.toNat * 16 % 64 / 16 = a.toNat := by omega
  simp only [groupBytes, ha, UInt8.ofNat_toNat]

theorem groupBytes_two (a b : UInt8) :
    let n := (a.toNat * 256 + b.toNat) * 4
    groupBytes [n / 4096, n / 64 % 64, n % 64] = [a, b] := by
  intro n
  have hb := b.toNat_lt_size
  simp only [UInt8.size] at hb
  have h₁ : n / 4096 * 4 + n / 64 % 64 / 16 = a.toNat := by omega
  have h₂ : n / 64 % 64 % 16 * 16 + n % 64 / 4 = b.toNat := by omega
  simp only [groupBytes, h₁, h₂, UInt8.ofNat_toNat]

theorem groupBytes_three (a b c : UInt8) :
    let n := (a.toNat * 256 + b.toNat) * 256 + c.toNat
    groupBytes [n / 262144, n / 4096 % 64, n / 64 % 64, n % 64] = [a, b, c] := by
  intro n
  have hb := b.toNat_lt_size
  have hc := c.toNat_lt_size
  simp only [UInt8.size] at hb hc
  have h₁ : n / 262144 * 4 + n / 4096 % 64 / 16 = a.toNat := by omega
  have h₂ : n / 4096 % 64 % 16 * 16 + n / 64 % 64 / 4 = b.toNat := by omega
  have h₃ : n / 64 % 64 % 4 * 64 + n % 64 = c.toNat := by omega
  simp only [groupBytes, h₁, h₂, h₃, UInt8.ofNat_toNat]

theorem groups_codes (offset : Nat) (vs : List Nat) (tail : List UInt8) (bs rest : List UInt8)
    (h : ∀ v ∈ vs, v < 64) (hlen : vs.length = 4) (hbytes : groupBytes vs = bs)
    (htail : groups (offset + 4) tail = .ok rest) :
    groups offset (vs.map code ++ tail) = .ok (bs ++ rest) := by
  obtain ⟨w, x, y, z, rfl⟩ : ∃ w x y z, vs = [w, x, y, z] := by
    match vs, hlen with
    | [w, x, y, z], _ => exact ⟨w, x, y, z, rfl⟩
  cases tail with
  | nil =>
    have hrest : rest = [] := by simpa [groups] using htail.symm
    have hlast := lastGroup_codes offset [w, x, y, z] h (by simp) (by simp) rfl
    subst hrest
    rw [← hbytes, List.append_nil]
    simpa [groups] using hlast
  | cons e tail =>
    have hvalues := values_codes offset [w, x, y, z] h
    simp only [List.map_cons, List.map_nil] at hvalues
    simp only [List.map_cons, List.map_nil, List.cons_append, List.nil_append, groups, hvalues, htail, bind,
      Except.bind, hbytes]
    rfl

theorem groups_encodeChars (offset : Nat) (bs : List UInt8) :
    groups offset ((encodeChars bs).flatMap String.utf8EncodeChar) = .ok bs ∧
      ((encodeChars bs).flatMap String.utf8EncodeChar).length % 4 = 0 := by
  induction bs using encodeChars.induct generalizing offset with
  | case1 => exact ⟨rfl, rfl⟩
  | case2 a =>
    have ha := a.toNat_lt_size
    simp only [UInt8.size] at ha
    have hvs : ∀ v ∈ [a.toNat * 16 / 64, a.toNat * 16 % 64], v < 64 := by
      simp
      omega
    have hchars : encodeChars [a] =
      [a.toNat * 16 / 64, a.toNat * 16 % 64].map symbol ++ List.replicate 2 '=' := rfl
    have hlast := lastGroup_codes offset _ hvs (by simp) (by simp) (by simp [spareBits])
    rw [groupBytes_one] at hlast
    rw [hchars, flatMap_symbols _ 2 hvs]
    exact ⟨hlast, by simp⟩
  | case3 a b =>
    let n := (a.toNat * 256 + b.toNat) * 4
    have ha := a.toNat_lt_size
    have hb := b.toNat_lt_size
    simp only [UInt8.size] at ha hb
    have hvs : ∀ v ∈ [n / 4096, n / 64 % 64, n % 64], v < 64 := by
      simp
      omega
    have hchars : encodeChars [a, b] =
      [n / 4096, n / 64 % 64, n % 64].map symbol ++ List.replicate 1 '=' := rfl
    have hlast := lastGroup_codes offset _ hvs (by simp) (by simp) (by simp [spareBits]; omega)
    rw [groupBytes_two] at hlast
    rw [hchars, flatMap_symbols _ 1 hvs]
    exact ⟨hlast, by simp⟩
  | case4 a b c rest ih =>
    let n := (a.toNat * 256 + b.toNat) * 256 + c.toNat
    have ha := a.toNat_lt_size
    have hb := b.toNat_lt_size
    have hc := c.toNat_lt_size
    simp only [UInt8.size] at ha hb hc
    have hvs : ∀ v ∈ [n / 262144, n / 4096 % 64, n / 64 % 64, n % 64], v < 64 := by
      simp
      omega
    have hchars : encodeChars (a :: b :: c :: rest) =
      ([n / 262144, n / 4096 % 64, n / 64 % 64, n % 64].map symbol ++ List.replicate 0 '=') ++
        encodeChars rest := rfl
    obtain ⟨hrest, hlen⟩ := ih (offset + 4)
    rw [hchars, List.flatMap_append, flatMap_symbols _ 0 hvs]
    refine ⟨?_, ?_⟩
    · simpa using groups_codes offset _ _ [a, b, c] rest hvs rfl (groupBytes_three a b c) hrest
    · simp only [List.length_append, List.length_map, List.length_cons, List.length_nil, List.length_replicate]
      omega

theorem decode_encode (bs : List UInt8) : decode (bytes (encode bs)) = .ok bs := by
  obtain ⟨hgroups, hlen⟩ := groups_encodeChars 0 bs
  rw [encode, bytes_ofList]
  have hstray : strayEnd ((encodeChars bs).flatMap String.utf8EncodeChar) = .ok () := by
    unfold strayEnd
    split
    · rw [if_neg (by omega)]
    · rfl
  simp only [decode, hstray]
  exact hgroups

end Base64

end OrderDepot.Text
