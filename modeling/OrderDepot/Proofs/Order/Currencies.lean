import Mathlib.Data.List.Infix
import OrderDepot.Order.Sample
import OrderDepot.Proofs.Order.Violations

/-!
# Which currencies are accepted

A code is put into upper case before it is compared with the allowed ones, by the rules for all of Unicode. These lead
to ASCII letters from the small ASCII letters, and from few others. Of the others only the long s leads into an
allowed code.
-/

namespace OrderDepot

open Text (asciiUpper? asciiUpperText? isAsciiLetter)

def longS : Char := '\u017f'

/-- The capital letter of an ASCII letter, and of the long s. -/
def capital (c : Char) : Char :=
  if c = longS then 'S' else c.toUpper

def otherForms : List (List Char) := [['I'], ['F'], ['S', 'S'], ['S', 'T']]

theorem asciiUpper?_ascii : ∀ n < 0x80, asciiUpper? (Char.ofNat n) = some [capital (Char.ofNat n)] := by decide

theorem asciiUpper?_low {c : Char} (h : c.toNat < 0x80) : asciiUpper? c = some [capital c] := by
  have hform := asciiUpper?_ascii c.toNat h
  rwa [Char.ofNat_toNat] at hform

theorem capital_high {c : Char} (h : 0x80 ≤ c.toNat) (hs : c ≠ longS) : capital c = c := by
  have hlarge : ¬ ('a'.val ≤ c.val ∧ c.val ≤ 'z'.val) := by
    rintro ⟨-, hz⟩
    exact Nat.not_lt.2 (UInt32.le_iff_toNat_le.1 hz) (Nat.lt_of_lt_of_le (by decide) h)
  rw [capital, if_neg hs]
  exact dif_neg hlarge

theorem isAsciiLetter_lt {c : Char} (h : isAsciiLetter c = true) : c.toNat < 0x80 := by
  simp only [isAsciiLetter, Bool.or_eq_true, Bool.and_eq_true, decide_eq_true_eq] at h
  rcases h with ⟨-, hz⟩ | ⟨-, hz⟩
  · exact Nat.lt_of_le_of_lt (UInt32.le_iff_toNat_le.1 hz) (by decide)
  · exact Nat.lt_of_le_of_lt (UInt32.le_iff_toNat_le.1 hz) (by decide)

theorem form_or_rest {p : Prop} [Decidable p] {form u : List Char} {rest : Option (List Char)}
    (h : (if p then some form else rest) = some u) : u = form ∨ rest = some u := by
  split at h
  · exact .inl (Option.some.inj h).symm
  · exact .inr h

theorem asciiUpper?_cases {c : Char} {u : List Char} (h : asciiUpper? c = some u) :
    u = [capital c] ∨ ∃ w ∈ otherForms, w <:+: u := by
  by_cases hlow : c.toNat < 0x80
  · exact .inl (Option.some.inj (h.symm.trans (asciiUpper?_low hlow)))
  by_cases hs : c = '\u017f'
  · subst hs
    cases h
    exact .inl rfl
  · have hsmall : ¬ ('a' ≤ c ∧ c ≤ 'z') := fun hsmall =>
      hlow (isAsciiLetter_lt (by simp [isAsciiLetter, hsmall]))
    simp only [asciiUpper?, hsmall, hlow, hs, if_false] at h
    refine .inr ?_
    iterate 9
      obtain rfl | h := form_or_rest h
      · decide
    cases h

theorem asciiUpper?_of_capital {c : Char} (h : isAsciiLetter (capital c) = true) :
    asciiUpper? c = some [capital c] := by
  by_cases hlow : c.toNat < 0x80
  · exact asciiUpper?_low hlow
  by_cases hs : c = longS
  · subst hs
    rfl
  · rw [capital_high (Nat.not_lt.1 hlow) hs] at h
    exact absurd (isAsciiLetter_lt h) hlow

variable {cs upper : List Char}

theorem asciiUpperText?_cases (h : asciiUpperText? cs = some upper) :
    upper = cs.map capital ∨ ∃ w ∈ otherForms, w <:+: upper := by
  obtain ⟨forms, hforms, rfl⟩ := Option.map_eq_some_iff.1 h
  clear h
  induction cs generalizing forms with
  | nil =>
    cases hforms
    exact .inl rfl
  | cons c cs ih =>
    rw [List.mapM_cons] at hforms
    obtain ⟨u, hu, hforms⟩ := Option.bind_eq_some_iff.1 hforms
    obtain ⟨forms, hothers, hforms⟩ := Option.bind_eq_some_iff.1 hforms
    cases hforms
    rw [List.flatten_cons]
    rcases asciiUpper?_cases hu with rfl | ⟨w, hw, hpart⟩
    · rcases ih forms hothers with heq | ⟨w, hw, hpart⟩
      · exact .inl (congrArg _ heq)
      · exact .inr ⟨w, hw, hpart.trans (List.suffix_append _ _).isInfix⟩
    · exact .inr ⟨w, hw, hpart.trans (List.prefix_append _ _).isInfix⟩

theorem asciiUpperText?_of_capitals (h : (cs.map capital).all isAsciiLetter = true) :
    asciiUpperText? cs = some (cs.map capital) := by
  induction cs with
  | nil => rfl
  | cons c cs ih =>
    rw [List.map_cons, List.all_cons, Bool.and_eq_true] at h
    obtain ⟨forms, hforms, hcs⟩ := Option.map_eq_some_iff.1 (ih h.2)
    rw [asciiUpperText?, List.mapM_cons, asciiUpper?_of_capital h.1, hforms, List.map_cons, ← hcs]
    rfl

theorem map_capital (h : longS ∉ cs) : cs.map capital = cs.map Char.toUpper := by
  refine List.map_congr_left fun c hc => ?_
  have hs : c ≠ longS := fun heq => h (heq ▸ hc)
  rw [capital, if_neg hs]

theorem longS_notMem (h : (cs.map Char.toUpper).all isAsciiLetter = true) : longS ∉ cs := by
  intro hmem
  have hletter := List.all_eq_true.1 h longS.toUpper (List.mem_map_of_mem hmem)
  exact absurd hletter (by decide)

variable {code : String}

/-- One of the allowed codes, in small or capital ASCII letters and with any white space around it. -/
def ListedCurrency (code : String) : Prop :=
  ∃ c ∈ allowedCurrencies, (Text.trim code).toList.map Char.toUpper = c.toList

def stemsBeforeS : List (List Char) := [['K', 'G'], ['U', 'Z']]

/-- One of the allowed codes that end in `S`, written with a long s. -/
def LongSCurrency (code : String) : Prop :=
  ∃ stem, (Text.trim code).toList = stem ++ [longS] ∧ stem.map Char.toUpper ∈ stemsBeforeS

theorem otherForms_absent : ∀ c ∈ allowedCurrencies, ∀ w ∈ otherForms, ¬ w <:+: c.toList := by decide

theorem allowedCurrency_iff :
    AllowedCurrency code ↔ ∃ c ∈ allowedCurrencies, (Text.trim code).toList.map capital = c.toList := by
  constructor
  · rintro ⟨c, hc, hupper⟩
    refine ⟨c, hc, ?_⟩
    rcases asciiUpperText?_cases hupper with heq | ⟨w, hw, hpart⟩
    · exact heq.symm
    · exact absurd hpart (otherForms_absent c hc w hw)
  · rintro ⟨c, hc, hcapitals⟩
    have hletters := (allowedCurrencies_letters c hc).2
    rw [← hcapitals] at hletters
    refine ⟨c, hc, ?_⟩
    rw [← hcapitals]
    exact asciiUpperText?_of_capitals hletters

theorem S_in_allowed : ∀ c ∈ allowedCurrencies, ∃ stem last, c.toList = stem ++ [last] ∧ 'S' ∉ stem ∧
    (last = 'S' → stem ∈ stemsBeforeS) := by
  have hcodes : ∀ c ∈ allowedCurrencies, c.toList ≠ [] ∧ 'S' ∉ c.toList.dropLast ∧
      (c.toList.getLast? = some 'S' → c.toList.dropLast ∈ stemsBeforeS) := by decide
  intro c hc
  obtain ⟨hne, hstem, hlast⟩ := hcodes c hc
  refine ⟨_, _, (List.dropLast_append_getLast hne).symm, hstem, fun heq => hlast ?_⟩
  rw [List.getLast?_eq_some_getLast hne, heq]

theorem stem_allowed : ∀ stem ∈ stemsBeforeS, stem.all isAsciiLetter = true ∧
    String.ofList (stem ++ ['S']) ∈ allowedCurrencies := by decide

theorem allowedCurrency_cases : AllowedCurrency code ↔ ListedCurrency code ∨ LongSCurrency code := by
  rw [allowedCurrency_iff]
  constructor
  · rintro ⟨c, hc, hcapitals⟩
    obtain ⟨stem, last, hcode, hstem, hlast⟩ := S_in_allowed c hc
    rw [hcode, List.map_eq_append_iff] at hcapitals
    obtain ⟨front, back, htrim, hfront, hback⟩ := hcapitals
    obtain ⟨d, rfl, rfl⟩ := List.map_eq_singleton_iff.1 hback
    have hno : longS ∉ front := fun hmem => hstem (hfront ▸ List.mem_map_of_mem hmem)
    rw [map_capital hno] at hfront
    by_cases hd : d = longS
    · subst hd
      exact .inr ⟨front, htrim, hfront ▸ hlast rfl⟩
    · refine .inl ⟨c, hc, ?_⟩
      rw [htrim, hcode, List.map_append, hfront, List.map_singleton, capital, if_neg hd]
  · rintro (⟨c, hc, hcapitals⟩ | ⟨stem, htrim, hstem⟩)
    · have hletters := (allowedCurrencies_letters c hc).2
      rw [← hcapitals] at hletters
      exact ⟨c, hc, (map_capital (longS_notMem hletters)).trans hcapitals⟩
    · obtain ⟨hletters, hcode⟩ := stem_allowed _ hstem
      refine ⟨_, hcode, ?_⟩
      rw [htrim, List.map_append, map_capital (longS_notMem hletters), String.toList_ofList]
      rfl

variable {o : Order} {now : Time.Instant} {kind : ViolationKind}

theorem not_allowed_of_blank (h : Text.trim code = "") : ¬ AllowedCurrency code := by
  rw [AllowedCurrency, h]
  decide

theorem not_allowed_of_breaks {path : String} (h : o.Breaks now path kind) (hpath : path = "payment.currency") :
    ¬ AllowedCurrency o.payment.currency := by
  cases h with
  | blank field =>
    subst hpath
    simp [Order.requiredTexts] at field
  | undated | inFuture | noItems | goodsTotal => exact absurd hpath (by decide)
  | delivery broken =>
    cases broken with
    | blank field =>
      subst hpath
      simp [Delivery.requiredTexts] at field
    | email | phone => exact absurd hpath (by decide)
  | @item n _ field =>
    have hbracket := bracket_mem_itemPath n field
    rw [hpath] at hbracket
    exact absurd hbracket (by decide)
  | @rid _ n =>
    have hbracket := bracket_mem_itemPath n "rid"
    rw [hpath] at hbracket
    exact absurd hbracket (by decide)
  | payment broken =>
    cases broken with
    | blank field =>
      subst hpath
      simp [Payment.requiredTexts] at field
    | negative field =>
      subst hpath
      simp [Payment.amounts] at field
    | noCurrency blank => exact not_allowed_of_blank blank
    | currency _ unknown => exact unknown
    | paidAt | amount => exact absurd hpath (by decide)

theorem breaks_of_not_allowed (now : Time.Instant) (h : ¬ AllowedCurrency o.payment.currency) :
    ∃ kind, o.Breaks now "payment.currency" kind := by
  by_cases hblank : Text.trim o.payment.currency = ""
  · exact ⟨_, .payment (.noCurrency hblank)⟩
  · exact ⟨_, .payment (.currency hblank h)⟩

/-- No report names the currency just if it is one of the allowed codes in ASCII letters of either case, or one of the
two that end in `S` with a long s in its place. -/
theorem Order.currency_accepted_iff (o : Order) (now : Time.Instant) :
    (∀ v ∈ o.violations now, v.path ≠ "payment.currency") ↔
      ListedCurrency o.payment.currency ∨ LongSCurrency o.payment.currency := by
  rw [← allowedCurrency_cases]
  constructor
  · intro hnone
    by_contra hunknown
    obtain ⟨kind, hbreaks⟩ := breaks_of_not_allowed now hunknown
    obtain ⟨v, hv, hkey⟩ := List.mem_map.1 ((violations_breaks o now).2 hbreaks)
    exact hnone v hv (congrArg Prod.fst hkey)
  · intro hallowed v hv hpath
    have hkey : ("payment.currency", v.kind) ∈ (o.violations now).keys := hpath ▸ List.mem_map_of_mem hv
    exact not_allowed_of_breaks ((violations_breaks o now).1 hkey) rfl hallowed

def longSSample : Order :=
  let o := Order.sample "a" ⟨1700000000, 0⟩
  { o with payment := { o.payment with currency := "kg\u017f" } }

theorem violations_of_isValid (h : o.isValid now = true) : o.violations now = [] :=
  List.isEmpty_iff.1 h

/-- An order is valid with a currency that is none of the listed ones, and that is not three ASCII letters. -/
theorem long_s_accepted :
    longSSample.isValid ⟨1700000000, 0⟩ = true ∧
      (∀ v ∈ longSSample.violations ⟨1700000000, 0⟩, v.path ≠ "payment.currency") ∧
      ¬ ListedCurrency longSSample.payment.currency ∧
      ¬ (Text.trim longSSample.payment.currency).toList.all isAsciiLetter = true := by
  have hvalid : longSSample.isValid ⟨1700000000, 0⟩ = true := by decide +kernel
  have hnone : longSSample.violations ⟨1700000000, 0⟩ = [] := violations_of_isValid hvalid
  refine ⟨hvalid, ?_, ?_, by decide +kernel⟩
  · rw [hnone]
    exact fun _ hv => absurd hv List.not_mem_nil
  · unfold ListedCurrency
    decide +kernel

end OrderDepot
