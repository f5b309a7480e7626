import OrderDepot.Proofs.Order.Rearrangement
import OrderDepot.Proofs.Order.Violations

/-!
# The money of an order adds up

Sums are computed in 64 bits with a check after each addition, and a sum that leaves the range counts as wrong. What an
order has to pay is never negative, so a sum on the way is never larger than the total: the check fails just if the
equation over all integers does.
-/

open scoped List

namespace OrderDepot

/-- The sum is the total over all integers, and whatever is picked out of the amounts adds up to a number from 0 to the
largest one of 64 bits. -/
structure AddsUpExactly (amounts : List Int64) (total : Int64) : Prop where
  sum : exactSum amounts = total.toInt
  parts : ∀ part, part <+ amounts → 0 ≤ exactSum part ∧ exactSum part ≤ Int64.maxValue.toInt

variable {amounts part : List Int64} {total : Int64} {o : Order} {now : Time.Instant}

theorem exactSum_le_of_sublist (h : ∀ n ∈ amounts, 0 ≤ n) (hpart : part <+ amounts) :
    exactSum part ≤ exactSum amounts := by
  induction hpart with
  | slnil => exact Int.le_refl 0
  | @cons part amounts n _ ih =>
    obtain ⟨hn, hamounts⟩ := List.forall_mem_cons.1 h
    have hfirst : 0 ≤ n.toInt := Int64.le_iff_toInt_le.1 hn
    have hrest := ih hamounts
    rw [exactSum]
    omega
  | @cons_cons part amounts n _ ih =>
    have hrest := ih (List.forall_mem_cons.1 h).2
    rw [exactSum, exactSum]
    omega

theorem addsUpExactly_of_nonneg (h : ∀ n ∈ amounts, 0 ≤ n) (hsum : AddUp amounts total) :
    AddsUpExactly amounts total := by
  refine ⟨hsum.2, fun part hpart => ⟨?_, ?_⟩⟩
  · exact exactSum_nonneg fun n hn => h n (hpart.subset hn)
  · calc exactSum part ≤ exactSum amounts := exactSum_le_of_sublist h hpart
      _ = total.toInt := hsum.2
      _ ≤ Int64.maxValue.toInt := (inRange_toInt total).2

def Order.prices (o : Order) : List Int64 := o.items.map (·.totalPrice)

def Payment.parts (p : Payment) : List Int64 := [p.goodsTotal, p.deliveryCost, p.customFee]

theorem inconsistent_cases {path : String} (h : o.Breaks now path .inconsistent) :
    '[' ∈ path.toList ∨
      (path = "payment.goods_total" ∧ o.items ≠ [] ∧ ¬ AddUp o.prices o.payment.goodsTotal) ∨
        path = "payment.amount" ∧ ¬ AddUp o.payment.parts o.payment.amount := by
  generalize hkind : ViolationKind.inconsistent = kind at h
  cases h with
  | blank | undated | inFuture | noItems => cases hkind
  | delivery broken => cases broken <;> cases hkind
  | item _ broken => cases broken <;> cases hkind
  | @rid _ n => exact .inl (bracket_mem_itemPath n "rid")
  | goodsTotal present wrong => exact .inr (.inl ⟨rfl, present, wrong⟩)
  | payment broken =>
    cases broken with
    | amount wrong => exact .inr (.inr ⟨rfl, wrong⟩)
    | blank | negative | noCurrency | currency | paidAt => cases hkind

theorem breaks_goodsTotal_iff :
    o.Breaks now "payment.goods_total" .inconsistent ↔ o.items ≠ [] ∧ ¬ AddUp o.prices o.payment.goodsTotal := by
  refine ⟨fun h => ?_, fun h => .goodsTotal h.1 h.2⟩
  rcases inconsistent_cases h with hbracket | ⟨-, hwrong⟩ | ⟨hpath, -⟩
  · exact absurd hbracket (by decide)
  · exact hwrong
  · exact absurd hpath (by decide)

theorem breaks_amount_iff :
    o.Breaks now "payment.amount" .inconsistent ↔ ¬ AddUp o.payment.parts o.payment.amount := by
  refine ⟨fun h => ?_, fun h => .payment (.amount h)⟩
  rcases inconsistent_cases h with hbracket | ⟨hpath, -⟩ | ⟨-, hwrong⟩
  · exact absurd hbracket (by decide)
  · exact absurd hpath (by decide)
  · exact hwrong

theorem has_iff_breaks (o : Order) (now : Time.Instant) (path : String) (kind : ViolationKind) :
    (o.violations now).has path kind = true ↔ o.Breaks now path kind :=
  (o.violations now).has_iff.trans (violations_breaks o now)

theorem not_breaks_of_isValid (h : o.isValid now = true) (path : String) (kind : ViolationKind) :
    ¬ o.Breaks now path kind := by
  have hnone : o.violations now = [] := List.isEmpty_iff.1 h
  rw [← violations_breaks, hnone]
  exact List.not_mem_nil

theorem prices_nonneg (h : ∀ i ∈ o.items, 0 ≤ i.totalPrice) : ∀ n ∈ o.prices, 0 ≤ n :=
  List.forall_mem_map.2 h

theorem amounts_nonneg_of_isValid (h : o.isValid now = true) : ∀ f ∈ o.payment.amounts, 0 ≤ f.2 := by
  intro f hf
  refine Int64.not_lt.1 fun hlow => ?_
  exact not_breaks_of_isValid h _ _ (.payment (.negative hf hlow))

theorem totalPrices_nonneg_of_isValid (h : o.isValid now = true) : ∀ i ∈ o.items, 0 ≤ i.totalPrice := by
  intro i hi
  obtain ⟨n, hn⟩ := List.mem_iff_getElem?.1 hi
  exact totalPrice_nonneg fun field kind hbroken => not_breaks_of_isValid h _ _ (.item hn hbroken)

/-- A valid order is paid for exactly, item by item and in all. An order without negative amounts is reported for one
of its two sums just if that sum is wrong over all integers. -/
theorem Order.sums_exact (o : Order) (now : Time.Instant) :
    (o.isValid now = true →
      AddsUpExactly o.prices o.payment.goodsTotal ∧ AddsUpExactly o.payment.parts o.payment.amount) ∧
    (o.items ≠ [] → (∀ i ∈ o.items, 0 ≤ i.totalPrice) →
      ((o.violations now).has "payment.goods_total" .inconsistent = true ↔
        exactSum o.prices ≠ o.payment.goodsTotal.toInt)) ∧
    (0 ≤ o.payment.goodsTotal → 0 ≤ o.payment.deliveryCost → 0 ≤ o.payment.customFee →
      ((o.violations now).has "payment.amount" .inconsistent = true ↔
        o.payment.goodsTotal.toInt + o.payment.deliveryCost.toInt + o.payment.customFee.toInt ≠
          o.payment.amount.toInt)) := by
  refine ⟨fun hvalid => ?_, fun hpresent hprices => ?_, fun hgoods hdelivery hfee => ?_⟩
  · have hbreaks := not_breaks_of_isValid hvalid
    have hpresent : o.items ≠ [] := fun hnone => hbreaks _ _ (.noItems hnone)
    have hprices := prices_nonneg (totalPrices_nonneg_of_isValid hvalid)
    have hparts : ∀ n ∈ o.payment.parts, 0 ≤ n := by
      have hamounts := amounts_nonneg_of_isValid hvalid
      simp only [Payment.amounts, List.forall_mem_cons] at hamounts
      obtain ⟨-, hdelivery, hgoods, hfee, -⟩ := hamounts
      simp [Payment.parts, hgoods, hdelivery, hfee]
    constructor
    · refine addsUpExactly_of_nonneg hprices (not_not.1 fun hwrong => ?_)
      exact hbreaks _ _ (breaks_goodsTotal_iff.2 ⟨hpresent, hwrong⟩)
    · refine addsUpExactly_of_nonneg hparts (not_not.1 fun hwrong => ?_)
      exact hbreaks _ _ (breaks_amount_iff.2 hwrong)
  · rw [has_iff_breaks, breaks_goodsTotal_iff, addUp_iff_of_nonneg (prices_nonneg hprices)]
    exact and_iff_right hpresent
  · have hparts : ∀ n ∈ o.payment.parts, 0 ≤ n := by
      simp [Payment.parts, hgoods, hdelivery, hfee]
    rw [has_iff_breaks, breaks_amount_iff, addUp_iff_of_nonneg hparts]
    simp [Payment.parts, exactSum, Int.add_assoc]

theorem largest_total_exact :
    let full := Order.sampleOf [.priced "1" (Int64.maxValue - 1), .priced "2" 1] Int64.maxValue
    let excess := Order.sampleOf [.priced "1" Int64.maxValue, .priced "2" 1] 0
    let now : Time.Instant := ⟨1700000000, 0⟩
    (full.isValid now = true ∧ AddsUpExactly full.prices Int64.maxValue ∧
      AddsUpExactly full.payment.parts Int64.maxValue) ∧
    (excess.items ≠ [] ∧ (∀ i ∈ excess.items, 0 ≤ i.totalPrice) ∧
      (excess.violations now).has "payment.goods_total" .inconsistent = true) ∧
    (0 ≤ excess.payment.goodsTotal ∧ 0 ≤ excess.payment.deliveryCost ∧ 0 ≤ excess.payment.customFee ∧
      (excess.violations now).has "payment.amount" .inconsistent = false) := by
  intro full excess now
  have hvalid : full.isValid now = true := by decide +kernel
  have hpresent : excess.items ≠ [] := by decide
  have hprices : ∀ i ∈ excess.items, 0 ≤ i.totalPrice := by decide +kernel
  have hgoods : 0 ≤ excess.payment.goodsTotal := by decide
  have hdelivery : 0 ≤ excess.payment.deliveryCost := by decide
  have hfee : 0 ≤ excess.payment.customFee := by decide
  have hsum : exactSum excess.prices ≠ excess.payment.goodsTotal.toInt := by decide +kernel
  have hamount : ¬ (excess.violations now).has "payment.amount" .inconsistent = true := by
    rw [(Order.sums_exact excess now).2.2 hgoods hdelivery hfee]
    decide +kernel
  exact ⟨⟨hvalid, (Order.sums_exact full now).1 hvalid⟩,
    ⟨hpresent, hprices, ((Order.sums_exact excess now).2.1 hpresent hprices).2 hsum⟩,
    hgoods, hdelivery, hfee, Bool.eq_false_iff.2 hamount⟩

end OrderDepot
