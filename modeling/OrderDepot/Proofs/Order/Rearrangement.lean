import Mathlib.Data.List.Perm.Basic
import OrderDepot.Order.Sample
import OrderDepot.Proofs.Order.Rules

/-!
# The order of the items

The report of an order names items by their places, and the total of the goods is summed up from the left, where it can
leave the range of 64 bits on the way. So both change when the items change places. Whether the order is valid does
not: an item with a negative price is a fault wherever it stands, and without one no sum on the way is larger than the
total.
-/

namespace OrderDepot

def Item.SharesRid (i j : Item) : Prop := i.rid ≠ "" ∧ i.rid = j.rid

theorem Item.SharesRid.symm {i j : Item} (h : i.SharesRid j) : j.SharesRid i :=
  ⟨h.2 ▸ h.1, h.2.symm⟩

/-- The rules of the items and of the total of the goods, told without the places of the items. -/
structure ItemsAccepted (items : List Item) (total : Int64) : Prop where
  present : items ≠ []
  each : ∀ i ∈ items, ∀ field kind, ¬ i.Breaks field kind
  distinct : items.Pairwise fun i j => ¬ i.SharesRid j
  sum : exactSum (items.map (·.totalPrice)) = total.toInt

variable {items items' : List Item} {total : Int64}

theorem exactSum_perm {xs ys : List Int64} (h : xs.Perm ys) : exactSum xs = exactSum ys := by
  induction h with
  | nil => rfl
  | cons n _ ih => rw [exactSum, exactSum, ih]
  | swap m n amounts => simp only [exactSum, Int.add_left_comm]
  | trans _ _ ih ih' => exact ih.trans ih'

theorem ItemsAccepted.of_perm (h : ItemsAccepted items total) (hperm : items.Perm items') :
    ItemsAccepted items' total where
  present hnone := h.present (List.perm_nil.1 (hnone ▸ hperm))
  each i hi := h.each i (hperm.mem_iff.2 hi)
  distinct := h.distinct.perm hperm fun hij hji => hij hji.symm
  sum := (exactSum_perm (hperm.map _)).symm.trans h.sum

theorem totalPrice_nonneg {i : Item} (h : ∀ field kind, ¬ i.Breaks field kind) : 0 ≤ i.totalPrice := by
  refine Int64.not_lt.1 fun hlow => ?_
  exact h "total_price" .outOfRange (.negative (by simp [Item.numbers]) hlow)

/-- The total is judged exactly once no single item is at fault. -/
theorem addUp_totalPrices (h : ∀ i ∈ items, ∀ field kind, ¬ i.Breaks field kind) :
    AddUp (items.map (·.totalPrice)) total ↔ exactSum (items.map (·.totalPrice)) = total.toInt := by
  apply addUp_iff_of_nonneg
  intro n hn
  obtain ⟨i, hi, rfl⟩ := List.mem_map.1 hn
  exact totalPrice_nonneg (h i hi)

theorem Report.eq_nil_iff (r : Report) : r = [] ↔ ∀ path kind, (path, kind) ∉ r.keys := by
  rw [← List.map_eq_nil_iff (f := fun v : Violation => (v.path, v.kind)), List.eq_nil_iff_forall_not_mem]
  exact Prod.forall

theorem checkItems_eq_nil (o : Order) : checkItems o = [] ↔ ItemsAccepted o.items o.payment.goodsTotal := by
  simp only [Report.eq_nil_iff, checkItems_breaks]
  constructor
  · intro hkeys
    have hpresent : o.items ≠ [] := fun hnone => hkeys _ _ (.inl ⟨hnone, rfl, rfl⟩)
    have heach : ∀ i ∈ o.items, ∀ field kind, ¬ i.Breaks field kind := by
      intro i hi field kind hbroken
      obtain ⟨n, hn⟩ := List.mem_iff_getElem?.1 hi
      exact hkeys _ _ (.inr (.inl ⟨n, i, field, hn, hbroken, rfl⟩))
    have hsum : AddUp (o.items.map (·.totalPrice)) o.payment.goodsTotal := by
      by_contra hwrong
      exact hkeys _ _ (.inr (.inr (.inr ⟨⟨hpresent, hwrong⟩, rfl, rfl⟩)))
    refine ⟨hpresent, heach, List.pairwise_iff_getElem.2 ?_, (addUp_totalPrices heach).1 hsum⟩
    intro m n hm hn hlt hshared
    have hearlier := List.getElem?_eq_getElem hm
    have hlater := List.getElem?_eq_getElem hn
    exact hkeys _ _ (.inr (.inr (.inl
      ⟨m, n, _, _, hearlier, hlater, hlt, hshared.symm.1, hshared.2, rfl, rfl⟩)))
  · intro h path kind hkey
    rcases hkey with ⟨hnone, -⟩ | ⟨n, i, field, hi, hbroken, -⟩ |
      ⟨m, n, i, j, hi, hj, hlt, hgiven, hsame, -⟩ | ⟨⟨-, hwrong⟩, -⟩
    · exact h.present hnone
    · exact h.each i (List.mem_of_getElem? hi) field kind hbroken
    · obtain ⟨hm, rfl⟩ := List.getElem?_eq_some_iff.1 hi
      obtain ⟨hn, rfl⟩ := List.getElem?_eq_some_iff.1 hj
      exact List.pairwise_iff_getElem.1 h.distinct m n hm hn hlt ⟨hsame ▸ hgiven, hsame⟩
    · exact hwrong ((addUp_totalPrices h.each).2 h.sum)

/-- The items may stand in any order: an order with the same items in other places is valid just if it was. -/
theorem Order.isValid_rearranged (o : Order) {items : List Item} (h : items.Perm o.items) (now : Time.Instant) :
    ({ o with items } : Order).isValid now = o.isValid now := by
  have hitems : checkItems { o with items } = [] ↔ checkItems o = [] := by
    rw [checkItems_eq_nil, checkItems_eq_nil]
    exact ⟨fun hall => hall.of_perm h, fun hall => hall.of_perm h.symm⟩
  -- The other sections do not read the items.
  rw [Bool.eq_iff_iff, Order.isValid, Order.isValid, List.isEmpty_iff, List.isEmpty_iff]
  simp only [Order.violations, List.append_eq_nil_iff, hitems]
  rfl

def Item.priced (rid : String) (totalPrice : Int64) : Item where
  chrtId := 1
  trackNumber := ""
  price := 0
  rid := rid
  name := "Pen"
  sale := 0
  size := ""
  totalPrice := totalPrice
  nmId := 1
  brand := ""
  status := 0

def Order.sampleOf (items : List Item) (total : Int64) : Order :=
  let o := Order.sample "a" ⟨1700000000, 0⟩
  { o with items, payment := { o.payment with goodsTotal := total, deliveryCost := 0, amount := total } }

theorem rearranged_around_overflow :
    let most := Item.priced "1" Int64.maxValue
    let one := Item.priced "2" 1
    let back := Item.priced "3" (-1)
    let now : Time.Instant := ⟨1700000000, 0⟩
    let bad := Order.sampleOf [one, back, most] Int64.maxValue
    let good := Order.sampleOf [one, .priced "3" 2] 3
    ([most, one, back].Perm bad.items ∧ bad.itemsTotal = some Int64.maxValue ∧ itemsTotal [most, one, back] = none ∧
      bad.isValid now = false ∧ ({ bad with items := [most, one, back] } : Order).isValid now = false) ∧
    good.isValid now = true ∧ ({ good with items := good.items.reverse } : Order).isValid now = true := by
  intro most one back now bad good
  have hperm : [most, one, back].Perm bad.items := @List.perm_append_comm _ [most] [one, back]
  have hbad : bad.isValid now = false := by decide +kernel
  have hgood : good.isValid now = true := by decide +kernel
  refine ⟨⟨hperm, by decide +kernel, by decide +kernel, hbad, ?_⟩, hgood, ?_⟩
  · exact (Order.isValid_rearranged bad hperm now).trans hbad
  · exact (Order.isValid_rearranged good good.items.reverse_perm now).trans hgood

end OrderDepot
