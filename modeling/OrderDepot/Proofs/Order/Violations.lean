import Mathlib.Data.List.Nodup
import OrderDepot.Proofs.Order.Rules

/-!
# No rule is reported twice

The report keeps to one order of all paths and kinds that there are. In that order none of them comes twice, since the
paths of the items differ by the numbers between their brackets.
-/

open scoped List

namespace OrderDepot

theorem toList_itemPath (n : Nat) (field : String) :
    (itemPath n field).toList = "items[".toList ++ (Nat.toDigits 10 n ++ (']' :: '.' :: field.toList)) := by
  have hparts : itemPath n field = "items[" ++ n.repr ++ "]." ++ field := rfl
  simp [hparts]

theorem bracket_mem_itemPath (n : Nat) (field : String) : '[' ∈ (itemPath n field).toList := by
  rw [toList_itemPath]
  exact List.mem_append_left _ (by decide)

theorem takeWhile_number (n : Nat) (rest : List Char) :
    (Nat.toDigits 10 n ++ ']' :: rest).takeWhile (· ≠ ']') = Nat.toDigits 10 n := by
  rw [List.takeWhile_append_of_pos]
  · simp
  · intro c hc
    have hdigit := Nat.isDigit_of_mem_toDigits (by decide) (by decide) hc
    refine decide_eq_true fun heq => ?_
    rw [heq] at hdigit
    cases hdigit

theorem itemPath_inj {m n : Nat} {f g : String} (h : itemPath m f = itemPath n g) : m = n ∧ f = g := by
  have hchars := congrArg String.toList h
  rw [toList_itemPath, toList_itemPath] at hchars
  have hrest := List.append_cancel_left hchars
  have hdigits : Nat.toDigits 10 m = Nat.toDigits 10 n := by
    rw [← takeWhile_number m, hrest, takeWhile_number]
  have hnumber : m = n := by
    rw [← Nat.ofDigitChars_ten_toDigits (n := m), hdigits, Nat.ofDigitChars_ten_toDigits]
  rw [hdigits] at hrest
  refine ⟨hnumber, String.toList_inj.1 ?_⟩
  exact (List.cons.inj (List.cons.inj (List.append_cancel_left hrest)).2).2

def headKeys : List (String × ViolationKind) :=
  [("order_uid", .required), ("track_number", .required), ("entry", .required), ("customer_id", .required),
   ("delivery_service", .required), ("locale", .required), ("shardkey", .required), ("oof_shard", .required),
   ("date_created", .required), ("date_created", .outOfRange), ("delivery.name", .required),
   ("delivery.phone", .required), ("delivery.city", .required), ("delivery.address", .required),
   ("delivery.region", .required), ("delivery.email", .format), ("delivery.phone", .format), ("items", .required)]

def itemKeys (n : Nat) : List (String × ViolationKind) :=
  [(itemPath n "chrt_id", .outOfRange), (itemPath n "name", .required), (itemPath n "price", .outOfRange),
   (itemPath n "total_price", .outOfRange), (itemPath n "sale", .outOfRange), (itemPath n "status", .outOfRange),
   (itemPath n "rid", .inconsistent)]

def tailKeys : List (String × ViolationKind) :=
  [("payment.goods_total", .inconsistent), ("payment.transaction", .required), ("payment.provider", .required),
   ("payment.amount", .outOfRange), ("payment.delivery_cost", .outOfRange), ("payment.goods_total", .outOfRange),
   ("payment.custom_fee", .outOfRange), ("payment.currency", .required), ("payment.currency", .format),
   ("payment.payment_dt", .outOfRange), ("payment.amount", .inconsistent)]

def allKeys (items : Nat) : List (String × ViolationKind) :=
  headKeys ++ ((List.range items).flatMap itemKeys ++ tailKeys)

theorem nodup_itemKeys (n : Nat) : (itemKeys n).Nodup := by
  have hfields : itemKeys n = [("chrt_id", ViolationKind.outOfRange), ("name", .required), ("price", .outOfRange),
      ("total_price", .outOfRange), ("sale", .outOfRange), ("status", .outOfRange), ("rid", .inconsistent)].map
        fun k => (itemPath n k.1, k.2) := rfl
  rw [hfields]
  refine List.Nodup.map ?_ (by decide)
  intro k l hkl
  obtain ⟨hpath, hkind⟩ := Prod.mk.inj hkl
  exact Prod.ext (itemPath_inj hpath).2 hkind

theorem path_of_mem_itemKeys {n : Nat} {key : String × ViolationKind} (h : key ∈ itemKeys n) :
    ∃ field, key.1 = itemPath n field := by
  simp only [itemKeys, List.mem_cons, List.not_mem_nil, or_false] at h
  rcases h with rfl | rfl | rfl | rfl | rfl | rfl | rfl <;> exact ⟨_, rfl⟩

theorem nodup_items (items : Nat) : ((List.range items).flatMap itemKeys).Nodup := by
  rw [List.nodup_flatMap]
  refine ⟨fun n _ => nodup_itemKeys n, List.nodup_range.imp ?_⟩
  intro m n hne key hm hn
  obtain ⟨f, hf⟩ := path_of_mem_itemKeys hm
  obtain ⟨g, hg⟩ := path_of_mem_itemKeys hn
  exact hne (itemPath_inj (hf.symm.trans hg)).1

theorem nodup_allKeys (items : Nat) : (allKeys items).Nodup := by
  have hplain : ∀ key ∈ headKeys ++ tailKeys, '[' ∉ key.1.toList := by decide
  have hdisjoint : List.Disjoint ((List.range items).flatMap itemKeys) (headKeys ++ tailKeys) := by
    intro key hitem hfixed
    obtain ⟨n, -, hn⟩ := List.mem_flatMap.1 hitem
    obtain ⟨field, hfield⟩ := path_of_mem_itemKeys hn
    refine hplain key hfixed ?_
    rw [hfield]
    exact bracket_mem_itemPath n field
  rw [allKeys, (List.perm_append_comm_assoc _ _ _).nodup_iff]
  exact (nodup_items items).append (by decide) hdisjoint

theorem keys_breachIf_sublist (broken : Bool) (path : String) (b : Breach) :
    (breachIf broken path b).keys <+ [(path, b.kind)] := by
  cases broken
  · exact List.nil_sublist _
  · exact List.Sublist.refl _

theorem keys_flatMap_sublist {α : Type} {check : α → Report} {key : α → String × ViolationKind}
    (h : ∀ f, (check f).keys <+ [key f]) (fields : List α) :
    Report.keys (fields.flatMap check) <+ fields.map key := by
  induction fields with
  | nil => exact List.Sublist.refl _
  | cons f fields ih =>
    rw [List.flatMap_cons, Report.keys_append]
    exact (h f).append ih

theorem keys_requireTexts_sublist (fields : List (String × String)) :
    (requireTexts fields).keys <+ fields.map fun f => (f.1, .required) :=
  keys_flatMap_sublist (fun _ => keys_breachIf_sublist _ _ _) fields

theorem keys_requireAmounts_sublist (fields : List (String × Int64)) :
    (requireAmounts fields).keys <+ fields.map fun f => (f.1, .outOfRange) :=
  keys_flatMap_sublist (fun _ => keys_breachIf_sublist _ _ _) fields

theorem keys_checkDate_sublist (created now : Time.Instant) :
    (checkDate created now).keys <+ [("date_created", .required), ("date_created", .outOfRange)] := by
  unfold checkDate
  split
  · exact (keys_breachIf_sublist _ _ _).trans (by decide)
  · exact (keys_breachIf_sublist _ _ _).trans (by decide)

theorem keys_checkCurrency_sublist (code : String) :
    (checkCurrency code).keys <+ [("payment.currency", .required), ("payment.currency", .format)] := by
  unfold checkCurrency
  by_cases h : Text.trim code = ""
  · rw [currencyBreach_of_blank h]
    exact (keys_breachIf_sublist _ _ _).trans (by decide)
  · rcases currencyBreach_of_given h with ⟨-, hnone⟩ | ⟨-, b, hb, hkind⟩
    · rw [hnone]
      exact List.nil_sublist _
    · rw [hb]
      refine (keys_breachIf_sublist _ _ _).trans ?_
      rw [hkind]
      decide

theorem keys_checkItem_sublist (n : Nat) (earlier : List String) (i : Item) :
    (checkItem n earlier i).keys <+ itemKeys n := by
  rw [checkItem_eq]
  simp only [Report.keys_append]
  exact (((keys_breachIf_sublist _ _ _).append (keys_breachIf_sublist _ _ _)).append
    (keys_requireAmounts_sublist _)).append (keys_breachIf_sublist _ _ _)

theorem keys_checkItemsFrom_sublist (start : Nat) (earlier : List String) (items : List Item) :
    (checkItemsFrom start earlier items).keys <+ (List.range' start items.length).flatMap itemKeys := by
  induction items generalizing start earlier with
  | nil => exact List.Sublist.refl _
  | cons i items ih =>
    rw [checkItemsFrom, Report.keys_append]
    exact (keys_checkItem_sublist start earlier i).append (ih _ _)

theorem keys_checkItems_sublist (o : Order) :
    (checkItems o).keys <+ ("items", .required) ::
      ((List.range o.items.length).flatMap itemKeys ++ [("payment.goods_total", .inconsistent)]) := by
  unfold checkItems
  split
  · exact (keys_breachIf_sublist _ _ _).trans (List.singleton_sublist.2 List.mem_cons_self)
  · rw [Report.keys_append, List.range_eq_range']
    exact ((keys_checkItemsFrom_sublist _ _ _).append (keys_breachIf_sublist _ _ _)).cons _

theorem keys_violations_sublist (o : Order) (now : Time.Instant) :
    (o.violations now).keys <+ allKeys o.items.length := by
  have hhead : (checkHeader o now).keys <+ headKeys.take 10 := by
    rw [checkHeader_eq, Report.keys_append]
    exact (keys_requireTexts_sublist _).append (keys_checkDate_sublist _ _)
  have hdelivery : (checkDelivery o.delivery).keys <+ (headKeys.drop 10).take 7 := by
    simp only [checkDelivery_eq, Report.keys_append]
    exact ((keys_requireTexts_sublist _).append (keys_breachIf_sublist _ _ _)).append (keys_breachIf_sublist _ _ _)
  have hpayment : (checkPayment o.payment).keys <+ tailKeys.drop 1 := by
    simp only [checkPayment_eq, Report.keys_append]
    exact ((((keys_requireTexts_sublist _).append (keys_requireAmounts_sublist _)).append
      (keys_checkCurrency_sublist _)).append (keys_breachIf_sublist _ _ _)).append (keys_breachIf_sublist _ _ _)
  have hall := ((hhead.append hdelivery).append (keys_checkItems_sublist o)).append hpayment
  simp only [Order.violations, Report.keys_append]
  simpa [allKeys, headKeys, tailKeys] using hall

theorem nodup_violations (o : Order) (now : Time.Instant) : (o.violations now).keys.Nodup :=
  (nodup_allKeys o.items.length).sublist (keys_violations_sublist o now)

/-- The report of an order names each broken rule once and nothing else, and an order is valid just if none is
broken. -/
theorem Order.violations_exact (o : Order) (now : Time.Instant) :
    (∀ path kind, (path, kind) ∈ (o.violations now).keys ↔ o.Breaks now path kind) ∧
      (∀ path kind, (o.violations now).has path kind = true ↔ o.Breaks now path kind) ∧
      (o.violations now).keys.Nodup ∧ (o.isValid now = true ↔ ∀ path kind, ¬ o.Breaks now path kind) := by
  refine ⟨fun _ _ => violations_breaks o now, fun _ _ => ?_, nodup_violations o now, ?_⟩
  · exact (o.violations now).has_iff.trans (violations_breaks o now)
  have hempty : o.isValid now = true ↔ (o.violations now).keys = [] := by
    rw [Order.isValid, List.isEmpty_iff, Report.keys, List.map_eq_nil_iff]
  rw [hempty, List.eq_nil_iff_forall_not_mem]
  simp only [Prod.forall, violations_breaks]

end OrderDepot
