import OrderDepot.Order.Validation

/-!
# The rules of an order

Each rule by itself, as a relation between an order, a field path and a kind. The report of an order names exactly
what is broken.
-/

namespace OrderDepot

def Phone (s : String) : Prop :=
  ∃ ds : List Char, s.toList = '+' :: ds ∧ ds.length = 11 ∧ ∀ c ∈ ds, '0' ≤ c ∧ c ≤ '9'

def AllowedCurrency (code : String) : Prop :=
  ∃ c ∈ allowedCurrencies, Text.asciiUpperText? (Text.trim code).toList = some c.toList

def InRange (n : Int) : Prop := Int64.minValue.toInt ≤ n ∧ n ≤ Int64.maxValue.toInt

def exactSum : List Int64 → Int
  | [] => 0
  | n :: amounts => n.toInt + exactSum amounts

/-- The sum is the total, and no sum on the way from the left leaves the range of 64 bits. -/
def AddUp (amounts : List Int64) (total : Int64) : Prop :=
  (∀ front, front <+: amounts → InRange (exactSum front)) ∧
    exactSum amounts = total.toInt

def Order.requiredTexts (o : Order) : List (String × String) :=
  [("order_uid", o.uid.text), ("track_number", o.trackNumber), ("entry", o.entry),
   ("customer_id", o.customerId), ("delivery_service", o.deliveryService), ("locale", o.locale),
   ("shardkey", o.shardKey), ("oof_shard", o.oofShard)]

def Delivery.requiredTexts (d : Delivery) : List (String × String) :=
  [("delivery.name", d.name), ("delivery.phone", d.phone), ("delivery.city", d.city),
   ("delivery.address", d.address), ("delivery.region", d.region)]

def Payment.requiredTexts (p : Payment) : List (String × String) :=
  [("payment.transaction", p.transaction.text), ("payment.provider", p.provider)]

def Payment.amounts (p : Payment) : List (String × Int64) :=
  [("payment.amount", p.amount), ("payment.delivery_cost", p.deliveryCost),
   ("payment.goods_total", p.goodsTotal), ("payment.custom_fee", p.customFee)]

def Item.numbers (i : Item) : List (String × Int64) :=
  [("price", i.price), ("total_price", i.totalPrice), ("sale", i.sale), ("status", i.status)]

inductive Delivery.Breaks (d : Delivery) : String → ViolationKind → Prop where
  | blank {path value : String} (field : (path, value) ∈ d.requiredTexts) (blank : Text.trim value = "") :
      Breaks d path .required
  | email (given : d.email ≠ "") (malformed : ∀ e, Email.parse d.email ≠ .ok e) : Breaks d "delivery.email" .format
  | phone (given : d.phone ≠ "") (malformed : ¬ Phone d.phone) : Breaks d "delivery.phone" .format

inductive Item.Breaks (i : Item) : String → ViolationKind → Prop where
  | chrtId (low : i.chrtId ≤ 0) : Breaks i "chrt_id" .outOfRange
  | name (blank : Text.trim i.name = "") : Breaks i "name" .required
  | negative {field : String} {value : Int64} (member : (field, value) ∈ i.numbers) (negative : value < 0) :
      Breaks i field .outOfRange

inductive Payment.Breaks (p : Payment) : String → ViolationKind → Prop where
  | blank {path value : String} (field : (path, value) ∈ p.requiredTexts) (blank : Text.trim value = "") :
      Breaks p path .required
  | negative {path : String} {value : Int64} (field : (path, value) ∈ p.amounts) (negative : value < 0) :
      Breaks p path .outOfRange
  | noCurrency (blank : Text.trim p.currency = "") : Breaks p "payment.currency" .required
  | currency (given : Text.trim p.currency ≠ "") (unknown : ¬ AllowedCurrency p.currency) :
      Breaks p "payment.currency" .format
  | paidAt (outside : p.paidAt ≤ 0 ∨ 4102444800 < p.paidAt) : Breaks p "payment.payment_dt" .outOfRange
  | amount (wrong : ¬ AddUp [p.goodsTotal, p.deliveryCost, p.customFee] p.amount) :
      Breaks p "payment.amount" .inconsistent

/-- A rule of this kind is broken at this path. -/
inductive Order.Breaks (o : Order) (now : Time.Instant) : String → ViolationKind → Prop where
  | blank {path value : String} (field : (path, value) ∈ o.requiredTexts) (blank : Text.trim value = "") :
      Breaks o now path .required
  | undated (early : o.dateCreated.seconds ≤ 0) : Breaks o now "date_created" .required
  | inFuture (dated : 0 < o.dateCreated.seconds) (late : (now.later (5 * 60)).before o.dateCreated = true) :
      Breaks o now "date_created" .outOfRange
  | delivery {path : String} {kind : ViolationKind} (broken : o.delivery.Breaks path kind) : Breaks o now path kind
  | noItems (missing : o.items = []) : Breaks o now "items" .required
  | item {n : Nat} {i : Item} {field : String} {kind : ViolationKind} (place : o.items[n]? = some i)
      (broken : i.Breaks field kind) : Breaks o now (itemPath n field) kind
  | rid {m n : Nat} {i j : Item} (earlier : o.items[m]? = some i) (later : o.items[n]? = some j) (order : m < n)
      (given : j.rid ≠ "") (same : i.rid = j.rid) : Breaks o now (itemPath n "rid") .inconsistent
  | goodsTotal (present : o.items ≠ []) (wrong : ¬ AddUp (o.items.map (·.totalPrice)) o.payment.goodsTotal) :
      Breaks o now "payment.goods_total" .inconsistent
  | payment {path : String} {kind : ViolationKind} (broken : o.payment.Breaks path kind) : Breaks o now path kind

def Report.keys (r : Report) : List (String × ViolationKind) := r.map fun v => (v.path, v.kind)

@[simp] theorem Report.keys_nil : Report.keys [] = [] := rfl

@[simp] theorem Report.keys_append (r s : Report) : Report.keys (r ++ s) = r.keys ++ s.keys := List.map_append

variable {path : String} {kind : ViolationKind}

@[simp] theorem mem_keys_breachIf {broken : Bool} {at' : String} {b : Breach} :
    (path, kind) ∈ (breachIf broken at' b).keys ↔ broken = true ∧ path = at' ∧ kind = b.kind := by
  cases broken <;> simp [breachIf, Report.keys]

theorem trim_eq_empty_iff (s : String) : Text.trim s = "" ↔ Text.isBlank s = true := by
  rw [Text.trim, Text.isBlank, List.all_eq_true, ← Text.trimmed_eq_nil_iff]
  exact String.ofList_eq_empty_iff

@[simp] theorem mem_keys_requireText {at' value : String} :
    (path, kind) ∈ (requireText at' value).keys ↔ Text.trim value = "" ∧ path = at' ∧ kind = .required := by
  rw [requireText, mem_keys_breachIf, trim_eq_empty_iff]
  rfl

@[simp] theorem mem_keys_requireNonNegative {at' : String} {value : Int64} :
    (path, kind) ∈ (requireNonNegative at' value).keys ↔ value < 0 ∧ path = at' ∧ kind = .outOfRange := by
  rw [requireNonNegative, mem_keys_breachIf, decide_eq_true_iff]
  rfl

def requireTexts (fields : List (String × String)) : Report := fields.flatMap fun f => requireText f.1 f.2

def requireAmounts (fields : List (String × Int64)) : Report := fields.flatMap fun f => requireNonNegative f.1 f.2

theorem Report.mem_keys_flatMap {α : Type} {fields : List α} {check : α → Report} :
    (path, kind) ∈ Report.keys (fields.flatMap check) ↔ ∃ f ∈ fields, (path, kind) ∈ (check f).keys := by
  simp only [Report.keys, List.mem_map, List.mem_flatMap]
  constructor
  · rintro ⟨v, ⟨f, hf, hv⟩, heq⟩
    exact ⟨f, hf, v, hv, heq⟩
  · rintro ⟨f, hf, v, hv, heq⟩
    exact ⟨v, ⟨f, hf, hv⟩, heq⟩

@[simp] theorem mem_keys_requireTexts {fields : List (String × String)} :
    (path, kind) ∈ (requireTexts fields).keys ↔
      kind = .required ∧ ∃ value, (path, value) ∈ fields ∧ Text.trim value = "" := by
  rw [requireTexts, Report.mem_keys_flatMap]
  constructor
  · rintro ⟨⟨at', value⟩, hf, hkey⟩
    obtain ⟨hblank, rfl, rfl⟩ := mem_keys_requireText.1 hkey
    exact ⟨rfl, value, hf, hblank⟩
  · rintro ⟨rfl, value, hf, hblank⟩
    exact ⟨_, hf, mem_keys_requireText.2 ⟨hblank, rfl, rfl⟩⟩

@[simp] theorem mem_keys_requireAmounts {fields : List (String × Int64)} :
    (path, kind) ∈ (requireAmounts fields).keys ↔
      kind = .outOfRange ∧ ∃ value, (path, value) ∈ fields ∧ value < 0 := by
  rw [requireAmounts, Report.mem_keys_flatMap]
  constructor
  · rintro ⟨⟨at', value⟩, hf, hkey⟩
    obtain ⟨hlow, rfl, rfl⟩ := mem_keys_requireNonNegative.1 hkey
    exact ⟨rfl, value, hf, hlow⟩
  · rintro ⟨rfl, value, hf, hlow⟩
    exact ⟨_, hf, mem_keys_requireNonNegative.2 ⟨hlow, rfl, rfl⟩⟩

theorem Report.has_iff (r : Report) : r.has path kind = true ↔ (path, kind) ∈ r.keys := by
  simp [Report.has, Report.keys]

theorem inRange_toInt (n : Int64) : InRange n.toInt := ⟨n.minValue_le_toInt, n.toInt_le⟩

theorem addChecked_eq_some {a b c : Int64} : addChecked a b = some c ↔ a.toInt + b.toInt = c.toInt := by
  have hc := inRange_toInt c
  simp only [addChecked]
  constructor
  · intro h
    split at h
    · next hrange =>
      rw [← Option.some.inj h, Int64.toInt_ofInt_of_le hrange.1 (Int.lt_of_le_sub_one hrange.2)]
    · cases h
  · intro h
    rw [h, Int64.ofInt_toInt]
    exact if_pos hc

theorem sum_from_eq_some {first total : Int64} {amounts : List Int64} :
    amounts.foldlM addChecked first = some total ↔
      (∀ front, front <+: amounts → InRange (first.toInt + exactSum front)) ∧
        first.toInt + exactSum amounts = total.toInt := by
  induction amounts generalizing first with
  | nil =>
    simp [exactSum, List.prefix_nil, Int64.toInt_inj, inRange_toInt]
  | cons n amounts ih =>
    rw [List.foldlM_cons]
    constructor
    · intro h
      obtain ⟨sum, hsum, hrest⟩ := Option.bind_eq_some_iff.1 h
      obtain ⟨hrange, htotal⟩ := ih.1 hrest
      rw [← addChecked_eq_some.1 hsum] at hrange htotal
      refine ⟨fun front hfront => ?_, by simpa [exactSum, Int.add_assoc] using htotal⟩
      rcases List.prefix_cons_iff.1 hfront with rfl | ⟨front, rfl, hrest⟩
      · simpa [exactSum] using inRange_toInt first
      · simpa [exactSum, Int.add_assoc] using hrange front hrest
    · rintro ⟨hrange, htotal⟩
      have hfirst : InRange (first.toInt + n.toInt) := by simpa [exactSum] using hrange [n] (by simp)
      have hsum : addChecked first n = some (.ofInt (first.toInt + n.toInt)) := if_pos hfirst
      rw [hsum]
      refine ih.2 ?_
      rw [← addChecked_eq_some.1 hsum]
      refine ⟨fun front hfront => ?_, by simpa [exactSum, Int.add_assoc] using htotal⟩
      simpa [exactSum, Int.add_assoc] using hrange (n :: front) (by simpa using hfront)

theorem addUp_iff {amounts : List Int64} {total : Int64} :
    AddUp amounts total ↔ amounts.foldlM addChecked 0 = some total := by
  rw [sum_from_eq_some]
  simp [AddUp]

@[simp] theorem exactSum_append (xs ys : List Int64) : exactSum (xs ++ ys) = exactSum xs + exactSum ys := by
  induction xs with
  | nil => simp [exactSum]
  | cons n xs ih => rw [List.cons_append, exactSum, exactSum, ih, Int.add_assoc]

theorem exactSum_nonneg {amounts : List Int64} (h : ∀ n ∈ amounts, 0 ≤ n) : 0 ≤ exactSum amounts := by
  induction amounts with
  | nil => exact Int.le_refl 0
  | cons n amounts ih =>
    have hn : 0 ≤ n.toInt := Int64.le_iff_toInt_le.1 (h n List.mem_cons_self)
    have hrest := ih fun m hm => h m (List.mem_cons_of_mem n hm)
    rw [exactSum]
    omega

theorem addUp_iff_of_nonneg {amounts : List Int64} {total : Int64} (h : ∀ n ∈ amounts, 0 ≤ n) :
    AddUp amounts total ↔ exactSum amounts = total.toInt := by
  refine ⟨And.right, fun htotal => ⟨?_, htotal⟩⟩
  rintro front ⟨back, rfl⟩
  have hfront := exactSum_nonneg fun n hn => h n (List.mem_append_left back hn)
  have hback := exactSum_nonneg fun n hn => h n (List.mem_append_right front hn)
  have hrange := (inRange_toInt total).2
  have hmin : Int64.minValue.toInt ≤ 0 := by decide
  rw [exactSum_append] at htotal
  exact ⟨by omega, by omega⟩

theorem itemsTotal_eq_some {items : List Item} {total : Int64} :
    itemsTotal items = some total ↔ AddUp (items.map (·.totalPrice)) total := by
  rw [addUp_iff, List.foldlM_map]
  rfl

theorem expectedAmount_eq_some {p : Payment} {total : Int64} :
    p.expectedAmount = some total ↔ AddUp [p.goodsTotal, p.deliveryCost, p.customFee] total := by
  have hfirst : addChecked 0 p.goodsTotal = some p.goodsTotal := addChecked_eq_some.2 (Int.zero_add _)
  rw [addUp_iff, List.foldlM_cons, hfirst]
  simp [Payment.expectedAmount]

theorem isPhone_iff (s : String) : isPhone s = true ↔ Phone s := by
  unfold isPhone Phone
  split
  · next ds hds => simp [hds]
  · next hno =>
    constructor
    · exact nofun
    · rintro ⟨ds, hds, -⟩
      exact absurd hds (hno ds)

theorem isEmail_eq_false_iff (s : String) : isEmail s = false ↔ ∀ e, Email.parse s ≠ .ok e := by
  unfold isEmail
  split
  · next e he => simp [he]
  · next cause he => simp [he]

theorem checkDelivery_eq (d : Delivery) :
    checkDelivery d = requireTexts d.requiredTexts ++
      breachIf (!d.email.isEmpty && !isEmail d.email) "delivery.email" .badEmail ++
        breachIf (!d.phone.isEmpty && !isPhone d.phone) "delivery.phone" .badPhone := by
  simp [checkDelivery, requireTexts, Delivery.requiredTexts]

theorem checkDelivery_breaks (d : Delivery) :
    (path, kind) ∈ (checkDelivery d).keys ↔ d.Breaks path kind := by
  rw [checkDelivery_eq]
  simp only [Report.keys_append, List.mem_append, mem_keys_requireTexts, mem_keys_breachIf, Bool.and_eq_true,
    Bool.not_eq_true', String.isEmpty_eq_false_iff, isEmail_eq_false_iff]
  constructor
  · rintro ((⟨rfl, value, hfield, hblank⟩ | ⟨⟨hgiven, hbad⟩, rfl, rfl⟩) | ⟨⟨hgiven, hbad⟩, rfl, rfl⟩)
    · exact .blank hfield hblank
    · exact .email hgiven hbad
    · exact .phone hgiven (by simpa [← isPhone_iff] using hbad)
  · intro h
    cases h with
    | blank field blank => exact .inl (.inl ⟨rfl, _, field, blank⟩)
    | email given malformed => exact .inl (.inr ⟨⟨given, malformed⟩, rfl, rfl⟩)
    | phone given malformed => exact .inr ⟨⟨given, by simpa [← isPhone_iff] using malformed⟩, rfl, rfl⟩

theorem ofList_eq_iff {cs : List Char} {s : String} : String.ofList cs = s ↔ cs = s.toList := by
  constructor
  · rintro rfl
    exact String.toList_ofList.symm
  · rintro rfl
    exact String.ofList_toList

theorem allowedCurrencies_letters :
    ∀ c ∈ allowedCurrencies, c.toList.length = 3 ∧ c.toList.all Text.isAsciiLetter = true := by
  decide

theorem currencyBreach_of_blank {code : String} (h : Text.trim code = "") : currencyBreach? code = some .blank := by
  rw [currencyBreach?, if_pos ((trim_eq_empty_iff code).1 h)]

theorem currencyBreach_of_given {code : String} (h : Text.trim code ≠ "") :
    AllowedCurrency code ∧ currencyBreach? code = none ∨
      ¬ AllowedCurrency code ∧ ∃ b, currencyBreach? code = some b ∧ b.kind = .format := by
  have hblank : ¬ Text.isBlank code = true := mt (trim_eq_empty_iff code).2 h
  have htrim : (Text.trim code).toList = Text.trimmed code.toList := String.toList_ofList
  rw [currencyBreach?, if_neg hblank, AllowedCurrency, htrim]
  cases hupper : Text.asciiUpperText? (Text.trimmed code.toList) with
  | none => exact .inr ⟨by simp, _, rfl, rfl⟩
  | some upper =>
    dsimp only
    by_cases hallowed : String.ofList upper ∈ allowedCurrencies
    · obtain ⟨hlength, hletters⟩ := allowedCurrencies_letters _ hallowed
      rw [String.toList_ofList] at hlength hletters
      rw [if_neg (by simp [hlength, hletters]), if_pos (by simpa using hallowed)]
      exact .inl ⟨⟨_, hallowed, by rw [String.toList_ofList]⟩, rfl⟩
    · refine .inr ⟨?_, ?_⟩
      · rintro ⟨c, hc, heq⟩
        rw [ofList_eq_iff.2 (Option.some.inj heq)] at hallowed
        exact hallowed hc
      · split
        · exact ⟨_, rfl, rfl⟩
        · rw [if_neg (by simpa using hallowed)]
          exact ⟨_, rfl, rfl⟩

theorem checkCurrency_breaks (code : String) :
    (path, kind) ∈ (checkCurrency code).keys ↔
      Text.trim code = "" ∧ path = "payment.currency" ∧ kind = .required ∨
        (Text.trim code ≠ "" ∧ ¬ AllowedCurrency code) ∧ path = "payment.currency" ∧ kind = .format := by
  unfold checkCurrency
  by_cases h : Text.trim code = ""
  · simp [currencyBreach_of_blank h, h, Breach.kind]
  · rcases currencyBreach_of_given h with ⟨hallowed, hnone⟩ | ⟨hunknown, b, hb, hkind⟩
    · simp [hnone, h, hallowed]
    · simp [hb, h, hunknown, hkind]

theorem checkPayment_eq (p : Payment) :
    checkPayment p = requireTexts p.requiredTexts ++ requireAmounts p.amounts ++ checkCurrency p.currency ++
      breachIf (p.paidAt ≤ 0 || latestPayment < p.paidAt) "payment.payment_dt" .badPaymentTime ++
        breachIf (p.expectedAmount ≠ some p.amount) "payment.amount" .amount := by
  simp [checkPayment, requireTexts, requireAmounts, Payment.requiredTexts, Payment.amounts]

theorem checkPayment_breaks (p : Payment) :
    (path, kind) ∈ (checkPayment p).keys ↔ p.Breaks path kind := by
  rw [checkPayment_eq]
  simp only [Report.keys_append, List.mem_append, mem_keys_requireTexts, mem_keys_requireAmounts,
    checkCurrency_breaks, mem_keys_breachIf, Bool.or_eq_true, decide_eq_true_iff, ne_eq, expectedAmount_eq_some]
  constructor
  · rintro ((((⟨rfl, value, hfield, hblank⟩ | ⟨rfl, value, hfield, hlow⟩) |
      ⟨hblank, rfl, rfl⟩ | ⟨⟨hgiven, hunknown⟩, rfl, rfl⟩) | ⟨hout, rfl, rfl⟩) | ⟨hwrong, rfl, rfl⟩)
    · exact .blank hfield hblank
    · exact .negative hfield hlow
    · exact .noCurrency hblank
    · exact .currency hgiven hunknown
    · exact .paidAt hout
    · exact .amount hwrong
  · intro h
    cases h with
    | blank field blank => exact .inl (.inl (.inl (.inl ⟨rfl, _, field, blank⟩)))
    | negative field negative => exact .inl (.inl (.inl (.inr ⟨rfl, _, field, negative⟩)))
    | noCurrency blank => exact .inl (.inl (.inr (.inl ⟨blank, rfl, rfl⟩)))
    | currency given unknown => exact .inl (.inl (.inr (.inr ⟨⟨given, unknown⟩, rfl, rfl⟩)))
    | paidAt outside => exact .inl (.inr ⟨outside, rfl, rfl⟩)
    | amount wrong => exact .inr ⟨wrong, rfl, rfl⟩

theorem checkDate_breaks (created now : Time.Instant) :
    (path, kind) ∈ (checkDate created now).keys ↔
      created.seconds ≤ 0 ∧ path = "date_created" ∧ kind = .required ∨
        (0 < created.seconds ∧ (now.later (5 * 60)).before created = true) ∧
          path = "date_created" ∧ kind = .outOfRange := by
  unfold checkDate
  split
  · next h => simp [h, Int.not_lt.2 h, Breach.kind]
  · next h => simp [h, Int.not_le.1 h, Breach.kind, clockTolerance]

theorem checkItem_eq (n : Nat) (earlier : List String) (i : Item) :
    checkItem n earlier i = breachIf (i.chrtId ≤ 0) (itemPath n "chrt_id") .notPositive ++
      requireText (itemPath n "name") i.name ++
        requireAmounts (i.numbers.map fun f => (itemPath n f.1, f.2)) ++
          breachIf (earlier.contains i.rid) (itemPath n "rid") .duplicateRid := by
  simp [checkItem, requireAmounts, Item.numbers]

theorem checkItem_breaks (n : Nat) (earlier : List String) (i : Item) :
    (path, kind) ∈ (checkItem n earlier i).keys ↔
      (∃ field, i.Breaks field kind ∧ path = itemPath n field) ∨
        i.rid ∈ earlier ∧ path = itemPath n "rid" ∧ kind = .inconsistent := by
  rw [checkItem_eq]
  simp only [Report.keys_append, List.mem_append, mem_keys_breachIf, mem_keys_requireText, mem_keys_requireAmounts,
    decide_eq_true_iff, List.contains_iff_mem]
  constructor
  · rintro (((⟨hlow, rfl, rfl⟩ | ⟨hblank, rfl, rfl⟩) | ⟨rfl, value, hfield, hlow⟩) | hrid)
    · exact .inl ⟨_, .chrtId hlow, rfl⟩
    · exact .inl ⟨_, .name hblank, rfl⟩
    · obtain ⟨⟨field, value⟩, hmember, heq⟩ := List.mem_map.1 hfield
      obtain ⟨rfl, rfl⟩ := Prod.mk.inj heq
      exact .inl ⟨_, .negative hmember hlow, rfl⟩
    · exact .inr hrid
  · rintro (⟨field, hbroken, rfl⟩ | hrid)
    · cases hbroken with
      | chrtId low => exact .inl (.inl (.inl ⟨low, rfl, rfl⟩))
      | name blank => exact .inl (.inl (.inr ⟨blank, rfl, rfl⟩))
      | negative member negative => exact .inl (.inr ⟨rfl, _, List.mem_map.2 ⟨_, member, rfl⟩, negative⟩)
    · exact .inr hrid

def ridsAfter (earlier : List String) (items : List Item) : List String :=
  items.foldl (fun seen i => if i.rid.isEmpty then seen else i.rid :: seen) earlier

theorem mem_ridsAfter {rid : String} {earlier : List String} {items : List Item} :
    rid ∈ ridsAfter earlier items ↔ rid ∈ earlier ∨ rid ≠ "" ∧ ∃ i ∈ items, i.rid = rid := by
  induction items generalizing earlier with
  | nil => simp [ridsAfter]
  | cons i items ih =>
    have hcons : ridsAfter earlier (i :: items) =
        ridsAfter (if i.rid.isEmpty then earlier else i.rid :: earlier) items := rfl
    have hfirst : rid ∈ (if i.rid.isEmpty then earlier else i.rid :: earlier) ↔
        rid ∈ earlier ∨ rid ≠ "" ∧ i.rid = rid := by
      split
      · next h => simp +contextual [String.isEmpty_iff.1 h, eq_comm]
      · next h =>
        have hgiven : i.rid ≠ "" := mt String.isEmpty_iff.2 h
        rw [List.mem_cons, or_comm, eq_comm]
        refine or_congr_right ⟨?_, And.right⟩
        rintro rfl
        exact ⟨hgiven, rfl⟩
    rw [hcons, ih, hfirst, or_assoc, ← and_or_left]
    simp only [List.mem_cons, exists_eq_or_imp]

theorem mem_keys_checkItemsFrom {start : Nat} {earlier : List String} {items : List Item} :
    (path, kind) ∈ (checkItemsFrom start earlier items).keys ↔
      ∃ front i back, items = front ++ i :: back ∧
        (path, kind) ∈ (checkItem (start + front.length) (ridsAfter earlier front) i).keys := by
  induction items generalizing start earlier with
  | nil => simp [checkItemsFrom]
  | cons i items ih =>
    rw [checkItemsFrom, Report.keys_append, List.mem_append, ih]
    constructor
    · rintro (hkey | ⟨front, j, back, rfl, hkey⟩)
      · exact ⟨[], i, items, rfl, hkey⟩
      · rw [Nat.add_right_comm] at hkey
        exact ⟨i :: front, j, back, rfl, hkey⟩
    · rintro ⟨front, j, back, heq, hkey⟩
      cases front with
      | nil =>
        obtain ⟨rfl, rfl⟩ := List.cons.inj heq
        exact .inl hkey
      | cons k front =>
        obtain ⟨rfl, rfl⟩ := List.cons.inj heq
        refine .inr ⟨front, j, back, rfl, ?_⟩
        rw [Nat.add_right_comm]
        exact hkey

theorem getElem?_eq_some_iff_append {α : Type} {xs : List α} {n : Nat} {x : α} :
    xs[n]? = some x ↔ ∃ front back, xs = front ++ x :: back ∧ front.length = n := by
  constructor
  · intro h
    obtain ⟨hlt, rfl⟩ := List.getElem?_eq_some_iff.1 h
    exact ⟨xs.take n, xs.drop (n + 1), by simp, by simp; omega⟩
  · rintro ⟨front, back, rfl, rfl⟩
    simp

theorem checkItemsFrom_breaks (items : List Item) :
    (path, kind) ∈ (checkItemsFrom 0 [] items).keys ↔
      (∃ n i field, items[n]? = some i ∧ i.Breaks field kind ∧ path = itemPath n field) ∨
        ∃ m n i j, items[m]? = some i ∧ items[n]? = some j ∧ m < n ∧ j.rid ≠ "" ∧ i.rid = j.rid ∧
          path = itemPath n "rid" ∧ kind = .inconsistent := by
  simp only [mem_keys_checkItemsFrom, checkItem_breaks, mem_ridsAfter, Nat.zero_add, List.not_mem_nil, false_or]
  constructor
  · rintro ⟨front, j, back, rfl, ⟨field, hbroken, rfl⟩ | ⟨⟨hgiven, i, hi, hsame⟩, rfl, rfl⟩⟩
    · exact .inl ⟨front.length, j, field, by simp, hbroken, rfl⟩
    · obtain ⟨m, hm⟩ := List.mem_iff_getElem?.1 hi
      obtain ⟨hlt, -⟩ := List.getElem?_eq_some_iff.1 hm
      refine .inr ⟨m, front.length, i, j, ?_, by simp, hlt, hgiven, hsame, rfl, rfl⟩
      rw [List.getElem?_append_left hlt]
      exact hm
  · rintro (⟨n, i, field, hi, hbroken, rfl⟩ | ⟨m, n, i, j, hi, hj, hlt, hgiven, hsame, rfl, rfl⟩)
    · obtain ⟨front, back, rfl, rfl⟩ := getElem?_eq_some_iff_append.1 hi
      exact ⟨front, i, back, rfl, .inl ⟨field, hbroken, rfl⟩⟩
    · obtain ⟨front, back, rfl, rfl⟩ := getElem?_eq_some_iff_append.1 hj
      rw [List.getElem?_append_left hlt] at hi
      exact ⟨front, j, back, rfl, .inr ⟨⟨hgiven, i, List.mem_of_getElem? hi, hsame⟩, rfl, rfl⟩⟩

theorem checkItems_breaks (o : Order) :
    (path, kind) ∈ (checkItems o).keys ↔
      o.items = [] ∧ path = "items" ∧ kind = .required ∨
        (∃ n i field, o.items[n]? = some i ∧ i.Breaks field kind ∧ path = itemPath n field) ∨
        (∃ m n i j, o.items[m]? = some i ∧ o.items[n]? = some j ∧ m < n ∧ j.rid ≠ "" ∧ i.rid = j.rid ∧
          path = itemPath n "rid" ∧ kind = .inconsistent) ∨
        (o.items ≠ [] ∧ ¬ AddUp (o.items.map (·.totalPrice)) o.payment.goodsTotal) ∧
          path = "payment.goods_total" ∧ kind = .inconsistent := by
  unfold checkItems
  split
  · next h =>
    have hnone : o.items = [] := List.isEmpty_iff.1 h
    simp [hnone, Breach.kind]
  · next h =>
    have hsome : o.items ≠ [] := mt List.isEmpty_iff.2 h
    rw [Report.keys_append, List.mem_append, checkItemsFrom_breaks, mem_keys_breachIf, decide_eq_true_iff, ne_eq,
      Order.itemsTotal, itemsTotal_eq_some, or_assoc]
    simp [hsome, Breach.kind]

theorem checkHeader_eq (o : Order) (now : Time.Instant) :
    checkHeader o now = requireTexts o.requiredTexts ++ checkDate o.dateCreated now := by
  simp [checkHeader, requireTexts, Order.requiredTexts]

theorem violations_breaks (o : Order) (now : Time.Instant) :
    (path, kind) ∈ (o.violations now).keys ↔ o.Breaks now path kind := by
  rw [Order.violations, checkHeader_eq]
  simp only [Report.keys_append, List.mem_append, mem_keys_requireTexts, checkDate_breaks, checkDelivery_breaks,
    checkItems_breaks, checkPayment_breaks]
  constructor
  · rintro ((((⟨rfl, value, hfield, hblank⟩ | ⟨hearly, rfl, rfl⟩ | ⟨⟨hdated, hlate⟩, rfl, rfl⟩) | hdelivery) |
      ⟨hnone, rfl, rfl⟩ | ⟨n, i, field, hi, hbroken, rfl⟩ | ⟨m, n, i, j, hi, hj, hlt, hgiven, hsame, rfl, rfl⟩ |
        ⟨⟨hsome, hwrong⟩, rfl, rfl⟩) | hpayment)
    · exact .blank hfield hblank
    · exact .undated hearly
    · exact .inFuture hdated hlate
    · exact .delivery hdelivery
    · exact .noItems hnone
    · exact .item hi hbroken
    · exact .rid hi hj hlt hgiven hsame
    · exact .goodsTotal hsome hwrong
    · exact .payment hpayment
  · intro h
    cases h with
    | blank field blank => exact .inl (.inl (.inl (.inl ⟨rfl, _, field, blank⟩)))
    | undated early => exact .inl (.inl (.inl (.inr (.inl ⟨early, rfl, rfl⟩))))
    | inFuture dated late => exact .inl (.inl (.inl (.inr (.inr ⟨⟨dated, late⟩, rfl, rfl⟩))))
    | delivery broken => exact .inl (.inl (.inr broken))
    | noItems missing => exact .inl (.inr (.inl ⟨missing, rfl, rfl⟩))
    | item place broken => exact .inl (.inr (.inr (.inl ⟨_, _, _, place, broken, rfl⟩)))
    | rid earlier later order given same =>
      exact .inl (.inr (.inr (.inr (.inl ⟨_, _, _, _, earlier, later, order, given, same, rfl, rfl⟩))))
    | goodsTotal present wrong => exact .inl (.inr (.inr (.inr (.inr ⟨⟨present, wrong⟩, rfl, rfl⟩))))
    | payment broken => exact .inr broken

end OrderDepot
