import OrderDepot.Proofs.Store.Session

/-!
# What a strict server refuses

A server that enforces the constraints of its schema finds nothing wrong with the statements that save an order but
U+0000 in one of their texts, as long as a column can hold the date: the order's own row comes first, and the others
refer to it. So there is one thing that it says of a save, whatever the tables hold.
-/

namespace OrderDepot

def Delivery.texts (d : Delivery) : List String :=
  [d.name, d.phone, d.zip, d.city, d.address, d.region, d.email]

def Payment.texts (p : Payment) : List String :=
  [p.transaction.text, p.requestId, p.currency, p.provider, p.bank]

def Item.texts (i : Item) : List String :=
  [i.trackNumber, i.rid, i.name, i.size, i.brand]

def Order.texts (o : Order) : List String :=
  [o.uid.text, o.trackNumber, o.entry, o.locale, o.internalSignature, o.customerId, o.deliveryService, o.shardKey,
    o.oofShard] ++ o.delivery.texts ++ o.payment.texts ++ o.items.flatMap Item.texts

namespace Store.Relational

def NulFree (s : String) : Prop := ∀ c ∈ s.toList, c.toNat ≠ 0

instance (s : String) : Decidable (NulFree s) :=
  List.decidableBAll _ s.toList

def nulRefusal : String := "invalid byte sequence for encoding \"UTF8\": 0x00"

def refuseTexts (texts : List String) : Option String :=
  if ∀ s ∈ texts, NulFree s then none else some nulRefusal

theorem refuseTexts_append (l l' : List String) : refuseTexts (l ++ l') = (refuseTexts l).or (refuseTexts l') := by
  by_cases h : ∀ s ∈ l, NulFree s
  · have hboth : (∀ s ∈ l ++ l', NulFree s) ↔ ∀ s ∈ l', NulFree s := by
      rw [List.forall_mem_append]
      exact and_iff_right h
    simp only [refuseTexts, if_pos h, hboth, Option.none_or]
  · have hboth : ¬ ∀ s ∈ l ++ l', NulFree s := fun hall => h (List.forall_mem_append.1 hall).1
    simp only [refuseTexts, if_neg h, if_neg hboth, Option.some_or]

theorem findSome?_refuseTexts {α : Type} {check : α → Option String} {texts : α → List String} {as : List α}
    (h : ∀ a ∈ as, check a = refuseTexts (texts a)) : as.findSome? check = refuseTexts (as.flatMap texts) := by
  induction as with
  | nil => rfl
  | cons a as ih =>
    obtain ⟨hfirst, hrest⟩ := List.forall_mem_cons.1 h
    rw [List.flatMap_cons, refuseTexts_append, ← hfirst, ← ih hrest, List.findSome?_cons]
    cases check a <;> rfl

def Value.texts : Value → List String
  | .text s => [s]
  | .null | .integer _ => []

def Row.texts (r : Row) : List String := r.flatMap fun e => e.2.texts

def Row.refusal (r : Row) : Option String := r.findSome? fun (column, v) => refuseValue column v

def Row.Plain (r : Row) : Prop := ∀ e ∈ r, refuseValue e.1 e.2 = refuseTexts e.2.texts

theorem refuseValue_eq (column s : String) : refuseValue column (.text s) = refuseTexts [s] := by
  have hnul : s.toList.any isNul = true ↔ ¬ ∀ s' ∈ [s], NulFree s' := by
    simp [isNul, NulFree]
  by_cases h : ∀ s' ∈ [s], NulFree s'
  · simp only [refuseValue, refuseTexts, if_pos h, if_neg (hnul.not.2 (not_not_intro h))]
  · simp only [refuseValue, refuseTexts, if_neg h, if_pos (hnul.2 h), nulRefusal]

theorem refuseValue_text {column s : String} (h : NulFree s) : refuseValue column (.text s) = none := by
  rw [refuseValue_eq]
  exact if_pos (by simpa using h)

theorem refuseValue_integer {column : String} (h : column ≠ "date_created") (n : Int) :
    refuseValue column (.integer n) = refuseTexts [] := by
  simp [refuseValue, refuseTexts, h]

structure InSpan (t : Time.Instant) : Prop where
  lower : earliestMicros ≤ microsOf t
  upper : microsOf t < latestMicros

theorem refuseValue_date {t : Time.Instant} (h : InSpan t) :
    refuseValue "date_created" (.integer (microsOf t)) = refuseTexts [] := by
  simp [refuseValue, refuseTexts, h.lower, h.upper]

theorem orderRow_plain {o : Order} (h : InSpan o.dateCreated) : (orderRow o).Plain := by
  simp [Row.Plain, orderRow, Table.columns, integerOf, Value.texts, refuseValue_eq, refuseValue_integer,
    refuseValue_date h]

theorem deliveryRow_plain (uid : OrderUid) (d : Delivery) : (deliveryRow uid d).Plain := by
  simp [Row.Plain, deliveryRow, Table.columns, Value.texts, refuseValue_eq]

theorem paymentRow_plain (uid : OrderUid) (p : Payment) : (paymentRow uid p).Plain := by
  simp [Row.Plain, paymentRow, Table.columns, integerOf, Value.texts, refuseValue_eq, refuseValue_integer]

theorem itemRow_plain (uid : OrderUid) (i : Item) : (itemRow uid i).Plain := by
  simp [Row.Plain, itemRow, Table.columns, integerOf, Value.texts, refuseValue_eq, refuseValue_integer]

def Statement.texts (st : Statement) : List String := st.params.flatMap Value.texts

theorem texts_replace (table : Table) (key : String) (r : Row) : (Statement.replace table key r).texts = r.texts := by
  simp only [Statement.texts, Statement.params_replace, Row.texts, List.flatMap_map]

theorem texts_insertItems (rows : List Row) : (Statement.insertItems rows).texts = rows.flatMap Row.texts := by
  simp only [Statement.texts, Statement.params, List.flatMap_assoc, List.flatMap_map]
  rfl

def Tables.Knows (t : Tables) (uid : OrderUid) : Prop := t.orders.any (Row.ofOrder uid.text) = true

def column (name : String) (rs : List Row) : List Value := rs.map fun r => r.value name

theorem knows_iff {t : Tables} {uid : OrderUid} : t.Knows uid ↔ .text uid.text ∈ column uidColumn t.orders := by
  simp only [Tables.Knows, List.any_eq_true, Row.ofOrder, equals_text_iff, column, List.mem_map]

section Upsert

variable {name s : String} {changes : List String} {row : Row} {rs : List Row}

theorem column_upsertRow (hrow : row.value name = .text s) (changes : List String) (rs : List Row) :
    column name (upsertRow name changes row rs) =
      if .text s ∈ column name rs then column name rs else column name rs ++ [.text s] := by
  induction rs with
  | nil => simp [upsertRow, column, hrow]
  | cons r rest ih =>
    have hhead : (r.value name).equals (row.value name) = true ↔ r.value name = .text s := by
      rw [hrow, equals_text_iff]
    by_cases hr : r.value name = .text s
    · have hkey : (r.updated changes row).value name = .text s :=
        (r.value_updated row changes name).elim (·.trans hr) (·.trans hrow)
      rw [upsertRow, if_pos (hhead.2 hr)]
      simp [column, hkey, hr]
    · rw [upsertRow, if_neg (mt hhead.1 hr)]
      have hne : Value.text s ≠ r.value name := Ne.symm hr
      simp only [column, List.map_cons, List.mem_cons, hne, false_or] at ih ⊢
      by_cases hmem : .text s ∈ List.map (fun r => r.value name) rest <;> simp [ih, hmem]

theorem mem_column_upsertRow (hrow : row.value name = .text s) {v : Value} :
    v ∈ column name (upsertRow name changes row rs) ↔ v = .text s ∨ v ∈ column name rs := by
  rw [column_upsertRow hrow]
  split
  · next hmem => exact ⟨.inr, fun h => h.elim (fun heq => heq ▸ hmem) id⟩
  · simp [or_comm]

end Upsert

theorem knows_replace_order (t : Tables) (o : Order) :
    (t.write (.replace .orders "order_uid" (orderRow o))).Knows o.uid := by
  have hcolumn : .text o.uid.text ∈
      column uidColumn (upsertRow uidColumn (Table.orders.columnsBut uidColumn) (orderRow o) t.orders) :=
    (mem_column_upsertRow (orderRow_uid o)).2 (.inl rfl)
  exact knows_iff.2 hcolumn

theorem refuseRow_eq {t : Tables} {table : Table} {r : Row} {uid : OrderUid} (hplain : r.Plain)
    (huid : r.value uidColumn = .text uid.text) (hknown : table = .orders ∨ t.Knows uid) :
    t.refuseRow table r = refuseTexts r.texts := by
  have hany : (table = .orders ∨ t.orders.any fun r' => (r'.value uidColumn).equals (r.value uidColumn)) := by
    rw [huid]
    exact hknown
  have hvalues : r.refusal = refuseTexts r.texts := findSome?_refuseTexts hplain
  simp only [Row.refusal] at hvalues
  simp only [Tables.refuseRow, hvalues, hany, if_true]
  cases refuseTexts r.texts <;> rfl

/-- Wherever the order is known the statement is checked for its texts only, and it does not make it unknown. -/
structure Clean (uid : OrderUid) (st : Statement) : Prop where
  refused : ∀ t : Tables, t.Knows uid → t.refusal st = refuseTexts st.texts
  kept : ∀ t : Tables, (t.write st).orders = t.orders

theorem Clean.knows {uid : OrderUid} {st : Statement} (h : Clean uid st) {t : Tables} (ht : t.Knows uid) :
    (t.write st).Knows uid := by
  rw [Tables.Knows, h.kept]
  exact ht

theorem misfit_replace {table : Table} {key : String} {r : Row} (hkey : table.key? = some key)
    (hnames : r.names = table.columns) : (Statement.replace table key r).misfit = none := by
  have hknown : r.names ++ table.columnsBut key ⊆ table.columns :=
    List.append_subset.2 ⟨hnames ▸ List.Subset.refl _, table.columnsBut_subset key⟩
  simp only [Statement.replace, Statement.misfit, find?_unknown hknown, hkey, if_true]

theorem refusal_replace {table : Table} {key : String} {r : Row} (hkey : table.key? = some key)
    (hnames : r.names = table.columns) (t : Tables) : t.refusal (.replace table key r) = t.refuseRow table r := by
  have hfits := misfit_replace hkey hnames
  rw [Statement.replace] at hfits ⊢
  simp only [Tables.refusal, hfits, Option.none_or]

theorem clean_replace {uid : OrderUid} {table : Table} {key : String} {r : Row} (htable : table ≠ .orders)
    (hkey : table.key? = some key) (hnames : r.names = table.columns) (hplain : r.Plain)
    (huid : r.value uidColumn = .text uid.text) : Clean uid (.replace table key r) where
  refused t ht := by
    rw [refusal_replace hkey hnames, texts_replace]
    exact refuseRow_eq hplain huid (.inr ht)
  kept t := by
    cases table <;> first | rfl | exact absurd rfl htable

theorem clean_insertItems (uid : OrderUid) (items : List Item) :
    Clean uid (.insertItems (items.map (itemRow uid))) where
  refused t ht := by
    rw [texts_insertItems]
    refine findSome?_refuseTexts (List.forall_mem_map.2 fun i _ => ?_)
    exact refuseRow_eq (itemRow_plain uid i) (itemRow_uid uid i) (.inr ht)
  kept _ := rfl

theorem clean_delete {uid : OrderUid} {st : Statement} (htexts : ∀ v ∈ st.params, ∃ s, v = .text s)
    (hrefusal : ∀ t : Tables, t.refusal st = st.params.findSome? (refuseValue uidColumn))
    (hkept : ∀ t : Tables, (t.write st).orders = t.orders) : Clean uid st where
  refused t _ := by
    rw [hrefusal]
    refine findSome?_refuseTexts fun v hv => ?_
    obtain ⟨s, rfl⟩ := htexts v hv
    exact refuseValue_eq _ s
  kept := hkept

theorem clean_saveStatements (o : Order) : ∀ st ∈ (saveStatements o).tail, Clean o.uid st := by
  simp only [saveStatements, itemStatements, List.cons_append, List.nil_append, List.tail_cons, List.forall_mem_cons,
    List.forall_mem_map]
  exact ⟨clean_replace (by decide) rfl rfl (deliveryRow_plain _ _) (deliveryRow_uid _ _),
    clean_replace (by decide) rfl rfl (paymentRow_plain _ _) (paymentRow_uid _ _),
    clean_delete (by simp [Statement.params]) (fun _ => rfl) (fun _ => rfl),
    clean_delete (by simp [Statement.params]) (fun _ => rfl) (fun _ => rfl), fun _ _ => clean_insertItems _ _⟩

theorem forall_mem_chunks {α : Type} {P : α → Prop} (n : Nat) (as : List α) :
    (∀ part ∈ chunks n as, ∀ a ∈ part, P a) ↔ ∀ a ∈ as, P a := by
  conv_rhs => rw [← flatten_chunks n as]
  rw [List.forall_mem_flatten]

theorem texts_orderRow (o : Order) : (orderRow o).texts = [o.uid.text, o.trackNumber, o.entry, o.locale,
    o.internalSignature, o.customerId, o.deliveryService, o.shardKey, o.oofShard] := rfl

theorem texts_deliveryRow (uid : OrderUid) (d : Delivery) : (deliveryRow uid d).texts = uid.text :: d.texts := rfl

theorem texts_paymentRow (uid : OrderUid) (p : Payment) :
    (paymentRow uid p).texts = [p.transaction.text, uid.text, p.requestId, p.currency, p.provider, p.bank] := rfl

theorem texts_deleteOtherPayments (uid transaction : String) :
    (Statement.deleteOtherPayments uid transaction).texts = [uid, transaction] := rfl

theorem texts_deleteItems (uid : String) : (Statement.deleteItems uid).texts = [uid] := rfl

theorem texts_itemRow (uid : OrderUid) (i : Item) : (itemRow uid i).texts = uid.text :: i.texts := rfl

theorem texts_saveStatements {P : String → Prop} (o : Order) :
    (∀ st ∈ saveStatements o, ∀ s ∈ st.texts, P s) ↔ ∀ s ∈ o.texts, P s := by
  simp only [saveStatements, itemStatements, List.cons_append, List.nil_append, List.forall_mem_cons,
    List.forall_mem_map, texts_replace, texts_orderRow, texts_deliveryRow, texts_paymentRow, texts_deleteOtherPayments,
    texts_deleteItems, texts_insertItems, List.flatMap_map, texts_itemRow, Order.texts, Payment.texts,
    List.forall_mem_append, List.forall_mem_flatMap, forall_mem_chunks]
  grind

/-- The server accepts the statements one after another, beginning with these tables. -/
def Accepts (t : Tables) : List Statement → Prop
  | [] => True
  | st :: rest => t.refusal st = none ∧ Accepts (t.write st) rest

theorem accepts_of_clean {uid : OrderUid} {sts : List Statement} (hclean : ∀ st ∈ sts, Clean uid st)
    (htexts : ∀ st ∈ sts, ∀ s ∈ st.texts, NulFree s) {t : Tables} (ht : t.Knows uid) : Accepts t sts := by
  induction sts generalizing t with
  | nil => trivial
  | cons st rest ih =>
    obtain ⟨hst, hrest⟩ := List.forall_mem_cons.1 hclean
    obtain ⟨hfree, hfrees⟩ := List.forall_mem_cons.1 htexts
    exact ⟨(hst.refused t ht).trans (if_pos hfree), ih hrest hfrees (hst.knows ht)⟩

theorem saveStatements_eq (o : Order) :
    saveStatements o = .replace .orders "order_uid" (orderRow o) :: (saveStatements o).tail := rfl

theorem refusal_order {o : Order} (h : InSpan o.dateCreated) (t : Tables) :
    t.refusal (.replace .orders "order_uid" (orderRow o)) =
      refuseTexts (Statement.replace .orders "order_uid" (orderRow o)).texts := by
  rw [refusal_replace rfl rfl, texts_replace]
  exact refuseRow_eq (orderRow_plain h) (orderRow_uid o) (.inl rfl)

theorem accepts_of_nulFree {o : Order} (hdate : InSpan o.dateCreated) (htexts : ∀ s ∈ o.texts, NulFree s)
    (t : Tables) : Accepts t (saveStatements o) := by
  have hall := (texts_saveStatements o).2 htexts
  rw [saveStatements_eq] at hall ⊢
  obtain ⟨hfirst, hrest⟩ := List.forall_mem_cons.1 hall
  exact ⟨(refusal_order hdate t).trans (if_pos hfirst),
    accepts_of_clean (clean_saveStatements o) hrest (knows_replace_order t o)⟩

namespace Session

variable {s : Server}

theorem performAll_refused {uid : OrderUid} {sts : List Statement} (hs : s.faults = []) (hstrict : s.strict = true)
    (hclean : ∀ st ∈ sts, Clean uid st) (hw : ∀ st ∈ sts, Writes st) (ht : s.tables.Knows uid)
    (hnul : ¬ ∀ st ∈ sts, ∀ x ∈ st.texts, NulFree x) :
    ∃ log tables, performAll sts s = (.error (.database (.refused nulRefusal)), { s with log, tables }) := by
  induction sts generalizing s with
  | nil => exact absurd (fun _ h => nomatch h) hnul
  | cons st rest ih =>
    obtain ⟨hst, hrest⟩ := List.forall_mem_cons.1 hclean
    obtain ⟨hwrite, hwrites⟩ := List.forall_mem_cons.1 hw
    have hrefusal : refusalOf s st = refuseTexts st.texts := (if_pos hstrict).trans (hst.refused s.tables ht)
    by_cases hfree : ∀ x ∈ st.texts, NulFree x
    · have hfirst := perform_accepted hs (hrefusal.trans (if_pos hfree))
      rw [hwrite] at hfirst
      obtain ⟨log, tables, hrun⟩ := ih (s := { s with log := st :: s.log, tables := s.tables.write st }) hs hstrict
        hrest hwrites (hst.knows ht) fun h => hnul (List.forall_mem_cons.2 ⟨hfree, h⟩)
      exact ⟨log, tables, (bind_ok hfirst).trans hrun⟩
    · exact ⟨_, _, bind_error (perform_refused hs (hrefusal.trans (if_neg hfree)))⟩

theorem save_refused {o : Order} (hs : s.faults = []) (hstrict : s.strict = true) (hdate : InSpan o.dateCreated)
    (hnul : ¬ ∀ x ∈ o.texts, NulFree x) :
    ∃ log, save o s = (.error (.database (.refused nulRefusal)), { s with log, before := none }) := by
  let u : Server := { s with log := .begin :: s.log, before := some s.tables }
  have hwork : ∃ log tables, performAll (saveStatements o) u =
      (.error (.database (.refused nulRefusal)), { u with log, tables }) := by
    have hwrites := writes_saveStatements o
    rw [← texts_saveStatements] at hnul
    rw [saveStatements_eq] at hnul hwrites ⊢
    obtain ⟨hwrite, hwrites⟩ := List.forall_mem_cons.1 hwrites
    have hrefusal : refusalOf u (.replace .orders "order_uid" (orderRow o)) =
        refuseTexts (Statement.replace .orders "order_uid" (orderRow o)).texts :=
      (if_pos hstrict).trans (refusal_order hdate u.tables)
    by_cases hfree : ∀ x ∈ (Statement.replace .orders "order_uid" (orderRow o)).texts, NulFree x
    · have hfirst := perform_accepted (s := u) hs (hrefusal.trans (if_pos hfree))
      rw [hwrite] at hfirst
      obtain ⟨log, tables, hrun⟩ := performAll_refused (s := { u with
        log := _ :: u.log, tables := u.tables.write _ }) hs hstrict (clean_saveStatements o) hwrites
        (knows_replace_order u.tables o) fun h => hnul (List.forall_mem_cons.2 ⟨hfree, h⟩)
      exact ⟨log, tables, (bind_ok hfirst).trans hrun⟩
    · exact ⟨_, _, bind_error (perform_refused hs (hrefusal.trans (if_neg hfree)))⟩
  obtain ⟨log, tables, hwork⟩ := hwork
  obtain ⟨log, hsave⟩ := transaction_failed (perform_begin hs) rfl (bind_error hwork) hs rfl
  exact ⟨log, hsave⟩

end Session

end Store.Relational

end OrderDepot
