import Mathlib.Data.List.Nodup
import OrderDepot.Proofs.Store.Refusals

/-!
# The constraints of the schema

The rows of a table are told apart by its primary key, and every row names an order that has a row of its own. No
statement of a save breaks this: the order's own row is written first, a row takes the place of the one with its
primary key, and no order is ever deleted. When the save is done the order has one delivery and not two payments.
-/

open scoped List

namespace OrderDepot.Store.Relational

/-- The column has a text in every row, and no text twice. -/
structure IsKey (name : String) (rs : List Row) : Prop where
  given : ∀ v ∈ column name rs, ∃ s, v = .text s
  unique : (column name rs).Nodup

def Tables.RefersTo (t : Tables) (r : Row) : Prop :=
  ∃ uid : OrderUid, r.value uidColumn = .text uid.text ∧ t.Knows uid

structure Tables.Intact (t : Tables) : Prop where
  keys : ∀ table name, table.key? = some name → IsKey name (t.rows table)
  references : ∀ table, ∀ r ∈ t.rows table, t.RefersTo r

/-- Every order has one delivery, and it does not have two payments. -/
structure Tables.Complete (t : Tables) : Prop where
  delivery : ∀ uid, t.Knows uid → t.deliveries.countP (Row.ofOrder uid.text) = 1
  payment : ∀ uid, t.Knows uid → t.payments.countP (Row.ofOrder uid.text) ≤ 1

variable {name s : String} {uid : OrderUid} {changes : List String} {row r : Row} {rs rs' : List Row}

theorem countP_equals (name s : String) (rs : List Row) :
    rs.countP (fun r => (r.value name).equals (.text s)) = (column name rs).count (.text s) := by
  rw [column, List.count, List.countP_map]
  refine List.countP_congr fun r _ => ?_
  rw [equals_text_iff]
  exact beq_iff_eq.symm

theorem countP_ofOrder (uid : String) (rs : List Row) :
    rs.countP (Row.ofOrder uid) = (column uidColumn rs).count (.text uid) :=
  countP_equals uidColumn uid rs

theorem IsKey.upsertRow (h : IsKey name rs) (hrow : row.value name = .text s) :
    IsKey name (upsertRow name changes row rs) where
  given v hv := ((mem_column_upsertRow hrow).1 hv).elim (fun heq => ⟨s, heq⟩) (h.given v)
  unique := by
    rw [column_upsertRow hrow]
    split
    · exact h.unique
    · next hnew => exact h.unique.append (List.nodup_singleton _) (List.disjoint_singleton.2 hnew)

theorem IsKey.sublist (h : IsKey name rs) (hsub : rs' <+ rs) : IsKey name rs' where
  given v hv := h.given v ((hsub.map _).subset hv)
  unique := h.unique.sublist (hsub.map _)

theorem value_of_mem_upsertRow (c : String) (h : r ∈ upsertRow name changes row rs) :
    r.value c = row.value c ∨ ∃ r' ∈ rs, r.value c = r'.value c := by
  induction rs with
  | nil => exact .inl (congrArg (fun r : Row => r.value c) (List.mem_singleton.1 h))
  | cons r' rest ih =>
    have hlater : (∃ r'' ∈ rest, r.value c = r''.value c) → ∃ r'' ∈ r' :: rest, r.value c = r''.value c :=
      fun ⟨r'', hr'', hvalue⟩ => ⟨r'', List.mem_cons_of_mem _ hr'', hvalue⟩
    unfold upsertRow at h
    split at h
    · rcases List.mem_cons.1 h with rfl | h
      · exact (r'.value_updated row changes c).symm.imp_right fun hold => ⟨r', List.mem_cons_self, hold⟩
      · exact .inr (hlater ⟨r, h, rfl⟩)
    · rcases List.mem_cons.1 h with rfl | h
      · exact .inr ⟨r, List.mem_cons_self, rfl⟩
      · exact (ih h).imp_right hlater

theorem countP_upsertRow_le {owner : String} (hrow : row.ofOrder owner = false) (hchanges : uidColumn ∈ changes)
    (name : String) (rs : List Row) :
    (upsertRow name changes row rs).countP (Row.ofOrder owner) ≤ rs.countP (Row.ofOrder owner) := by
  induction rs with
  | nil => simp [upsertRow, hrow]
  | cons r rest ih =>
    unfold upsertRow
    split
    · have hupdated : (r.updated changes row).ofOrder owner = false := by
        rcases Row.value_updated_of_mem hchanges r row with hnull | hnew
        · rw [Row.ofOrder, hnull]
          rfl
        · rw [Row.ofOrder, hnew]
          exact hrow
      rw [List.countP_cons_of_neg (by simp [hupdated])]
      exact (List.sublist_cons_self r rest).countP_le
    · simp only [List.countP_cons]
      omega

def Statement.refusal : Statement → Option String
  | .upsert _ _ _ row => row.refusal
  | .insertItems rows => rows.findSome? Row.refusal
  | st => st.params.findSome? (refuseValue uidColumn)

/-- The statements are executed one after another. None is refused for a key, and none breaks a constraint. -/
def Respects (t : Tables) : List Statement → Prop
  | [] => True
  | st :: rest => t.refusal st = st.refusal ∧ (t.write st).Intact ∧ Respects (t.write st) rest

namespace Tables

variable {t : Tables} {table : Table}

theorem intact_empty : Intact {} where
  keys table name _ := by
    have hnone : Tables.rows {} table = [] := by
      cases table <;> rfl
    rw [hnone]
    exact ⟨fun v hv => absurd hv List.not_mem_nil, List.nodup_nil⟩
  references table r hr := by
    cases table <;> cases hr

theorem complete_empty : Complete {} where
  delivery _ hknows := nomatch hknows
  payment _ hknows := nomatch hknows

theorem refuseRow_eq_refusal (h : table = .orders ∨ t.RefersTo row) : t.refuseRow table row = row.refusal := by
  have hknown : table = .orders ∨ t.orders.any fun r => (r.value uidColumn).equals (row.value uidColumn) := by
    refine h.imp_right ?_
    rintro ⟨uid, huid, hknows⟩
    rw [huid]
    exact hknows
  unfold refuseRow Row.refusal
  split
  · next hrefused => exact hrefused.symm
  · next haccepted => exact (if_pos hknown).trans haccepted.symm

theorem rows_setRows (t : Tables) (table table' : Table) (rs : List Row) :
    (t.setRows table rs).rows table' = if table' = table then rs else t.rows table' := by
  cases table <;> cases table' <;> rfl

theorem Intact.setRows (h : t.Intact) (htable : table ≠ .orders)
    (hkeys : ∀ name, table.key? = some name → IsKey name rs) (hrefs : ∀ r ∈ rs, t.RefersTo r) :
    (t.setRows table rs).Intact := by
  have horders : (t.setRows table rs).orders = t.orders := by
    cases table <;> first | rfl | exact absurd rfl htable
  have hrefersTo : ∀ r, t.RefersTo r → (t.setRows table rs).RefersTo r := by
    rintro r ⟨uid, huid, hknows⟩
    refine ⟨uid, huid, ?_⟩
    rw [Knows, horders]
    exact hknows
  constructor
  · intro table' name hname
    rw [rows_setRows]
    split
    · next heq => exact hkeys name (heq ▸ hname)
    · exact h.keys table' name hname
  · intro table' r hr
    rw [rows_setRows] at hr
    split at hr
    · exact hrefersTo r (hrefs r hr)
    · exact hrefersTo r (h.references table' r hr)

theorem knows_replace_order_iff (o : Order) :
    (t.write (.replace .orders "order_uid" (orderRow o))).Knows uid ↔ uid = o.uid ∨ t.Knows uid := by
  have hcolumn : .text uid.text ∈
        column uidColumn (upsertRow uidColumn (Table.orders.columnsBut uidColumn) (orderRow o) t.orders) ↔
      .text uid.text = Value.text o.uid.text ∨ .text uid.text ∈ column uidColumn t.orders :=
    mem_column_upsertRow (orderRow_uid o)
  rw [knows_iff, knows_iff, ← ident_text_inj, ← Value.text.injEq]
  exact hcolumn

theorem RefersTo.congr (h : t.RefersTo r) {r' : Row} (hvalue : r'.value uidColumn = r.value uidColumn) :
    t.RefersTo r' := by
  obtain ⟨uid, huid, hknows⟩ := h
  exact ⟨uid, hvalue.trans huid, hknows⟩

theorem refersTo_of_mem_upsertRow (hrow : t.RefersTo row) (hrs : ∀ r ∈ rs, t.RefersTo r)
    (hr : r ∈ upsertRow name changes row rs) : t.RefersTo r := by
  rcases value_of_mem_upsertRow uidColumn hr with hnew | ⟨r', hr', hold⟩
  · exact hrow.congr hnew
  · exact (hrs r' hr').congr hold

theorem Intact.replace_order (h : t.Intact) (o : Order) :
    (t.write (.replace .orders "order_uid" (orderRow o))).Intact := by
  have hrefersTo : ∀ r, t.RefersTo r → (t.write (.replace .orders "order_uid" (orderRow o))).RefersTo r := by
    rintro r ⟨uid, huid, hknows⟩
    exact ⟨uid, huid, (knows_replace_order_iff o).2 (.inr hknows)⟩
  have hself : (t.write (.replace .orders "order_uid" (orderRow o))).RefersTo (orderRow o) :=
    ⟨o.uid, orderRow_uid o, knows_replace_order t o⟩
  have hrows : ∀ table, (t.write (.replace .orders "order_uid" (orderRow o))).rows table =
      if table = .orders then upsertRow uidColumn (Table.orders.columnsBut uidColumn) (orderRow o) t.orders
      else t.rows table := fun table => rows_setRows t .orders table _
  constructor
  · intro table name hname
    rw [hrows]
    split
    · next heq =>
      subst heq
      obtain rfl : uidColumn = name := Option.some.inj hname
      exact (h.keys .orders _ rfl).upsertRow (orderRow_uid o)
    · exact h.keys table name hname
  · intro table r hr
    rw [hrows] at hr
    split at hr
    · exact refersTo_of_mem_upsertRow hself (fun r' hr' => hrefersTo r' (h.references .orders r' hr')) hr
    · exact hrefersTo r (h.references table r hr)

end Tables

/-- Once the order is known the statement respects the constraints, and the order stays known. -/
structure Fits (uid : OrderUid) (st : Statement) : Prop where
  refusal : ∀ t : Tables, t.Knows uid → t.refusal st = st.refusal
  intact : ∀ t : Tables, t.Knows uid → t.Intact → (t.write st).Intact
  orders : ∀ t : Tables, (t.write st).orders = t.orders

theorem fits_replace {table : Table} {key : String} (htable : table ≠ .orders) (hkey : table.key? = some key)
    (hnames : row.names = table.columns) (hgiven : row.value key = .text s)
    (huid : row.value uidColumn = .text uid.text) : Fits uid (.replace table key row) where
  refusal t hknows := (refusal_replace hkey hnames t).trans (Tables.refuseRow_eq_refusal (.inr ⟨uid, huid, hknows⟩))
  intact t hknows h := by
    refine h.setRows htable (fun name hname => ?_) fun r hr => ?_
    · obtain rfl : key = name := Option.some.inj (hkey.symm.trans hname)
      exact (h.keys table key hkey).upsertRow hgiven
    · exact Tables.refersTo_of_mem_upsertRow ⟨uid, huid, hknows⟩ (h.references table) hr
  orders t := by
    cases table <;> first | rfl | exact absurd rfl htable

theorem fits_insertItems (uid : OrderUid) (items : List Item) :
    Fits uid (.insertItems (items.map (itemRow uid))) where
  refusal t hknows := by
    have hrow : ∀ i, t.refuseRow .items (itemRow uid i) = (itemRow uid i).refusal := fun i =>
      Tables.refuseRow_eq_refusal (.inr ⟨uid, itemRow_uid uid i, hknows⟩)
    simp only [Tables.refusal, Statement.misfit, Option.none_or, Statement.refusal, List.findSome?_map,
      Function.comp_def, hrow]
  intact t hknows h := by
    have htable : Table.items ≠ .orders := by
      decide
    refine h.setRows htable (fun name hname => ?_) fun r hr => ?_
    · cases hname
    · rcases List.mem_append.1 hr with hr | hr
      · exact h.references .items r hr
      · obtain ⟨i, -, rfl⟩ := List.mem_map.1 hr
        exact ⟨uid, itemRow_uid uid i, hknows⟩
  orders _ := rfl

theorem fits_delete {st : Statement} (table : Table) {kept : Row → Bool} (htable : table ≠ .orders)
    (hrefusal : ∀ t : Tables, t.refusal st = st.refusal)
    (hwrite : ∀ t : Tables, t.write st = t.setRows table ((t.rows table).filter kept)) : Fits uid st where
  refusal t _ := hrefusal t
  intact t _ h := by
    rw [hwrite]
    exact h.setRows htable (fun name hname => (h.keys table name hname).sublist List.filter_sublist) fun r hr =>
      h.references table r (List.mem_of_mem_filter hr)
  orders t := by
    rw [hwrite]
    cases table <;> first | rfl | exact absurd rfl htable

theorem fits_saveStatements (o : Order) : ∀ st ∈ (saveStatements o).tail, Fits o.uid st := by
  simp only [saveStatements, itemStatements, List.cons_append, List.nil_append, List.tail_cons, List.forall_mem_cons,
    List.forall_mem_map]
  exact ⟨fits_replace (by decide) rfl rfl (deliveryRow_uid _ _) (deliveryRow_uid _ _),
    fits_replace (by decide) rfl rfl (paymentRow_transaction _ _) (paymentRow_uid _ _),
    fits_delete .payments (by decide) (fun _ => rfl) (fun _ => rfl),
    fits_delete .items (by decide) (fun _ => rfl) (fun _ => rfl), fun _ _ => fits_insertItems _ _⟩

theorem respects_of_fits {sts : List Statement} (hfits : ∀ st ∈ sts, Fits uid st) {t : Tables} (hknows : t.Knows uid)
    (h : t.Intact) : Respects t sts ∧ (sts.foldl Tables.write t).Intact := by
  induction sts generalizing t with
  | nil => exact ⟨trivial, h⟩
  | cons st rest ih =>
    obtain ⟨hst, hrest⟩ := List.forall_mem_cons.1 hfits
    have hintact := hst.intact t hknows h
    have hknows' : (t.write st).Knows uid := by
      rw [Tables.Knows, hst.orders]
      exact hknows
    obtain ⟨hrespects, hlast⟩ := ih hrest hknows' hintact
    exact ⟨⟨hst.refusal t hknows, hintact, hrespects⟩, hlast⟩

theorem Tables.Intact.save {t : Tables} (h : t.Intact) (o : Order) :
    Respects t (saveStatements o) ∧ ((saveStatements o).foldl Tables.write t).Intact := by
  rw [saveStatements_eq]
  obtain ⟨hrespects, hlast⟩ := respects_of_fits (fits_saveStatements o) (knows_replace_order t o) (h.replace_order o)
  exact ⟨⟨Tables.refuseRow_eq_refusal (.inl rfl), h.replace_order o, hrespects⟩, hlast⟩

theorem write_itemStatements (t : Tables) (o : Order) :
    ∃ items, (itemStatements o).foldl Tables.write t = { t with items } := by
  have hinserts : ∀ (parts : List (List Item)) (u : Tables), ∃ items,
      (parts.map fun is => Statement.insertItems (is.map (itemRow o.uid))).foldl Tables.write u =
        { u with items } := by
    intro parts
    induction parts with
    | nil => exact fun u => ⟨u.items, rfl⟩
    | cons is parts ih =>
      intro u
      obtain ⟨items, hrest⟩ := ih (u.write (.insertItems (is.map (itemRow o.uid))))
      exact ⟨items, hrest⟩
  obtain ⟨items, hrest⟩ := hinserts (chunks itemsPerInsert o.items) (t.write (.deleteItems o.uid.text))
  exact ⟨items, hrest⟩

/-- The payments of other orders are deleted, and those of this order under another transaction. -/
def paymentsAfter (t : Tables) (o : Order) : List Row :=
  (upsertRow "transaction" (Table.payments.columnsBut "transaction") (paymentRow o.uid o.payment) t.payments).filter fun r =>
    !(r.ofOrder o.uid.text && (r.value "transaction").differs (.text o.payment.transaction.text))

theorem write_save (t : Tables) (o : Order) : ∃ items, (saveStatements o).foldl Tables.write t =
    { orders := upsertRow uidColumn (Table.orders.columnsBut uidColumn) (orderRow o) t.orders
      deliveries :=
        upsertRow uidColumn (Table.deliveries.columnsBut uidColumn) (deliveryRow o.uid o.delivery) t.deliveries
      payments := paymentsAfter t o
      items } := by
  rw [saveStatements, List.foldl_append]
  obtain ⟨items, hitems⟩ := write_itemStatements _ o
  exact ⟨items, hitems⟩

variable {t : Tables} {o : Order}

theorem delivery_save (h : t.Complete) (hknows : uid = o.uid ∨ t.Knows uid) :
    .text uid.text ∈ column uidColumn
      (upsertRow uidColumn (Table.deliveries.columnsBut uidColumn) (deliveryRow o.uid o.delivery) t.deliveries) := by
  rw [mem_column_upsertRow (deliveryRow_uid _ _)]
  rcases hknows with rfl | hknows
  · exact .inl rfl
  · right
    have hone := h.delivery uid hknows
    rw [countP_ofOrder] at hone
    exact List.count_pos_iff.1 (hone ▸ Nat.one_pos)

theorem payment_save_self (hkey : IsKey "transaction" (paymentsAfter t o)) :
    (paymentsAfter t o).countP (Row.ofOrder o.uid.text) ≤ 1 := by
  have hsame : ∀ r ∈ paymentsAfter t o, r.ofOrder o.uid.text = true →
      (r.value "transaction").equals (.text o.payment.transaction.text) = true := by
    intro r hr howner
    obtain ⟨s, hs⟩ := hkey.given _ (List.mem_map_of_mem hr)
    have hkept := (List.mem_filter.1 hr).2
    rw [howner, hs, differs_text] at hkept
    rw [hs, equals_text]
    simpa using hkept
  calc (paymentsAfter t o).countP (Row.ofOrder o.uid.text)
      ≤ (paymentsAfter t o).countP fun r => (r.value "transaction").equals (.text o.payment.transaction.text) :=
        List.countP_mono_left hsame
    _ = (column "transaction" (paymentsAfter t o)).count (.text o.payment.transaction.text) := countP_equals _ _ _
    _ ≤ 1 := List.nodup_iff_count_le_one.1 hkey.unique _

theorem payment_save_other (h : t.Complete) (hne : uid ≠ o.uid) (hknows : t.Knows uid) :
    (paymentsAfter t o).countP (Row.ofOrder uid.text) ≤ 1 := by
  have hforeign : (paymentRow o.uid o.payment).ofOrder uid.text = false := by
    rw [ofOrder_row (paymentRow_uid _ _)]
    simpa using hne.symm
  calc (paymentsAfter t o).countP (Row.ofOrder uid.text)
      ≤ (upsertRow "transaction" (Table.payments.columnsBut "transaction") (paymentRow o.uid o.payment)
          t.payments).countP (Row.ofOrder uid.text) :=
        List.filter_sublist.countP_le
    _ ≤ t.payments.countP (Row.ofOrder uid.text) := countP_upsertRow_le hforeign (by decide) _ _
    _ ≤ 1 := h.payment uid hknows

theorem Tables.Complete.save (h : t.Complete) (hintact : t.Intact) (o : Order) :
    ((saveStatements o).foldl Tables.write t).Complete := by
  have hlast := (hintact.save o).2
  obtain ⟨items, hsave⟩ := write_save t o
  rw [hsave] at hlast ⊢
  constructor
  · intro uid hknows
    have hknown : uid = o.uid ∨ t.Knows uid := (Tables.knows_replace_order_iff o).1 hknows
    rw [countP_ofOrder]
    exact List.count_eq_one_of_mem (hlast.keys .deliveries _ rfl).unique (delivery_save h hknown)
  · intro uid hknows
    have hknown : uid = o.uid ∨ t.Knows uid := (Tables.knows_replace_order_iff o).1 hknows
    rcases hknown with rfl | hknown
    · exact payment_save_self (hlast.keys .payments _ rfl)
    · by_cases hself : uid = o.uid
      · exact hself ▸ payment_save_self (hlast.keys .payments _ rfl)
      · exact payment_save_other h hself hknown

end OrderDepot.Store.Relational
