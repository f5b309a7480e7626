import Mathlib.Data.List.Basic
import OrderDepot.Store.Relational.Orders

/-!
# What the tables hold

Tables that only orders were written to are the rows of four lists: of orders, and of deliveries, payments and
items with the orders that they belong to. Saving an order is described on these lists, and so is reading one.
-/

namespace OrderDepot.Store.Relational

structure Contents where
  orders : List Order := []
  deliveries : List (OrderUid × Delivery) := []
  payments : List (OrderUid × Payment) := []
  items : List (OrderUid × Item) := []

def upsertBy {α κ : Type} [DecidableEq κ] (key : α → κ) (a : α) : List α → List α
  | [] => [a]
  | b :: rest => if key b = key a then a :: rest else b :: upsertBy key a rest

namespace Contents

def tables (c : Contents) : Tables where
  orders := c.orders.map orderRow
  deliveries := c.deliveries.map fun d => deliveryRow d.1 d.2
  payments := c.payments.map fun p => paymentRow p.1 p.2
  items := c.items.map fun i => itemRow i.1 i.2

def save (c : Contents) (o : Order) : Contents where
  orders := upsertBy (·.uid) o c.orders
  deliveries := upsertBy (·.1) (o.uid, o.delivery) c.deliveries
  payments := (upsertBy (·.2.transaction) (o.uid, o.payment) c.payments).filter fun p =>
    ¬ (p.1 = o.uid ∧ p.2.transaction ≠ o.payment.transaction)
  items := (c.items.filter fun i => i.1 ≠ o.uid) ++ o.items.map fun i => (o.uid, i)

def itemsOf (c : Contents) (uid : OrderUid) : List Item :=
  (c.items.filter fun i => i.1 = uid).map (·.2)

def get (c : Contents) (uid : OrderUid) : Except Failure Order :=
  match c.orders.filter fun o => o.uid = uid with
  | [] => .error .notFound
  | o :: _ =>
    match c.deliveries.filter fun d => d.1 = uid with
    | [] => .error (noRow uid "no delivery row")
    | d :: _ =>
      match c.payments.filter fun p => p.1 = uid with
      | [] => .error (noRow uid "no payment row")
      | [p] =>
        .ok { o with
          dateCreated := ofMicros (microsOf o.dateCreated), delivery := d.2, payment := p.2
          items := c.itemsOf uid }
      | _ :: _ :: _ => .error (noRow uid "more than one payment row")

end Contents

theorem ident_text_inj {named : Named} {a b : Ident named} : a.text = b.text ↔ a = b := by
  cases a
  cases b
  simp

theorem equals_text (s t : String) : (Value.text s).equals (.text t) = decide (s = t) := by
  rw [Bool.eq_iff_iff]
  simp [Value.equals]

theorem equals_text_iff {v : Value} {s : String} : v.equals (.text s) = true ↔ v = .text s := by
  cases v <;> simp [Value.equals]

theorem differs_text (s t : String) : (Value.text s).differs (.text t) = decide (s ≠ t) := by
  rw [Bool.eq_iff_iff]
  simp [Value.differs]

namespace Row

variable {r new : Row} {columns : List String} {c : String}

theorem lookup_updated (r new : Row) (columns : List String) (c : String) :
    List.lookup c (r.updated columns new) =
      (List.lookup c r).map fun v => if c ∈ columns then new.value c else v := by
  induction r with
  | nil => rfl
  | cons field r ih =>
    obtain ⟨name, v⟩ := field
    rw [updated] at ih ⊢
    rw [List.map_cons, List.lookup_cons, List.lookup_cons, ih]
    cases h : c == name with
    | true =>
      obtain rfl := beq_iff_eq.1 h
      rfl
    | false => rfl

theorem value_updated (r new : Row) (columns : List String) (c : String) :
    (r.updated columns new).value c = r.value c ∨ (r.updated columns new).value c = new.value c := by
  simp only [value, lookup_updated]
  cases List.lookup c r with
  | none => exact .inl rfl
  | some v =>
    by_cases hc : c ∈ columns
    · exact .inr (if_pos hc)
    · exact .inl (if_neg hc)

theorem value_updated_of_mem (hc : c ∈ columns) (r new : Row) :
    (r.updated columns new).value c = .null ∨ (r.updated columns new).value c = new.value c := by
  rw [value, lookup_updated]
  cases List.lookup c r with
  | none => exact .inl rfl
  | some v => exact .inr (if_pos hc)

theorem value_of_mem (h : r.names.Nodup) {v : Value} (hv : (c, v) ∈ r) : r.value c = v := by
  induction r with
  | nil => cases hv
  | cons field r ih =>
    obtain ⟨hfirst, hrest⟩ := List.nodup_cons.1 h
    rw [value, List.lookup_cons]
    rcases List.mem_cons.1 hv with rfl | hv
    · rw [beq_self_eq_true]
      rfl
    · have hname : c ∈ names r := List.mem_map_of_mem hv
      have hne : c ≠ field.1 := by
        rintro rfl
        exact hfirst hname
      rw [beq_false_of_ne hne]
      exact ih hrest hv

theorem updated_eq (hnames : r.names = new.names) (hnodup : new.names.Nodup)
    (hsame : ∀ c ∈ new.names, c ∉ columns → r.value c = new.value c) : r.updated columns new = new := by
  have hold : ∀ field ∈ r, (field.1, if field.1 ∈ columns then new.value field.1 else field.2) =
      (field.1, new.value field.1) := by
    intro field hfield
    split
    · rfl
    · next hc =>
      have hname : field.1 ∈ new.names := hnames ▸ List.mem_map_of_mem hfield
      rw [← hsame _ hname hc, value_of_mem (hnames ▸ hnodup) hfield]
  have hnew : ∀ field ∈ new, (field.1, new.value field.1) = field := fun field hfield =>
    Prod.ext rfl (value_of_mem hnodup hfield)
  calc r.updated columns new
      = r.map fun field => (field.1, new.value field.1) := List.map_congr_left hold
    _ = r.names.map fun c => (c, new.value c) := by rw [names, List.map_map]; rfl
    _ = new.map fun field => (field.1, new.value field.1) := by rw [hnames, names, List.map_map]; rfl
    _ = new := (List.map_congr_left hnew).trans (List.map_id new)

end Row

theorem Table.nodup_columns (t : Table) : t.columns.Nodup := by
  cases t <;> decide

theorem Table.columnsBut_subset (t : Table) (column : String) : t.columnsBut column ⊆ t.columns :=
  List.filter_subset_self _

theorem find?_unknown {columns known : List String} (h : columns ⊆ known) : columns.find? (· ∉ known) = none :=
  List.find?_eq_none.2 fun c hc => by simpa using h hc

/-- A row takes the place of the one with the same key, though the key is not among the columns that change. -/
theorem updated_columnsBut {t : Table} {key : String} {r new : Row} (hnames : r.names = t.columns)
    (hnew : new.names = t.columns) (hkey : r.value key = new.value key) : r.updated (t.columnsBut key) new = new := by
  refine Row.updated_eq (hnames.trans hnew.symm) (hnew ▸ t.nodup_columns) fun c hc hunchanged => ?_
  rw [hnew] at hc
  have hsame : c = key := by
    simpa [Table.columnsBut, hc] using hunchanged
  rw [hsame]
  exact hkey

theorem orderRow_uid (o : Order) : (orderRow o).value uidColumn = .text o.uid.text := by
  simp [orderRow, Table.columns, Row.value, uidColumn]

theorem deliveryRow_uid (uid : OrderUid) (d : Delivery) :
    (deliveryRow uid d).value uidColumn = .text uid.text := by
  simp [deliveryRow, Table.columns, Row.value, uidColumn]

theorem paymentRow_transaction (uid : OrderUid) (p : Payment) :
    (paymentRow uid p).value "transaction" = .text p.transaction.text := by
  simp [paymentRow, Table.columns, Row.value]

theorem paymentRow_uid (uid : OrderUid) (p : Payment) :
    (paymentRow uid p).value uidColumn = .text uid.text := by
  simp [paymentRow, Table.columns, Row.value, uidColumn, List.lookup_cons]

theorem itemRow_uid (uid : OrderUid) (i : Item) : (itemRow uid i).value uidColumn = .text uid.text := by
  simp [itemRow, Table.columns, Row.value, uidColumn]

theorem readOrder_orderRow (o : Order) :
    readOrder ((orderRow o).project Table.orders.columns) = .ok { o with
      dateCreated := ofMicros (microsOf o.dateCreated), delivery := {}, payment := {}, items := [] } := by
  simp [readOrder, orderRow, Row.project, Table.columns, Row.text, Row.int64, Row.integer, Row.value, List.lookup_cons,
    integerOf, Except.map, bind, Except.bind, pure, Except.pure]

theorem readDelivery_deliveryRow (uid : OrderUid) (d : Delivery) :
    readDelivery ((deliveryRow uid d).project (Table.deliveries.columnsBut uidColumn)) = .ok d := by
  simp [readDelivery, deliveryRow, Row.project, Table.columnsBut, Table.columns, uidColumn, Row.text, Row.value,
    List.lookup_cons]
  rfl

theorem readPayment_paymentRow (uid : OrderUid) (p : Payment) :
    readPayment ((paymentRow uid p).project (Table.payments.columnsBut uidColumn)) = .ok p := by
  simp [readPayment, paymentRow, Row.project, Table.columnsBut, Table.columns, uidColumn, Row.text, Row.int64,
    Row.integer, Row.value, List.lookup_cons, integerOf, Except.map, bind, Except.bind, pure, Except.pure]

theorem readItem_itemRow (uid : OrderUid) (i : Item) :
    readItem ((itemRow uid i).project (Table.items.columnsBut uidColumn)) = .ok i := by
  simp [readItem, itemRow, Row.project, Table.columnsBut, Table.columns, uidColumn, Row.text, Row.int64, Row.integer,
    Row.value, List.lookup_cons, integerOf, Except.map, bind, Except.bind, pure, Except.pure]

section Lists

variable {α κ : Type} [DecidableEq κ] {row : α → Row} {column : String} {text : κ → String}

theorem upsertRow_map {t : Table} (key : α → κ) (hnames : ∀ a, (row a).names = t.columns)
    (hinj : ∀ {k k'}, text k = text k' ↔ k = k') (hrow : ∀ a, (row a).value column = .text (text (key a))) (a : α)
    (as : List α) : upsertRow column (t.columnsBut column) (row a) (as.map row) = (upsertBy key a as).map row := by
  induction as with
  | nil => rfl
  | cons b rest ih =>
    have hsame : ((row b).value column).equals ((row a).value column) = decide (key b = key a) := by
      rw [hrow, hrow, equals_text]
      exact decide_eq_decide.2 hinj
    by_cases h : key b = key a
    · have hkey : (row b).value column = (row a).value column := by
        rw [hrow, hrow, h]
      simp [upsertRow, upsertBy, hsame, h, updated_columnsBut (hnames b) (hnames a) hkey]
    · simp [upsertRow, upsertBy, hsame, h, ih]

theorem ofOrder_row {r : Row} {uid uid' : OrderUid} (h : r.value uidColumn = .text uid.text) :
    r.ofOrder uid'.text = decide (uid = uid') := by
  rw [Row.ofOrder, h, equals_text]
  exact decide_eq_decide.2 ident_text_inj

theorem select_map (uidOf : α → OrderUid) (hrow : ∀ a, (row a).value uidColumn = .text (uidOf a).text)
    (uid : OrderUid) (columns : List String) (as : List α) :
    ((as.map row).filter (Row.ofOrder uid.text)).map (fun r => r.project columns) =
      (as.filter fun a => uidOf a = uid).map fun a => (row a).project columns := by
  have howner : (Row.ofOrder uid.text ∘ row) = fun a => decide (uidOf a = uid) :=
    funext fun a => ofOrder_row (hrow a)
  rw [List.filter_map, howner, List.map_map]
  rfl

theorem filter_not_ofOrder_map (uidOf : α → OrderUid)
    (hrow : ∀ a, (row a).value uidColumn = .text (uidOf a).text) (uid : OrderUid) (as : List α) :
    ((as.map row).filter fun r => !r.ofOrder uid.text) = (as.filter fun a => uidOf a ≠ uid).map row := by
  rw [List.filter_map]
  congr 2
  funext a
  simp [ofOrder_row (hrow a)]

theorem flatten_chunks (n : Nat) (as : List α) : (chunks n as).flatten = as := by
  unfold chunks
  fun_induction chunksOfSucc (n - 1) as with
  | case1 => rfl
  | case2 a as ih => simp [ih]

theorem mapM_map {β ε : Type} {read : Row → Except ε β} {f : α → β} (hread : ∀ a, read (row a) = .ok (f a))
    (as : List α) : (as.map row).mapM read = .ok (as.map f) := by
  induction as with
  | nil => rfl
  | cons a as ih =>
    rw [List.map_cons, List.mapM_cons, hread, ih]
    rfl

end Lists

namespace Contents

section Reads

variable (c : Contents) (uid : OrderUid) (columns : List String)

theorem read_orders :
    c.tables.read (.select .orders columns uid.text) =
      (c.orders.filter fun o => o.uid = uid).map fun o => (orderRow o).project columns :=
  select_map (fun o : Order => o.uid) orderRow_uid uid columns c.orders

theorem read_deliveries :
    c.tables.read (.select .deliveries columns uid.text) =
      (c.deliveries.filter fun d => d.1 = uid).map fun d => (deliveryRow d.1 d.2).project columns :=
  select_map (fun d : OrderUid × Delivery => d.1) (fun d => deliveryRow_uid d.1 d.2) uid columns c.deliveries

theorem read_payments :
    c.tables.read (.select .payments columns uid.text) =
      (c.payments.filter fun p => p.1 = uid).map fun p => (paymentRow p.1 p.2).project columns :=
  select_map (fun p : OrderUid × Payment => p.1) (fun p => paymentRow_uid p.1 p.2) uid columns c.payments

theorem read_items :
    c.tables.read (.select .items columns uid.text) =
      (c.items.filter fun i => i.1 = uid).map fun i => (itemRow i.1 i.2).project columns :=
  select_map (fun i : OrderUid × Item => i.1) (fun i => itemRow_uid i.1 i.2) uid columns c.items

end Reads

theorem write_order (c : Contents) (o : Order) :
    c.tables.write (.replace .orders "order_uid" (orderRow o)) =
      tables { c with orders := upsertBy (·.uid) o c.orders } := by
  have h : upsertRow uidColumn (Table.orders.columnsBut uidColumn) (orderRow o) c.tables.orders =
      (upsertBy (·.uid) o c.orders).map orderRow :=
    upsertRow_map (·.uid) (fun _ => rfl) ident_text_inj orderRow_uid o c.orders
  exact congrArg (fun rows => c.tables.setRows .orders rows) h

theorem write_delivery (c : Contents) (uid : OrderUid) (d : Delivery) :
    c.tables.write (.replace .deliveries "order_uid" (deliveryRow uid d)) =
      tables { c with deliveries := upsertBy (·.1) (uid, d) c.deliveries } := by
  have h : upsertRow uidColumn (Table.deliveries.columnsBut uidColumn) (deliveryRow uid d) c.tables.deliveries =
      (upsertBy (·.1) (uid, d) c.deliveries).map fun d => deliveryRow d.1 d.2 :=
    upsertRow_map (·.1) (fun _ => rfl) ident_text_inj (fun d => deliveryRow_uid d.1 d.2) (uid, d) c.deliveries
  exact congrArg (fun rows => c.tables.setRows .deliveries rows) h

theorem write_payment (c : Contents) (uid : OrderUid) (p : Payment) :
    c.tables.write (.replace .payments "transaction" (paymentRow uid p)) =
      tables { c with payments := upsertBy (·.2.transaction) (uid, p) c.payments } := by
  have h : upsertRow "transaction" (Table.payments.columnsBut "transaction") (paymentRow uid p) c.tables.payments =
      (upsertBy (·.2.transaction) (uid, p) c.payments).map fun p => paymentRow p.1 p.2 :=
    upsertRow_map (·.2.transaction) (fun _ => rfl) ident_text_inj (fun p => paymentRow_transaction p.1 p.2) (uid, p)
      c.payments
  exact congrArg (fun rows => c.tables.setRows .payments rows) h

theorem write_otherPayments (c : Contents) (uid : OrderUid) (t : TransactionId) :
    c.tables.write (.deleteOtherPayments uid.text t.text) =
      tables { c with payments := c.payments.filter fun p => ¬ (p.1 = uid ∧ p.2.transaction ≠ t) } := by
  simp only [Tables.write, tables, List.filter_map]
  congr 3
  funext p
  simp [ofOrder_row (paymentRow_uid p.1 p.2), paymentRow_transaction, differs_text, ident_text_inj]

theorem write_deleteItems (c : Contents) (uid : OrderUid) :
    c.tables.write (.deleteItems uid.text) = tables { c with items := c.items.filter fun i => i.1 ≠ uid } := by
  have h : (c.tables.items.filter fun r => !r.ofOrder uid.text) =
      (c.items.filter fun i => i.1 ≠ uid).map fun i => itemRow i.1 i.2 :=
    filter_not_ofOrder_map (fun i : OrderUid × Item => i.1) (fun i => itemRow_uid i.1 i.2) uid c.items
  exact congrArg (fun rows => c.tables.setRows .items rows) h

theorem write_chunks (c : Contents) (uid : OrderUid) (parts : List (List Item)) :
    (parts.map fun is => .insertItems (is.map (itemRow uid))).foldl Tables.write c.tables =
      tables { c with items := c.items ++ parts.flatten.map fun i => (uid, i) } := by
  induction parts generalizing c with
  | nil => simp
  | cons is parts ih =>
    have hfirst : c.tables.write (.insertItems (is.map (itemRow uid))) =
        tables { c with items := c.items ++ is.map fun i => (uid, i) } := by
      simp [Tables.write, tables, Function.comp_def]
    rw [List.map_cons, List.foldl_cons, hfirst, ih]
    simp

theorem write_saveStatements (c : Contents) (o : Order) :
    (saveStatements o).foldl Tables.write c.tables = (c.save o).tables := by
  simp only [saveStatements, itemStatements, List.cons_append, List.nil_append, List.foldl_cons, write_order,
    write_delivery, write_payment, write_otherPayments, write_deleteItems, write_chunks, flatten_chunks]
  rfl

end Contents

end OrderDepot.Store.Relational
