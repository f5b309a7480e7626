import OrderDepot.Proofs.Store.Contents

/-!
# Transactions of a store

What a session does is read off its runs. A server without arranged faults answers every statement by its
tables alone. So reading an order is a function of the contents of the tables, and after an order was saved the
tables hold the contents that saving it is described to lead to.
-/

namespace OrderDepot.Store.Relational

namespace Session

variable {α β : Type} {s s' : Server} {x : Session α} {f : α → Session β}

theorem bind_ok {a : α} (h : x s = (.ok a, s')) : (x >>= f) s = f a s' := by
  simp only [bind, ExceptT.bind, ExceptT.mk, StateT.bind, h]
  rfl

theorem bind_error {e : Failure} (h : x s = (.error e, s')) : (x >>= f) s = (.error e, s') := by
  simp only [bind, ExceptT.bind, ExceptT.mk, StateT.bind, h]
  rfl

theorem bind_eq_ok {b : β} (h : (x >>= f) s = (.ok b, s')) :
    ∃ a u, x s = (.ok a, u) ∧ f a u = (.ok b, s') := by
  rcases hx : x s with ⟨r, u⟩
  cases r with
  | ok a => exact ⟨a, u, rfl, (bind_ok hx).symm.trans h⟩
  | error e => cases (bind_error hx).symm.trans h

theorem tryCatch_ok {a : α} {handler : Failure → Session α} (h : x s = (.ok a, s')) :
    tryCatch x handler s = (.ok a, s') := by
  simp only [tryCatch, tryCatchThe, MonadExceptOf.tryCatch, ExceptT.tryCatch, ExceptT.mk, StateT.bind, bind, h]
  rfl

theorem tryCatch_error {e : Failure} {handler : Failure → Session α} (h : x s = (.error e, s')) :
    tryCatch x handler s = handler e s' := by
  simp only [tryCatch, tryCatchThe, MonadExceptOf.tryCatch, ExceptT.tryCatch, ExceptT.mk, StateT.bind, bind, h]

def refusalOf (s : Server) (st : Statement) : Option String :=
  if s.strict then s.tables.refusal st else none

theorem perform_accepted {st : Statement} (hs : s.faults = []) (hr : refusalOf s st = none) :
    perform st s = (.ok (s.tables.read st), { s with log := st :: s.log }.effect st) := by
  unfold refusalOf at hr
  simp [perform, Server.execute, hs, strike, hr]

theorem perform_refused {st : Statement} {m : String} (hs : s.faults = []) (hr : refusalOf s st = some m) :
    perform st s = (.error (.database (.refused m)), { s with log := st :: s.log }) := by
  unfold refusalOf at hr
  simp [perform, Server.execute, hs, strike, hr]

theorem perform_eq_ok {st : Statement} {rows : List Row} (hs : s.faults = [])
    (h : perform st s = (.ok rows, s')) : s' = { s with log := st :: s.log }.effect st := by
  cases hr : refusalOf s st with
  | none => exact (Prod.mk.inj ((perform_accepted hs hr).symm.trans h)).2.symm
  | some m => cases (perform_refused hs hr).symm.trans h

theorem refusalOf_noParams (s : Server) (st : Statement) (h : st.params = [])
    (hrefusal : s.tables.refusal st = st.params.findSome? (refuseValue uidColumn)) :
    refusalOf s st = none := by
  simp [refusalOf, hrefusal, h]

theorem perform_begin (hs : s.faults = []) :
    perform .begin s = (.ok [], { s with log := .begin :: s.log, before := some s.tables }) :=
  perform_accepted hs (refusalOf_noParams s _ rfl rfl)

theorem perform_snapshot (hs : s.faults = []) :
    perform .snapshot s = (.ok [], { s with log := .snapshot :: s.log }) :=
  perform_accepted hs (refusalOf_noParams s _ rfl rfl)

theorem perform_commit (hs : s.faults = []) :
    perform .commit s = (.ok [], { s with log := .commit :: s.log, before := none }) :=
  perform_accepted hs (refusalOf_noParams s _ rfl rfl)

theorem attempt_rollback (hs : s.faults = []) :
    attempt .rollback s =
      (.ok (), { s with log := .rollback :: s.log, tables := s.before.getD s.tables, before := none }) := by
  have hr := refusalOf_noParams s .rollback rfl rfl
  unfold refusalOf at hr
  simp [attempt, Server.execute, hs, strike, hr, Server.effect]

/-- The outcome of work that only reads: nothing changes but the log. -/
def Gives (x : Session α) (s : Server) (r : Except Failure α) : Prop := ∃ log, x s = (r, { s with log })

theorem gives_bind {a : α} {r : Except Failure β} (hx : Gives x s (.ok a))
    (hf : ∀ log, Gives (f a) { s with log } r) : Gives (x >>= f) s r := by
  obtain ⟨log, hx⟩ := hx
  obtain ⟨log', hf⟩ := hf log
  exact ⟨log', (bind_ok hx).trans hf⟩

theorem gives_bind_error {e : Failure} (hx : Gives x s (.error e)) : Gives (x >>= f) s (.error e) := by
  obtain ⟨log, hx⟩ := hx
  exact ⟨log, bind_error hx⟩

theorem gives_pure (a : α) : Gives (pure a) s (.ok a) := ⟨s.log, rfl⟩

theorem gives_throw (e : Failure) : Gives (throw e : Session α) s (.error e) := ⟨s.log, rfl⟩

theorem gives_snapshot (hs : s.faults = []) : Gives (perform .snapshot) s (.ok []) :=
  ⟨_, perform_snapshot hs⟩

def refusalOfUid (s : Server) (uid : OrderUid) : Option String :=
  if s.strict then refuseValue uidColumn (.text uid.text) else none

theorem refusalOf_select (s : Server) {t : Table} {columns : List String} (hcolumns : columns ⊆ t.columns)
    (uid : OrderUid) : refusalOf s (.select t columns uid.text) = refusalOfUid s uid := by
  have hfits : (Statement.select t columns uid.text).misfit = none := by
    simp only [Statement.misfit, find?_unknown hcolumns, Option.map_none]
  simp [refusalOf, refusalOfUid, Tables.refusal, hfits, Statement.params]

variable {uid : OrderUid} {t : Table} {columns : List String}

theorem gives_select (hs : s.faults = []) (hcolumns : columns ⊆ t.columns) (hu : refusalOfUid s uid = none) :
    Gives (perform (.select t columns uid.text)) s (.ok (s.tables.read (.select t columns uid.text))) :=
  ⟨_, perform_accepted hs ((refusalOf_select s hcolumns uid).trans hu)⟩

theorem gives_select_refused {m : String} (hs : s.faults = []) (hcolumns : columns ⊆ t.columns)
    (hu : refusalOfUid s uid = some m) :
    Gives (perform (.select t columns uid.text)) s (.error (.database (.refused m))) :=
  ⟨_, perform_refused hs ((refusalOf_select s hcolumns uid).trans hu)⟩

theorem gives_decoded {a : α} {r : Except DatabaseFault α} (hr : r = .ok a) : Gives (decoded r) s (.ok a) := by
  rw [hr]
  exact gives_pure a

theorem gives_readRows {c : Contents} (hs : s.faults = []) (hu : refusalOfUid s uid = none)
    (hc : s.tables = c.tables) : Gives (readRows uid) s (c.get uid) := by
  have hselect : ∀ {t : Table} {columns : List String}, columns ⊆ t.columns → ∀ log,
      Gives (perform (.select t columns uid.text)) { s with log } (.ok (c.tables.read (.select t columns uid.text))) := by
    intro t columns hcolumns log
    rw [← hc]
    exact gives_select hs hcolumns hu
  unfold readRows Contents.get
  refine gives_bind (gives_snapshot hs) fun log => ?_
  refine gives_bind (hselect (List.Subset.refl _) log) fun log => ?_
  rw [c.read_orders uid]
  cases c.orders.filter fun o => o.uid = uid with
  | nil => exact gives_bind_error (gives_throw _)
  | cons o _ =>
    refine gives_bind (gives_decoded (readOrder_orderRow o)) fun log => ?_
    refine gives_bind (hselect (Table.columnsBut_subset _ _) log) fun log => ?_
    rw [c.read_deliveries uid]
    cases c.deliveries.filter fun d => d.1 = uid with
    | nil => exact gives_bind_error (gives_throw _)
    | cons d _ =>
      refine gives_bind (gives_decoded (readDelivery_deliveryRow d.1 d.2)) fun log => ?_
      refine gives_bind (hselect (Table.columnsBut_subset _ _) log) fun log => ?_
      rw [c.read_payments uid]
      have hpayments := gives_decoded (s := { s with log })
        (mapM_map (fun p : OrderUid × Payment => readPayment_paymentRow p.1 p.2)
          (c.payments.filter fun p => p.1 = uid))
      refine gives_bind hpayments fun log => ?_
      cases c.payments.filter fun p => p.1 = uid with
      | nil => exact gives_bind_error (gives_throw _)
      | cons p others =>
        cases others with
        | cons _ _ => exact gives_bind_error (gives_throw _)
        | nil =>
          refine gives_bind (gives_pure p.2) fun log => ?_
          refine gives_bind (hselect (Table.columnsBut_subset _ _) log) fun log => ?_
          rw [c.read_items uid]
          have hitems := gives_decoded (s := { s with log })
            (mapM_map (fun i : OrderUid × Item => readItem_itemRow i.1 i.2)
              (c.items.filter fun i => i.1 = uid))
          exact gives_bind hitems fun log => gives_pure _

theorem transaction_gives {work : Session α} {r : Except Failure α} (hs : s.faults = [])
    (hwork : ∀ log, Gives work { s with log, before := some s.tables } r) :
    ∃ log, transaction work s = (r, { s with log, before := none }) := by
  obtain ⟨log, hwork⟩ := hwork (.begin :: s.log)
  unfold transaction
  rw [bind_ok (perform_begin hs)]
  cases r with
  | ok a =>
    have hcommit := perform_commit (s := { s with log, before := some s.tables }) hs
    exact ⟨.commit :: log, tryCatch_ok ((bind_ok hwork).trans (bind_ok hcommit))⟩
  | error e =>
    have hrollback := attempt_rollback (s := { s with log, before := some s.tables }) hs
    exact ⟨.rollback :: log, (tryCatch_error (bind_error hwork)).trans (bind_ok hrollback)⟩

theorem transaction_failed {work : Session Unit} {e : Failure} {u v : Server}
    (hbegin : perform .begin s = (.ok [], u)) (hu : u.before = some s.tables)
    (hwork : (work >>= fun a => perform .commit >>= fun _ => pure a) u = (.error e, v)) (hv : v.faults = [])
    (hbefore : v.before = u.before) :
    ∃ log, transaction work s = (.error e, { v with log, tables := s.tables, before := none }) := by
  have hrollback := attempt_rollback hv
  rw [hbefore, hu] at hrollback
  exact ⟨_, (bind_ok hbegin).trans ((tryCatch_error hwork).trans (bind_ok hrollback))⟩

theorem get_gives {c : Contents} (hs : s.faults = []) (hc : s.tables = c.tables) :
    ∃ log, get uid s =
      (match refusalOfUid s uid with
        | some m => .error (.database (.refused m))
        | none => c.get uid, { s with log, before := none }) := by
  refine transaction_gives hs fun log => ?_
  split
  · next m hu =>
    refine gives_bind (gives_snapshot hs) fun log => ?_
    exact gives_bind_error (gives_select_refused hs (List.Subset.refl _) hu)
  · next hu => exact gives_readRows hs hu hc

def Writes (st : Statement) : Prop := ∀ s : Server, s.effect st = { s with tables := s.tables.write st }

theorem writes_saveStatements (o : Order) : ∀ st ∈ saveStatements o, Writes st := by
  intro st hst
  simp only [saveStatements, itemStatements, List.cons_append, List.nil_append, List.mem_cons,
    List.mem_map] at hst
  rcases hst with rfl | rfl | rfl | rfl | rfl | ⟨is, -, rfl⟩ <;>
  · intro s
    rfl

theorem performAll_eq_ok {sts : List Statement} (h : performAll sts s = (.ok (), s')) (hs : s.faults = [])
    (hw : ∀ st ∈ sts, Writes st) :
    ∃ log, s' = { s with log, tables := sts.foldl Tables.write s.tables } := by
  induction sts generalizing s with
  | nil => exact ⟨s.log, (Prod.mk.inj h).2.symm⟩
  | cons st rest ih =>
    obtain ⟨rows, u, hst, hrest⟩ := bind_eq_ok h
    have hu := perform_eq_ok hs hst
    rw [hw st List.mem_cons_self] at hu
    subst hu
    obtain ⟨log, rfl⟩ := ih hrest hs fun st hst => hw st (List.mem_cons_of_mem _ hst)
    exact ⟨log, rfl⟩

theorem transaction_eq_ok {work : Session α} {a : α} (hs : s.faults = [])
    (h : transaction work s = (.ok a, s')) :
    ∃ v, work { s with log := .begin :: s.log, before := some s.tables } = (.ok a, v) ∧
      (v.faults = [] → s' = { v with log := .commit :: v.log, before := none }) := by
  unfold transaction at h
  rw [bind_ok (perform_begin hs)] at h
  rcases hwork : (work >>= fun a => perform .commit >>= fun _ => pure a)
      { s with log := .begin :: s.log, before := some s.tables } with ⟨r, u⟩
  cases r with
  | ok b =>
    obtain ⟨a', v, hv, hcommit⟩ := bind_eq_ok hwork
    obtain ⟨rows, w, hw, hpure⟩ := bind_eq_ok hcommit
    obtain ⟨heq, rfl⟩ := Prod.mk.inj hpure
    obtain rfl := Except.ok.inj heq
    obtain ⟨heq, rfl⟩ := Prod.mk.inj ((tryCatch_ok hwork).symm.trans h)
    obtain rfl := Except.ok.inj heq
    exact ⟨v, hv, fun hfaults => perform_eq_ok hfaults hw⟩
  | error e =>
    have hthrow := (tryCatch_error hwork).symm.trans h
    obtain ⟨_, v, -, hv⟩ := bind_eq_ok hthrow
    cases (Prod.mk.inj hv).1

theorem save_eq_ok {o : Order} (hs : s.faults = []) (h : save o s = (.ok (), s')) :
    ∃ log, s' = { s with log, before := none, tables := (saveStatements o).foldl Tables.write s.tables } := by
  obtain ⟨v, hv, hcommit⟩ := transaction_eq_ok hs h
  obtain ⟨log, rfl⟩ := performAll_eq_ok hv hs (writes_saveStatements o)
  exact ⟨_, hcommit hs⟩

end Session

end OrderDepot.Store.Relational
