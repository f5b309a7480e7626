import OrderDepot.Proofs.Except
import OrderDepot.Proofs.Store.Acceptance
import OrderDepot.Proofs.Store.Constraints
import OrderDepot.Proofs.Store.Interference

/-!
# The tables stay in order

Saves follow one another, of any orders, and faults strike any of their statements. What is committed afterwards is
what a save leads to, or what was there before. So the constraints of the schema hold at every moment, and the one thing
that can be wrong with an order is that another one took its payment.
-/

namespace OrderDepot.Store.Relational

/-- The tables that outlast the open transaction, if there is one. -/
def Server.committed (s : Server) : Tables := s.before.getD s.tables

theorem Server.committed_eq_tables {s : Server} (h : s.before = none) : s.committed = s.tables := by
  rw [committed, h, Option.getD_none]

/-- What saves of any orders have committed, beginning with empty tables. Each of them may have succeeded or failed,
on a server with any faults, strict or not. -/
inductive Tables.Reached : Tables → Prop where
  | empty : Reached {}
  | save {s : Server} (o : Order) (before : Reached s.tables) (idle : s.before = none) :
      Reached ((save o).run.run s).2.committed

namespace Session

variable {α β : Type} {s : Server} {t : Tables}

theorem message_of_strike {st : Statement} {faults : List Fault} {m : String} (h : (strike st faults).1 = some m) :
    ∃ f ∈ faults, f.message = some m := by
  induction faults with
  | nil => cases h
  | cons f rest ih =>
    by_cases hstrikes : f.strikes st
    · simp only [strike, if_pos hstrikes] at h
      exact ⟨f, List.mem_cons_self, h⟩
    · simp only [strike, if_neg hstrikes] at h
      obtain ⟨f', hf', hm⟩ := ih h
      exact ⟨f', List.mem_cons_of_mem _ hf', hm⟩

theorem strike_subset (st : Statement) (faults : List Fault) : (strike st faults).2 ⊆ faults := by
  induction faults with
  | nil => exact List.Subset.refl _
  | cons f rest ih =>
    by_cases hstrikes : f.strikes st
    · simp only [strike, if_pos hstrikes]
      exact List.subset_cons_self f rest
    · simp only [strike, if_neg hstrikes]
      exact List.cons_subset_cons f ih

/-- A fault has the message, or one of the statements is refused with it for its values. -/
def Blames (faults : List Fault) (sts : List Statement) (m : String) : Prop :=
  (∃ f ∈ faults, f.message = some m) ∨ ∃ st ∈ sts, st.refusal = some m

theorem Blames.mono {faults faults' : List Fault} {sts sts' : List Statement} {m : String} (h : Blames faults sts m)
    (hfaults : faults ⊆ faults') (hsts : sts ⊆ sts') : Blames faults' sts' m := by
  rcases h with ⟨f, hf, hm⟩ | ⟨st, hst, hm⟩
  · exact .inl ⟨f, hfaults hf, hm⟩
  · exact .inr ⟨st, hsts hst, hm⟩

theorem perform_cases (st : Statement) (s : Server) : ∃ log faults, faults ⊆ s.faults ∧
    (perform st s = (.ok (s.tables.read st), { s with log, faults }.effect st) ∨
      ∃ m, perform st s = (.error (.database (.refused m)), { s with log, faults }) ∧
        (s.tables.refusal st = st.refusal → Blames s.faults [st] m)) := by
  refine ⟨st :: s.log, (strike st s.faults).2, strike_subset st s.faults, ?_⟩
  simp only [perform, Server.execute]
  cases hstrike : (strike st s.faults).1 with
  | some m => exact .inr ⟨m, rfl, fun _ => .inl (message_of_strike hstrike)⟩
  | none =>
    cases hrefusal : if s.strict then s.tables.refusal st else none with
    | none => exact .inl rfl
    | some m =>
      refine .inr ⟨m, rfl, fun hvalues => .inr ⟨st, List.mem_singleton_self st, ?_⟩⟩
      rw [← hvalues]
      exact (Option.ite_none_right_eq_some.1 hrefusal).2

theorem performAll_cases {sts : List Statement} (hw : ∀ st ∈ sts, Writes st) (s : Server)
    (hrespects : Respects s.tables sts) : ∃ log faults, faults ⊆ s.faults ∧
    (performAll sts s = (.ok (), { s with log, faults, tables := sts.foldl Tables.write s.tables }) ∨
      ∃ m tables, performAll sts s = (.error (.database (.refused m)), { s with log, faults, tables }) ∧
        Blames s.faults sts m) := by
  induction sts generalizing s with
  | nil => exact ⟨s.log, s.faults, List.Subset.refl _, .inl rfl⟩
  | cons st rest ih =>
    obtain ⟨hst, hrest⟩ := List.forall_mem_cons.1 hw
    obtain ⟨hvalues, -, hlater⟩ := hrespects
    obtain ⟨log, faults, hfaults, hfirst | ⟨m, hfirst, hblame⟩⟩ := perform_cases st s
    · rw [hst] at hfirst
      obtain ⟨log, faults', hfaults', hrun | ⟨m, tables, hrun, hblame⟩⟩ := ih hrest
        { s with log, faults, tables := s.tables.write st } hlater
      · exact ⟨log, faults', List.Subset.trans hfaults' hfaults, .inl ((bind_ok hfirst).trans hrun)⟩
      · exact ⟨log, faults', List.Subset.trans hfaults' hfaults, .inr ⟨m, tables, (bind_ok hfirst).trans hrun,
          hblame.mono hfaults (List.subset_cons_self st rest)⟩⟩
    · exact ⟨log, faults, hfaults, .inr ⟨m, s.tables, bind_error hfirst,
        (hblame hvalues).mono (List.Subset.refl _) (by simp)⟩⟩

theorem rollback_committed (hopen : s.before = some t) :
    ∃ s', attempt .rollback s = (.ok (), s') ∧ s'.committed = t := by
  have hserver : ∀ st, attempt st s = (.ok (), (perform st s).2) := by
    intro st
    simp only [attempt, perform]
    rcases s.execute st with ⟨_ | _, _⟩ <;> rfl
  refine ⟨_, hserver _, ?_⟩
  obtain ⟨log, faults, -, hdone | ⟨m, hrefused, -⟩⟩ := perform_cases .rollback s
  · rw [hdone]
    simp only [Server.committed, Server.effect, hopen, Option.getD_none, Option.getD_some]
  · rw [hrefused]
    simp only [Server.committed, hopen, Option.getD_some]

theorem failure_committed {work : Session Unit} {e : Failure} {u : Server} (hwork : work s = (.error e, u))
    (hopen : u.before = some t) :
    ∃ s', tryCatch work (fun failure => do attempt .rollback; throw failure) s = (.error e, s') ∧
      s'.committed = t := by
  obtain ⟨s', hrollback, hcommitted⟩ := rollback_committed hopen
  exact ⟨s', (tryCatch_error hwork).trans (bind_ok hrollback), hcommitted⟩

theorem save_committed (o : Order) (hidle : s.before = none) (hintact : s.tables.Intact) : ∃ r s', save o s = (r, s') ∧
    (r = .ok () ∧ s'.committed = (saveStatements o).foldl Tables.write s.tables ∨
      ∃ m, r = .error (.database (.refused m)) ∧ s'.committed = s.tables ∧ Blames s.faults (saveStatements o) m) := by
  -- What begins and ends a transaction has no values that could be refused.
  have hblame : ∀ {faults : List Fault} {st : Statement} {m : String}, faults ⊆ s.faults → st.refusal = none →
      Blames faults [st] m → Blames s.faults (saveStatements o) m := by
    rintro faults st m hfaults hnone (⟨f, hf, hm⟩ | ⟨st', hst', hm⟩)
    · exact .inl ⟨f, hfaults hf, hm⟩
    · rw [List.mem_singleton.1 hst', hnone] at hm
      cases hm
  obtain ⟨log, faults, hfaults, hbegin | ⟨m, hbegin, hm⟩⟩ := perform_cases .begin s
  · let u : Server := { s with log, faults, before := some s.tables }
    obtain ⟨log, faults', hfaults', hwork | ⟨m, tables, hwork, hm⟩⟩ :=
      performAll_cases (writes_saveStatements o) u (hintact.save o).1
    · let v : Server := { u with log, faults := faults', tables := (saveStatements o).foldl Tables.write s.tables }
      obtain ⟨log, faults, -, hcommit | ⟨m, hcommit, hm⟩⟩ := perform_cases .commit v
      · refine ⟨.ok (), _, (bind_ok hbegin).trans (tryCatch_ok ((bind_ok hwork).trans (bind_ok hcommit))), ?_⟩
        exact .inl ⟨rfl, rfl⟩
      · have hbody := (bind_ok (f := fun _ => perform .commit >>= fun _ => pure ()) hwork).trans (bind_error hcommit)
        obtain ⟨s', hfailed, hcommitted⟩ := failure_committed (t := s.tables) hbody rfl
        exact ⟨_, s', (bind_ok hbegin).trans hfailed,
          .inr ⟨m, rfl, hcommitted, hblame (List.Subset.trans hfaults' hfaults) rfl (hm rfl)⟩⟩
    · obtain ⟨s', hfailed, hcommitted⟩ := failure_committed (t := s.tables)
        (bind_error (f := fun _ => perform .commit >>= fun _ => pure ()) hwork) rfl
      exact ⟨_, s', (bind_ok hbegin).trans hfailed,
        .inr ⟨m, rfl, hcommitted, hm.mono hfaults (List.Subset.refl _)⟩⟩
  · refine ⟨_, _, bind_error hbegin, .inr ⟨m, rfl, ?_, hblame (List.Subset.refl _) rfl (hm rfl)⟩⟩
    exact Server.committed_eq_tables hidle

/-- Whatever faults there are, on these tables the work only reads. It gives what is as said, or it fails as said. -/
def Reads (t : Tables) (work : Session α) (gives : α → Prop) (fails : Failure → Prop) : Prop :=
  ∀ s : Server, s.tables = t →
    (∃ a s', work s = (.ok a, s') ∧ s'.tables = t ∧ gives a) ∨ ∃ e s', work s = (.error e, s') ∧ fails e

variable {gives : α → Prop} {gives' : β → Prop} {fails : Failure → Prop} {work : Session α} {f : α → Session β}

theorem reads_bind (hwork : Reads t work gives fails) (hf : ∀ a, gives a → Reads t (f a) gives' fails) :
    Reads t (work >>= f) gives' fails := by
  intro s hs
  rcases hwork s hs with ⟨a, u, hrun, hu, ha⟩ | ⟨e, u, hrun, he⟩
  · rcases hf a ha u hu with ⟨b, v, hrest, hv, hb⟩ | ⟨e, v, hrest, he⟩
    · exact .inl ⟨b, v, (bind_ok hrun).trans hrest, hv, hb⟩
    · exact .inr ⟨e, v, (bind_ok hrun).trans hrest, he⟩
  · exact .inr ⟨e, u, bind_error hrun, he⟩

theorem reads_pure {a : α} (ha : gives a) : Reads t (pure a) gives fails :=
  fun s hs => .inl ⟨a, s, rfl, hs, ha⟩

theorem reads_throw {e : Failure} (he : fails e) : Reads t (throw e : Session α) gives fails :=
  fun s _ => .inr ⟨e, s, rfl, he⟩

theorem reads_bind_throw {e : Failure} (he : fails e) : Reads t (throw e >>= f) gives' fails :=
  fun s _ => .inr ⟨e, s, bind_error rfl, he⟩

theorem reads_perform {st : Statement} (hst : ∀ s : Server, (s.effect st).tables = s.tables)
    (hfails : ∀ d, fails (.database d)) : Reads t (perform st) (· = t.read st) fails := by
  rintro s rfl
  obtain ⟨log, faults, -, hdone | ⟨m, hrefused, -⟩⟩ := perform_cases st s
  · exact .inl ⟨_, _, hdone, hst _, rfl⟩
  · exact .inr ⟨_, _, hrefused, hfails _⟩

theorem reads_select {table : Table} {columns : List String} {uid : String} (hfails : ∀ d, fails (.database d)) :
    Reads t (perform (.select table columns uid)) (· = t.read (.select table columns uid)) fails :=
  reads_perform (fun _ => rfl) hfails

theorem reads_decoded {r : Except DatabaseFault α} (hfails : ∀ d, fails (.database d)) :
    Reads t (decoded r) (fun a => r = .ok a) fails := by
  cases r with
  | ok a => exact reads_pure rfl
  | error d => exact reads_throw (hfails d)

theorem reads_transaction (hfails : ∀ d, fails (.database d)) (hwork : Reads t work gives fails) :
    ∀ s : Server, s.tables = t → ∀ e, (transaction work s).1 = .error e → fails e := by
  have hbody : Reads t (work >>= fun a => perform .commit >>= fun _ => pure a) (fun _ => True) fails :=
    reads_bind hwork fun _ _ => reads_bind (reads_perform (fun _ => rfl) hfails) fun _ _ => reads_pure trivial
  have hstart : Reads t (perform .begin) (· = t.read .begin) fails := reads_perform (fun _ => rfl) hfails
  intro s hs e he
  rcases hstart s hs with ⟨rows, u, hbegin, hu, -⟩ | ⟨e', u, hbegin, he'⟩
  · rw [transaction, bind_ok hbegin] at he
    rcases hbody u hu with ⟨a, v, hrun, -, -⟩ | ⟨e', v, hrun, he'⟩
    · cases (congrArg Prod.fst (tryCatch_ok hrun)).symm.trans he
    · have hthrow : Except.error e' = Except.error e := (congrArg Prod.fst (tryCatch_error hrun)).symm.trans he
      obtain rfl := Except.error.inj hthrow
      exact he'
  · rw [transaction, bind_error hbegin] at he
    obtain rfl := Except.error.inj he
    exact he'

end Session

/-- Ways in which an order is not read from tables that are in order. -/
inductive Unread (uid : OrderUid) : Failure → Prop where
  | database (fault : DatabaseFault) : Unread uid (.database fault)
  | absent : Unread uid .notFound
  | unpaid : Unread uid (noRow uid "no payment row")

open Session

theorem Tables.Reached.sound {t : Tables} (h : t.Reached) : t.Intact ∧ t.Complete := by
  induction h with
  | empty => exact ⟨Tables.intact_empty, Tables.complete_empty⟩
  | @save s o _ idle ih =>
    have hlast : ((Relational.save o).run.run s).2.committed = (saveStatements o).foldl Tables.write s.tables ∨
        ((Relational.save o).run.run s).2.committed = s.tables := by
      obtain ⟨r, s', hsave, ⟨-, hwritten⟩ | ⟨m, -, hunchanged, -⟩⟩ := Session.save_committed o idle ih.1
      · exact .inl ((congrArg (fun x => x.2.committed) hsave).trans hwritten)
      · exact .inr ((congrArg (fun x => x.2.committed) hsave).trans hunchanged)
    rcases hlast with hwritten | hunchanged
    · rw [hwritten]
      exact ⟨(ih.1.save o).2, ih.2.save ih.1 o⟩
    · rw [hunchanged]
      exact ih

section Rows

variable {t : Tables} {uid : OrderUid} (columns : List String)

theorem length_read (t : Tables) (table : Table) (columns : List String) (uid : String) :
    (t.read (.select table columns uid)).length = (t.rows table).countP (Row.ofOrder uid) := by
  rw [Tables.read, List.length_map, List.countP_eq_length_filter]

theorem read_eq_nil_of_not_knows (h : ¬ t.Knows uid) : t.read (.select .orders columns uid.text) = [] := by
  rw [← List.length_eq_zero_iff, length_read, List.countP_eq_zero]
  exact fun r hr hown => h (List.any_eq_true.2 ⟨r, hr, hown⟩)

theorem read_eq_cons_of_knows (h : t.Knows uid) : ∃ r rs, t.read (.select .orders columns uid.text) = r :: rs := by
  refine List.exists_cons_of_length_pos ?_
  rw [length_read, List.countP_pos_iff]
  exact List.any_eq_true.1 h

end Rows

theorem reads_readRows {t : Tables} (h : t.Complete) (uid : OrderUid) :
    Reads t (readRows uid) (fun _ => True) (Unread uid) := by
  have hfails : ∀ d, Unread uid (.database d) := Unread.database
  unfold readRows
  refine reads_bind (reads_perform (fun _ => rfl) hfails) fun _ _ => ?_
  refine reads_bind (reads_select hfails) ?_
  rintro _ rfl
  by_cases hknows : t.Knows uid
  · obtain ⟨order, others, horders⟩ := read_eq_cons_of_knows Table.orders.columns hknows
    obtain ⟨delivery, hdeliveries⟩ := List.length_eq_one_iff.1
      ((length_read t .deliveries (Table.deliveries.columnsBut uidColumn) uid.text).trans (h.delivery uid hknows))
    have hpayments : (t.read (.select .payments (Table.payments.columnsBut uidColumn) uid.text)).length ≤ 1 := by
      rw [length_read]
      exact h.payment uid hknows
    rw [horders]
    refine reads_bind (reads_decoded hfails) fun _ _ => reads_bind (reads_select hfails) ?_
    rintro _ rfl
    rw [hdeliveries]
    refine reads_bind (reads_decoded hfails) fun _ _ => reads_bind (reads_select hfails) ?_
    rintro _ rfl
    refine reads_bind (reads_decoded hfails) fun payments hdecoded => ?_
    rw [← length_of_mapM hdecoded] at hpayments
    match payments with
    | [] => exact reads_bind_throw .unpaid
    | [p] =>
      have hpaid : Reads t (pure p) (fun _ => True) (Unread uid) := reads_pure trivial
      refine reads_bind hpaid fun _ _ => reads_bind (reads_select hfails) ?_
      rintro _ rfl
      exact reads_bind (reads_decoded hfails) fun _ _ => reads_pure trivial
    | _ :: _ :: _ => simp at hpayments
  · rw [read_eq_nil_of_not_knows _ hknows]
    exact reads_bind_throw .absent

theorem get_fails {t : Tables} (h : t.Complete) {s : Server} (hs : s.tables = t) {uid : OrderUid} {e : Failure}
    (he : ((get uid).run.run s).1 = .error e) : Unread uid e :=
  reads_transaction Unread.database (reads_readRows h uid) s hs e he

theorem save_fails {s : Server} {o : Order} {e : Failure} (hidle : s.before = none) (hintact : s.tables.Intact)
    (he : ((save o).run.run s).1 = .error e) :
    ∃ m, e = .database (.refused m) ∧ Blames s.faults (saveStatements o) m := by
  obtain ⟨r, s', hsave, ⟨rfl, -⟩ | ⟨m, rfl, -, hblame⟩⟩ := save_committed o hidle hintact
  · cases (congrArg Prod.fst hsave).symm.trans he
  · exact ⟨m, (Except.error.inj ((congrArg Prod.fst hsave).symm.trans he)).symm, hblame⟩

/-- Saves of any orders, also those that fail, respect the schema, and none ever fails for a key. An order never lacks
its delivery and never has two payments, so it is corrupt only for want of a payment. -/
theorem Tables.Reached.respects_schema {t : Tables} (h : t.Reached) :
    t.Intact ∧ t.Complete ∧ (∀ o, Respects t (saveStatements o)) ∧
      (∀ (s : Server) o e, s.tables = t → s.before = none → ((Relational.save o).run.run s).1 = .error e →
        ∃ m, e = .database (.refused m) ∧ Blames s.faults (saveStatements o) m) ∧
      ∀ (s : Server) uid what, s.tables = t → ((get uid).run.run s).1 = .error (.dataCorruption what) →
        .dataCorruption what = noRow uid "no payment row" := by
  obtain ⟨hintact, hcomplete⟩ := h.sound
  refine ⟨hintact, hcomplete, fun o => (hintact.save o).1, ?_, ?_⟩
  · rintro s o e rfl hidle he
    exact save_fails hidle hintact he
  · intro s uid what hs hget
    have hunread := get_fails hcomplete hs hget
    generalize hwhat : Failure.dataCorruption what = e at hunread
    cases hunread with
    | database | absent => cases hwhat
    | unpaid => rfl

theorem schema_respected_without_payment :
    let first := Server.fresh.afterSave (paidBy "a" "t")
    let second := first.afterSave (paidBy "b" "t")
    let struck : Server := { second with faults := faultAfter 3 "disk full" }
    let last := struck.afterSave (paidBy "c" "t")
    last.committed.Reached ∧ last.committed.Intact ∧ last.committed.Complete ∧
      (∀ o, Respects last.committed (saveStatements o)) ∧
      ((save (paidBy "c" "t")).run.run struck).1 = .error (.database (.refused "disk full")) ∧
      Blames struck.faults (saveStatements (paidBy "c" "t")) "disk full" ∧
      ((get ⟨"a"⟩).run.run last).1 = .error (noRow ⟨"a"⟩ "no payment row") := by
  intro first second struck last
  have hfirst : first.tables.Reached := by
    rw [← Server.committed_eq_tables (by decide +kernel)]
    exact .save (s := .fresh) (paidBy "a" "t") .empty rfl
  have hsecond : second.tables.Reached := by
    rw [← Server.committed_eq_tables (by decide +kernel)]
    exact .save (paidBy "b" "t") hfirst (by decide +kernel)
  have hlast : last.committed.Reached := .save (paidBy "c" "t") hsecond (by decide +kernel)
  have hfailed : ((save (paidBy "c" "t")).run.run struck).1 = .error (.database (.refused "disk full")) := by
    decide +kernel
  have hget : ((get ⟨"a"⟩).run.run last).1 = .error (noRow ⟨"a"⟩ "no payment row") := by
    decide +kernel
  obtain ⟨hintact, hcomplete, hrespects, -⟩ := hlast.respects_schema
  have hblame : Blames struck.faults (saveStatements (paidBy "c" "t")) "disk full" := by
    obtain ⟨m, hm, hblame⟩ := hsecond.respects_schema.2.2.2.1 struck (paidBy "c" "t") _ rfl (by decide +kernel) hfailed
    obtain rfl : "disk full" = m := by
      simpa using hm
    exact hblame
  exact ⟨hlast, hintact, hcomplete, hrespects, hfailed, hblame, hget⟩

end OrderDepot.Store.Relational
