import OrderDepot.Proofs.Store.Insertions
import OrderDepot.Proofs.Store.ValidOrders

/-!
# Items in chunks

The items of an order are replaced by one deletion and as many insertions as their number needs. Each insertion has some
of the items and not too many of them, and together they have all items in their order.
-/

namespace OrderDepot.Store.Relational

section Lists

variable {α : Type}

theorem chunksOfSucc_ne_nil {size : Nat} {as part : List α} (h : part ∈ chunksOfSucc size as) : part ≠ [] := by
  fun_induction chunksOfSucc size as with
  | case1 => cases h
  | case2 a as ih =>
    rcases List.mem_cons.1 h with rfl | hrest
    · exact List.cons_ne_nil _ _
    · exact ih hrest

theorem length_chunksOfSucc (size : Nat) (as : List α) :
    (chunksOfSucc size as).length = (as.length + size) / (size + 1) := by
  fun_induction chunksOfSucc size as with
  | case1 =>
    rw [List.length_nil, List.length_nil, Nat.zero_add]
    exact (Nat.div_eq_of_lt (Nat.lt_succ_self size)).symm
  | case2 a as ih =>
    have hwhole : as.length + 1 + size = as.length + (size + 1) := by omega
    rw [List.length_cons, ih, List.length_drop, List.length_cons, hwhole, Nat.add_div_right _ (Nat.succ_pos size)]
    congr 1
    -- The first chunk takes one element and so many more, or all of them.
    rcases Nat.le_total size as.length with hfull | hlast
    · rw [Nat.sub_add_cancel hfull]
    · rw [Nat.sub_eq_zero_of_le hlast, Nat.zero_add, Nat.div_eq_of_lt (Nat.lt_succ_self size),
        Nat.div_eq_of_lt (Nat.lt_succ_of_le hlast)]

end Lists

namespace Session

theorem log_effect (s : Server) (st : Statement) : (s.effect st).log = s.log := by
  cases st <;> rfl

theorem log_perform (st : Statement) (s : Server) : (perform st s).2.log = st :: s.log := by
  simp only [perform, Server.execute]
  cases (strike st s.faults).1.or (if s.strict then s.tables.refusal st else none) with
  | some message => rfl
  | none => exact log_effect _ st

theorem log_performAll (sts : List Statement) (s : Server) :
    ∃ sent rest, sts = sent ++ rest ∧ (performAll sts s).2.log = sent.reverse ++ s.log ∧
      ((performAll sts s).1 = .ok () → rest = []) := by
  induction sts generalizing s with
  | nil => exact ⟨[], [], rfl, rfl, fun _ => rfl⟩
  | cons st sts ih =>
    have hlog := log_perform st s
    rcases hfirst : perform st s with ⟨r, u⟩
    rw [hfirst] at hlog
    cases r with
    | ok rows =>
      have hrun : performAll (st :: sts) s = performAll sts u := bind_ok hfirst
      obtain ⟨sent, rest, hsts, hsent, hrest⟩ := ih u
      refine ⟨st :: sent, rest, congrArg (st :: ·) hsts, ?_, ?_⟩
      · rw [hrun, hsent, hlog, List.reverse_cons, List.append_assoc]
        rfl
      · rw [hrun]
        exact hrest
    | error e =>
      have hrun : performAll (st :: sts) s = (.error e, u) := bind_error hfirst
      refine ⟨[st], sts, rfl, ?_, ?_⟩
      · rw [hrun]
        exact hlog
      · rw [hrun]
        intro hok
        cases hok

end Session

/-- What a statement says that inserts these items of an order. -/
structure InsertsItems (uid : OrderUid) (items : List Item) (st : Statement) : Prop where
  least : 1 ≤ items.length
  most : items.length ≤ 5000
  bound : st.params.length ≤ bindLimit
  text : ∃ ins : Insertion, st.text.toList = ins.text ∧ Insertion.read st.text.toList = some ins ∧
    ins.columns = Table.items.columns ∧ ins.numbers.length = items.length ∧ (∀ ns ∈ ins.numbers, ns.length = 12) ∧
    ins.numbers.flatten = List.range' 1 st.params.length ∧ ins.rows? st.params = some (items.map (itemFields uid))

theorem insertsItems_chunk (o : Order) {items : List Item} (h : items ∈ chunks itemsPerInsert o.items) :
    InsertsItems o.uid items (.insertItems (items.map (itemRow o.uid))) where
  least := List.length_pos_iff.2 (chunksOfSucc_ne_nil h)
  most := length_of_mem_chunks h
  bound := by
    rw [length_params_insertItems, bindLimit]
    have hmost : items.length ≤ 4999 + 1 := length_of_mem_chunks h
    omega
  text := by
    have htext : (Statement.insertItems (items.map (itemRow o.uid))).text.toList =
        (Insertion.ofItems items.length).text := by
      rw [Insertion.toList_text_insertItems, List.length_map]
    refine ⟨.ofItems items.length, htext, ?_, rfl, Insertion.length_numbersFrom _ _ _,
      Insertion.length_of_mem_numbersFrom, ?_, rows?_insertItems o.uid items⟩
    · rw [htext]
      exact Insertion.read_text (Insertion.plain_ofItems _)
    · rw [length_params_insertItems]
      exact Insertion.flatten_numbersFrom _ _ _

/-- To replace the items of an order, its items are deleted, and then they are inserted in as few statements as can take
5000 of them each. No more is sent than that, and all of it is sent if no statement fails. The insertions have all items
in their order. Each names its columns, numbers its values from 1, twelve in a row, and so puts each field of an item
into its column. -/
theorem items_replaced_in_chunks (o : Order) (s : Server) :
    ∃ (delete : Statement) (inserts : List Statement) (parts : List (List Item)) (sent rest : List Statement),
      (performAll (itemStatements o) s).2.log = sent.reverse ++ s.log ∧ sent ++ rest = delete :: inserts ∧
      ((performAll (itemStatements o) s).1 = .ok () → rest = []) ∧
      (s.faults = [] → (s.strict = true → Accepts s.tables (delete :: inserts)) →
        (performAll (itemStatements o) s).1 = .ok ()) ∧
      (delete.text = "DELETE FROM items WHERE order_uid = $1" ∧ delete.params = [.text o.uid.text]) ∧
      inserts.length = (o.items.length + 4999) / 5000 ∧
      List.Forall₂ (InsertsItems o.uid) parts inserts ∧ parts.flatten = o.items := by
  obtain ⟨sent, rest, hsts, hlog, hrest⟩ := Session.log_performAll (itemStatements o) s
  have hinserts : List.Forall₂ (InsertsItems o.uid) (chunks itemsPerInsert o.items)
      ((chunks itemsPerInsert o.items).map fun is => .insertItems (is.map (itemRow o.uid))) := by
    rw [List.forall₂_map_right_iff, List.forall₂_same]
    exact fun items hitems => insertsItems_chunk o hitems
  refine ⟨.deleteItems o.uid.text, _, _, sent, rest, hlog, hsts.symm, hrest, ?_, ⟨rfl, rfl⟩, ?_, hinserts,
    flatten_chunks _ _⟩
  · intro hfaults haccepts
    have hwrites : ∀ st ∈ itemStatements o, Session.Writes st := fun st hst =>
      Session.writes_saveStatements o st (List.mem_append_right _ hst)
    have hpasses : Passes (itemStatements o).length s.faults := by
      rw [hfaults]
      exact passes_nil _
    obtain ⟨log, hrun⟩ := Session.performAll_passed hpasses haccepts hwrites
    rw [hrun]
  · rw [List.length_map]
    exact length_chunksOfSucc 4999 o.items

end OrderDepot.Store.Relational
