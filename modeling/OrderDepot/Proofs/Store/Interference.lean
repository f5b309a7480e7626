import Mathlib.Data.List.Perm.Basic
import OrderDepot.Proofs.Store.Session

/-!
# What saving one order does to another

The rows of an order have its identifier, but a payment takes the place of the row with its transaction, whose
order that row may have belonged to. That order then has no payment row, and reading it reports corruption. No
other order is affected.
-/

namespace OrderDepot.Store.Relational

section Upsert

variable {α κ : Type} [DecidableEq κ] {key : α → κ}

theorem filter_upsertBy {p : α → Bool} {a : α} (hp : ∀ b, key b = key a → p b = false) (as : List α) :
    (upsertBy key a as).filter p = as.filter p := by
  induction as with
  | nil => simp [upsertBy, hp a rfl]
  | cons b rest ih =>
    by_cases h : key b = key a
    · simp [upsertBy, h, hp a rfl, hp b h]
    · simp [upsertBy, h, List.filter_cons, ih]

theorem upsertBy_perm {a : α} {as : List α} (h : (as.map key).Nodup) :
    (upsertBy key a as).Perm (a :: as.filter fun b => key b ≠ key a) := by
  induction as with
  | nil => exact List.Perm.refl _
  | cons b rest ih =>
    obtain ⟨hb, hrest⟩ := List.nodup_cons.1 h
    by_cases heq : key b = key a
    · have hkept : (rest.filter fun b => key b ≠ key a) = rest := by
        refine List.filter_eq_self.2 fun c hc => ?_
        have hne : key c ≠ key b := fun hcb => hb (hcb ▸ List.mem_map_of_mem hc)
        simpa [heq] using hne
      simp only [upsertBy, heq, if_true, List.filter_cons, ne_eq, not_true_eq_false, decide_false,
        Bool.false_eq_true, if_false]
      rw [hkept]
    · have hstep := (ih hrest).cons b
      simp only [upsertBy, heq, if_false, List.filter_cons, ne_eq, not_false_eq_true, decide_true, if_true]
      exact hstep.trans (List.Perm.swap _ _ _)

end Upsert

namespace Contents

/-- Transactions tell payments apart, and no order has two of them. -/
structure Sound (c : Contents) : Prop where
  transactions : (c.payments.map fun p => p.2.transaction).Nodup
  single : (c.payments.map fun p => p.1).Nodup

variable {c : Contents} {o : Order} {uid : OrderUid}

theorem payments_save_perm (h : c.Sound) :
    (c.save o).payments.Perm ((o.uid, o.payment) ::
      c.payments.filter fun p => p.2.transaction ≠ o.payment.transaction ∧ p.1 ≠ o.uid) := by
  have hperm := (upsertBy_perm (a := (o.uid, o.payment)) h.transactions).filter fun p =>
    ¬ (p.1 = o.uid ∧ p.2.transaction ≠ o.payment.transaction)
  refine hperm.trans (List.Perm.of_eq ?_)
  rw [List.filter_cons_of_pos (by simp), List.filter_filter]
  congr 2
  funext p
  by_cases hp : p.2.transaction = o.payment.transaction <;> simp [hp]

theorem sound_save (h : c.Sound) (o : Order) : (c.save o).Sound := by
  have hperm := payments_save_perm (o := o) h
  have hsub : (c.payments.filter fun p =>
      p.2.transaction ≠ o.payment.transaction ∧ p.1 ≠ o.uid).Sublist c.payments := List.filter_sublist
  constructor
  · refine (hperm.map _).nodup_iff.2 (List.nodup_cons.2 ⟨?_, h.transactions.sublist (hsub.map _)⟩)
    intro hmem
    obtain ⟨p, hp, heq⟩ := List.mem_map.1 hmem
    have hne := (List.mem_filter.1 hp).2
    simp [heq] at hne
  · refine (hperm.map _).nodup_iff.2 (List.nodup_cons.2 ⟨?_, h.single.sublist (hsub.map _)⟩)
    intro hmem
    obtain ⟨p, hp, heq⟩ := List.mem_map.1 hmem
    have hne := (List.mem_filter.1 hp).2
    simp [heq] at hne

theorem payments_of (h : c.Sound) (uid : OrderUid) :
    (c.payments.filter fun p => p.1 = uid) = [] ∨ ∃ p, (c.payments.filter fun p => p.1 = uid) = [p] := by
  have hsub : (c.payments.filter fun p => p.1 = uid).Sublist c.payments := List.filter_sublist
  have hnodup := h.single.sublist (hsub.map _)
  have huid : ∀ p ∈ c.payments.filter fun p => p.1 = uid, p.1 = uid := by
    intro p hp
    simpa using (List.mem_filter.1 hp).2
  generalize (c.payments.filter fun p => p.1 = uid) = ps at hnodup huid
  cases ps with
  | nil => exact Or.inl rfl
  | cons p rest =>
    cases rest with
    | nil => exact Or.inr ⟨p, rfl⟩
    | cons q _ =>
      have hp := huid p List.mem_cons_self
      have hq := huid q (List.mem_cons_of_mem _ List.mem_cons_self)
      simp [hp, hq] at hnodup

theorem payments_save_other (h : c.Sound) (huid : uid ≠ o.uid) :
    ((c.save o).payments.filter fun p => p.1 = uid) =
      (c.payments.filter fun p => p.1 = uid).filter fun p => p.2.transaction ≠ o.payment.transaction := by
  have hperm := (payments_save_perm (o := o) h).filter fun p => decide (p.1 = uid)
  rw [List.filter_cons_of_neg (by simpa using huid.symm), List.filter_filter] at hperm
  have hsame : (c.payments.filter fun p => decide (p.1 = uid) &&
      decide (p.2.transaction ≠ o.payment.transaction ∧ p.1 ≠ o.uid)) =
      (c.payments.filter fun p => p.1 = uid).filter fun p => p.2.transaction ≠ o.payment.transaction := by
    rw [List.filter_filter]
    refine List.filter_congr fun p _ => ?_
    by_cases hp : p.1 = uid <;> simp [hp, huid]
  rw [hsame] at hperm
  rcases payments_of h uid with hnone | ⟨p, hone⟩
  · rw [hnone] at hperm ⊢
    exact List.perm_nil.1 hperm
  · rw [hone] at hperm ⊢
    by_cases hp : p.2.transaction = o.payment.transaction
    · rw [List.filter_cons_of_neg (by simpa using hp)] at hperm ⊢
      exact List.perm_nil.1 hperm
    · rw [List.filter_cons_of_pos (by simpa using hp)] at hperm ⊢
      exact List.perm_singleton.1 hperm

theorem items_save_other (huid : uid ≠ o.uid) : (c.save o).itemsOf uid = c.itemsOf uid := by
  have hnew : (o.items.map fun i => (o.uid, i)).filter (fun i => i.1 = uid) = [] := by
    simp [List.filter_map, huid.symm]
  have hold : (c.items.filter fun i => i.1 ≠ o.uid).filter (fun i => i.1 = uid) =
      c.items.filter fun i => i.1 = uid := by
    rw [List.filter_filter]
    refine List.filter_congr fun i _ => ?_
    by_cases hi : i.1 = uid <;> simp [hi, huid]
  simp only [itemsOf, save, List.filter_append]
  rw [hnew, hold, List.append_nil]

theorem get_save_other (h : c.Sound) (huid : uid ≠ o.uid) :
    (c.save o).get uid =
      match c.get uid with
      | .ok a =>
        if a.payment.transaction = o.payment.transaction then .error (noRow uid "no payment row") else .ok a
      | .error f => .error f := by
  have horders : ((c.save o).orders.filter fun a => a.uid = uid) =
      c.orders.filter fun a => a.uid = uid :=
    filter_upsertBy (fun b hb => by simpa [hb] using huid.symm) c.orders
  have hdeliveries : ((c.save o).deliveries.filter fun d => d.1 = uid) =
      c.deliveries.filter fun d => d.1 = uid :=
    filter_upsertBy (fun b hb => by simpa [hb] using huid.symm) c.deliveries
  unfold get
  rw [horders, hdeliveries, payments_save_other h huid, items_save_other huid]
  cases c.orders.filter fun a => a.uid = uid with
  | nil => rfl
  | cons a _ =>
    cases c.deliveries.filter fun d => d.1 = uid with
    | nil => rfl
    | cons d _ =>
      rcases payments_of h uid with hnone | ⟨p, hone⟩
      · rw [hnone]
        rfl
      · rw [hone]
        by_cases hp : p.2.transaction = o.payment.transaction <;> simp [hp]

end Contents

inductive Server.Reached : Server → Prop where
  | start {s : Server} (empty : s.tables = {}) (faultless : s.faults = []) : Reached s
  | save {s s' : Server} {o : Order} (before : Reached s) (saved : (save o).run.run s = (.ok (), s')) :
      Reached s'

theorem Server.Reached.contents {s : Server} (h : s.Reached) :
    s.faults = [] ∧ ∃ c : Contents, c.Sound ∧ s.tables = c.tables := by
  induction h with
  | start empty faultless => exact ⟨faultless, {}, ⟨List.nodup_nil, List.nodup_nil⟩, empty⟩
  | @save s _ o _ saved ih =>
    obtain ⟨hfaults, c, hsound, htables⟩ := ih
    obtain ⟨log, rfl⟩ := Session.save_eq_ok hfaults saved
    refine ⟨hfaults, c.save o, Contents.sound_save hsound o, ?_⟩
    rw [← Contents.write_saveStatements, ← htables]

theorem get_of_contents {s : Server} {c : Contents} (hs : s.faults = []) (hc : s.tables = c.tables)
    (uid : OrderUid) :
    ((get uid).run.run s).1 =
      match Session.refusalOfUid s uid with
      | some m => .error (.database (.refused m))
      | none => c.get uid := by
  obtain ⟨log, hget⟩ := Session.get_gives hs hc
  exact congrArg Prod.fst hget

/-- Saving an order takes the payment row of another one that has the same transaction, and that order can be
read no more. The results of all other reads stay the same. -/
theorem get_after_save_of_other {s s' : Server} {a : OrderUid} {b : Order} (hs : s.Reached) (ha : a ≠ b.uid)
    (hsave : (save b).run.run s = (.ok (), s')) :
    ((get a).run.run s').1 =
        (match ((get a).run.run s).1 with
          | .ok o =>
            if o.payment.transaction = b.payment.transaction then .error (noRow a "no payment row") else .ok o
          | .error f => .error f) ∧
      (((get a).run.run s').1 = ((get a).run.run s).1 ↔
        ∀ o, ((get a).run.run s).1 = .ok o → o.payment.transaction ≠ b.payment.transaction) := by
  obtain ⟨hfaults, c, hsound, htables⟩ := hs.contents
  obtain ⟨log, hs'⟩ := Session.save_eq_ok hfaults hsave
  have hfaults' : s'.faults = [] := by
    rw [hs']
    exact hfaults
  have htables' : s'.tables = (c.save b).tables := by
    rw [hs', ← Contents.write_saveStatements, ← htables]
  have hrefusal : Session.refusalOfUid s' a = Session.refusalOfUid s a := by
    rw [hs']
    rfl
  have hresult : ((get a).run.run s').1 =
      (match ((get a).run.run s).1 with
        | .ok o =>
          if o.payment.transaction = b.payment.transaction then .error (noRow a "no payment row") else .ok o
        | .error f => .error f) := by
    rw [get_of_contents hfaults' htables' a, get_of_contents hfaults htables a, hrefusal,
      Contents.get_save_other hsound ha]
    cases Session.refusalOfUid s a <;> rfl
  refine ⟨hresult, ?_⟩
  rw [hresult]
  cases ((get a).run.run s).1 with
  | error f => simp
  | ok o => by_cases ho : o.payment.transaction = b.payment.transaction <;> simp [ho]

def paidBy (uid transaction : String) : Order :=
  { uid := ⟨uid⟩, payment := { transaction := ⟨transaction⟩ } }

def Server.fresh : Server := { strict := true }

def Server.afterSave (s : Server) (o : Order) : Server := ((save o).run.run s).2

theorem saves_of_one_transaction :
    (save (paidBy "a" "t")).run.run .fresh = (.ok (), Server.fresh.afterSave (paidBy "a" "t")) ∧
      (save (paidBy "b" "t")).run.run (Server.fresh.afterSave (paidBy "a" "t")) =
        (.ok (), (Server.fresh.afterSave (paidBy "a" "t")).afterSave (paidBy "b" "t")) :=
  ⟨Prod.ext (by decide +kernel) rfl, Prod.ext (by decide +kernel) rfl⟩

theorem payment_moves_to_later_order : ∃ s s' : Server, s.Reached ∧
    (⟨"a"⟩ : OrderUid) ≠ (paidBy "b" "t").uid ∧ (save (paidBy "b" "t")).run.run s = (.ok (), s') ∧
      ((get ⟨"a"⟩).run.run s).1 = .ok (paidBy "a" "t") ∧
      ((get ⟨"a"⟩).run.run s').1 = .error (noRow ⟨"a"⟩ "no payment row") := by
  obtain ⟨hfirst, hsecond⟩ := saves_of_one_transaction
  have hreached := Server.Reached.save (.start rfl rfl) hfirst
  have hne : (⟨"a"⟩ : OrderUid) ≠ (paidBy "b" "t").uid := by
    decide
  have hget : ((get ⟨"a"⟩).run.run (Server.fresh.afterSave (paidBy "a" "t"))).1 = .ok (paidBy "a" "t") := by
    decide +kernel
  have hresult := (get_after_save_of_other hreached hne hsecond).1
  rw [hget] at hresult
  exact ⟨_, _, hreached, hne, hsecond, hget, hresult⟩

/-- What is read of one order is not the same before and after another one was saved. -/
theorem save_disturbs_other_order : ∃ s s' : Server, s.Reached ∧
    (save (paidBy "b" "t")).run.run s = (.ok (), s') ∧ (⟨"a"⟩ : OrderUid) ≠ (paidBy "b" "t").uid ∧
      ((get ⟨"a"⟩).run.run s').1 ≠ ((get ⟨"a"⟩).run.run s).1 := by
  obtain ⟨hfirst, hsecond⟩ := saves_of_one_transaction
  exact ⟨_, _, .save (.start rfl rfl) hfirst, hsecond, by decide, by decide +kernel⟩

end OrderDepot.Store.Relational
