import OrderDepot.Proofs.Store.Acceptance
import OrderDepot.Proofs.Store.Interference
import OrderDepot.Store.Memory

/-!
# The two stores agree

The same calls are made on a database, whose tables are empty at first, and on a store in memory that is empty, too.
What is due for a call is said by the calls before it alone: a read gives the order that was saved last, and a save
that failed counts for nothing. Each store is shown to give what is due.
-/

namespace OrderDepot.Store

/-- A call of a store. A fault is arranged for one of the statements of a save, which are counted from its beginning
to its end; a store in memory, which has no statements, is switched off instead. -/
inductive Call where
  | save (o : Order) (fault : Option (Fin ((Relational.saveStatements o).length + 2) × String))
  | get (uid : OrderUid)

inductive Answer where
  | saved
  | failed
  | read (result : Except Failure Order)
  deriving DecidableEq

def Answer.ofSave : Except Failure Unit → Answer
  | .ok () => .saved
  | .error _ => .failed

def answers {σ : Type} (step : σ → Call → Answer × σ) (s : σ) : List Call → List Answer
  | [] => []
  | call :: rest => (step s call).1 :: answers step (step s call).2 rest

namespace Relational

def Server.call (s : Server) : Call → Answer × Server
  | .save o fault =>
    let faults := fault.elim [] fun (count, message) => faultAfter count message
    let (r, s) := (save o).run.run { s with faults }
    (.ofSave r, s)
  | .get uid =>
    let (r, s) := (get uid).run.run s
    (.read r, s)

end Relational

def Memory.call (m : Memory) : Call → Answer × Memory
  | .save o fault =>
    let (r, m) := { m with online := fault.isNone }.save o
    (.ofSave r, { m with online := true })
  | .get uid =>
    let (r, m) := m.get uid
    (.read r, m)

def Call.savedUnder (uid : OrderUid) : Call → Option Order
  | .save o none => if o.uid = uid then some o else none
  | .save _ (some _) | .get _ => none

/-- The order that was last saved under an identifier, in calls that are listed with the latest first. -/
def lastSaved (past : List Call) (uid : OrderUid) : Option Order :=
  past.findSome? (Call.savedUnder uid)

def found : Option Order → Except Failure Order
  | some o => .ok o
  | none => .error .notFound

def Call.due (past : List Call) : Call → Answer
  | .save _ none => .saved
  | .save _ (some _) => .failed
  | .get uid => .read (found (lastSaved past uid))

def due (past : List Call) : List Call → List Answer
  | [] => []
  | call :: rest => call.due past :: due (call :: past) rest

theorem lastSaved_save (past : List Call) (o : Order) (uid : OrderUid) :
    lastSaved (.save o none :: past) uid = if o.uid = uid then some o else lastSaved past uid := by
  simp only [lastSaved, List.findSome?_cons, Call.savedUnder]
  by_cases h : o.uid = uid <;> simp [h]

theorem lastSaved_mem {past : List Call} {uid : OrderUid} {o : Order} (h : lastSaved past uid = some o) :
    .save o none ∈ past ∧ o.uid = uid := by
  obtain ⟨call, hmem, hcall⟩ := List.exists_of_findSome?_eq_some h
  unfold Call.savedUnder at hcall
  split at hcall
  · next a =>
    split at hcall
    · next huid =>
      obtain rfl := Option.some.inj hcall
      exact ⟨hmem, huid⟩
    · cases hcall
  · cases hcall
  · cases hcall

theorem answers_eq_due {σ : Type} {step : σ → Call → Answer × σ} {holds : List Call → σ → Prop} {calls : List Call}
    (hstep : ∀ call ∈ calls, ∀ past s, holds past s →
      (step s call).1 = call.due past ∧ holds (call :: past) (step s call).2)
    {past : List Call} {s : σ} (hs : holds past s) : answers step s calls = due past calls := by
  induction calls generalizing past s with
  | nil => rfl
  | cons call rest ih =>
    obtain ⟨hcall, hrest⟩ := List.forall_mem_cons.1 hstep
    obtain ⟨hanswer, hnext⟩ := hcall past s hs
    rw [answers, due, hanswer, ih hrest hnext]

def Call.order? : Call → Option Order
  | .save o _ => some o
  | .get _ => none

def Call.texts : Call → List String
  | .save o _ => o.texts
  | .get uid => [uid.text]

def ordersOf (calls : List Call) : List Order := calls.filterMap Call.order?

structure Fit (calls : List Call) : Prop where
  texts : ∀ call ∈ calls, ∀ s ∈ call.texts, Relational.NulFree s
  dates : ∀ o ∈ ordersOf calls, Relational.Datable o.dateCreated
  transactions : ∀ a ∈ ordersOf calls, ∀ b ∈ ordersOf calls,
    a.payment.transaction = b.payment.transaction → a.uid = b.uid

theorem mem_ordersOf {calls : List Call} {o : Order}
    {fault : Option (Fin ((Relational.saveStatements o).length + 2) × String)} (h : .save o fault ∈ calls) :
    o ∈ ordersOf calls :=
  List.mem_filterMap.2 ⟨_, h, rfl⟩

theorem Fit.storable {calls : List Call} (hfit : Fit calls) {o : Order}
    {fault : Option (Fin ((Relational.saveStatements o).length + 2) × String)} (h : .save o fault ∈ calls) :
    Relational.Storable o :=
  ⟨hfit.texts _ h, hfit.dates o (mem_ordersOf h)⟩

namespace Relational

theorem filter_upsertBy_self {α κ : Type} [DecidableEq κ] (key : α → κ) (a : α) (as : List α) :
    ∃ rest, ((upsertBy key a as).filter fun b => key b = key a) = a :: rest := by
  induction as with
  | nil => exact ⟨[], by simp [upsertBy]⟩
  | cons b as ih =>
    unfold upsertBy
    split
    · exact ⟨_, List.filter_cons_of_pos (by simp)⟩
    · next hne =>
      obtain ⟨rest, hrest⟩ := ih
      exact ⟨rest, by rw [List.filter_cons_of_neg (by simpa using hne), hrest]⟩

namespace Contents

variable {c : Contents} {o : Order}

theorem payments_save_self (h : c.Sound) :
    ((c.save o).payments.filter fun p => p.1 = o.uid) = [(o.uid, o.payment)] := by
  have hperm := (payments_save_perm (o := o) h).filter fun p => decide (p.1 = o.uid)
  have hnone : ((c.payments.filter fun p => p.2.transaction ≠ o.payment.transaction ∧ p.1 ≠ o.uid).filter
      fun p => p.1 = o.uid) = [] := by
    rw [List.filter_filter, List.filter_eq_nil_iff]
    intro p _
    by_cases hp : p.1 = o.uid <;> simp [hp]
  rw [List.filter_cons_of_pos (by simp), hnone] at hperm
  exact List.perm_singleton.1 hperm

theorem items_save_self : (c.save o).itemsOf o.uid = o.items := by
  have hold : (c.items.filter fun i => i.1 ≠ o.uid).filter (fun i => i.1 = o.uid) = [] := by
    rw [List.filter_filter, List.filter_eq_nil_iff]
    intro i _
    by_cases hi : i.1 = o.uid <;> simp [hi]
  have hnew : (o.items.map fun i => (o.uid, i)).filter (fun i => i.1 = o.uid) =
      o.items.map fun i => (o.uid, i) := by
    refine List.filter_eq_self.2 fun i hi => ?_
    obtain ⟨_, _, rfl⟩ := List.mem_map.1 hi
    exact decide_eq_true rfl
  simp only [itemsOf, save, List.filter_append]
  rw [hold, hnew, List.nil_append, List.map_map]
  exact List.map_id o.items

theorem get_save_self (h : c.Sound) (hdate : Datable o.dateCreated) : (c.save o).get o.uid = .ok o := by
  obtain ⟨orders, horders⟩ := filter_upsertBy_self (fun a : Order => a.uid) o c.orders
  obtain ⟨deliveries, hdeliveries⟩ :=
    filter_upsertBy_self (fun d : OrderUid × Delivery => d.1) (o.uid, o.delivery) c.deliveries
  have horders' : ((c.save o).orders.filter fun a => a.uid = o.uid) = o :: orders := horders
  have hdeliveries' : ((c.save o).deliveries.filter fun d => d.1 = o.uid) = (o.uid, o.delivery) :: deliveries :=
    hdeliveries
  unfold get
  rw [horders', hdeliveries', payments_save_self h, items_save_self]
  simp only [ofMicros_microsOf hdate]

end Contents

/-- The tables hold what was saved last under every identifier. -/
structure Server.Holds (calls past : List Call) (s : Server) : Prop where
  faults : s.faults = []
  contents : ∃ c : Contents, c.Sound ∧ s.tables = c.tables ∧ ∀ uid, c.get uid = found (lastSaved past uid)
  past : ∀ call ∈ past, call ∈ calls

namespace Server

variable {calls past : List Call} {s : Server}

theorem holds_start (tables : s.tables = {}) (faults : s.faults = []) : s.Holds calls [] :=
  ⟨faults, ⟨{}, ⟨List.nodup_nil, List.nodup_nil⟩, tables, fun _ => rfl⟩, fun _ h => nomatch h⟩

theorem call_save_due (hfit : Fit calls) (hs : s.Holds calls past) {o : Order} (hmem : .save o none ∈ calls) :
    (s.call (.save o none)).1 = .saved ∧ (s.call (.save o none)).2.Holds calls (.save o none :: past) := by
  obtain ⟨hfaults, ⟨c, hsound, htables, hget⟩, hpast⟩ := hs
  obtain ⟨log, hsave⟩ := Session.save_accepted (s := { s with faults := [] })
    (fun _ => accepts_saveStatements (hfit.storable hmem) s.tables) rfl
  have hcall : s.call (.save o none) = (.saved, { s with
      faults := [], log, before := none, tables := (saveStatements o).foldl Tables.write s.tables }) := by
    simp only [call, Option.elim_none, ExceptT.run, StateT.run, hsave]
    rfl
  rw [hcall]
  refine ⟨rfl, rfl, ⟨c.save o, Contents.sound_save hsound o, ?_, fun uid => ?_⟩, List.forall_mem_cons.2 ⟨hmem, hpast⟩⟩
  · rw [← Contents.write_saveStatements, ← htables]
  · rw [lastSaved_save]
    by_cases huid : o.uid = uid
    · obtain rfl := huid
      rw [if_pos rfl, Contents.get_save_self hsound (hfit.storable hmem).date]
      rfl
    · rw [if_neg huid, Contents.get_save_other hsound (Ne.symm huid), hget]
      cases hlast : lastSaved past uid with
      | none => rfl
      | some a =>
        -- The order that can be read was saved, and no other one has its transaction.
        obtain ⟨hsaved, rfl⟩ := lastSaved_mem hlast
        have hne : a.payment.transaction ≠ o.payment.transaction := fun heq =>
          huid (hfit.transactions _ (mem_ordersOf (hpast _ hsaved)) _ (mem_ordersOf hmem) heq).symm
        simp only [found, hne, if_false]

theorem call_struck_due (hfit : Fit calls) (hs : s.Holds calls past) {o : Order}
    {fault : Fin ((saveStatements o).length + 2) × String} (hmem : .save o (some fault) ∈ calls) :
    (s.call (.save o (some fault))).1 = .failed ∧
      (s.call (.save o (some fault))).2.Holds calls (.save o (some fault) :: past) := by
  obtain ⟨hfaults, hcontents, hpast⟩ := hs
  obtain ⟨log, before, hsave⟩ := Session.save_struck (s := { s with faults := faultAfter fault.1 fault.2 })
    (hfit.storable hmem) fault.1.isLt rfl
  have hcall : s.call (.save o (some fault)) = (.failed, { s with faults := [], log, before }) := by
    simp only [call, Option.elim_some, ExceptT.run, StateT.run, hsave]
    rfl
  rw [hcall]
  exact ⟨rfl, rfl, hcontents, List.forall_mem_cons.2 ⟨hmem, hpast⟩⟩

theorem call_get_due (hfit : Fit calls) (hs : s.Holds calls past) {uid : OrderUid} (hmem : .get uid ∈ calls) :
    (s.call (.get uid)).1 = .read (found (lastSaved past uid)) ∧
      (s.call (.get uid)).2.Holds calls (.get uid :: past) := by
  obtain ⟨hfaults, ⟨c, hsound, htables, hget⟩, hpast⟩ := hs
  obtain ⟨log, hread⟩ := @Session.get_gives s uid c hfaults htables
  have hnul : NulFree uid.text := hfit.texts _ hmem _ (List.mem_singleton_self _)
  have hrefusal : Session.refusalOfUid s uid = none := by
    simp [Session.refusalOfUid, refuseValue_text hnul]
  rw [hrefusal, hget] at hread
  have hcall : s.call (.get uid) = (.read (found (lastSaved past uid)), { s with log, before := none }) := by
    simp only [call, ExceptT.run, StateT.run, hread]
  rw [hcall]
  exact ⟨rfl, hfaults, ⟨c, hsound, htables, hget⟩, List.forall_mem_cons.2 ⟨hmem, hpast⟩⟩

theorem call_due (hfit : Fit calls) : ∀ call ∈ calls, ∀ past s, s.Holds calls past →
    (Server.call s call).1 = call.due past ∧ (Server.call s call).2.Holds calls (call :: past)
  | .save _ none, hmem, _, _, hs => call_save_due hfit hs hmem
  | .save _ (some _), hmem, _, _, hs => call_struck_due hfit hs hmem
  | .get _, hmem, _, _, hs => call_get_due hfit hs hmem

end Server

end Relational

structure Memory.Holds (past : List Call) (m : Memory) : Prop where
  online : m.online = true
  orders : ∀ uid, m.orders.find? uid = lastSaved past uid

theorem Memory.call_due (call : Call) (past : List Call) (m : Memory) (hm : m.Holds past) :
    (m.call call).1 = call.due past ∧ (m.call call).2.Holds (call :: past) := by
  obtain ⟨honline, horders⟩ := hm
  cases call with
  | get uid =>
    have hget : (m.get uid).1 = found (lastSaved past uid) := by
      simp only [get, honline, if_true, horders]
      cases lastSaved past uid <;> rfl
    refine ⟨congrArg Answer.read hget, ?_, ?_⟩
    · simp only [call, get, honline, if_true]
    · simp only [call, get, honline, if_true]
      exact horders
  | save o fault =>
    cases fault with
    | none =>
      refine ⟨rfl, rfl, fun uid => ?_⟩
      have hput : ((m.call (.save o none)).2.orders.find? uid) = (m.orders.put o.uid o).find? uid := rfl
      rw [hput, Keyed.find?_put, lastSaved_save, horders]
      exact if_congr eq_comm rfl rfl
    | some fault => exact ⟨rfl, rfl, horders⟩

/-- Calls that a database can take are answered by it as they are by a store in memory: as is due. -/
theorem stores_agree {calls : List Call} (hfit : Fit calls) {s : Relational.Server} (htables : s.tables = {})
    (hfaults : s.faults = []) :
    answers Relational.Server.call s calls = due [] calls ∧ answers Memory.call {} calls = due [] calls :=
  ⟨answers_eq_due (Relational.Server.call_due hfit) (Relational.Server.holds_start htables hfaults),
    answers_eq_due (fun call _ => Memory.call_due call) ⟨rfl, fun _ => rfl⟩⟩

theorem due_congr {past past' : List Call} (h : ∀ uid, lastSaved past uid = lastSaved past' uid)
    (calls : List Call) : due past calls = due past' calls := by
  induction calls generalizing past past' with
  | nil => rfl
  | cons call rest ih =>
    have hcall : call.due past = call.due past' := by
      cases call with
      | get uid => simp only [Call.due, h]
      | save o fault => cases fault <;> rfl
    rw [due, due, hcall, ih fun uid => ?_]
    simp only [lastSaved, List.findSome?_cons] at h ⊢
    rw [h]

theorem due_resend (past : List Call) {o earlier : Order} (huid : earlier.uid = o.uid) (calls : List Call) :
    due (.save o none :: .save earlier none :: past) calls = due (.save o none :: past) calls := by
  refine due_congr (fun uid => ?_) calls
  simp only [lastSaved_save, huid]
  split <;> rfl

theorem due_failed (past : List Call) {o : Order} (fault : Fin ((Relational.saveStatements o).length + 2) × String)
    (calls : List Call) : due (.save o (some fault) :: past) calls = due past calls := by
  have hsame : ∀ uid, lastSaved (.save o (some fault) :: past) uid = lastSaved past uid := fun _ => rfl
  exact due_congr hsame calls

section Sample

open Relational

def firstSent : Order := { paidBy "a" "t" with items := [{ name := "x" }, { name := "y" }] }

def resent : Order := paidBy "a" "u"

def sampleCalls : List Call :=
  [.save firstSent none, .save resent (some (⟨3, by simp [saveStatements]⟩, "connection reset")), .get ⟨"a"⟩,
    .save (paidBy "b" "v") none, .save resent none, .get ⟨"a"⟩, .get ⟨"b"⟩, .get ⟨"c"⟩]

theorem sampleCalls_fit : Fit sampleCalls where
  texts := by decide +kernel
  dates := by
    have hepoch : Datable .epoch := by
      constructor <;> decide
    have horders : ordersOf sampleCalls = [firstSent, resent, paidBy "b" "v", resent] := rfl
    rw [horders]
    simp only [List.forall_mem_cons]
    exact ⟨hepoch, hepoch, hepoch, hepoch, by simp⟩
  transactions := by decide

theorem sampleCalls_answers : Fit sampleCalls ∧ answers Server.call Server.fresh sampleCalls =
    [.saved, .failed, .read (.ok firstSent), .saved, .saved, .read (.ok resent), .read (.ok (paidBy "b" "v")),
      .read (.error .notFound)] :=
  ⟨sampleCalls_fit, (stores_agree sampleCalls_fit rfl rfl).1⟩

end Sample

end OrderDepot.Store
