import OrderDepot.Proofs.Delivery.Signals

/-!
# What one call does

Every call is written down at the time at which it begins. One with a limit returns within the limit: either it has
had its effect, or it is written down as failed and nothing else has changed. A rewind has no limit; it lasts as long
as the source takes, which may be for ever.
-/

namespace OrderDepot.Delivery

def Call.failedUnless (c : Call) (succeeded : Bool) : List Call := if succeeded then [] else [c]

def Behaviour.lasting? : Behaviour → Option Nat
  | .succeeds after | .fails after => some after
  | .stalls => none

namespace Surroundings

variable {u w v : Surroundings}

structure RewindsReturn (w : Surroundings) : Prop where
  now : ∀ n, w.conditions n .rewind ≠ .stalls
  later : ∀ e ∈ w.agenda, e.2 ≠ .set .rewind .stalls

/-- These calls are made on the way, with their times, of which some fail, and the store and the records become
what is said. Both lists of calls are in the order of time. What happens meanwhile is heard by the signal, and does
not stop rewinds from returning. -/
structure Does (w : Surroundings) (calls : List (Nat × Call)) (failed : List Call) (store : Store.Memory)
    (records : List OutgoingRecord) (v : Surroundings) : Prop where
  trace : v.trace = calls.reverse ++ w.trace
  failures : v.failures = failed.reverse ++ w.failures
  store_eq : v.store = store
  records_eq : v.records = records
  heard : w.Heard v
  rewinds : w.RewindsReturn → v.RewindsReturn

variable {calls calls' : List (Nat × Call)} {failed failed' : List Call} {store store' : Store.Memory}
  {records records' : List OutgoingRecord}

theorem Does.trans (h : u.Does calls failed store records w) (h' : w.Does calls' failed' store' records' v) :
    u.Does (calls ++ calls') (failed ++ failed') store' records' v where
  trace := by rw [h'.trace, h.trace, List.reverse_append, List.append_assoc]
  failures := by rw [h'.failures, h.failures, List.reverse_append, List.append_assoc]
  store_eq := h'.store_eq
  records_eq := h'.records_eq
  heard := h.heard.trans h'.heard
  rewinds hw := h'.rewinds (h.rewinds hw)

theorem Does.effect (h : w.Does calls failed store records v) (store' : Store.Memory)
    (records' : List OutgoingRecord) :
    w.Does calls failed store' records' { v with store := store', records := records' } :=
  ⟨h.trace, h.failures, rfl, rfl, h.heard, fun hw => ⟨(h.rewinds hw).now, (h.rewinds hw).later⟩⟩

theorem Does.failure (h : w.Does calls failed store records v) (c : Call) :
    w.Does calls (failed ++ [c]) store records { v with failures := c :: v.failures } :=
  ⟨h.trace, by simp [h.failures], h.store_eq, h.records_eq, h.heard,
    fun hw => ⟨(h.rewinds hw).now, (h.rewinds hw).later⟩⟩

theorem Does.queue (h : w.Does calls failed store records v) (queue : List Arrival) :
    w.Does calls failed store records { v with queue } :=
  ⟨h.trace, h.failures, h.store_eq, h.records_eq, h.heard, fun hw => ⟨(h.rewinds hw).now, (h.rewinds hw).later⟩⟩

def Within (w : Surroundings) (limit t : Nat) : Prop := w.clock ≤ t ∧ t ≤ w.clock + limit

theorem rewindsReturn_apply {t clock : Nat} {e : Event} {rest : List (Nat × Event)}
    (h : ({ w with agenda := (t, e) :: rest } : Surroundings).RewindsReturn) :
    ({ apply { w with clock } e with agenda := rest } : Surroundings).RewindsReturn := by
  obtain ⟨hfirst, hrest⟩ := List.forall_mem_cons.1 h.later
  refine ⟨fun n => ?_, hrest⟩
  cases e with
  | arrive a => exact h.now n
  | signal value => exact h.now n
  | close => exact h.now n
  | set kind b =>
    by_cases hkind : CallKind.rewind = kind
    · subst hkind
      intro hstalls
      refine hfirst ?_
      rw [← hstalls]
      simp [apply, Conditions.set]
    · simpa [apply, Conditions.set, hkind] using h.now n

theorem does_apply (w : Surroundings) (t clock : Nat) (e : Event) (rest : List (Nat × Event)) :
    ({ w with agenda := (t, e) :: rest } : Surroundings).Does [] [] w.store w.records
      { apply { w with clock } e with agenda := rest } := by
  refine ⟨?_, ?_, ?_, ?_, heard_apply w t clock e rest, rewindsReturn_apply⟩ <;> cases e <;> rfl

theorem does_passes (h : w.Passes v) : w.Does [] [] w.store w.records v := by
  induction h with
  | still => exact ⟨rfl, rfl, rfl, rfl, .refl _, id⟩
  | later => exact ⟨rfl, rfl, rfl, rfl, ⟨[], rfl, rfl⟩, fun h => ⟨h.now, h.later⟩⟩
  | @event w v t clock e rest _ ih =>
    have hfirst := does_apply w t clock e rest
    rw [hfirst.store_eq, hfirst.records_eq] at ih
    exact hfirst.trans ih

theorem clock_apply (w : Surroundings) (e : Event) : (apply w e).clock = w.clock := by
  cases e <;> rfl

theorem clock_waitUntil {deadline : Nat} (events : List (Nat × Event)) {w : Surroundings} (h : w.clock ≤ deadline) :
    (waitUntil (fun _ => false) deadline events w).clock = deadline := by
  induction events generalizing w with
  | nil => exact Nat.max_eq_right h
  | cons e rest ih =>
    obtain ⟨t, e⟩ := e
    simp only [waitUntil, Bool.false_eq_true, and_false, if_false]
    split
    · exact Nat.max_eq_right h
    · next hnext =>
      refine ih ?_
      rw [clock_apply]
      dsimp only
      omega

theorem clock_sleep (w : Surroundings) (nanos : Nat) : (w.sleep nanos).clock = w.clock + nanos := by
  unfold sleep
  split
  · next hzero => rw [hzero, Nat.add_zero]
  · exact clock_waitUntil w.agenda (Nat.le_add_right _ _)

theorem does_begin (w : Surroundings) (c : Call) : w.Does [(w.clock, c)] [] w.store w.records (w.begin c) :=
  ⟨rfl, rfl, rfl, rfl, ⟨[], rfl, rfl⟩, fun h => ⟨h.now, h.later⟩⟩

theorem does_sleep (w : Surroundings) (c : Call) (nanos : Nat) :
    w.Does [(w.clock, c)] [] w.store w.records ((w.begin c).sleep nanos) :=
  (does_begin w c).trans (does_passes (passes_sleep (w.begin c) nanos))

abbrev Effect := Store.Memory → List OutgoingRecord → Option (Store.Memory × List OutgoingRecord)

variable {ε : Type} {c : Call} {limit : Time.Duration} {after : Effect} {reply : Reply ε}

/-- What a call has done when it returns. -/
inductive Returned (w : Surroundings) (c : Call) (limit : Time.Duration) (after : Effect) :
    Reply ε → Surroundings → Prop where
  | done {v : Surroundings} {store : Store.Memory} {records : List OutgoingRecord}
      (effect : after w.store w.records = some (store, records)) (within : w.Within limit.nanos v.clock)
      (does : w.Does [(w.clock, c)] [] store records v) : Returned w c limit after .done v
  | undone {reply : Reply ε} {v : Surroundings} (ne : reply ≠ .done) (within : w.Within limit.nanos v.clock)
      (does : w.Does [(w.clock, c)] [c] w.store w.records v) : Returned w c limit after reply v

theorem Returned.clock_le (h : w.Returned c limit after reply v) : v.clock ≤ w.clock + limit.nanos := by
  cases h with
  | done _ within => exact within.2
  | undone _ within => exact within.2

theorem within_sleep (w : Surroundings) (c : Call) {nanos limit : Nat} (h : nanos ≤ limit) :
    w.Within limit ((w.begin c).sleep nanos).clock := by
  have hclock : ((w.begin c).sleep nanos).clock = w.clock + nanos := clock_sleep _ _
  exact ⟨hclock ▸ Nat.le_add_right _ _, hclock ▸ Nat.add_le_add_left h _⟩

theorem undone_sleep (ne : reply ≠ .done) {nanos : Nat} (hnanos : nanos ≤ limit.nanos) :
    w.Returned c limit after reply (((w.begin c).sleep nanos).ended c reply) := by
  have hended : ((w.begin c).sleep nanos).ended c reply =
      { (w.begin c).sleep nanos with failures := c :: ((w.begin c).sleep nanos).failures } := by
    cases reply with
    | done => exact absurd rfl ne
    | failed cause => rfl
    | late => rfl
  rw [hended]
  exact .undone ne (within_sleep w c hnanos) ((does_sleep w c nanos).failure c)

theorem returned_limited {kind : CallKind} {cause : ε} {effect : Surroundings → Reply ε × Surroundings}
    (heffect : ∀ u : Surroundings,
      (∃ store records, after u.store u.records = some (store, records) ∧
        effect u = (.done, { u with store, records })) ∨ ∃ f, effect u = (.failed f, u))
    (h : limited kind c limit cause effect w = (reply, v)) : w.Returned c limit after reply v := by
  simp only [limited] at h
  obtain ⟨rfl, rfl⟩ := Prod.mk.inj h
  cases w.conditions w.calls kind with
  | stalls =>
    simp only [answer]
    exact undone_sleep (by simp) (Nat.le_refl _)
  | fails nanos =>
    simp only [answer]
    split
    · next hnanos => exact undone_sleep (by simp) hnanos
    · exact undone_sleep (by simp) (Nat.le_refl _)
  | succeeds nanos =>
    simp only [answer]
    split
    · next hnanos =>
      have hdoes := does_sleep w c nanos
      rcases heffect ((w.begin c).sleep nanos) with ⟨store, records, hafter, heq⟩ | ⟨f, heq⟩
      · rw [heq]
        rw [hdoes.store_eq, hdoes.records_eq] at hafter
        exact .done hafter (within_sleep w c hnanos) (hdoes.effect store records)
      · rw [heq]
        exact undone_sleep (by simp) hnanos
    · exact undone_sleep (by simp) (Nat.le_refl _)

def afterSave (o : Order) : Effect := fun store records =>
  if store.online then some ((store.save o).2, records) else none

theorem afterSave_eq_some {o : Order} (h : afterSave o store records = some (store', records')) :
    store.online = true ∧ store' = (store.save o).2 ∧ records' = records := by
  unfold afterSave at h
  split at h
  · next honline =>
    obtain ⟨rfl, rfl⟩ := Prod.mk.inj (Option.some.inj h)
    exact ⟨honline, rfl, rfl⟩
  · cases h

theorem returned_save {o : Order} {reply : Reply Store.Failure}
    (h : save limit o w = (reply, v)) : w.Returned (.save o.uid) limit (afterSave o) reply v := by
  refine returned_limited (fun u => ?_) h
  cases honline : u.store.online with
  | true =>
    refine .inl ⟨(u.store.save o).2, u.records, ?_, ?_⟩ <;>
      simp [afterSave, Store.Memory.save, honline]
  | false =>
    refine .inr ⟨Store.Memory.switchedOff, ?_⟩
    simp [Store.Memory.save, honline]

theorem returned_publish {r : OutgoingRecord} {reply : Reply String}
    (h : publish limit r w = (reply, v)) :
    w.Returned (.publish r.key) limit (fun store records => some (store, r :: records)) reply v :=
  returned_limited (fun _ => .inl ⟨_, _, rfl, rfl⟩) h

theorem returned_commit {m : Message} {reply : Reply SourceError}
    (h : commit limit m w = (reply, v)) :
    w.Returned (.commit m.position) limit (fun store records => some (store, records)) reply v :=
  returned_limited (fun _ => .inl ⟨_, _, rfl, rfl⟩) h

theorem lasting?_eq_none (b : Behaviour) : b.lasting? = none ↔ b = .stalls := by
  cases b <;> simp [Behaviour.lasting?]

theorem rewind_eq_none_iff (m : Message) (w : Surroundings) :
    w.rewind m = none ↔ (w.conditions w.calls .rewind).lasting? = none := by
  simp only [rewind]
  cases w.conditions w.calls .rewind <;> simp [Behaviour.lasting?]

theorem rewind_does {m : Message} {reply : Except SourceError Unit} (h : w.rewind m = some (reply, v)) :
    (reply = .ok () ∧ w.Does [(w.clock, .rewind m.position)] [] w.store w.records v ∨
      reply ≠ .ok () ∧ w.Does [(w.clock, .rewind m.position)] [.rewind m.position] w.store w.records v) ∧
      ∃ nanos, (w.conditions w.calls .rewind).lasting? = some nanos ∧ v.clock = w.clock + nanos := by
  simp only [rewind] at h
  split at h
  · next nanos hsucceeds =>
    obtain ⟨rfl, rfl⟩ := Prod.mk.inj (Option.some.inj h)
    exact ⟨.inl ⟨rfl, (does_sleep w _ nanos).queue _⟩, nanos, by rw [hsucceeds]; rfl, clock_sleep _ _⟩
  · next nanos hfails =>
    obtain ⟨rfl, rfl⟩ := Prod.mk.inj (Option.some.inj h)
    exact ⟨.inr ⟨by simp, (does_sleep w _ nanos).failure _⟩, nanos, by rw [hfails]; rfl, clock_sleep _ _⟩
  · cases h

end Surroundings

end OrderDepot.Delivery
