import OrderDepot.Delivery.Handling
import OrderDepot.Order.Sample
import OrderDepot.Proofs.Order.RoundTrip
import OrderDepot.Proofs.Order.Verdicts
import OrderDepot.Store.Memory

/-!
What handling a message does to orders in memory. The clock, the publisher of dead letters and the source may
behave in any way; only the store is the one in memory. A handle that ends with the message stored has saved the
order that its payload is accepted as, and any other handle leaves the store as it was.
-/

namespace OrderDepot

namespace Delivery

/-- What a handle meets besides the store. -/
structure Outside (σ : Type) where
  now : σ → Time.Instant × σ
  publish : Time.Duration → OutgoingRecord → σ → Reply String × σ
  commit : Time.Duration → Message → σ → Reply SourceError × σ
  rewind : Message → σ → Except SourceError Unit × σ

namespace Outside

variable {σ : Type}

def facilities (out : Outside σ) : Facilities (StateM (Store.Memory × σ)) where
  now := fun (store, w) => ((out.now w).1, (store, (out.now w).2))
  save _ o := fun (store, w) =>
    match store.save o with
    | (.ok (), store) => (.done, (store, w))
    | (.error f, store) => (.failed f, (store, w))
  publish limit r := fun (store, w) => ((out.publish limit r w).1, (store, (out.publish limit r w).2))
  commit limit m := fun (store, w) => ((out.commit limit m w).1, (store, (out.commit limit m w).2))
  rewind m := fun (store, w) => ((out.rewind m w).1, (store, (out.rewind m w).2))

def handle (out : Outside σ) (p : Pipeline) (tracked : Attempts) (msg : Message) (store : Store.Memory) (w : σ) :
    Outcome × Store.Memory × σ :=
  let ((handled, _), after) := (p.handle out.facilities tracked msg).run (store, w)
  (handled.outcome, after)

theorem save_online (out : Outside σ) (limit : Time.Duration) (o : Order) {store : Store.Memory} (w : σ)
    (h : store.online = true) : out.facilities.save limit o (store, w) = (.done, ((store.save o).2, w)) := by
  simp only [facilities, Store.Memory.save, h, if_true]

theorem save_offline (out : Outside σ) (limit : Time.Duration) (o : Order) {store : Store.Memory} (w : σ)
    (h : store.online = false) :
    out.facilities.save limit o (store, w) = (.failed Store.Memory.switchedOff, (store, w)) := by
  simp only [facilities, Store.Memory.save, h, Bool.false_eq_true, if_false]

theorem send_store (out : Outside σ) (limit : Time.Duration) (msg : Message) (reason : Reason) (attempt : UInt32)
    (store : Store.Memory) (w : σ) :
    ∃ sent w', send out.facilities limit msg reason attempt (store, w) = (sent, (store, w')) := by
  obtain ⟨now, w₁, hnow⟩ : ∃ now w₁, out.facilities.now (store, w) = (now, (store, w₁)) := ⟨_, _, rfl⟩
  obtain ⟨reply, w₂, hpublish⟩ : ∃ reply w₂,
      out.facilities.publish limit (deadLetter msg reason attempt now) (store, w₁) = (reply, (store, w₂)) :=
    ⟨_, _, rfl⟩
  simp only [send, bind, StateT.bind, hnow, hpublish]
  cases reply <;> exact ⟨_, _, rfl⟩

theorem setAside_store (out : Outside σ) (p : Pipeline) (msg : Message) (reason : Reason) (attempt : UInt32)
    (store : Store.Memory) (w : σ) : ∃ outcome w', outcome ≠ .stored ∧
      p.setAside out.facilities msg reason attempt (store, w) = (outcome, (store, w')) := by
  unfold Pipeline.setAside
  split
  · obtain ⟨sent, w', hsend⟩ := send_store out p.publishLimit msg reason attempt store w
    simp only [bind, StateT.bind, hsend]
    cases sent with
    | ok => exact ⟨.deadLettered reason, w', by simp, rfl⟩
    | error e => exact ⟨.deadLetterFailed reason, w', by simp, rfl⟩
  · exact ⟨.deadLetterDisabled reason, w, by simp, rfl⟩

/-- How a message that met the world `w` can end, with what it does to the store. -/
inductive Ends (out : Outside σ) (msg : Message) (store : Store.Memory) (w : σ) : Outcome → Store.Memory → Prop where
  | stored {o : Order} (online : store.online = true)
    (accepted : Verdict.of msg.payload (out.now w).1 = .accepted o) : Ends out msg store w .stored (store.save o).2
  | other {outcome : Outcome} (ne : outcome ≠ .stored)
    (unfit : ∀ o, Verdict.of msg.payload (out.now w).1 = .accepted o → store.online = false) :
    Ends out msg store w outcome store

theorem process_store (out : Outside σ) (p : Pipeline) (msg : Message) (attempt : UInt32) (store : Store.Memory)
    (w : σ) : ∃ outcome store' w', p.process out.facilities msg attempt (store, w) = (outcome, (store', w')) ∧
      Ends out msg store w outcome store' := by
  have hnow : out.facilities.now (store, w) = ((out.now w).1, (store, (out.now w).2)) := rfl
  simp only [Pipeline.process, bind, StateT.bind, hnow]
  cases hverdict : Verdict.of msg.payload (out.now w).1 with
  | accepted o =>
    cases honline : store.online with
    | true =>
      simp only [StateT.bind, save_online out p.storeLimit o (out.now w).2 honline]
      exact ⟨_, _, _, rfl, .stored honline hverdict⟩
    | false =>
      simp only [StateT.bind, save_offline out p.storeLimit o (out.now w).2 honline]
      exact ⟨.storeFailed, _, _, rfl, .other (by simp) fun _ _ => honline⟩
  | undecodable e =>
    obtain ⟨outcome, w', hne, heq⟩ := setAside_store out p msg .unmarshalFailed attempt store (out.now w).2
    exact ⟨outcome, store, w', heq, .other hne fun o ho => nomatch hverdict ▸ ho⟩
  | invalid o report =>
    obtain ⟨outcome, w', hne, heq⟩ := setAside_store out p msg .validationFailed attempt store (out.now w).2
    exact ⟨outcome, store, w', heq, .other hne fun o ho => nomatch hverdict ▸ ho⟩

theorem handle_store (out : Outside σ) (p : Pipeline) (tracked : Attempts) (msg : Message) (store : Store.Memory)
    (w : σ) : Ends out msg store w (out.handle p tracked msg store w).1 (out.handle p tracked msg store w).2.1 := by
  obtain ⟨outcome, store', w', hprocess, hends⟩ := process_store out p msg (tracked.next msg.position) store w
  have hhandle : ∃ w'', out.handle p tracked msg store w = (outcome, store', w'') := by
    simp only [handle, Pipeline.handle, bind, StateT.bind, StateT.run, hprocess]
    cases outcome.isFinal <;> exact ⟨_, rfl⟩
  obtain ⟨w'', hhandle⟩ := hhandle
  rw [hhandle]
  exact hends

theorem stored_accepted {out : Outside σ} {p : Pipeline} {tracked : Attempts} {msg : Message}
    {store : Store.Memory} {w : σ} (h : (out.handle p tracked msg store w).1 = .stored) :
    store.online = true ∧ ∃ o, Verdict.of msg.payload (out.now w).1 = .accepted o ∧
      (out.handle p tracked msg store w).2.1 = (store.save o).2 := by
  have hends := out.handle_store p tracked msg store w
  generalize (out.handle p tracked msg store w).2.1 = store' at hends ⊢
  rw [h] at hends
  cases hends with
  | stored online accepted => exact ⟨online, _, accepted, rfl⟩
  | other ne => exact absurd rfl ne

theorem handle_accepted (out : Outside σ) (p : Pipeline) (tracked : Attempts) {msg : Message}
    {store : Store.Memory} {w : σ} {o : Order} (online : store.online = true)
    (accepted : Verdict.of msg.payload (out.now w).1 = .accepted o) :
    (out.handle p tracked msg store w).1 = .stored := by
  have hends := out.handle_store p tracked msg store w
  generalize (out.handle p tracked msg store w).1 = outcome, (out.handle p tracked msg store w).2.1 = store' at hends ⊢
  cases hends with
  | stored => rfl
  | other _ unfit => rw [unfit o accepted] at online; cases online

def quiet : Outside Unit where
  now w := (⟨1700000000, 0⟩, w)
  publish _ _ w := (.done, w)
  commit _ _ w := (.done, w)
  rewind _ w := (.ok (), w)

def sampleOrder (uid : String) : Order :=
  .sample uid ⟨1700000000, 0⟩

def sampleMessage (uid : String) : Message where
  topic := "orders"
  partition := 0
  offset := 0
  payload := Text.bytes (sampleOrder uid).encode

theorem sample_decoded (uid : String) : Order.decode (sampleMessage uid).payload = .ok (sampleOrder uid) := by
  have hdate : (sampleOrder uid).dateCreated.Writable := by
    simp only [sampleOrder, Order.sample]
    constructor <;> decide
  simp only [sampleMessage]
  exact decode_compact hdate

theorem sample_stored {uid : String} (h : (sampleOrder uid).violations ⟨1700000000, 0⟩ = []) :
    (quiet.handle {} .empty (sampleMessage uid) {} ()).1 = .stored :=
  quiet.handle_accepted {} .empty rfl (Verdict.of_accepted (sample_decoded uid) h)

end Outside

end Delivery

end OrderDepot
