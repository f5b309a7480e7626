import Mathlib.Order.Nat
import OrderDepot.Delivery.Bench

/-!
# What a step at the bench does

The log of the bench stays sound: its messages have their places as offsets, and the committed position does
not pass the cursor. A step either leaves log, orders and records as they were, or it moves the cursor past one
message whose order it has stored or whose dead letter it has published.
-/

namespace OrderDepot.Delivery

namespace Log

structure Sound (l : Log) : Prop where
  messages : ∀ i m, l.messages[i]? = some m → m = messageAt i m.payload
  length_le : l.messages.length ≤ capacity
  committed_nonneg : 0 ≤ l.committed
  committed_le : l.committed ≤ l.cursor
  cursor_le : l.cursor ≤ l.messages.length

theorem messageAt_offset {i : Nat} (h : i < capacity) (payload : List UInt8) :
    (messageAt i payload).offset.toInt = i :=
  Int64.toInt_ofNat_of_lt (Nat.lt_trans h (by decide))

theorem sound_commit {l : Log} (hl : l.Sound) {m : Message} (hm : l.messages[l.cursor]? = some m) :
    let l' := ({ l with cursor := l.cursor + 1 }.commit m).2
    l'.Sound ∧ l'.messages = l.messages ∧ l'.cursor = l.cursor + 1 := by
  obtain ⟨hlt, -⟩ := List.getElem?_eq_some_iff.1 hm
  have hoffset : m.offset.toInt = l.cursor := by
    rw [hl.messages _ _ hm]
    exact messageAt_offset (Nat.lt_of_lt_of_le hlt hl.length_le) _
  have h₁ := hl.committed_nonneg
  have h₂ := hl.committed_le
  have hkept : ({ l with cursor := l.cursor + 1 } : Log).Sound :=
    ⟨hl.messages, hl.length_le, h₁, by simp; omega, by simp; omega⟩
  simp only [commit]
  split
  · exact ⟨⟨hl.messages, hl.length_le, by simp; omega, by simp; omega, by simp; omega⟩, rfl, rfl⟩
  · exact ⟨hkept, rfl, rfl⟩
  · exact ⟨hkept, rfl, rfl⟩

theorem rewind_fetched {l : Log} (hl : l.Sound) {m : Message} (hm : l.messages[l.cursor]? = some m) :
    ({ l with cursor := l.cursor + 1 }.rewind m).2 = l := by
  obtain ⟨hlt, -⟩ := List.getElem?_eq_some_iff.1 hm
  have hoffset : m.offset.toInt = l.cursor := by
    rw [hl.messages _ _ hm]
    exact messageAt_offset (Nat.lt_of_lt_of_le hlt hl.length_le) _
  have hpos : ¬ m.offset < 0 := by
    rw [Int64.lt_iff_toInt_lt, hoffset]
    simp
  simp [rewind, hpos, hoffset]

end Log

namespace Bench

def accepted? (date : Time.Instant) (payload : List UInt8) : Option Order :=
  match Verdict.of payload date with
  | .accepted o => some o
  | .undecodable _ | .invalid _ _ => none

def payloads (b : Bench) : List (List UInt8) := b.log.messages.map (·.payload)

def fetched (b : Bench) : Bench := { b with log := { b.log with cursor := b.log.cursor + 1 } }

def saved (b : Bench) (o : Order) : Bench := { b with store := (b.store.save o).2 }

def published (b : Bench) (r : OutgoingRecord) : Bench := { b with publisher := (b.publisher.publish r).2 }

def settled (b : Bench) (m : Message) (final : Bool) (tracked : Attempts) : Bench :=
  { b with log := if final then (b.log.commit m).2 else (b.log.rewind m).2, tracked }

theorem process_accepted (p : Pipeline) (b : Bench) (m : Message) (attempt : UInt32) {o : Order}
    (h : accepted? b.date m.payload = some o) :
    p.process facilities m attempt b = (if b.store.online then .stored else .storeFailed, b.saved o) := by
  unfold accepted? at h
  split at h
  · next o' hv =>
    obtain rfl : o' = o := by simpa using h
    by_cases hon : b.store.online <;>
    · simp only [Pipeline.process, facilities, hv, bind, StateT.bind, Store.Memory.save, hon, saved]
      rfl
  · cases h
  · cases h

theorem process_rejected (p : Pipeline) (b : Bench) (m : Message) (attempt : UInt32)
    (hp : p.deadLetters = true) (h : accepted? b.date m.payload = none) :
    ∃ reason, p.process facilities m attempt b =
      (if b.publisher.failing then .deadLetterFailed reason else .deadLettered reason,
        b.published (deadLetter m reason attempt b.date)) := by
  have haside : ∀ reason, p.setAside facilities m reason attempt b =
      (if b.publisher.failing then .deadLetterFailed reason else .deadLettered reason,
        b.published (deadLetter m reason attempt b.date)) := by
    intro reason
    by_cases hf : b.publisher.failing <;>
    · simp [Pipeline.setAside, hp, send, facilities, bind, StateT.bind, Publisher.publish, hf, published]
      rfl
  unfold accepted? at h
  split at h
  · cases h
  · next e hv =>
    refine ⟨.unmarshalFailed, ?_⟩
    rw [← haside]
    simp [Pipeline.process, facilities, hv, bind, StateT.bind]
  · next o r hv =>
    refine ⟨.validationFailed, ?_⟩
    rw [← haside]
    simp [Pipeline.process, facilities, hv, bind, StateT.bind]

theorem step_process {b b₁ : Bench} {m : Message} {outcome : Outcome}
    (hm : b.log.messages[b.log.cursor]? = some m)
    (h : b.pipeline.process facilities m (b.tracked.next m.position) b.fetched = (outcome, b₁)) :
    ∃ handled tracked, handled.outcome = outcome ∧
      b.step = (some handled, b₁.settled m outcome.isFinal tracked) := by
  have hstep : b.step = ((fun r => (some r.1.1, { r.2 with tracked := r.1.2 }))
      (b.pipeline.handle facilities b.tracked m b.fetched) : Option Handled × Bench) := by
    simp only [step, Log.next?, hm, StateT.run, Option.map_some]
    rfl
  by_cases hf : outcome.isFinal
  · simp only [Pipeline.handle, bind, StateT.bind, h, hf, if_true] at hstep
    exact ⟨_, _, rfl, by rw [hf]; exact hstep⟩
  · simp only [Pipeline.handle, bind, StateT.bind, h, hf] at hstep
    exact ⟨_, _, rfl, by rw [Bool.eq_false_iff.2 hf]; exact hstep⟩

theorem step_accepted {b : Bench} {m : Message} {o : Order} (hm : b.log.messages[b.log.cursor]? = some m)
    (ho : accepted? b.date m.payload = some o) :
    ∃ handled tracked, handled.outcome = (if b.store.online then .stored else .storeFailed) ∧
      b.step = (some handled, (b.fetched.saved o).settled m b.store.online tracked) := by
  have hp := process_accepted b.pipeline b.fetched m (b.tracked.next m.position) ho
  obtain ⟨handled, tracked, houtcome, hstep⟩ := step_process hm hp
  refine ⟨handled, tracked, houtcome, ?_⟩
  have hfinal :
      (if b.fetched.store.online then Outcome.stored else .storeFailed).isFinal = b.store.online := by
    change (if b.store.online then Outcome.stored else .storeFailed).isFinal = b.store.online
    cases b.store.online <;> rfl
  rw [hstep, hfinal]

theorem step_rejected {b : Bench} {m : Message} (hm : b.log.messages[b.log.cursor]? = some m)
    (hp : b.pipeline.deadLetters = true) (ho : accepted? b.date m.payload = none) :
    ∃ handled tracked reason attempt, b.step = (some handled,
      (b.fetched.published (deadLetter m reason attempt b.date)).settled m (!b.publisher.failing)
        tracked) := by
  obtain ⟨reason, hp⟩ := process_rejected b.pipeline b.fetched m (b.tracked.next m.position) hp ho
  obtain ⟨handled, tracked, -, hstep⟩ := step_process hm hp
  refine ⟨handled, tracked, reason, b.tracked.next m.position, ?_⟩
  have hfinal : (if b.fetched.publisher.failing then Outcome.deadLetterFailed reason
      else .deadLettered reason).isFinal = !b.publisher.failing := by
    change (if b.publisher.failing then Outcome.deadLetterFailed reason
      else .deadLettered reason).isFinal = !b.publisher.failing
    cases b.publisher.failing <;> rfl
  rw [hstep, hfinal]
  rfl

theorem step_cases {b : Bench} (hl : b.log.Sound) (hp : b.pipeline.deadLetters = true) :
    b.step.2.pipeline = b.pipeline ∧ b.step.2.date = b.date ∧ b.step.2.log.Sound ∧
      b.step.2.log.messages = b.log.messages ∧
      ((b.step.2.log.cursor = b.log.cursor ∧ b.step.2.store.orders = b.store.orders ∧
          b.step.2.publisher.records = b.publisher.records) ∨
        (∃ payload o, b.payloads[b.log.cursor]? = some payload ∧ accepted? b.date payload = some o ∧
          b.step.2.log.cursor = b.log.cursor + 1 ∧ b.step.2.publisher.records = b.publisher.records ∧
          b.step.2.store.orders = b.store.orders.put o.uid o ∧ b.step.2.store.saves = b.store.saves + 1 ∧
          ∃ handled, b.step.1 = some handled ∧ handled.outcome = .stored) ∨
        (∃ payload reason attempt, b.payloads[b.log.cursor]? = some payload ∧ accepted? b.date payload = none ∧
          b.step.2.log.cursor = b.log.cursor + 1 ∧ b.step.2.store.orders = b.store.orders ∧
          b.step.2.publisher.records = b.publisher.records ++
            [deadLetter (Log.messageAt b.log.cursor payload) reason attempt b.date])) := by
  cases hm : b.log.messages[b.log.cursor]? with
  | none =>
    have hstep : b.step = (none, b) := by simp [step, Log.next?, hm]
    rw [hstep]
    exact ⟨rfl, rfl, hl, rfl, Or.inl ⟨rfl, rfl, rfl⟩⟩
  | some m =>
    have hpayload : b.payloads[b.log.cursor]? = some m.payload := by simp [payloads, hm]
    have hat := hl.messages _ _ hm
    obtain ⟨hsound, hmessages, hcursor⟩ := Log.sound_commit hl hm
    have hback := Log.rewind_fetched hl hm
    cases ho : accepted? b.date m.payload with
    | some o =>
      obtain ⟨handled, tracked, houtcome, hstep⟩ := step_accepted hm ho
      rw [hstep]
      cases hon : b.store.online with
      | true =>
        have hsave : (b.store.save o).2 =
          { b.store with orders := b.store.orders.put o.uid o, saves := b.store.saves + 1 } := by
          simp [Store.Memory.save, hon]
        refine ⟨rfl, rfl, hsound, hmessages, Or.inr (Or.inl ?_)⟩
        refine ⟨m.payload, o, hpayload, ho, hcursor, rfl, ?_, ?_, ?_⟩
        · exact congrArg (·.orders) hsave
        · exact congrArg (·.saves) hsave
        · exact ⟨handled, rfl, by simpa [hon] using houtcome⟩
      | false =>
        have hsave : (b.store.save o).2 = b.store := by simp [Store.Memory.save, hon]
        have hlog : ((b.fetched.saved o).settled m false tracked).log = b.log := hback
        exact ⟨rfl, rfl, by rw [hlog]; exact hl, by rw [hlog],
          Or.inl ⟨by rw [hlog], congrArg (·.orders) hsave, rfl⟩⟩
    | none =>
      obtain ⟨handled, tracked, reason, attempt, hstep⟩ := step_rejected hm hp ho
      rw [hstep]
      cases hf : b.publisher.failing with
      | false =>
        refine ⟨rfl, rfl, hsound, hmessages, Or.inr (Or.inr ?_)⟩
        refine ⟨m.payload, reason, attempt, hpayload, ho, hcursor, rfl, ?_⟩
        rw [← hat]
        simp [settled, published, fetched, Publisher.publish, hf]
      | true =>
        let r := deadLetter m reason attempt b.date
        have hlog : ((b.fetched.published r).settled m (!true) tracked).log = b.log := hback
        refine ⟨rfl, rfl, by rw [hlog]; exact hl, by rw [hlog], Or.inl ⟨by rw [hlog], rfl, ?_⟩⟩
        simp [settled, published, fetched, Publisher.publish, hf]

end Bench

end OrderDepot.Delivery
