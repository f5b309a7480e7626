import OrderDepot.Proofs.Delivery.Acknowledgement
import OrderDepot.Proofs.Delivery.Calls
import OrderDepot.Proofs.Delivery.Steps
import OrderDepot.Proofs.Web.Writers

/-!
# The course of a message

A message is processed: its order is stored, or it is published as a dead letter, or neither. Then its position is
committed if that succeeded, and if not, the source is rewound to it. Which way it goes is up to its payload and to
what the calls make of it, and each way leaves its own store, records and calls.
-/

namespace OrderDepot.Delivery

def Outcome.reason? : Outcome → Option Reason
  | .stored | .storeFailed => none
  | .deadLettered reason | .deadLetterFailed reason | .deadLetterDisabled reason => some reason

namespace Pipeline

open Surroundings (facilities)

variable {p : Pipeline} {m : Message} {attempt : UInt32} {w u v : Surroundings}

/-- How processing ends, and with which call. It takes no longer than the limit of that call. -/
inductive Processed (p : Pipeline) (m : Message) (attempt : UInt32) (w : Surroundings) :
    Outcome → Surroundings → Prop where
  | stored {o : Order} {u : Surroundings} (accepted : o.AcceptedFrom m.payload (w.date w.clock))
      (online : w.store.online = true) (inTime : w.Within p.storeLimit.nanos u.clock)
      (does : w.Does [(w.clock, .save o.uid)] [] (w.store.save o).2 w.records u) : Processed p m attempt w .stored u
  | storeFailed {o : Order} {u : Surroundings} (accepted : o.AcceptedFrom m.payload (w.date w.clock))
      (inTime : w.Within p.storeLimit.nanos u.clock)
      (does : w.Does [(w.clock, .save o.uid)] [.save o.uid] w.store w.records u) :
      Processed p m attempt w .storeFailed u
  | deadLettered {r : Reason} {u : Surroundings} (sink : p.deadLetters = true)
      (applies : r.AppliesTo m.payload (w.date w.clock)) (inTime : w.Within p.publishLimit.nanos u.clock)
      (does : w.Does [(w.clock, .publish (deadLetter m r attempt (w.date w.clock)).key)] [] w.store
        (deadLetter m r attempt (w.date w.clock) :: w.records) u) : Processed p m attempt w (.deadLettered r) u
  | deadLetterFailed {r : Reason} {u : Surroundings} (sink : p.deadLetters = true)
      (applies : r.AppliesTo m.payload (w.date w.clock)) (inTime : w.Within p.publishLimit.nanos u.clock)
      (does : w.Does [(w.clock, .publish (deadLetter m r attempt (w.date w.clock)).key)]
        [.publish (deadLetter m r attempt (w.date w.clock)).key] w.store w.records u) :
      Processed p m attempt w (.deadLetterFailed r) u
  | deadLetterDisabled {r : Reason} (sink : p.deadLetters = false)
      (applies : r.AppliesTo m.payload (w.date w.clock)) : Processed p m attempt w (.deadLetterDisabled r) w

/-- How a message that was processed with this outcome is closed. -/
inductive Closed (p : Pipeline) (m : Message) (attempt : UInt32) (outcome : Outcome) (u : Surroundings) :
    Handled → Surroundings → Prop where
  | committed {c : Bool} {v : Surroundings} (final : outcome.isFinal = true)
      (inTime : u.Within p.commitLimit.nanos v.clock)
      (does : u.Does [(u.clock, .commit m.position)] ((Call.commit m.position).failedUnless c) u.store u.records v) :
      Closed p m attempt outcome u ⟨outcome, attempt, c⟩ v
  | rewound {r : Bool} {v : Surroundings} (unended : outcome.isFinal = false)
      (does : u.Does [(u.clock, .rewind m.position)] ((Call.rewind m.position).failedUnless r) u.store u.records v) :
      Closed p m attempt outcome u ⟨outcome, attempt, false⟩ v

theorem processed_of_setAside {r : Reason} {outcome : Outcome} (applies : r.AppliesTo m.payload (w.date w.clock))
    (h : p.setAside facilities.toFacilities m r attempt w = some (outcome, u)) : p.Processed m attempt w outcome u := by
  cases hsink : p.deadLetters with
  | false =>
    rw [setAside_disabled hsink] at h
    obtain ⟨rfl, rfl⟩ := Prod.mk.inj (Option.some.inj h)
    exact .deadLetterDisabled hsink applies
  | true =>
    obtain ⟨reply, v, hpublish⟩ : ∃ reply v, Surroundings.publish p.publishLimit
        (deadLetter m r attempt (w.date w.clock)) w = (reply, v) := ⟨_, _, rfl⟩
    rw [setAside_published hsink hpublish] at h
    obtain ⟨rfl, rfl⟩ := Prod.mk.inj (Option.some.inj h)
    cases Surroundings.returned_publish hpublish with
    | done effect within does =>
      obtain ⟨rfl, rfl⟩ := Prod.mk.inj (Option.some.inj effect)
      exact .deadLettered hsink applies within does
    | undone ne within does =>
      rw [if_neg (mt Reply.isDone_iff.1 ne)]
      exact .deadLetterFailed hsink applies within does

theorem processed_of_process {outcome : Outcome}
    (h : p.process facilities.toFacilities m attempt w = some (outcome, u)) : p.Processed m attempt w outcome u := by
  rcases accepted_or_applies m.payload (w.date w.clock) with ⟨o, haccepted⟩ | ⟨r, happlies⟩
  · obtain ⟨reply, v, hsave⟩ : ∃ reply v, Surroundings.save p.storeLimit o w = (reply, v) := ⟨_, _, rfl⟩
    rw [process_accepted haccepted hsave] at h
    obtain ⟨rfl, rfl⟩ := Prod.mk.inj (Option.some.inj h)
    cases Surroundings.returned_save hsave with
    | done effect within does =>
      obtain ⟨honline, rfl, rfl⟩ := Surroundings.afterSave_eq_some effect
      exact .stored haccepted honline within does
    | undone ne within does =>
      rw [if_neg (mt Reply.isDone_iff.1 ne)]
      exact .storeFailed haccepted within does
  · rw [process_rejected happlies] at h
    exact processed_of_setAside happlies h

namespace Processed

variable {outcome : Outcome}

theorem reason?_cases (h : p.Processed m attempt w outcome u) :
    (outcome.reason? = none ∧ ∃ o : Order, o.AcceptedFrom m.payload (w.date w.clock)) ∨
      ∃ r, outcome.reason? = some r ∧ Reason.AppliesTo r m.payload (w.date w.clock) := by
  cases h with
  | stored accepted => exact .inl ⟨rfl, _, accepted⟩
  | storeFailed accepted => exact .inl ⟨rfl, _, accepted⟩
  | deadLettered _ applies => exact .inr ⟨_, rfl, applies⟩
  | deadLetterFailed _ applies => exact .inr ⟨_, rfl, applies⟩
  | deadLetterDisabled _ applies => exact .inr ⟨_, rfl, applies⟩

theorem reason?_none_iff (h : p.Processed m attempt w outcome u) :
    outcome.reason? = none ↔ ∃ o : Order, o.AcceptedFrom m.payload (w.date w.clock) := by
  rcases h.reason?_cases with ⟨hnone, haccepted⟩ | ⟨r, hsome, happlies⟩
  · exact iff_of_true hnone haccepted
  · exact iff_of_false (by simp [hsome]) fun ⟨o, haccepted⟩ => happlies.not_accepted haccepted

theorem reason?_some_iff (h : p.Processed m attempt w outcome u) (r : Reason) :
    outcome.reason? = some r ↔ r.AppliesTo m.payload (w.date w.clock) := by
  rcases h.reason?_cases with ⟨hnone, o, haccepted⟩ | ⟨r', hsome, happlies⟩
  · exact iff_of_false (by simp [hnone]) fun happlies => happlies.not_accepted haccepted
  · rw [hsome, Option.some.injEq]
    exact ⟨fun heq => heq ▸ happlies, fun happlies' => happlies.unique happlies'⟩

theorem clock_le (h : p.Processed m attempt w outcome u) :
    u.clock ≤ w.clock + max p.storeLimit.nanos p.publishLimit.nanos := by
  have hstore := Nat.add_le_add_left (Nat.le_max_left p.storeLimit.nanos p.publishLimit.nanos) w.clock
  have hpublish := Nat.add_le_add_left (Nat.le_max_right p.storeLimit.nanos p.publishLimit.nanos) w.clock
  cases h with
  | stored _ _ inTime => exact Nat.le_trans inTime.2 hstore
  | storeFailed _ inTime => exact Nat.le_trans inTime.2 hstore
  | deadLettered _ _ inTime => exact Nat.le_trans inTime.2 hpublish
  | deadLetterFailed _ _ inTime => exact Nat.le_trans inTime.2 hpublish
  | deadLetterDisabled => exact Nat.le_add_right _ _

theorem rewindsReturn (h : p.Processed m attempt w outcome u) (hw : w.RewindsReturn) : u.RewindsReturn := by
  cases h with
  | stored _ _ _ does => exact does.rewinds hw
  | storeFailed _ _ does => exact does.rewinds hw
  | deadLettered _ _ _ does => exact does.rewinds hw
  | deadLetterFailed _ _ _ does => exact does.rewinds hw
  | deadLetterDisabled => exact hw

end Processed

theorem closed_of_closes {h : Handled} (attempted : h.attempt = attempt) (hcloses : p.Closes m u h v) :
    p.Closed m attempt h.outcome u h v := by
  obtain ⟨outcome, attempt', committed⟩ := h
  obtain rfl := attempted
  cases hcloses with
  | commits final committed call =>
    obtain rfl := committed
    cases Surroundings.returned_commit call with
    | done effect within does =>
      obtain ⟨rfl, rfl⟩ := Prod.mk.inj (Option.some.inj effect)
      exact .committed final within does
    | undone ne within does =>
      refine .committed final within ?_
      rw [Call.failedUnless, if_neg (mt Reply.isDone_iff.1 ne)]
      exact does
  | rewinds unended committed call =>
    obtain rfl := committed
    obtain ⟨⟨-, hdoes⟩ | ⟨-, hdoes⟩, -⟩ := Surroundings.rewind_does call
    · exact .rewound (r := true) unended hdoes
    · exact .rewound (r := false) unended hdoes

theorem handle_returns {tracked : Attempts} (hw : w.RewindsReturn) :
    ∃ r, p.handle facilities.toFacilities tracked m w = some r := by
  obtain ⟨outcome, u, hprocess⟩ := process_total p m (tracked.next m.position) w
  cases hfinal : outcome.isFinal with
  | true => exact ⟨_, handle_of_final hprocess hfinal rfl⟩
  | false =>
    rw [handle_of_unended hprocess hfinal]
    cases hrewind : u.rewind m with
    | some r => exact ⟨_, rfl⟩
    | none =>
      have hstalls := (Surroundings.lasting?_eq_none _).1 ((Surroundings.rewind_eq_none_iff m u).1 hrewind)
      exact absurd hstalls (((processed_of_process hprocess).rewindsReturn hw).now u.calls)

/-- Handling returns unless it waits for a rewind that does not. When it returns, the message was processed and then
closed. Its payload alone decides whether it was to be stored, and else for which reason it was set aside; and the
operators' tool says the same of it. -/
theorem handle_follows_protocol (p : Pipeline) (tracked : Attempts) (m : Message) (w : Surroundings) :
    (w.RewindsReturn → ∃ r, p.handle facilities.toFacilities tracked m w = some r) ∧
      ∀ h tracked' v, p.handle facilities.toFacilities tracked m w = some ((h, tracked'), v) →
        (∃ u, p.Processed m (tracked.next m.position) w h.outcome u ∧
          p.Closed m (tracked.next m.position) h.outcome u h v) ∧
        (h.outcome.reason? = none ↔ ∃ o : Order, o.AcceptedFrom m.payload (w.date w.clock)) ∧
        (∀ r, h.outcome.reason? = some r ↔ Reason.AppliesTo r m.payload (w.date w.clock)) ∧
        ((CommandLine.validate (.ok m.payload) (w.date w.clock)).Succeeds ↔ h.outcome.reason? = none) ∧
        ((CommandLine.validate (.ok m.payload) (w.date w.clock)).ReportsDecodeError ↔
          h.outcome.reason? = some .unmarshalFailed) ∧
        ((∃ report, (CommandLine.validate (.ok m.payload) (w.date w.clock)).ReportsViolations report) ↔
          h.outcome.reason? = some .validationFailed) := by
  refine ⟨handle_returns, fun h tracked' v hh => ?_⟩
  obtain ⟨u, hprocess, hattempt, hcloses⟩ := handle_closes hh
  have hprocessed := processed_of_process hprocess
  have haccepted := hprocessed.reason?_none_iff
  have hreason := hprocessed.reason?_some_iff
  refine ⟨⟨u, hprocessed, closed_of_closes hattempt hcloses⟩, haccepted, hreason, ?_, ?_, ?_⟩
  · rw [CommandLine.validate_succeeds_iff, haccepted]
  · rw [CommandLine.validate_reportsDecodeError_iff, hreason]
    rfl
  · rw [CommandLine.validate_reportsViolations_iff, hreason]
    rfl

end Pipeline

def Surroundings.calm : Surroundings where
  date _ := ⟨1700000000, 0⟩

open Surroundings (facilities) in
theorem sample_and_blank_follow_protocol :
    (Surroundings.calm.RewindsReturn ∧ ∃ h tracked v,
      ({} : Pipeline).handle facilities.toFacilities .empty (Outside.sampleMessage "a") .calm = some ((h, tracked), v) ∧
        h.outcome.reason? = none ∧
        (CommandLine.validate (.ok (Outside.sampleMessage "a").payload) ⟨1700000000, 0⟩).Succeeds) ∧
      ∃ h tracked v,
        Pipeline.eager.handle facilities.toFacilities .empty (.blank 0) .outage = some ((h, tracked), v) ∧
          h.outcome = .deadLetterFailed .unmarshalFailed ∧
          v.trace.map Prod.snd =
            [.rewind (Message.blank 0).position, .publish (Text.bytes (Message.blank 0).position.text)] ∧
          (CommandLine.validate (.ok []) .epoch).ReportsDecodeError := by
  constructor
  · have hrewinds : Surroundings.calm.RewindsReturn := ⟨nofun, nofun⟩
    have haccepted : (Outside.sampleOrder "a").AcceptedFrom (Outside.sampleMessage "a").payload ⟨1700000000, 0⟩ :=
      ⟨Outside.sample_decoded "a", by decide +kernel⟩
    obtain ⟨hreturns, hprotocol⟩ :=
      Pipeline.handle_follows_protocol {} .empty (Outside.sampleMessage "a") .calm
    obtain ⟨⟨⟨h, tracked⟩, v⟩, hhandle⟩ := hreturns hrewinds
    obtain ⟨-, hnone, -, hsucceeds, -, -⟩ := hprotocol h tracked v hhandle
    have hreason := hnone.2 ⟨_, haccepted⟩
    exact ⟨hrewinds, h, tracked, v, hhandle, hreason, hsucceeds.2 hreason⟩
  · have hhandle : ∃ h tracked v,
        Pipeline.eager.handle facilities.toFacilities .empty (.blank 0) .outage = some ((h, tracked), v) ∧
          h.outcome = .deadLetterFailed .unmarshalFailed ∧ v.trace.map Prod.snd =
            [.rewind (Message.blank 0).position, .publish (Text.bytes (Message.blank 0).position.text)] :=
      ⟨_, _, _, rfl, rfl, rfl⟩
    obtain ⟨h, tracked, v, hhandle, houtcome, htrace⟩ := hhandle
    obtain ⟨-, -, -, -, hdecode, -⟩ := (Pipeline.handle_follows_protocol _ _ _ _).2 h tracked v hhandle
    exact ⟨h, tracked, v, hhandle, houtcome, htrace, hdecode.2 (by rw [houtcome]; rfl)⟩

end OrderDepot.Delivery
