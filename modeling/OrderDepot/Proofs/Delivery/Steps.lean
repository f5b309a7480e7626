import OrderDepot.Delivery.Run
import OrderDepot.Proofs.Order.Verdicts

/-!
# What a step can do

In scripted surroundings a message is processed with one call at most and then closed with one more, and a turn of
the loop goes one of five ways. Whatever is said of processing, of handling or of a turn is said of these ways.
-/

namespace OrderDepot.Delivery

def Reply.isDone {ε : Type} : Reply ε → Bool
  | .done => true
  | .failed _ | .late => false

theorem Reply.isDone_iff {ε : Type} {reply : Reply ε} : reply.isDone = true ↔ reply = .done := by
  cases reply <;> simp [Reply.isDone]

def Reason.AppliesTo : Reason → List UInt8 → Time.Instant → Prop
  | .unmarshalFailed, payload, _ => Undecodable payload
  | .validationFailed, payload, now => Faulty payload now

namespace Reason.AppliesTo

variable {r r' : Reason} {payload : List UInt8} {now : Time.Instant}

theorem not_accepted {o : Order} (h : r.AppliesTo payload now) : ¬ o.AcceptedFrom payload now := by
  intro haccepted
  cases r with
  | unmarshalFailed => exact haccepted.not_undecodable h
  | validationFailed => exact haccepted.not_faulty h

theorem unique (h : r.AppliesTo payload now) (h' : r'.AppliesTo payload now) : r = r' := by
  cases r <;> cases r'
  · rfl
  · exact absurd h' (Undecodable.not_faulty h)
  · exact absurd h (Undecodable.not_faulty h')
  · rfl

end Reason.AppliesTo

theorem accepted_or_applies (payload : List UInt8) (now : Time.Instant) :
    (∃ o : Order, o.AcceptedFrom payload now) ∨ ∃ r, Reason.AppliesTo r payload now := by
  rcases acceptedFrom_or payload now with haccepted | hundecodable | hfaulty
  · exact .inl haccepted
  · exact .inr ⟨.unmarshalFailed, hundecodable⟩
  · exact .inr ⟨.validationFailed, hfaulty⟩

namespace Scripted

variable {α β : Type} {w v : Surroundings} {b : β}

theorem bind_of {x : Scripted α} {a : α} (h : x w = some (a, v)) (f : α → Scripted β) : (x >>= f) w = f a v := by
  simp only [bind, StateT.bind, h, Option.bind_some]

theorem bind_some {x : Scripted α} {f : α → Scripted β} (h : (x >>= f) w = some (b, v)) :
    ∃ a u, x w = some (a, u) ∧ f a u = some (b, v) := by
  obtain ⟨⟨a, u⟩, hx, hf⟩ := Option.bind_eq_some_iff.1 h
  exact ⟨a, u, hx, hf⟩

theorem pure_some {a : β} (h : (pure a : Scripted β) w = some (b, v)) : b = a ∧ v = w := by
  obtain ⟨rfl, rfl⟩ := Prod.mk.inj (Option.some.inj h)
  exact ⟨rfl, rfl⟩

theorem total_some {f : Surroundings → β × Surroundings} (h : Surroundings.total f w = some (b, v)) :
    f w = (b, v) :=
  Option.some.inj h

end Scripted

namespace Pipeline

open Surroundings (facilities)

variable {p : Pipeline} {m : Message} {attempt : UInt32} {w u v : Surroundings} {r : Reason} {outcome : Outcome}

theorem now_eq (w : Surroundings) : facilities.now w = some (w.date w.clock, w) := rfl

theorem setAside_disabled (hsink : p.deadLetters = false) :
    p.setAside facilities.toFacilities m r attempt w = some (.deadLetterDisabled r, w) := by
  unfold setAside
  rw [if_neg (by simp [hsink])]
  rfl

theorem setAside_published {reply : Reply String} (hsink : p.deadLetters = true)
    (h : Surroundings.publish p.publishLimit (deadLetter m r attempt (w.date w.clock)) w = (reply, v)) :
    p.setAside facilities.toFacilities m r attempt w =
      some (if reply.isDone then .deadLettered r else .deadLetterFailed r, v) := by
  have hcall : facilities.publish p.publishLimit (deadLetter m r attempt (w.date w.clock)) w = some (reply, v) :=
    congrArg some h
  have hsend : ∃ sent, send facilities.toFacilities p.publishLimit m r attempt w = some (sent, v) ∧
      reply.isDone = sent.isOk := by
    unfold send
    rw [Scripted.bind_of (now_eq w), Scripted.bind_of hcall]
    cases reply <;> exact ⟨_, rfl, rfl⟩
  obtain ⟨sent, hsend, hdone⟩ := hsend
  unfold setAside
  rw [if_pos hsink, Scripted.bind_of hsend, hdone]
  cases sent <;> rfl

theorem process_accepted {o : Order} {reply : Reply Store.Failure}
    (haccepted : o.AcceptedFrom m.payload (w.date w.clock)) (h : Surroundings.save p.storeLimit o w = (reply, v)) :
    p.process facilities.toFacilities m attempt w = some (if reply.isDone then .stored else .storeFailed, v) := by
  have hcall : facilities.save p.storeLimit o w = some (reply, v) := congrArg some h
  unfold process
  rw [Scripted.bind_of (now_eq w), Verdict.of_accepted haccepted.decoded haccepted.valid]
  dsimp only
  rw [Scripted.bind_of hcall]
  cases reply <;> rfl

theorem process_rejected (happlies : r.AppliesTo m.payload (w.date w.clock)) :
    p.process facilities.toFacilities m attempt w = p.setAside facilities.toFacilities m r attempt w := by
  unfold process
  rw [Scripted.bind_of (now_eq w)]
  cases r with
  | unmarshalFailed =>
    obtain ⟨e, hdecode⟩ := happlies
    simp only [Verdict.of, hdecode]
  | validationFailed =>
    obtain ⟨o, hdecode, hfaulty⟩ := happlies
    obtain ⟨breach, rest, hviolations⟩ := List.exists_cons_of_ne_nil hfaulty
    simp only [Verdict.of, hdecode, hviolations]

theorem process_made (h : p.process facilities.toFacilities m attempt w = some (outcome, v)) :
    v = w ∨ (∃ o, v = (Surroundings.save p.storeLimit o w).2) ∨
      ∃ r, v = (Surroundings.publish p.publishLimit r w).2 := by
  rcases accepted_or_applies m.payload (w.date w.clock) with ⟨o, haccepted⟩ | ⟨r, happlies⟩
  · rw [process_accepted haccepted rfl] at h
    exact .inr (.inl ⟨o, (Prod.mk.inj (Option.some.inj h)).2.symm⟩)
  · rw [process_rejected happlies] at h
    cases hsink : p.deadLetters with
    | false =>
      rw [setAside_disabled hsink] at h
      exact .inl (Prod.mk.inj (Option.some.inj h)).2.symm
    | true =>
      rw [setAside_published hsink rfl] at h
      exact .inr (.inr ⟨_, (Prod.mk.inj (Option.some.inj h)).2.symm⟩)

theorem handle_of_final {tracked : Attempts} {reply : Reply SourceError}
    (hprocess : p.process facilities.toFacilities m (tracked.next m.position) w = some (outcome, u))
    (hfinal : outcome.isFinal = true) (h : Surroundings.commit p.commitLimit m u = (reply, v)) :
    p.handle facilities.toFacilities tracked m w =
      some ((⟨outcome, tracked.next m.position, reply.isDone⟩, tracked.drop m.position), v) := by
  have hcall : facilities.commit p.commitLimit m u = some (reply, v) := congrArg some h
  unfold handle
  rw [Scripted.bind_of hprocess, if_pos hfinal, Scripted.bind_of hcall]
  cases reply <;> rfl

theorem handle_of_unended {tracked : Attempts}
    (hprocess : p.process facilities.toFacilities m (tracked.next m.position) w = some (outcome, u))
    (hunended : outcome.isFinal = false) :
    p.handle facilities.toFacilities tracked m w = (u.rewind m).map fun r =>
      ((⟨outcome, tracked.next m.position, false⟩,
        tracked.unfinished m.position (tracked.next m.position)), r.2) := by
  have hrewind : p.handle facilities.toFacilities tracked m w = (u.rewind m).bind fun r =>
      some ((⟨outcome, tracked.next m.position, false⟩,
        tracked.unfinished m.position (tracked.next m.position)), r.2) := by
    unfold handle
    rw [Scripted.bind_of hprocess, if_neg (by simp [hunended])]
    rfl
  rw [hrewind, Option.map_eq_bind]
  rfl

/-- The call with which a message is closed that was processed in `u`. -/
inductive Closes (p : Pipeline) (m : Message) (u : Surroundings) (h : Handled) (v : Surroundings) : Prop where
  | commits {reply : Reply SourceError} (final : h.outcome.isFinal = true) (committed : h.committed = reply.isDone)
      (call : Surroundings.commit p.commitLimit m u = (reply, v))
  | rewinds {reply : Except SourceError Unit} (unended : h.outcome.isFinal = false) (committed : h.committed = false)
      (call : u.rewind m = some (reply, v))

theorem process_total (p : Pipeline) (m : Message) (attempt : UInt32) (w : Surroundings) :
    ∃ outcome u, p.process facilities.toFacilities m attempt w = some (outcome, u) := by
  rcases accepted_or_applies m.payload (w.date w.clock) with ⟨o, haccepted⟩ | ⟨r, happlies⟩
  · exact ⟨_, _, process_accepted haccepted rfl⟩
  · rw [process_rejected happlies]
    cases hsink : p.deadLetters with
    | false => exact ⟨_, _, setAside_disabled hsink⟩
    | true => exact ⟨_, _, setAside_published hsink rfl⟩

theorem handle_closes {tracked tracked' : Attempts} {h : Handled}
    (hh : p.handle facilities.toFacilities tracked m w = some ((h, tracked'), v)) :
    ∃ u, p.process facilities.toFacilities m (tracked.next m.position) w = some (h.outcome, u) ∧
      h.attempt = tracked.next m.position ∧ p.Closes m u h v := by
  obtain ⟨outcome, u, hprocess⟩ := process_total p m (tracked.next m.position) w
  cases hfinal : outcome.isFinal with
  | true =>
    rw [handle_of_final hprocess hfinal rfl] at hh
    obtain ⟨hpair, hv⟩ := Prod.mk.inj (Option.some.inj hh)
    obtain ⟨rfl, -⟩ := Prod.mk.inj hpair
    exact ⟨u, hprocess, rfl, .commits hfinal rfl (Prod.ext rfl hv)⟩
  | false =>
    rw [handle_of_unended hprocess hfinal] at hh
    obtain ⟨⟨reply, v'⟩, hrewind, heq⟩ := Option.map_eq_some_iff.1 hh
    obtain ⟨hpair, rfl⟩ := Prod.mk.inj heq
    obtain ⟨rfl, -⟩ := Prod.mk.inj hpair
    exact ⟨u, hprocess, rfl, .rewinds hfinal rfl hrewind⟩

/-- The ways that a turn goes, and whether there will be another. -/
inductive Goes (p : Pipeline) (tracked : Attempts) (w : Surroundings) :
    Turn → Attempts → Bool → Surroundings → Prop where
  | stopped (told : w.signal.value = true) : Goes p tracked w .stopped tracked false w
  | interrupted {v : Surroundings} (fetch : w.fetch = some (.interrupted, v)) :
      Goes p tracked w .stopped tracked false v
  | missed {cause : SourceError} {u v : Surroundings} {again : Bool} (fetch : w.fetch = some (.failed cause, u))
      (pause : u.pause p.retryInterval = (again, v)) : Goes p tracked w (.missed cause) tracked again v
  | ended {m : Message} {h : Handled} {tracked' : Attempts} {u v : Surroundings}
      (fetch : w.fetch = some (.message m, u))
      (handle : p.handle facilities.toFacilities tracked m u = some ((h, tracked'), v))
      (final : h.outcome.isFinal = true) : Goes p tracked w (.took m h) tracked' true v
  | unended {m : Message} {h : Handled} {tracked' : Attempts} {u u' v : Surroundings} {again : Bool}
      (fetch : w.fetch = some (.message m, u))
      (handle : p.handle facilities.toFacilities tracked m u = some ((h, tracked'), u'))
      (final : h.outcome.isFinal = false) (pause : u'.pause p.retryInterval = (again, v)) :
      Goes p tracked w (.took m h) tracked' again v

theorem turn_goes {tracked tracked' : Attempts} {t : Turn} {again : Bool}
    (h : p.turn facilities tracked w = some ((t, tracked', again), v)) : p.Goes tracked w t tracked' again v := by
  obtain ⟨stopping, w₁, hstopping, h⟩ := Scripted.bind_some h
  obtain ⟨rfl, rfl⟩ := Prod.mk.inj (Scripted.total_some hstopping)
  split at h
  · next hvalue =>
    obtain ⟨heq, rfl⟩ := Scripted.pure_some h
    obtain ⟨rfl, rfl, rfl⟩ := heq
    exact .stopped hvalue
  · obtain ⟨fetched, w₁, hfetch, h⟩ := Scripted.bind_some h
    cases fetched with
    | interrupted =>
      obtain ⟨heq, rfl⟩ := Scripted.pure_some h
      obtain ⟨rfl, rfl, rfl⟩ := heq
      exact .interrupted hfetch
    | failed cause =>
      obtain ⟨again', w₂, hpause, h⟩ := Scripted.bind_some h
      obtain ⟨heq, rfl⟩ := Scripted.pure_some h
      obtain ⟨rfl, rfl, rfl⟩ := heq
      exact .missed hfetch (Scripted.total_some hpause)
    | message m =>
      obtain ⟨⟨handled, tracked₁⟩, w₂, hhandle, h⟩ := Scripted.bind_some h
      dsimp only at h
      split at h
      · next hfinal =>
        obtain ⟨heq, rfl⟩ := Scripted.pure_some h
        obtain ⟨rfl, rfl, rfl⟩ := heq
        exact .ended hfetch hhandle hfinal
      · next hunended =>
        obtain ⟨again', w₃, hpause, h⟩ := Scripted.bind_some h
        obtain ⟨heq, rfl⟩ := Scripted.pure_some h
        obtain ⟨rfl, rfl, rfl⟩ := heq
        exact .unended hfetch hhandle (by simpa using hunended) (Scripted.total_some hpause)

end Pipeline

end OrderDepot.Delivery
