import OrderDepot.Proofs.Delivery.Courses

/-!
# How long a message is handled

Storing, publishing and committing end within their limits, and handling takes no longer than one of the first two and
a commit. A rewind has no limit: a message that did not end is handled for as long as the source takes to go back.
-/

namespace OrderDepot.Delivery

/-- A commit ends within this time whatever was called before it. -/
def Pipeline.deadline (p : Pipeline) (w : Surroundings) : Nat :=
  w.clock + max p.storeLimit.nanos p.publishLimit.nanos + p.commitLimit.nanos

namespace Pipeline

open Surroundings (facilities)

variable {p : Pipeline} {tracked : Attempts} {m : Message} {attempt : UInt32} {w u : Surroundings} {outcome : Outcome}

theorem final_in_time (hprocess : p.process facilities.toFacilities m (tracked.next m.position) w = some (outcome, u))
    (hfinal : outcome.isFinal = true) :
    ∃ r, p.handle facilities.toFacilities tracked m w = some r ∧ r.2.clock ≤ p.deadline w := by
  obtain ⟨reply, v, hcommit⟩ : ∃ reply v, Surroundings.commit p.commitLimit m u = (reply, v) := ⟨_, _, rfl⟩
  have hbefore := (processed_of_process hprocess).clock_le
  have hafter := (Surroundings.returned_commit hcommit).clock_le
  refine ⟨_, handle_of_final hprocess hfinal hcommit, ?_⟩
  simp only [deadline]
  omega

theorem unended_returns_iff
    (hprocess : p.process facilities.toFacilities m (tracked.next m.position) w = some (outcome, u))
    (hunended : outcome.isFinal = false) (t : Nat) :
    (∃ r, p.handle facilities.toFacilities tracked m w = some r ∧ r.2.clock = t) ↔
      ∃ wait, (u.conditions u.calls .rewind).lasting? = some wait ∧ t = u.clock + wait := by
  rw [handle_of_unended hprocess hunended]
  cases hrewind : u.rewind m with
  | none => simp [(Surroundings.rewind_eq_none_iff m u).1 hrewind]
  | some r =>
    obtain ⟨reply, v⟩ := r
    obtain ⟨-, wait, hwait, hclock⟩ := Surroundings.rewind_does hrewind
    simp [hwait, hclock, eq_comm]

/-- Processing is over in time. Then handling returns in time just if the message ended or the source goes back in
time, and it returns at all just if the message ended or the source goes back. -/
theorem handle_in_time_iff (p : Pipeline) (tracked : Attempts) (m : Message) (w : Surroundings) :
    ∃ outcome u, p.process facilities.toFacilities m (tracked.next m.position) w = some (outcome, u) ∧
      u.clock ≤ w.clock + max p.storeLimit.nanos p.publishLimit.nanos ∧
      ((∃ r, p.handle facilities.toFacilities tracked m w = some r) ↔
        outcome.isFinal = true ∨ ∃ wait, (u.conditions u.calls .rewind).lasting? = some wait) ∧
      ((∃ r, p.handle facilities.toFacilities tracked m w = some r ∧ r.2.clock ≤ p.deadline w) ↔
        outcome.isFinal = true ∨
          ∃ wait, (u.conditions u.calls .rewind).lasting? = some wait ∧ u.clock + wait ≤ p.deadline w) := by
  obtain ⟨outcome, u, hprocess⟩ := process_total p m (tracked.next m.position) w
  refine ⟨outcome, u, hprocess, (processed_of_process hprocess).clock_le, ?_⟩
  cases hfinal : outcome.isFinal with
  | true =>
    obtain ⟨r, hhandle, htime⟩ := final_in_time hprocess hfinal
    exact ⟨iff_of_true ⟨r, hhandle⟩ (.inl rfl), iff_of_true ⟨r, hhandle, htime⟩ (.inl rfl)⟩
  | false =>
    have hreturns := unended_returns_iff hprocess hfinal
    simp only [Bool.false_eq_true, false_or]
    constructor
    · constructor
      · intro ⟨r, hhandle⟩
        obtain ⟨wait, hwait, -⟩ := (hreturns _).1 ⟨r, hhandle, rfl⟩
        exact ⟨wait, hwait⟩
      · intro ⟨wait, hwait⟩
        obtain ⟨r, hhandle, -⟩ := (hreturns _).2 ⟨wait, hwait, rfl⟩
        exact ⟨r, hhandle⟩
    · constructor
      · intro ⟨r, hhandle, htime⟩
        obtain ⟨wait, hwait, hclock⟩ := (hreturns _).1 ⟨r, hhandle, rfl⟩
        exact ⟨wait, hwait, hclock ▸ htime⟩
      · intro ⟨wait, hwait, htime⟩
        obtain ⟨r, hhandle, hclock⟩ := (hreturns _).2 ⟨wait, hwait, rfl⟩
        exact ⟨r, hhandle, hclock ▸ htime⟩

end Pipeline

def Surroundings.blocked (rewind : Behaviour) : Surroundings where
  conditions _ kind :=
    match kind with
    | .publish => .fails
    | .rewind => rewind
    | .save | .commit => .succeeds 0

open Surroundings (facilities) in
/-- A message is handled for ever if the source does not go back, and for as long as that takes if it does. -/
theorem handle_waits_for_rewind :
    ({} : Pipeline).handle facilities.toFacilities .empty (.blank 0) (.blocked .stalls) = none ∧
      ∃ r, ({} : Pipeline).handle facilities.toFacilities .empty (.blank 0)
          (.blocked (.succeeds 20000000000)) = some r ∧
        Pipeline.deadline {} (.blocked (.succeeds 20000000000)) < r.2.clock :=
  ⟨rfl, _, rfl, by decide⟩

end OrderDepot.Delivery
