import OrderDepot.Proofs.Delivery.Pacing

/-!
# How many turns a run has

A turn after which the loop goes on either takes a message away for good, or it ends with a pause that the signal
does not cut short. There are only so many messages. There is only so much time for pauses as well if the agenda tells
the loop to stop: as long as it has not done so, the agenda is not at its end, and no pause goes beyond its next event.
So a run that returns does so within a number of turns that is known beforehand.
-/

namespace OrderDepot.Delivery

theorem Ledger.Step.length_coming {l l' : Ledger} {t : Turn} (h : Ledger.Step l t l') :
    l'.coming.length ≤ l.coming.length := by
  cases h with
  | stopped => exact Nat.le_refl _
  | missed => exact Nat.le_refl _
  | ended => exact Nat.le_succ _
  | rewound => exact Nat.le_refl _
  | lost => exact Nat.le_succ _

theorem Ledger.Step.length_coming_ended {l l' : Ledger} {m : Message} {h : Handled}
    (hstep : Ledger.Step l (.took m h) l') (final : h.outcome.isFinal = true) :
    l'.coming.length + 1 = l.coming.length := by
  cases hstep with
  | ended => rfl
  | rewound unended => cases final.symm.trans unended
  | lost unended => cases final.symm.trans unended

namespace Surroundings

variable {w v : Surroundings}

theorem length_coming_le (w : Surroundings) :
    w.ledger.coming.length ≤ w.queue.length + w.agenda.length := by
  simp only [ledger, List.length_append]
  exact Nat.add_le_add (List.length_filterMap_le _ _) (List.length_filterMap_le _ _)

theorem quiet_of_pause {interval : Time.Duration} (hpos : 0 < interval.nanos)
    (h : w.pause interval = (true, v)) :
    v.signal.changed = false ∧ ∀ e ∈ v.agenda.head?, v.clock ≤ e.1 := by
  have hclock := clock_pause h
  rcases pause_goes_on h with ⟨hzero, -⟩ | ⟨rfl, hsame⟩
  · cases hpos.ne' hzero
  · rw [hclock]
    exact ⟨hsame, (waitUntil_unchanged w.agenda (Nat.le_add_right _ _) hsame).2⟩

theorem le_foldl_max (events : List (Nat × Event)) (t : Nat) :
    t ≤ events.foldl (fun t e => max t e.1) t ∧ ∀ e ∈ events, e.1 ≤ events.foldl (fun t e => max t e.1) t := by
  induction events generalizing t with
  | nil => exact ⟨Nat.le_refl _, fun _ h => absurd h List.not_mem_nil⟩
  | cons e events ih =>
    obtain ⟨hstart, hevents⟩ := ih (max t e.1)
    exact ⟨Nat.le_trans (Nat.le_max_left _ _) hstart,
      List.forall_mem_cons.2 ⟨Nat.le_trans (Nat.le_max_right _ _) hstart, hevents⟩⟩

theorem le_lastTime (w : Surroundings) : w.clock ≤ w.lastTime ∧ ∀ e ∈ w.agenda, e.1 ≤ w.lastTime :=
  le_foldl_max w.agenda w.clock

theorem clock_le_lastTime (hheard : w.Heard v) (hsame : v.signal.changed = false)
    (hstops : ∃ e ∈ w.agenda, e.2.stops = true) (hnext : ∀ e ∈ v.agenda.head?, v.clock ≤ e.1) :
    v.clock ≤ w.lastTime := by
  obtain ⟨passed, hagenda, hsignal⟩ := hheard
  rw [hsignal] at hsame
  obtain ⟨-, hnone⟩ := changed_hearAll hsame
  obtain ⟨stop, hmem, hstop⟩ := hstops
  rw [hagenda] at hmem
  rcases List.mem_append.1 hmem with hpassed | hleft
  · cases (hnone stop hpassed).symm.trans hstop
  · obtain ⟨next, rest, hrest⟩ := List.exists_cons_of_ne_nil (List.ne_nil_of_mem hleft)
    have hplanned : next ∈ w.agenda := by simp [hagenda, hrest]
    exact Nat.le_trans (hnext next (by simp [hrest])) (w.le_lastTime.2 next hplanned)

end Surroundings

namespace Pipeline

open Surroundings (facilities)

variable {p : Pipeline} {w v : Surroundings} {stats : Stats}

/-- A turn with another one to come has taken a message away for good, or it has paused. -/
theorem turn_spends {tracked tracked' : Attempts} {t : Turn} (hpos : 0 < p.retryInterval.nanos)
    (h : (p.turn facilities tracked).run w = some ((t, tracked', true), v)) :
    w.clock ≤ v.clock ∧ v.ledger.coming.length + 1 ≤ w.ledger.coming.length ∨
      (w.clock + p.retryInterval.nanos ≤ v.clock ∧ v.ledger.coming.length ≤ w.ledger.coming.length) ∧
        v.signal.changed = false ∧ ∀ e ∈ v.agenda.head?, v.clock ≤ e.1 := by
  have hstep := turn_step h
  cases turn_goes h with
  | missed fetch pause =>
    have hfetch := Surroundings.le_clock_fetch fetch
    have hpause := Surroundings.clock_pause pause
    exact .inr ⟨⟨by omega, hstep.length_coming⟩, Surroundings.quiet_of_pause hpos pause⟩
  | ended fetch handle final =>
    have hfetch := Surroundings.le_clock_fetch fetch
    have hhandle := le_clock_handle handle
    exact .inl ⟨by omega, Nat.le_of_eq (hstep.length_coming_ended final)⟩
  | unended fetch handle final pause =>
    have hfetch := Surroundings.le_clock_fetch fetch
    have hhandle := le_clock_handle handle
    have hpause := Surroundings.clock_pause pause
    exact .inr ⟨⟨by omega, hstep.length_coming⟩, Surroundings.quiet_of_pause hpos pause⟩

/-- Each turn so far has taken a message away for good or paused, and all pauses were over in time. -/
theorem reaches_spends {ts : List Turn} {tracked : Attempts} {u : Surroundings} (hpos : 0 < p.retryInterval.nanos)
    (hstops : ∃ e ∈ w.agenda, e.2.stops = true) (h : p.Reaches w ts tracked u) :
    ∃ pauses, ts.length + u.ledger.coming.length ≤ w.ledger.coming.length + pauses ∧
      w.clock + pauses * p.retryInterval.nanos ≤ u.clock ∧
      w.clock + pauses * p.retryInterval.nanos ≤ w.lastTime := by
  induction h with
  | start => exact ⟨0, by simp, by simp, by simpa using w.le_lastTime.1⟩
  | @turn ts tracked tracked' t u v hreached hturn ih =>
    obtain ⟨pauses, hturns, hclock, hlast⟩ := ih
    rw [List.length_append, List.length_singleton]
    rcases turn_spends hpos hturn with ⟨hlater, htaken⟩ | ⟨⟨hlater, hleft⟩, hsame, hnext⟩
    · exact ⟨pauses, by omega, by omega, hlast⟩
    · -- The signal has not changed, so the event that tells the loop to stop is still planned.
      obtain ⟨hheard, -⟩ := reaches_account (hreached.turn hturn)
      have hplanned := Surroundings.clock_le_lastTime hheard hsame hstops hnext
      have hpauses := Nat.add_one_mul pauses p.retryInterval.nanos
      exact ⟨pauses + 1, by omega, by omega, by omega⟩

theorem length_le_turnBound {ts : List Turn} (hpos : 0 < p.retryInterval.nanos)
    (hstops : ∃ e ∈ w.agenda, e.2.stops = true) (h : p.Stops w ts v) :
    ts.length ≤ w.turnBound p.retryInterval := by
  obtain ⟨hreached, -⟩ := h
  obtain ⟨pauses, hturns, -, hlast⟩ := reaches_spends hpos hstops hreached
  have hpauses : pauses ≤ (w.lastTime - w.clock) / max 1 p.retryInterval.nanos := by
    rw [Nat.max_eq_right hpos, Nat.le_div_iff_mul_le hpos]
    omega
  have hmessages := w.length_coming_le
  rw [List.length_append, List.length_singleton, Surroundings.turnBound]
  omega

/-- If the agenda tells the loop to stop, a run has a result just if the loop stops by itself, and it is that of the
loop. -/
theorem run_eq_some_iff (hpos : 0 < p.retryInterval.nanos) (hstops : ∃ e ∈ w.agenda, e.2.stops = true) :
    p.run w = some (stats, v) ↔ p.Returns w stats v := by
  refine ⟨returns_of_run, fun h => ?_⟩
  obtain ⟨ts, hturns, rfl⟩ := returns_iff_stops.1 h
  obtain ⟨s, hrun, hstats⟩ := turns_of_stops hturns (length_le_turnBound hpos hstops hturns)
  rw [run, hrun, ← hstats]

end Pipeline

end OrderDepot.Delivery
