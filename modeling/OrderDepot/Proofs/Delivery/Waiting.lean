import OrderDepot.Delivery.Run

/-!
# Time that passes

Whatever the surroundings wait for, they do nothing but move the clock and work off the agenda event by event. What
holds of these two steps holds of every wait.
-/

namespace OrderDepot.Delivery.Surroundings

/-- Time passes, and the events at the front of the agenda happen. -/
inductive Passes : Surroundings → Surroundings → Prop where
  | still {w : Surroundings} : Passes w w
  | later {w : Surroundings} {clock : Nat} : Passes w { w with clock }
  | event {w v : Surroundings} {t clock : Nat} {e : Event} {rest : List (Nat × Event)}
      (after : Passes { apply { w with clock } e with agenda := rest } v) :
      Passes { w with agenda := (t, e) :: rest } v

variable {w v : Surroundings}

theorem passes_waitUntil (wake : Surroundings → Bool) (deadline : Nat) (events : List (Nat × Event))
    (w : Surroundings) : Passes { w with agenda := events } (waitUntil wake deadline events w) := by
  induction events generalizing w with
  | nil =>
    simp only [waitUntil]
    split
    · exact .still
    · exact .later
  | cons e rest ih =>
    obtain ⟨t, e⟩ := e
    simp only [waitUntil]
    split
    · exact .still
    · split
      · exact .later
      · exact .event (ih _)

theorem passes_waitFor {wake : Surroundings → Bool} {events : List (Nat × Event)}
    (h : waitFor wake events w = some v) : Passes { w with agenda := events } v := by
  induction events generalizing w with
  | nil =>
    simp only [waitFor] at h
    split at h
    · obtain rfl := Option.some.inj h
      exact .still
    · cases h
  | cons e rest ih =>
    obtain ⟨t, e⟩ := e
    simp only [waitFor] at h
    split at h
    · obtain rfl := Option.some.inj h
      exact .still
    · exact .event (ih h)

theorem passes_sleep (w : Surroundings) (nanos : Nat) : Passes w (w.sleep nanos) := by
  unfold sleep
  split
  · exact .still
  · exact passes_waitUntil _ _ w.agenda w

end OrderDepot.Delivery.Surroundings
