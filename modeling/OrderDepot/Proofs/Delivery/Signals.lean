import OrderDepot.Proofs.Delivery.Waiting

/-!
# What the signal hears

On the way from one state of the surroundings to another the front of the agenda has happened, and the signal has
heard it. As long as a change waits to be noticed, whoever was told to stop can see it.
-/

namespace OrderDepot.Delivery

def Signal.hear (s : Signal) : Event → Signal
  | .signal value => s.send value
  | .close => s.close
  | .set _ _ | .arrive _ => s

def Signal.hearAll (s : Signal) (events : List (Nat × Event)) : Signal :=
  events.foldl (fun s e => s.hear e.2) s

def Event.stops : Event → Bool
  | .signal value => value
  | .close => true
  | .set _ _ | .arrive _ => false

theorem changed_hear {s : Signal} {e : Event} (h : (s.hear e).changed = false) :
    s.hear e = s ∧ e.stops = false := by
  cases e with
  | set kind b => exact ⟨rfl, rfl⟩
  | arrive a => exact ⟨rfl, rfl⟩
  | signal value => cases h
  | close => simp [Signal.hear, Signal.close, Signal.changed] at h

theorem changed_hearAll {s : Signal} {events : List (Nat × Event)} (h : (s.hearAll events).changed = false) :
    s.hearAll events = s ∧ ∀ e ∈ events, e.2.stops = false := by
  induction events generalizing s with
  | nil => exact ⟨rfl, fun _ hmem => absurd hmem List.not_mem_nil⟩
  | cons e events ih =>
    obtain ⟨hrest, hevents⟩ := ih h
    have hall : s.hearAll (e :: events) = s.hear e.2 := hrest
    rw [hall] at h ⊢
    obtain ⟨heq, hstops⟩ := changed_hear h
    exact ⟨heq, List.forall_mem_cons.2 ⟨hstops, hevents⟩⟩

namespace Surroundings

variable {u w v : Surroundings}

/-- What has happened on the way is gone from the agenda, and the signal has heard it. -/
def Heard (w v : Surroundings) : Prop :=
  ∃ passed, w.agenda = passed ++ v.agenda ∧ v.signal = w.signal.hearAll passed

theorem Heard.refl (w : Surroundings) : w.Heard w := ⟨[], rfl, rfl⟩

theorem Heard.trans (h : u.Heard w) (h' : w.Heard v) : u.Heard v := by
  obtain ⟨passed, hagenda, hsignal⟩ := h
  obtain ⟨passed', hagenda', hsignal'⟩ := h'
  refine ⟨passed ++ passed', ?_, ?_⟩
  · rw [hagenda, hagenda', List.append_assoc]
  · rw [hsignal', hsignal, Signal.hearAll, Signal.hearAll, Signal.hearAll, List.foldl_append]

/-- The signal has said stop since `w`, or it has lost its sender. -/
def Told (w u : Surroundings) : Prop :=
  w.signal.value = true ∨ w.signal.closed = true ∨
    ∃ passed, w.agenda = passed ++ u.agenda ∧ ∃ e ∈ passed, e.2.stops = true

theorem Heard.signal_eq (h : w.Heard v) (hsame : v.signal.changed = false) : v.signal = w.signal := by
  obtain ⟨passed, -, hsignal⟩ := h
  rw [hsignal] at hsame ⊢
  exact (changed_hearAll hsame).1

theorem Heard.of_told (h : w.Heard u) (htold : w.Told u) : u.signal.value = true ∨ u.signal.changed = true := by
  obtain ⟨passed, hagenda, hsignal⟩ := h
  cases hchanged : u.signal.changed with
  | true => exact .inr rfl
  | false =>
    rw [hsignal] at hchanged
    obtain ⟨hsame, hnone⟩ := changed_hearAll hchanged
    rw [hsame] at hchanged hsignal
    rcases htold with hvalue | hclosed | ⟨passed', hagenda', e, he, hstops⟩
    · exact .inl (hsignal ▸ hvalue)
    · simp [Signal.changed, hclosed] at hchanged
    · obtain rfl : passed = passed' := List.append_cancel_right (hagenda ▸ hagenda')
      rw [hnone e he] at hstops
      cases hstops

theorem heard_apply (w : Surroundings) (t clock : Nat) (e : Event) (rest : List (Nat × Event)) :
    ({ w with agenda := (t, e) :: rest } : Surroundings).Heard { apply { w with clock } e with agenda := rest } :=
  ⟨[(t, e)], rfl, by cases e <;> rfl⟩

end Surroundings

end OrderDepot.Delivery
