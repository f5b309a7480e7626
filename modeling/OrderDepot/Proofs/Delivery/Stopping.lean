import OrderDepot.Proofs.Delivery.Shutdown

/-!
# What ends a run

The loop looks at the signal at the top of a turn, while it waits for a message and in a pause. While it waits it
notices that something was sent, and not what. So a run that returns was told to stop, or it was told to go on.
-/

namespace OrderDepot.Delivery

theorem hearAll_of_hear (mark : Signal → Bool)
    (hhear : ∀ s e, mark (s.hear e) = true → mark s = true ∨ e.stops = true) {s : Signal}
    {events : List (Nat × Event)} (h : mark (s.hearAll events) = true) :
    mark s = true ∨ ∃ e ∈ events, e.2.stops = true := by
  induction events generalizing s with
  | nil => exact .inl h
  | cons e events ih =>
    rcases ih h with hfirst | ⟨e', he', hstops⟩
    · rcases hhear s e.2 hfirst with hbefore | hstops
      · exact .inl hbefore
      · exact .inr ⟨e, List.mem_cons_self, hstops⟩
    · exact .inr ⟨e', List.mem_cons_of_mem _ he', hstops⟩

theorem value_hear (s : Signal) (e : Event) (h : (s.hear e).value = true) : s.value = true ∨ e.stops = true := by
  cases e with
  | signal value => exact .inr h
  | close => exact .inl h
  | set kind b => exact .inl h
  | arrive a => exact .inl h

theorem closed_hear (s : Signal) (e : Event) (h : (s.hear e).closed = true) : s.closed = true ∨ e.stops = true := by
  cases e with
  | signal value => exact .inl h
  | close => exact .inr rfl
  | set kind b => exact .inl h
  | arrive a => exact .inl h

theorem unseen_hearAll {s : Signal} {events : List (Nat × Event)} :
    (s.hearAll events).unseen = true ↔ s.unseen = true ∨ ∃ e ∈ events, ∃ value, e.2 = .signal value := by
  induction events generalizing s with
  | nil => simp [Signal.hearAll]
  | cons e events ih =>
    obtain ⟨t, e⟩ := e
    have hrest : s.hearAll ((t, e) :: events) = (s.hear e).hearAll events := rfl
    rw [hrest, ih]
    cases e <;> simp [Signal.hear, Signal.send, Signal.close]

namespace Surroundings

variable {u w v : Surroundings}

/-- Since `w` the signal was told to go on, or it was told so before and nobody has noticed. -/
def ToldToGoOn (w u : Surroundings) : Prop :=
  (w.signal.unseen = true ∧ w.signal.value = false) ∨
    ∃ passed, w.agenda = passed ++ u.agenda ∧ ∃ e ∈ passed, e.2 = .signal false

/-- On the way from `w` the signal gave a reason to stop, which is noticed in `v`. -/
def Noticed (w v : Surroundings) : Prop :=
  ∃ s : Signal, w.Heard { v with signal := s } ∧ (s.value = true ∨ s.changed = true)

theorem Heard.noticed (h : u.Heard w) (hnoticed : w.Noticed v) : u.Noticed v := by
  obtain ⟨s, hheard, hreason⟩ := hnoticed
  exact ⟨s, h.trans hheard, hreason⟩

theorem Noticed.told_or (h : w.Noticed v) : w.Told v ∨ w.ToldToGoOn v := by
  obtain ⟨s, ⟨passed, hagenda, rfl⟩, hreason⟩ := h
  have hevent : (∃ e ∈ passed, e.2.stops = true) → w.Told v := fun hstops => .inr (.inr ⟨passed, hagenda, hstops⟩)
  rcases hreason with hvalue | hchanged
  · exact .inl ((hearAll_of_hear Signal.value value_hear hvalue).elim .inl hevent)
  · rcases Bool.or_eq_true_iff.1 hchanged with hunseen | hclosed
    · rcases unseen_hearAll.1 hunseen with hbefore | ⟨e, he, value, hsent⟩
      · cases hvalue : w.signal.value with
        | true => exact .inl (.inl hvalue)
        | false => exact .inr (.inl ⟨hbefore, hvalue⟩)
      · cases value with
        | true => exact .inl (hevent ⟨e, he, by rw [hsent]; rfl⟩)
        | false => exact .inr (.inr ⟨passed, hagenda, e, he, hsent⟩)
    · exact .inl ((hearAll_of_hear Signal.closed closed_hear hclosed).elim (fun h => .inr (.inl h)) hevent)

theorem Heard.changed_of_toldToGoOn (h : w.Heard u) (htold : w.ToldToGoOn u) : u.signal.changed = true := by
  obtain ⟨passed, hagenda, hsignal⟩ := h
  have hunseen : u.signal.unseen = true := by
    rw [hsignal, unseen_hearAll]
    rcases htold with ⟨hbefore, -⟩ | ⟨passed', hagenda', e, he, hfalse⟩
    · exact .inl hbefore
    · obtain rfl : passed = passed' := List.append_cancel_right (hagenda ▸ hagenda')
      exact .inr ⟨e, he, false, hfalse⟩
  simp [Signal.changed, hunseen]

theorem noticed_fetchNow (h : w.fetchNow = some (.interrupted, v)) : w.Noticed v := by
  simp only [fetchNow] at h
  split at h
  · next hchanged =>
    obtain ⟨-, rfl⟩ := Prod.mk.inj (Option.some.inj h)
    exact ⟨w.signal, .refl w, .inr hchanged⟩
  · split at h <;> cases h

theorem noticed_fetch (h : w.fetch = some (.interrupted, v)) : w.Noticed v := by
  simp only [fetch] at h
  split at h
  · next r hr =>
    obtain rfl := Option.some.inj h
    exact noticed_fetchNow hr
  · obtain ⟨u, hu, hv⟩ := Option.bind_eq_some_iff.1 h
    exact (waits_passes (passes_waitFor hu)).heard.noticed (noticed_fetchNow hv)

theorem noticed_pause {interval : Time.Duration} (h : w.pause interval = (false, v)) : w.Noticed v := by
  unfold pause at h
  split at h
  · next hvalue =>
    obtain ⟨-, rfl⟩ := Prod.mk.inj h
    exact ⟨w.signal, .refl w, .inl hvalue⟩
  · split at h
    · next hchanged =>
      obtain ⟨-, rfl⟩ := Prod.mk.inj h
      exact ⟨w.signal, .refl w, .inr hchanged⟩
    · split at h
      · cases (Prod.mk.inj h).1
      · have hwaits := waits_passes (passes_waitUntil (·.signal.changed) (w.clock + interval.nanos) w.agenda w)
        dsimp only at h
        split at h
        · next hchanged =>
          obtain ⟨-, rfl⟩ := Prod.mk.inj h
          exact ⟨_, hwaits.heard, .inr hchanged⟩
        · cases (Prod.mk.inj h).1

end Surroundings

namespace Pipeline

open Surroundings (facilities)

variable {p : Pipeline} {w v : Surroundings}

theorem turn_noticed {tracked tracked' : Attempts} {t : Turn}
    (h : p.turn facilities tracked w = some ((t, tracked', false), v)) : w.Noticed v := by
  cases turn_goes h with
  | stopped told => exact ⟨_, .refl _, .inl told⟩
  | interrupted fetch => exact Surroundings.noticed_fetch fetch
  | missed fetch pause =>
    have hheard := ((Surroundings.writes_fetch fetch).2 nofun).1
    exact hheard.noticed (Surroundings.noticed_pause pause)
  | unended fetch handle _ pause =>
    obtain ⟨hwrites, hheard⟩ := Surroundings.writes_fetch fetch
    obtain ⟨hhandled, -⟩ := handle_account hwrites handle
    exact ((hheard nofun).1.trans hhandled).noticed (Surroundings.noticed_pause pause)

theorem stops_noticed {ts : List Turn} (h : p.Stops w ts v) : w.Noticed v := by
  obtain ⟨hreached, hturn⟩ := h
  exact (reaches_account hreached).1.noticed (turn_noticed hturn)

/-- A run that returns was told to stop or has lost the sender of the signal, or it was told to go on. And whatever
the loop was told, it returns at its next turn, without another call. -/
theorem run_ends_at_what_was_sent (p : Pipeline) (w : Surroundings) :
    (∀ stats v, p.Returns w stats v → w.Told v ∨ w.ToldToGoOn v) ∧
      ∀ ts tracked u, p.Reaches w ts tracked u → w.Told u ∨ w.ToldToGoOn u →
        ∃ v, p.Returns w (ts.foldl Stats.record {}) v ∧ v.trace = u.trace ∧ v.queue = u.queue := by
  constructor
  · intro stats v hreturns
    obtain ⟨ts, hstops, -⟩ := returns_iff_stops.1 hreturns
    exact (stops_noticed hstops).told_or
  · intro ts tracked u hreached htold
    have hheard := (reaches_account hreached).1
    have hseen : u.signal.value = true ∨ u.signal.changed = true :=
      htold.elim hheard.of_told fun hgoOn => .inr (hheard.changed_of_toldToGoOn hgoOn)
    obtain ⟨v, hturn, htrace, hqueue⟩ := turn_of_told (p := p) tracked hseen
    refine ⟨v, returns_iff_stops.2 ⟨_, .turn hreached hturn, ?_⟩, htrace, hqueue⟩
    rw [List.foldl_append]
    rfl

end Pipeline

def Surroundings.recall : Surroundings where
  agenda := [(500000000, .signal false), (3000000000, .signal true)]

def Surroundings.encouraged : Surroundings where
  agenda := [(10, .signal false), (20, .signal true)]
  queue := [.ok (.blank 0), .ok (.blank 1)]
  conditions := fun n _ => if n = 2 then .stalls else .succeeds 0

theorem recall_returns : ∃ v, Pipeline.Returns {} .recall {} v ∧ v.clock = 500000000 ∧
    v.agenda = [(3000000000, .signal true)] :=
  ⟨_, ⟨1, ⟨.empty, {}⟩, rfl, rfl⟩, rfl, rfl⟩

theorem encouraged_run_returns :
    (∃ v, Pipeline.Returns {} .recall {} v ∧ (Surroundings.recall.Told v ∨ Surroundings.recall.ToldToGoOn v)) ∧
      ∃ ts tracked u v, Pipeline.Reaches {commitLimit := ⟨15⟩} .encouraged ts tracked u ∧
        Surroundings.encouraged.ToldToGoOn u ∧
        Pipeline.Returns {commitLimit := ⟨15⟩} .encouraged { deadLettered := 1, commitFailures := 1 } v ∧
        v.trace = u.trace ∧ v.queue = [.ok (.blank 1)] := by
  constructor
  · obtain ⟨v, hreturns, -, -⟩ := recall_returns
    exact ⟨v, hreturns, (Pipeline.run_ends_at_what_was_sent {} .recall).1 _ v hreturns⟩
  · have hreached : ∃ ts tracked u, Pipeline.Reaches {commitLimit := ⟨15⟩} .encouraged ts tracked u ∧
        Surroundings.encouraged.ToldToGoOn u ∧
        ts.foldl Stats.record {} = { deadLettered := 1, commitFailures := 1 } ∧ u.queue = [.ok (.blank 1)] :=
      ⟨_, _, _, Pipeline.Reaches.start.turn rfl, .inr ⟨[(10, .signal false)], rfl, _, List.mem_cons_self, rfl⟩,
        rfl, rfl⟩
    obtain ⟨ts, tracked, u, hreached, htold, hcounts, hqueue⟩ := hreached
    obtain ⟨v, hreturns, htrace, hsame⟩ :=
      (Pipeline.run_ends_at_what_was_sent _ _).2 ts tracked u hreached (.inr htold)
    exact ⟨ts, tracked, u, v, hreached, htold, hcounts ▸ hreturns, htrace, hsame.trans hqueue⟩

/-- A run returns though the signal has never said stop and its sender is there. -/
theorem run_ends_untold : ∃ v, Pipeline.Returns {} .recall {} v ∧ ¬ Surroundings.recall.Told v := by
  obtain ⟨v, hreturns, -, hagenda⟩ := recall_returns
  refine ⟨v, hreturns, ?_⟩
  rintro (hvalue | hclosed | ⟨passed, hpassed, e, he, hstops⟩)
  · cases hvalue
  · cases hclosed
  · obtain rfl : passed = [(500000000, .signal false)] := by
      rw [hagenda] at hpassed
      have hsplit : [(500000000, Event.signal false)] ++ [(3000000000, Event.signal true)] =
          passed ++ [(3000000000, Event.signal true)] := hpassed
      exact (List.append_cancel_right hsplit).symm
    rw [List.mem_singleton.1 he] at hstops
    cases hstops

end OrderDepot.Delivery
