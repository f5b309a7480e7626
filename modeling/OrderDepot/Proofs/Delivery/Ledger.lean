import OrderDepot.Proofs.Delivery.Waiting

/-!
# What becomes of the messages of a source

The ledger of scripted surroundings: the messages that are still to be delivered, the positions that commit was
called for, and the positions that a rewind failed for. Time that passes does not touch it, nor do storing and
publishing; a fetch, a commit and a rewind make one entry each.
-/

namespace OrderDepot.Delivery

structure Ledger where
  coming : List Message
  committed : List Position
  lost : List Position

def Arrival.message? : Arrival → Option Message
  | .ok m => some m
  | .error _ => none

def Event.message? : Event → Option Message
  | .arrive a => a.message?
  | .set _ _ | .signal _ | .close => none

namespace Call

def committed? : Call → Option Position
  | .commit p => some p
  | .fetch _ | .fetchError | .save _ | .publish _ | .rewind _ => none

def rewound? : Call → Option Position
  | .rewind p => some p
  | .fetch _ | .fetchError | .save _ | .publish _ | .commit _ => none

end Call

namespace Surroundings

variable {w v : Surroundings}

def ledger (w : Surroundings) : Ledger where
  coming := w.queue.filterMap Arrival.message? ++ w.agenda.filterMap fun e => e.2.message?
  committed := w.trace.filterMap fun c => c.2.committed?
  lost := w.failures.filterMap Call.rewound?

theorem mem_lost (w : Surroundings) (q : Position) : q ∈ w.ledger.lost ↔ .rewind q ∈ w.failures := by
  constructor
  · intro hq
    obtain ⟨c, hc, heq⟩ := List.mem_filterMap.1 hq
    cases c <;> cases heq
    exact hc
  · intro hmem
    exact List.mem_filterMap.2 ⟨_, hmem, rfl⟩

theorem ledger_apply (w : Surroundings) (t clock : Nat) (e : Event) (rest : List (Nat × Event)) :
    ({ apply { w with clock } e with agenda := rest } : Surroundings).ledger =
      ({ w with agenda := (t, e) :: rest } : Surroundings).ledger := by
  cases e with
  | set kind b => rfl
  | signal value => rfl
  | close => rfl
  | arrive a => cases a <;> simp [ledger, apply, Event.message?, Arrival.message?]

theorem ledger_passes (h : w.Passes v) : v.ledger = w.ledger := by
  induction h with
  | still => rfl
  | later => rfl
  | @event w v t clock e rest _ ih => exact ih.trans (ledger_apply w t clock e rest)

theorem ledger_pause (w : Surroundings) (interval : Time.Duration) :
    (w.pause interval).2.ledger = w.ledger := by
  unfold pause
  split
  · rfl
  · split
    · rfl
    · split
      · rfl
      · have h := ledger_passes (passes_waitUntil (·.signal.changed) (w.clock + interval.nanos) w.agenda w)
        dsimp only
        split <;> exact h

theorem ledger_answer {ε : Type} (w : Surroundings) (behaviour : Behaviour) (limit : Time.Duration) (cause : ε)
    {effect : Surroundings → Reply ε × Surroundings} (heffect : ∀ u, (effect u).2.ledger = u.ledger) :
    (w.answer behaviour limit cause effect).2.ledger = w.ledger := by
  have hsleep : ∀ nanos, (w.sleep nanos).ledger = w.ledger := fun nanos => ledger_passes (passes_sleep w nanos)
  cases behaviour with
  | succeeds after =>
    simp only [answer]
    split
    · exact (heffect _).trans (hsleep after)
    · exact hsleep _
  | fails after =>
    simp only [answer]
    split <;> exact hsleep _
  | stalls => exact hsleep _

theorem ledger_ended {ε : Type} (w : Surroundings) {c : Call} (hc : c.rewound? = none) (reply : Reply ε) :
    (w.ended c reply).ledger = w.ledger := by
  cases reply <;> simp [ended, ledger, hc]

theorem ledger_limited {ε : Type} (kind : CallKind) {c : Call} (hc : c.rewound? = none) (limit : Time.Duration)
    (cause : ε) {effect : Surroundings → Reply ε × Surroundings}
    (heffect : ∀ u, (effect u).2.ledger = u.ledger) (w : Surroundings) :
    (limited kind c limit cause effect w).2.ledger = (w.begin c).ledger := by
  simp only [limited]
  rw [ledger_ended _ hc]
  exact ledger_answer _ _ limit cause heffect

theorem ledger_save (limit : Time.Duration) (o : Order) (w : Surroundings) :
    (save limit o w).2.ledger = w.ledger := by
  refine (ledger_limited .save rfl limit _ ?_ w).trans rfl
  intro u
  split <;> rfl

theorem ledger_publish (limit : Time.Duration) (r : OutgoingRecord) (w : Surroundings) :
    (publish limit r w).2.ledger = w.ledger :=
  (ledger_limited .publish rfl limit _ (fun _ => rfl) w).trans rfl

theorem ledger_commit (limit : Time.Duration) (m : Message) (w : Surroundings) :
    (commit limit m w).2.ledger = { w.ledger with committed := m.position :: w.ledger.committed } :=
  (ledger_limited .commit rfl limit _ (fun _ => rfl) w).trans rfl

theorem ledger_rewind {m : Message} {reply : Except SourceError Unit} (h : w.rewind m = some (reply, v)) :
    v.ledger = { w.ledger with coming := m :: w.ledger.coming } ∨
      v.ledger = { w.ledger with lost := m.position :: w.ledger.lost } := by
  have hsleep : ∀ nanos, ((w.begin (.rewind m.position)).sleep nanos).ledger = w.ledger := fun nanos =>
    (ledger_passes (passes_sleep (w.begin (.rewind m.position)) nanos)).trans rfl
  simp only [rewind] at h
  split at h
  · next after _ =>
    obtain ⟨-, rfl⟩ := Prod.mk.inj (Option.some.inj h)
    rw [← hsleep after]
    exact Or.inl rfl
  · next after _ =>
    obtain ⟨-, rfl⟩ := Prod.mk.inj (Option.some.inj h)
    rw [← hsleep after]
    exact Or.inr rfl
  · cases h

def FetchEntry (l : Ledger) : Fetched → Ledger → Prop
  | .message m, l' => l.coming = m :: l'.coming ∧ l'.committed = l.committed ∧ l'.lost = l.lost
  | .failed _, l' => l' = l
  | .interrupted, l' => l' = l

theorem ledger_fetchNow {fetched : Fetched} (h : w.fetchNow = some (fetched, v)) :
    FetchEntry w.ledger fetched v.ledger := by
  simp only [fetchNow] at h
  split at h
  · obtain ⟨rfl, rfl⟩ := Prod.mk.inj (Option.some.inj h)
    rfl
  · split at h
    · cases h
    · next m queue hqueue =>
      obtain ⟨rfl, rfl⟩ := Prod.mk.inj (Option.some.inj h)
      exact ⟨by simp [ledger, hqueue, begin, Arrival.message?], rfl, rfl⟩
    · next e queue hqueue =>
      obtain ⟨rfl, rfl⟩ := Prod.mk.inj (Option.some.inj h)
      have hskip : (Except.error e :: queue).filterMap Arrival.message? =
          queue.filterMap Arrival.message? := rfl
      simp [FetchEntry, ledger, hqueue, begin, hskip, Call.committed?]

theorem ledger_fetch {fetched : Fetched} (h : w.fetch = some (fetched, v)) :
    FetchEntry w.ledger fetched v.ledger := by
  simp only [fetch] at h
  split at h
  · next r hr =>
    obtain rfl := Option.some.inj h
    exact ledger_fetchNow hr
  · obtain ⟨u, hu, hv⟩ := Option.bind_eq_some_iff.1 h
    rw [show w.ledger = u.ledger from (ledger_passes (passes_waitFor hu)).symm]
    exact ledger_fetchNow hv

end Surroundings

end OrderDepot.Delivery
