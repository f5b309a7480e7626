import Mathlib.Data.List.Chain
import OrderDepot.Proofs.Delivery.Courses
import OrderDepot.Proofs.Delivery.Shutdown

/-!
# The pace of a run

The timeline of a run tells when a fetch starts, when it fails and when the handling of a message ends. After a failed
fetch and after a message that did not end the next fetch starts one interval later, after a message that ended it
starts at once, and nothing else stands in between.
-/

namespace OrderDepot.Delivery

namespace Surroundings

variable {w v : Surroundings}

/-- A wait that no change of the signal cuts short ends at its deadline, and before the next event. -/
theorem waitUntil_unchanged {deadline : Nat} (events : List (Nat × Event)) {w : Surroundings}
    (h : w.clock ≤ deadline)
    (hsame : (waitUntil (·.signal.changed) deadline events w).signal.changed = false) :
    (waitUntil (·.signal.changed) deadline events w).clock = deadline ∧
      ∀ e ∈ (waitUntil (·.signal.changed) deadline events w).agenda.head?, deadline ≤ e.1 := by
  induction events generalizing w with
  | nil =>
    simp only [waitUntil] at hsame ⊢
    split at hsame
    · next hchanged => cases hsame.symm.trans hchanged
    · next hchanged =>
      rw [if_neg hchanged]
      exact ⟨Nat.max_eq_right h, by simp⟩
  | cons e rest ih =>
    obtain ⟨t, e⟩ := e
    simp only [waitUntil] at hsame ⊢
    split at hsame
    · next hchanged => cases hsame.symm.trans hchanged.2
    · next hwakes =>
      rw [if_neg hwakes]
      split at hsame
      · next hlast =>
        rw [if_pos hlast]
        refine ⟨Nat.max_eq_right h, fun next hnext => ?_⟩
        obtain rfl := Option.some.inj hnext
        exact hlast.2
      · next hnext =>
        rw [if_neg hnext]
        refine ih ?_ hsame
        rw [clock_apply]
        dsimp only
        omega

theorem pause_goes_on {interval : Time.Duration} (h : w.pause interval = (true, v)) :
    interval.nanos = 0 ∧ v = w ∨
      v = waitUntil (·.signal.changed) (w.clock + interval.nanos) w.agenda w ∧ v.signal.changed = false := by
  unfold pause at h
  split at h
  · cases (Prod.mk.inj h).1
  · split at h
    · cases (Prod.mk.inj h).1
    · split at h
      · next hzero => exact .inl ⟨hzero, (Prod.mk.inj h).2.symm⟩
      · dsimp only at h
        split at h
        · cases (Prod.mk.inj h).1
        · next hsame =>
          obtain ⟨-, rfl⟩ := Prod.mk.inj h
          exact .inr ⟨rfl, by simpa using hsame⟩

/-- A pause after which the loop goes on lasts just the interval. -/
theorem clock_pause {interval : Time.Duration} (h : w.pause interval = (true, v)) :
    v.clock = w.clock + interval.nanos := by
  rcases pause_goes_on h with ⟨hzero, rfl⟩ | ⟨rfl, hsame⟩
  · rw [hzero, Nat.add_zero]
  · exact (waitUntil_unchanged w.agenda (Nat.le_add_right _ _) hsame).1

theorem le_clock_waitFor {wake : Surroundings → Bool} {events : List (Nat × Event)}
    (h : waitFor wake events w = some v) : w.clock ≤ v.clock := by
  induction events generalizing w with
  | nil =>
    simp only [waitFor] at h
    split at h
    · obtain rfl := Option.some.inj h
      exact Nat.le_refl _
    · cases h
  | cons e rest ih =>
    obtain ⟨t, e⟩ := e
    simp only [waitFor] at h
    split at h
    · obtain rfl := Option.some.inj h
      exact Nat.le_refl _
    · have hlater := ih h
      rw [clock_apply] at hlater
      exact Nat.le_trans (Nat.le_max_left _ _) hlater

theorem clock_fetchNow {fetched : Fetched} (h : w.fetchNow = some (fetched, v)) : v.clock = w.clock := by
  simp only [fetchNow] at h
  split at h
  · obtain ⟨-, rfl⟩ := Prod.mk.inj (Option.some.inj h)
    rfl
  · split at h
    · cases h
    · obtain ⟨-, rfl⟩ := Prod.mk.inj (Option.some.inj h)
      rfl
    · obtain ⟨-, rfl⟩ := Prod.mk.inj (Option.some.inj h)
      rfl

theorem le_clock_fetch {fetched : Fetched} (h : w.fetch = some (fetched, v)) : w.clock ≤ v.clock := by
  simp only [fetch] at h
  split at h
  · next r hr =>
    obtain rfl := Option.some.inj h
    exact Nat.le_of_eq (clock_fetchNow hr).symm
  · obtain ⟨u, hu, hv⟩ := Option.bind_eq_some_iff.1 h
    rw [clock_fetchNow hv]
    exact le_clock_waitFor hu

end Surroundings

open Surroundings (facilities)

variable {p : Pipeline} {tracked tracked' : Attempts} {m : Message} {w u v : Surroundings}

theorem Pipeline.Processed.le_clock {attempt : UInt32} {outcome : Outcome} (h : p.Processed m attempt w outcome u) :
    w.clock ≤ u.clock := by
  cases h with
  | stored _ _ inTime => exact inTime.1
  | storeFailed _ inTime => exact inTime.1
  | deadLettered _ _ inTime => exact inTime.1
  | deadLetterFailed _ _ inTime => exact inTime.1
  | deadLetterDisabled => exact Nat.le_refl _

theorem Pipeline.le_clock_handle {h : Handled}
    (hh : p.handle facilities.toFacilities tracked m w = some ((h, tracked'), v)) : w.clock ≤ v.clock := by
  obtain ⟨u, hprocess, -, hcloses⟩ := handle_closes hh
  refine Nat.le_trans (processed_of_process hprocess).le_clock ?_
  cases hcloses with
  | commits _ _ call =>
    cases Surroundings.returned_commit call with
    | done _ within => exact within.1
    | undone _ within => exact within.1
  | rewinds _ _ call =>
    obtain ⟨-, nanos, -, hclock⟩ := Surroundings.rewind_does call
    exact hclock ▸ Nat.le_add_right _ _

inductive Moment where
  | fetchStarts
  | fetchFails
  | handleEnds (final : Bool)
  deriving DecidableEq, Repr

/-- What may come next on a timeline. -/
inductive Follows (interval : Nat) : Nat × Moment → Nat × Moment → Prop where
  | fetched {t t' : Nat} {m : Moment} (le : t ≤ t') (ne : m ≠ .fetchStarts) :
      Follows interval (t, .fetchStarts) (t', m)
  | afterFailure {t : Nat} : Follows interval (t, .fetchFails) (t + interval, .fetchStarts)
  | afterUnended {t : Nat} : Follows interval (t, .handleEnds false) (t + interval, .fetchStarts)
  | afterEnded {t : Nat} : Follows interval (t, .handleEnds true) (t, .fetchStarts)

/-- The moments of a turn with their times. No fetch starts if the signal says stop or has changed. -/
def Pipeline.moments (p : Pipeline) (tracked : Attempts) (w : Surroundings) : List (Nat × Moment) :=
  if w.signal.value || w.signal.changed then []
  else
    (w.clock, .fetchStarts) ::
      match w.fetch with
      | some (.failed _, u) => [(u.clock, .fetchFails)]
      | some (.message m, u) =>
        match p.handle facilities.toFacilities tracked m u with
        | some ((h, _), v) => [(v.clock, .handleEnds h.outcome.isFinal)]
        | none => []
      | some (.interrupted, _) | none => []

/-- The moments of so many turns, of fewer if the run returns before or is stuck in one of them. -/
def Pipeline.timeline (p : Pipeline) : Nat → Attempts → Surroundings → List (Nat × Moment)
  | 0, _, _ => []
  | turns + 1, tracked, w =>
    p.moments tracked w ++
      match p.turn facilities tracked w with
      | some ((_, tracked, true), w) => p.timeline turns tracked w
      | _ => []

def Turn.moment? : Turn → Option Moment
  | .stopped => none
  | .missed _ => some .fetchFails
  | .took _ h => some (.handleEnds h.outcome.isFinal)

inductive Turn.Shows (interval : Nat) (w : Surroundings) (v : Surroundings) :
    Turn → Bool → List (Nat × Moment) → Prop where
  | stopped {l : List (Nat × Moment)} (unanswered : l = [] ∨ l = [(w.clock, .fetchStarts)]) :
      Shows interval w v .stopped false l
  | answered {t : Turn} {again : Bool} {clock : Nat} {m : Moment} (ends : t.moment? = some m) (le : w.clock ≤ clock)
      (rests : again = true → Follows interval (clock, m) (v.clock, .fetchStarts)) :
      Shows interval w v t again [(w.clock, .fetchStarts), (clock, m)]

namespace Pipeline

theorem moments_of_told (h : w.signal.value = true ∨ w.signal.changed = true) : p.moments tracked w = [] := by
  rw [moments, if_pos (by simpa using h)]

theorem quiet_of_turn {t : Turn} {again : Bool} {moment : Moment}
    (h : p.turn facilities tracked w = some ((t, tracked', again), v)) (ht : t.moment? = some moment) :
    (w.signal.value || w.signal.changed) = false := by
  rw [Bool.eq_false_iff]
  intro htold
  obtain ⟨v', hstopped, -⟩ := turn_of_told (p := p) tracked (by simpa using htold)
  cases h.symm.trans hstopped
  cases ht

theorem turn_shows {t : Turn} {again : Bool} (h : p.turn facilities tracked w = some ((t, tracked', again), v)) :
    t.Shows p.retryInterval.nanos w v again (p.moments tracked w) := by
  cases turn_goes h with
  | stopped told => exact .stopped (.inl (moments_of_told (.inl told)))
  | interrupted fetch =>
    cases htold : w.signal.value || w.signal.changed with
    | true => exact .stopped (.inl (moments_of_told (by simpa using htold)))
    | false => exact .stopped (.inr (by simp [moments, htold, fetch]))
  | @missed _ u _ _ fetch pause =>
    have hquiet := quiet_of_turn h rfl
    have hmoments : p.moments tracked w = [(w.clock, .fetchStarts), (u.clock, .fetchFails)] := by
      simp [moments, hquiet, fetch]
    rw [hmoments]
    refine .answered rfl (Surroundings.le_clock_fetch fetch) ?_
    rintro rfl
    rw [Surroundings.clock_pause pause]
    exact .afterFailure
  | @ended _ _ _ _ _ fetch handle final =>
    have hquiet := quiet_of_turn h rfl
    have hmoments : p.moments tracked w = [(w.clock, .fetchStarts), (v.clock, .handleEnds true)] := by
      simp [moments, hquiet, fetch, handle, final]
    rw [hmoments]
    refine .answered (by rw [Turn.moment?, final]) ?_ fun _ => .afterEnded
    exact Nat.le_trans (Surroundings.le_clock_fetch fetch) (le_clock_handle handle)
  | @unended _ _ _ _ u' _ _ fetch handle final pause =>
    have hquiet := quiet_of_turn h rfl
    have hmoments : p.moments tracked w = [(w.clock, .fetchStarts), (u'.clock, .handleEnds false)] := by
      simp [moments, hquiet, fetch, handle, final]
    rw [hmoments]
    refine .answered (by rw [Turn.moment?, final]) ?_ ?_
    · exact Nat.le_trans (Surroundings.le_clock_fetch fetch) (le_clock_handle handle)
    · rintro rfl
      rw [Surroundings.clock_pause pause]
      exact .afterUnended

theorem moments_cases (p : Pipeline) (tracked : Attempts) (w : Surroundings) :
    p.moments tracked w = [] ∨ p.moments tracked w = [(w.clock, .fetchStarts)] ∨
      ∃ clock m, p.moments tracked w = [(w.clock, .fetchStarts), (clock, m)] ∧ w.clock ≤ clock ∧
        m ≠ .fetchStarts := by
  unfold moments
  split
  · exact .inl rfl
  · refine .inr ?_
    split
    · next fetch => exact .inr ⟨_, _, rfl, Surroundings.le_clock_fetch fetch, nofun⟩
    · next fetch =>
      split
      · next handle =>
        exact .inr ⟨_, _, rfl, Nat.le_trans (Surroundings.le_clock_fetch fetch) (le_clock_handle handle), nofun⟩
      · exact .inl rfl
    · exact .inl rfl
    · exact .inl rfl

theorem isChain_moments (p : Pipeline) (tracked : Attempts) (w : Surroundings) (interval : Nat) :
    (p.moments tracked w).IsChain (Follows interval) := by
  rcases moments_cases p tracked w with hnone | hstarted | ⟨clock, m, hanswered, hle, hne⟩
  · exact hnone ▸ .nil
  · exact hstarted ▸ .singleton _
  · rw [hanswered, List.isChain_pair]
    exact .fetched hle hne

theorem timeline_again {t : Turn} (h : p.turn facilities tracked w = some ((t, tracked', true), v)) (turns : Nat) :
    p.timeline (turns + 1) tracked w = p.moments tracked w ++ p.timeline turns tracked' v := by
  simp only [timeline, h]

theorem timeline_last (h : ∀ t tracked' v, p.turn facilities tracked w ≠ some ((t, tracked', true), v))
    (turns : Nat) : p.timeline (turns + 1) tracked w = p.moments tracked w := by
  simp only [timeline]
  exact List.append_nil _

theorem timeline_starts (p : Pipeline) (turns : Nat) (tracked : Attempts) (w : Surroundings) :
    ∀ first ∈ (p.timeline turns tracked w).head?, first = (w.clock, .fetchStarts) := by
  cases turns with
  | zero => exact nofun
  | succ turns =>
    by_cases hagain : ∃ t tracked' v, p.turn facilities tracked w = some ((t, tracked', true), v)
    · obtain ⟨t, tracked', v, hturn⟩ := hagain
      have hshows := turn_shows hturn
      rw [timeline_again hturn]
      generalize p.moments tracked w = l at hshows ⊢
      cases hshows with
      | answered => simp
    · rw [timeline_last (by simpa using hagain)]
      rcases moments_cases p tracked w with hnone | hstarted | ⟨clock, m, hanswered, -⟩
      · simp [hnone]
      · simp [hstarted]
      · simp [hanswered]

theorem isChain_timeline (p : Pipeline) (turns : Nat) (tracked : Attempts) (w : Surroundings) :
    (p.timeline turns tracked w).IsChain (Follows p.retryInterval.nanos) := by
  induction turns generalizing tracked w with
  | zero => exact .nil
  | succ turns ih =>
    by_cases hagain : ∃ t tracked' v, p.turn facilities tracked w = some ((t, tracked', true), v)
    · obtain ⟨t, tracked', v, hturn⟩ := hagain
      have hshows := turn_shows hturn
      have hmoments := isChain_moments p tracked w p.retryInterval.nanos
      rw [timeline_again hturn]
      generalize p.moments tracked w = l at hshows hmoments ⊢
      refine List.isChain_append.2 ⟨hmoments, ih tracked' v, fun last hlast first hfirst => ?_⟩
      rw [timeline_starts p turns tracked' v first hfirst]
      cases hshows with
      | answered _ _ rests =>
        obtain rfl : (_, _) = last := by simpa using hlast
        exact rests rfl
    · rw [timeline_last (by simpa using hagain)]
      exact isChain_moments p tracked w _

end Pipeline

variable {interval t : Nat} {moment : Moment} {before after : List (Nat × Moment)}

theorem Follows.le {a b : Nat × Moment} (h : Follows interval a b) : a.1 ≤ b.1 := by
  cases h with
  | fetched le => exact le
  | afterFailure => exact Nat.le_add_right _ _
  | afterUnended => exact Nat.le_add_right _ _
  | afterEnded => exact Nat.le_refl _

theorem pairwise_le {l : List (Nat × Moment)} (h : l.IsChain (Follows interval)) :
    l.Pairwise fun a b => a.1 ≤ b.1 := by
  have hclocks : (l.map (·.1)).IsChain (· ≤ ·) := (List.isChain_map _).2 (h.imp fun _ _ => Follows.le)
  exact List.pairwise_map.1 (List.isChain_iff_pairwise.1 hclocks)

theorem pause_of_isChain (h : (before ++ (t, moment) :: after).IsChain (Follows interval))
    (hmoment : moment = .fetchFails ∨ moment = .handleEnds false) : ∀ later ∈ after, t + interval ≤ later.1 := by
  have hchain := (List.isChain_append.1 h).2.1
  cases after with
  | nil => exact nofun
  | cons next after =>
    obtain ⟨hnext, hafter⟩ := List.isChain_cons_cons.1 hchain
    have hstart : t + interval ≤ next.1 := by
      rcases hmoment with rfl | rfl <;> cases hnext <;> exact Nat.le_refl _
    refine List.forall_mem_cons.2 ⟨hstart, fun later hlater => ?_⟩
    exact Nat.le_trans hstart ((List.pairwise_cons.1 (pairwise_le hafter)).1 later hlater)

structure Stats.GrowsBy (s s' : Stats) (moments : List Moment) : Prop where
  fetchErrors : s'.fetchErrors = s.fetchErrors + moments.count .fetchFails
  ended : s'.stored + s'.deadLettered = s.stored + s.deadLettered + moments.count (.handleEnds true)
  redelivered : s'.redelivered = s.redelivered + moments.count (.handleEnds false)

theorem Stats.GrowsBy.trans {s s' s'' : Stats} {l l' : List Moment} (h : s.GrowsBy s' l) (h' : s'.GrowsBy s'' l') :
    s.GrowsBy s'' (l ++ l') := by
  constructor <;> rw [List.count_append]
  · rw [h'.fetchErrors, h.fetchErrors, Nat.add_assoc]
  · rw [h'.ended, h.ended, Nat.add_assoc]
  · rw [h'.redelivered, h.redelivered, Nat.add_assoc]

theorem growsBy_record {t : Turn} {again : Bool} {l : List (Nat × Moment)} (h : t.Shows interval w v again l)
    (s : Stats) : s.GrowsBy (s.record t) (l.map (·.2)) := by
  cases h with
  | stopped unanswered => rcases unanswered with rfl | rfl <;> exact ⟨rfl, rfl, rfl⟩
  | @answered _ _ clock moment ends =>
    cases t with
    | stopped => cases ends
    | missed cause =>
      obtain rfl := Option.some.inj ends
      exact ⟨rfl, rfl, rfl⟩
    | took m h =>
      obtain rfl := Option.some.inj ends
      rw [Stats.record]
      cases hfinal : h.outcome.isFinal with
      | true =>
        obtain ⟨hended, hredelivered, herrors, -⟩ := s.count_final hfinal
        exact ⟨herrors, hended, hredelivered⟩
      | false =>
        rw [s.count_unended hfinal]
        exact ⟨rfl, rfl, rfl⟩

theorem Pipeline.growsBy_timeline {turns : Nat} {s s' : Progress}
    (h : p.turns facilities turns s w = some (some s', v)) :
    s.stats.GrowsBy s'.stats ((p.timeline turns s.tracked w).map (·.2)) := by
  induction turns generalizing s w with
  | zero => cases (Scripted.pure_some h).1
  | succ turns ih =>
    obtain ⟨⟨t, tracked', again⟩, u, hturn, h⟩ := Scripted.bind_some h
    have hgrows := growsBy_record (turn_shows hturn) s.stats
    cases again with
    | true =>
      rw [timeline_again hturn, List.map_append]
      exact hgrows.trans (ih (s := ⟨tracked', s.stats.record t⟩) h)
    | false =>
      obtain ⟨heq, rfl⟩ := Scripted.pure_some h
      obtain rfl := Option.some.inj heq
      rw [timeline_last fun t' tracked'' v' hagain => by cases hturn.symm.trans hagain]
      exact hgrows

/-- Whatever the surroundings do, a fetch that failed and a message that did not end are followed by the next fetch
just one interval later, a message that ended is followed by it at once, and in the interval after a failure nothing
happens. A run that returns has counted just the failed fetches and the messages of its timeline. -/
theorem fetches_paced (p : Pipeline) (turns : Nat) (tracked : Attempts) (w : Surroundings) :
    (p.timeline turns tracked w).IsChain (Follows p.retryInterval.nanos) ∧
      (∀ before t moment after, p.timeline turns tracked w = before ++ (t, moment) :: after →
        moment = .fetchFails ∨ moment = .handleEnds false →
          ∀ later ∈ after, t + p.retryInterval.nanos ≤ later.1) ∧
      ∀ s v, (p.turns facilities turns ⟨tracked, {}⟩).run w = some (some s, v) →
        Stats.GrowsBy {} s.stats ((p.timeline turns tracked w).map (·.2)) := by
  have hchain := p.isChain_timeline turns tracked w
  refine ⟨hchain, fun before t moment after htimeline hmoment => ?_, fun s v => Pipeline.growsBy_timeline⟩
  rw [htimeline] at hchain
  exact pause_of_isChain hchain hmoment

def Pipeline.brisk : Pipeline := { retryInterval := ⟨3⟩ }

theorem brisk_shift : Pipeline.brisk.timeline 4 .empty .shift =
    [(0, .fetchStarts), (0, .fetchFails), (3, .fetchStarts)] ++ (3, .handleEnds false) ::
      [(6, .fetchStarts), (5000000006, .handleEnds true)] := by decide +kernel

theorem brisk_returns : ((Pipeline.brisk.turns facilities 4 {}).run .shift).map (fun r => r.1.map Progress.stats) =
    some (some { deadLettered := 1, redelivered := 1, commitFailures := 1, fetchErrors := 1 }) := by decide +kernel

theorem shift_paced :
    (∀ later ∈ [(6, Moment.fetchStarts), (5000000006, Moment.handleEnds true)], 3 + 3 ≤ later.1) ∧
      ∃ s v, (Pipeline.brisk.turns facilities 4 {}).run .shift = some (some s, v) ∧
        s.stats = { deadLettered := 1, redelivered := 1, commitFailures := 1, fetchErrors := 1 } ∧
        Stats.GrowsBy {} s.stats ((Pipeline.brisk.timeline 4 .empty .shift).map (·.2)) := by
  obtain ⟨-, hpause, hcounts⟩ := fetches_paced .brisk 4 .empty .shift
  obtain ⟨⟨r, v⟩, hrun, hcounted⟩ := Option.map_eq_some_iff.1 brisk_returns
  obtain ⟨s, rfl, hstats⟩ := Option.map_eq_some_iff.1 hcounted
  exact ⟨hpause _ 3 _ _ brisk_shift (.inr rfl), s, v, hrun, hstats, hcounts s v hrun⟩

end OrderDepot.Delivery
