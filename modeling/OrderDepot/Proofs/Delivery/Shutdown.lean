import OrderDepot.Proofs.Delivery.Accounts
import OrderDepot.Proofs.Delivery.Acknowledgement

/-!
# Runs that stop

The counts of a run are those of its calls, turn by turn. Whatever happens in the surroundings, the signal keeps a
send or the loss of its sender until the loop looks at it, and then the loop ends without another call.
-/

namespace OrderDepot.Delivery

/-- The turns of a run one after the other, with all its calls in the order of time and those that failed. -/
inductive Turn.Accounts : List Turn → List Call → List Call → Prop where
  | nil : Accounts [] [] []
  | concat {ts : List Turn} {t : Turn} {calls failed calls' failed' : List Call}
      (before : Accounts ts calls failed) (last : t.Account calls' failed') :
      Accounts (ts ++ [t]) (calls ++ calls') (failed ++ failed')

/-- The counts are those of the calls. -/
structure Stats.Tally (s : Stats) (calls failed : List Call) : Prop where
  taken : s.stored + s.deadLettered + s.redelivered = calls.countP Call.isFetch
  fetchErrors : s.fetchErrors = calls.countP Call.isFetchError
  commits : s.stored + s.deadLettered = calls.countP Call.isCommit
  commitFailures : s.commitFailures = failed.countP Call.isCommit
  rewinds : s.redelivered = calls.countP Call.isRewind

theorem countP_work {work : List Call} (working : ∀ c ∈ work, c.isWork = true) {kind : Call → Bool}
    (hkind : ∀ c : Call, c.isWork = true → kind c = false) : work.countP kind = 0 := by
  rw [List.countP_eq_zero]
  intro c hc
  simp [hkind c (working c hc)]

theorem countP_took (m : Message) {work : List Call} (last : Call) (working : ∀ c ∈ work, c.isWork = true)
    {kind : Call → Bool} (hkind : ∀ c : Call, c.isWork = true → kind c = false) :
    (.fetch m.position :: work ++ [last]).countP kind = (kind (.fetch m.position)).toNat + (kind last).toNat := by
  rw [List.cons_append, List.countP_cons, List.countP_append, countP_work working hkind, List.countP_singleton]
  cases kind (.fetch m.position) <;> cases kind last <;> rfl

theorem took_counts (m : Message) {work : List Call} (last : Call) (working : ∀ c ∈ work, c.isWork = true) :
    (.fetch m.position :: work ++ [last]).countP Call.isFetch = 1 + last.isFetch.toNat ∧
      (.fetch m.position :: work ++ [last]).countP Call.isFetchError = last.isFetchError.toNat ∧
      (.fetch m.position :: work ++ [last]).countP Call.isCommit = last.isCommit.toNat ∧
      (.fetch m.position :: work ++ [last]).countP Call.isRewind = last.isRewind.toNat := by
  refine ⟨countP_took m last working ?_, (countP_took m last working ?_).trans (Nat.zero_add _),
    (countP_took m last working ?_).trans (Nat.zero_add _),
    (countP_took m last working ?_).trans (Nat.zero_add _)⟩ <;>
  · intro c hc
    cases c <;> cases hc <;> rfl

theorem Stats.count_final (s : Stats) {h : Handled} (final : h.outcome.isFinal = true) :
    (s.count h).stored + (s.count h).deadLettered = s.stored + s.deadLettered + 1 ∧
      (s.count h).redelivered = s.redelivered ∧ (s.count h).fetchErrors = s.fetchErrors ∧
      (s.count h).commitFailures = s.commitFailures + if h.committed then 0 else 1 := by
  obtain ⟨outcome, attempt, committed⟩ := h
  cases outcome with
  | stored => exact ⟨Nat.add_right_comm _ _ _, rfl, rfl, rfl⟩
  | deadLettered reason => exact ⟨rfl, rfl, rfl, rfl⟩
  | storeFailed => cases final
  | deadLetterFailed reason => cases final
  | deadLetterDisabled reason => cases final

theorem Stats.count_unended (s : Stats) {h : Handled} (unended : h.outcome.isFinal = false) :
    s.count h = { s with redelivered := s.redelivered + 1 } := by
  obtain ⟨outcome, attempt, committed⟩ := h
  cases outcome with
  | stored => cases unended
  | deadLettered reason => cases unended
  | storeFailed => rfl
  | deadLetterFailed reason => rfl
  | deadLetterDisabled reason => rfl

structure Stats.Within (s : Stats) (turns : Nat) : Prop where
  taken : s.stored + s.deadLettered + s.redelivered + s.fetchErrors ≤ turns
  commitFailures : s.commitFailures ≤ s.stored + s.deadLettered

theorem Stats.Within.record {s : Stats} {turns : Nat} (h : s.Within turns) (t : Turn) :
    (s.record t).Within (turns + 1) := by
  obtain ⟨htaken, hfailures⟩ := h
  cases t with
  | stopped => exact ⟨Nat.le_succ_of_le htaken, hfailures⟩
  | missed cause => exact ⟨Nat.succ_le_succ htaken, hfailures⟩
  | took m handled =>
    rw [show s.record (.took m handled) = s.count handled from rfl]
    cases final : handled.outcome.isFinal with
    | true =>
      obtain ⟨hended, hredelivered, hmissed, huncommitted⟩ := s.count_final final
      have hone : (if handled.committed then 0 else 1) ≤ 1 := by split <;> omega
      constructor <;> omega
    | false =>
      rw [s.count_unended final]
      refine ⟨?_, hfailures⟩
      dsimp only
      omega

theorem Stats.Within.foldl {s : Stats} {turns : Nat} (h : s.Within turns) (ts : List Turn) :
    (ts.foldl Stats.record s).Within (turns + ts.length) := by
  induction ts generalizing s turns with
  | nil => exact h
  | cons t ts ih =>
    rw [List.length_cons, ← Nat.succ_add_eq_add_succ]
    exact ih (h.record t)

/-- No counter is beyond what a machine word holds. -/
structure Stats.Fits (s : Stats) : Prop where
  stored : s.stored < limit
  deadLettered : s.deadLettered < limit
  redelivered : s.redelivered < limit
  commitFailures : s.commitFailures < limit
  fetchErrors : s.fetchErrors < limit

theorem Stats.Within.fits {s : Stats} {turns : Nat} (h : s.Within turns) (hturns : turns < limit) : s.Fits := by
  obtain ⟨htaken, hfailures⟩ := h
  constructor <;> omega

theorem tally_record {s : Stats} {t : Turn} {calls failed calls' failed' : List Call} (hs : s.Tally calls failed)
    (ht : t.Account calls' failed') : (s.record t).Tally (calls ++ calls') (failed ++ failed') := by
  obtain ⟨htaken, herrors, hcommits, hfailures, hrewinds⟩ := hs
  cases ht with
  | stopped =>
    rw [List.append_nil, List.append_nil]
    exact ⟨htaken, herrors, hcommits, hfailures, hrewinds⟩
  | missed =>
    constructor <;> rw [List.countP_append]
    · exact htaken
    · exact congrArg (· + 1) herrors
    · exact hcommits
    · exact hfailures
    · exact hrewinds
  | @ended m h work before final working hbefore =>
    obtain ⟨hfetch, herror, hcommit, hrewind⟩ := took_counts m (.commit m.position) working
    obtain ⟨hended, hredelivered, hmissed, huncommitted⟩ := s.count_final final
    have hnone : before.countP Call.isCommit = 0 := by
      simpa [List.countP_eq_zero] using hbefore
    have hlast : (if h.committed then [] else [Call.commit m.position]).countP Call.isCommit =
        if h.committed then 0 else 1 := by
      split <;> rfl
    rw [show s.record (.took m h) = s.count h from rfl]
    constructor <;> rw [List.countP_append]
    · rw [hended, hredelivered, hfetch, ← htaken]
      exact Nat.add_right_comm _ _ _
    · rw [hmissed, herror, herrors]
      rfl
    · rw [hended, hcommit, hcommits]
      rfl
    · rw [huncommitted, List.countP_append, hnone, hlast, hfailures, Nat.zero_add]
    · rw [hredelivered, hrewind, hrewinds]
      rfl
  | @unended m h work _ unended working hnone =>
    obtain ⟨hfetch, herror, hcommit, hrewind⟩ := took_counts m (.rewind m.position) working
    have hnone : failed'.countP Call.isCommit = 0 := by
      simpa [List.countP_eq_zero] using hnone
    rw [show s.record (.took m h) = s.count h from rfl, s.count_unended unended]
    constructor <;> rw [List.countP_append]
    · rw [hfetch, ← htaken]
      rfl
    · rw [herror, herrors]
      rfl
    · rw [hcommit, hcommits]
      rfl
    · rw [hnone, hfailures, Nat.add_zero]
    · rw [hrewind, hrewinds]
      rfl

namespace Pipeline

open Surroundings (facilities)

variable {p : Pipeline} {w v : Surroundings}

theorem reaches_account {ts : List Turn} {tracked : Attempts} (h : p.Reaches w ts tracked v) :
    w.Heard v ∧ ∃ calls failed, w.Writes calls failed v ∧ Turn.Accounts ts calls failed := by
  induction h with
  | start => exact ⟨.refl w, [], [], .refl w, .nil⟩
  | turn _ hturn ih =>
    obtain ⟨hheard, calls, failed, hwrites, haccounts⟩ := ih
    obtain ⟨hlater, calls', failed', hwrites', haccount⟩ := turn_account hturn
    exact ⟨hheard.trans (hlater rfl), _, _, hwrites.trans hwrites', haccounts.concat haccount⟩

/-- The last of the turns is the one after which the loop stops. -/
inductive Stops (p : Pipeline) (w : Surroundings) : List Turn → Surroundings → Prop where
  | turn {ts : List Turn} {tracked tracked' : Attempts} {t : Turn} {u v : Surroundings} :
      Reaches p w ts tracked u → (p.turn facilities tracked).run u = some ((t, tracked', false), v) →
      Stops p w (ts ++ [t]) v

/-- The loop stops by itself, after however many turns. -/
def Returns (p : Pipeline) (w : Surroundings) (stats : Stats) (v : Surroundings) : Prop :=
  ∃ fuel s, (p.turns facilities fuel {}).run w = some (some s, v) ∧ s.stats = stats

theorem returns_of_run {stats : Stats} (h : p.run w = some (stats, v)) : p.Returns w stats v := by
  unfold run at h
  split at h
  · next s v' hturns =>
    obtain ⟨rfl, rfl⟩ := Prod.mk.inj (Option.some.inj h)
    exact ⟨_, s, hturns, rfl⟩
  · cases h

theorem turns_of_reaches {ts : List Turn} {tracked : Attempts} {u : Surroundings} (h : p.Reaches w ts tracked u)
    {fuel : Nat} {s : Progress}
    (hrest : (p.turns facilities fuel ⟨tracked, ts.foldl Stats.record {}⟩).run u = some (some s, v)) :
    (p.turns facilities (ts.length + fuel) {}).run w = some (some s, v) := by
  induction h generalizing fuel with
  | start => exact (Nat.zero_add fuel).symm ▸ hrest
  | @turn ts tracked tracked' t u u' _ hturn ih =>
    have hfirst : (p.turns facilities (fuel + 1) ⟨tracked, ts.foldl Stats.record {}⟩).run u = some (some s, v) := by
      rw [List.foldl_append] at hrest
      exact (Scripted.bind_of hturn _).trans hrest
    rw [List.length_append, Nat.add_assoc, Nat.add_comm [t].length]
    exact ih hfirst

theorem turns_of_stops {ts : List Turn} (h : p.Stops w ts v) {fuel : Nat} (hfuel : ts.length ≤ fuel) :
    ∃ s, (p.turns facilities fuel {}).run w = some (some s, v) ∧ s.stats = ts.foldl Stats.record {} := by
  obtain @⟨ts, tracked, tracked', t, u, _, hreached, hturn⟩ := h
  obtain ⟨rest, rfl⟩ := Nat.exists_eq_add_of_le hfuel
  have hlast : (p.turns facilities (rest + 1) ⟨tracked, ts.foldl Stats.record {}⟩).run u =
      some (some ⟨tracked', (ts ++ [t]).foldl Stats.record {}⟩, v) := by
    rw [List.foldl_append]
    exact Scripted.bind_of hturn _
  refine ⟨⟨tracked', (ts ++ [t]).foldl Stats.record {}⟩, ?_, rfl⟩
  rw [List.length_append, Nat.add_assoc, Nat.add_comm [t].length]
  exact turns_of_reaches hreached hlast

/-- The loop returns just after turns that stop it, with the counts of these turns. -/
theorem returns_iff_stops {stats : Stats} :
    p.Returns w stats v ↔ ∃ ts, p.Stops w ts v ∧ stats = ts.foldl Stats.record {} := by
  constructor
  · rintro ⟨fuel, s, hturns, rfl⟩
    obtain ⟨ts, tracked, u, t, hreached, hturn, hstats⟩ := turns_reaches .start rfl hturns
    exact ⟨ts ++ [t], .turn hreached hturn, hstats⟩
  · rintro ⟨ts, hstops, rfl⟩
    obtain ⟨s, hturns, hstats⟩ := turns_of_stops hstops (Nat.le_refl _)
    exact ⟨ts.length, s, hturns, hstats⟩

/-- A loop with fewer turns than a machine word can count returns with counters that are no larger than that. -/
theorem fits_of_returns {stats : Stats} (h : p.Returns w stats v) :
    ∃ ts, p.Stops w ts v ∧ (ts.length < Stats.limit → stats.Fits) := by
  obtain ⟨ts, hstops, rfl⟩ := returns_iff_stops.1 h
  have hwithin : (ts.foldl Stats.record {}).Within ts.length := by
    have hstart : Stats.Within {} 0 := ⟨Nat.le_refl _, Nat.le_refl _⟩
    simpa using hstart.foldl ts
  exact ⟨ts, hstops, hwithin.fits⟩

theorem stops_account {ts : List Turn} (h : p.Stops w ts v) :
    ∃ calls failed, w.Writes calls failed v ∧ Turn.Accounts ts calls failed := by
  obtain ⟨hreached, hturn⟩ := h
  obtain ⟨-, calls, failed, hwrites, haccounts⟩ := reaches_account hreached
  obtain ⟨-, calls', failed', hwrites', haccount⟩ := turn_account hturn
  exact ⟨_, _, hwrites.trans hwrites', haccounts.concat haccount⟩

end Pipeline

theorem tally_of_accounts {ts : List Turn} {calls failed : List Call} (h : Turn.Accounts ts calls failed) :
    (ts.foldl Stats.record {}).Tally calls failed := by
  induction h with
  | nil => exact ⟨rfl, rfl, rfl, rfl, rfl⟩
  | concat _ last ih =>
    rw [List.foldl_append]
    exact tally_record ih last

namespace Surroundings

variable {u v : Surroundings}

theorem fetch_of_changed (h : u.signal.changed = true) :
    u.fetch = some (.interrupted, { u with signal := u.signal.notice }) := by
  simp [fetch, fetchNow, h]

end Surroundings

open Surroundings (facilities) in
theorem turn_of_told {p : Pipeline} {u : Surroundings} (tracked : Attempts)
    (h : u.signal.value = true ∨ u.signal.changed = true) :
    ∃ v, (p.turn facilities tracked).run u = some ((.stopped, tracked, false), v) ∧ v.trace = u.trace ∧
      v.queue = u.queue := by
  cases hvalue : u.signal.value with
  | true =>
    have hstopping : facilities.stopping.run u = some (true, u) := by
      rw [← hvalue]
      rfl
    exact ⟨u, Scripted.bind_of hstopping _, rfl, rfl⟩
  | false =>
    have hstopping : facilities.stopping.run u = some (false, u) := by
      rw [← hvalue]
      rfl
    have hchanged : u.signal.changed = true := by simpa [hvalue] using h
    have hfetch : facilities.fetch.run u = some (.interrupted, { u with signal := u.signal.notice }) :=
      Surroundings.fetch_of_changed hchanged
    exact ⟨_, (Scripted.bind_of hstopping _).trans (Scripted.bind_of hfetch _), rfl, rfl⟩

open Surroundings (facilities) in
/-- A run that returns has made just the calls of its turns, each of which sees its message through to a commit or
a rewind, and its counts are those of the calls. Once the signal has said stop or has lost its sender, the next turn
ends the run without a call, and a fetch that is under way takes nothing. -/
theorem run_stops_and_adds_up (p : Pipeline) (w : Surroundings) :
    (∀ stats v, p.Returns w stats v → ∃ ts calls failed, p.Stops w ts v ∧ w.Writes calls failed v ∧
        Turn.Accounts ts calls failed ∧ stats = ts.foldl Stats.record {} ∧ stats.Tally calls failed) ∧
      ∀ ts tracked u, p.Reaches w ts tracked u →
        (w.Told u → ∃ v, (p.turn facilities tracked).run u = some ((.stopped, tracked, false), v) ∧
          v.trace = u.trace ∧ v.queue = u.queue) ∧
        ∀ fetched v, u.signal.value = false → u.fetch = some (fetched, v) → w.Told v →
          fetched = .interrupted ∧ v.trace = u.trace := by
  refine ⟨fun stats v hreturns => ?_, fun ts tracked u hreached => ?_⟩
  · obtain ⟨ts, hstops, rfl⟩ := Pipeline.returns_iff_stops.1 hreturns
    obtain ⟨calls, failed, hwrites, haccounts⟩ := Pipeline.stops_account hstops
    exact ⟨ts, calls, failed, hstops, hwrites, haccounts, rfl, tally_of_accounts haccounts⟩
  · obtain ⟨hheard, -⟩ := Pipeline.reaches_account hreached
    refine ⟨fun htold => turn_of_told tracked (hheard.of_told htold), fun fetched v hvalue hfetch htold => ?_⟩
    obtain ⟨hwrites, hgiven⟩ := Surroundings.writes_fetch hfetch
    have hinterrupted : fetched = .interrupted := by
      refine Classical.byContradiction fun hne => ?_
      obtain ⟨hlater, hsame⟩ := hgiven hne
      rcases (hheard.trans hlater).of_told htold with hstop | hchanged
      · rw [hlater.signal_eq hsame, hvalue] at hstop
        cases hstop
      · rw [hsame] at hchanged
        cases hchanged
    subst hinterrupted
    exact ⟨rfl, hwrites.trace_eq⟩

def Surroundings.shift : Surroundings where
  agenda := [(10, .signal true)]
  queue := [.error (.unavailable "broker down"), .ok (.blank 0)]
  conditions := fun n _ => if n = 2 then .fails else if n = 6 then .stalls else .succeeds 0

def Surroundings.idle : Surroundings where
  agenda := [(5, .close)]

theorem shift_reaches : ∃ ts tracked u, Pipeline.eager.Reaches .shift ts tracked u ∧ Surroundings.shift.Told u ∧
    ts.foldl Stats.record {} = { deadLettered := 1, redelivered := 1, commitFailures := 1, fetchErrors := 1 } := by
  refine ⟨_, _, _, ((Pipeline.Reaches.start.turn rfl).turn rfl).turn rfl, ?_, rfl⟩
  exact .inr (.inr ⟨[(10, .signal true)], rfl, _, List.mem_cons_self, rfl⟩)

theorem shift_adds_up :
    (∃ ts tracked u v calls failed stats, Pipeline.eager.Reaches .shift ts tracked u ∧
      Surroundings.shift.Told u ∧
      (Pipeline.eager.turn Surroundings.facilities tracked).run u = some ((.stopped, tracked, false), v) ∧
      Pipeline.eager.Returns .shift stats v ∧ Surroundings.shift.Writes calls failed v ∧
      stats = { deadLettered := 1, redelivered := 1, commitFailures := 1, fetchErrors := 1 } ∧
      Stats.Tally stats calls failed) ∧
    ∃ fetched v, Surroundings.idle.fetch = some (fetched, v) ∧ Surroundings.idle.Told v ∧
      fetched = .interrupted := by
  constructor
  · obtain ⟨ts, tracked, u, hreached, htold, hcounts⟩ := shift_reaches
    obtain ⟨hreturned, hturns⟩ := run_stops_and_adds_up .eager .shift
    obtain ⟨v, hturn, -, -⟩ := (hturns ts tracked u hreached).1 htold
    have hreturns := Pipeline.returns_iff_stops.2 ⟨_, .turn hreached hturn, rfl⟩
    obtain ⟨ts', calls, failed, -, hwrites, -, -, htally⟩ := hreturned _ v hreturns
    refine ⟨ts, tracked, u, v, calls, failed, _, hreached, htold, hturn, hreturns, hwrites, ?_, htally⟩
    rw [List.foldl_append, hcounts]
    rfl
  · have hidle : ∃ fetched v, Surroundings.idle.fetch = some (fetched, v) ∧ Surroundings.idle.Told v :=
      ⟨_, _, rfl, .inr (.inr ⟨[(5, .close)], rfl, _, List.mem_cons_self, rfl⟩)⟩
    obtain ⟨fetched, v, hfetch, htold⟩ := hidle
    obtain ⟨-, hturns⟩ := run_stops_and_adds_up .eager .idle
    exact ⟨fetched, v, hfetch, htold, ((hturns [] .empty .idle .start).2 fetched v rfl hfetch htold).1⟩

end OrderDepot.Delivery
