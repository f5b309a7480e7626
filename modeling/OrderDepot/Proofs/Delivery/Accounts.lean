import OrderDepot.Proofs.Delivery.Calls
import OrderDepot.Proofs.Delivery.Turns

/-!
# The account of a turn

The calls that are made on the way from one state of the surroundings to another, those of them that failed, and
what the signal has heard meanwhile. A turn that takes a message works on it, that is it stores or publishes, and
then it commits the message or rewinds to it.
-/

namespace OrderDepot.Delivery

namespace Surroundings

variable {u w v : Surroundings}

/-- The calls made on the way and those of them that failed, in the order of time. -/
structure Writes (w : Surroundings) (calls failed : List Call) (v : Surroundings) : Prop where
  trace : ∃ made, v.trace = made ++ w.trace ∧ made.reverse.map (·.2) = calls
  failures : v.failures = failed.reverse ++ w.failures

theorem Writes.refl (w : Surroundings) : w.Writes [] [] w := ⟨⟨[], rfl, rfl⟩, rfl⟩

theorem Writes.trans {calls failed calls' failed' : List Call} (h : u.Writes calls failed w)
    (h' : w.Writes calls' failed' v) : u.Writes (calls ++ calls') (failed ++ failed') v := by
  obtain ⟨⟨made, htrace, hcalls⟩, hfailures⟩ := h
  obtain ⟨⟨made', htrace', hcalls'⟩, hfailures'⟩ := h'
  refine ⟨⟨made' ++ made, ?_, ?_⟩, ?_⟩
  · rw [htrace', htrace, List.append_assoc]
  · rw [List.reverse_append, List.map_append, hcalls, hcalls']
  · rw [hfailures', hfailures, List.reverse_append, List.append_assoc]

theorem Writes.trace_eq {failed : List Call} (h : w.Writes [] failed v) : v.trace = w.trace := by
  obtain ⟨made, htrace, hcalls⟩ := h.trace
  obtain rfl : made = [] := by simpa using hcalls
  exact htrace

theorem Writes.signal {calls failed : List Call} (h : u.Writes calls failed w) (s : Signal) :
    u.Writes calls failed { w with signal := s } :=
  ⟨h.trace, h.failures⟩

structure Waits (w v : Surroundings) : Prop where
  writes : w.Writes [] [] v
  heard : w.Heard v

theorem Does.writes {calls : List (Nat × Call)} {failed : List Call} {store : Store.Memory}
    {records : List OutgoingRecord} (h : w.Does calls failed store records v) :
    w.Writes (calls.map (·.2)) failed v :=
  ⟨⟨calls.reverse, h.trace, by rw [List.reverse_reverse]⟩, h.failures⟩

theorem waits_passes (h : w.Passes v) : w.Waits v :=
  ⟨(does_passes h).writes, (does_passes h).heard⟩

theorem writes_pause {interval : Time.Duration} {again : Bool} (h : w.pause interval = (again, v)) :
    w.Writes [] [] v ∧ (again = true → w.Heard v) := by
  unfold pause at h
  split at h
  · obtain ⟨rfl, rfl⟩ := Prod.mk.inj h
    exact ⟨.refl w, nofun⟩
  · split at h
    · obtain ⟨rfl, rfl⟩ := Prod.mk.inj h
      exact ⟨⟨⟨[], rfl, rfl⟩, rfl⟩, nofun⟩
    · split at h
      · obtain ⟨rfl, rfl⟩ := Prod.mk.inj h
        exact ⟨.refl w, fun _ => .refl w⟩
      · have hwaits := waits_passes (passes_waitUntil (·.signal.changed) (w.clock + interval.nanos) w.agenda w)
        dsimp only at h
        split at h
        · obtain ⟨rfl, rfl⟩ := Prod.mk.inj h
          exact ⟨hwaits.writes.signal _, nofun⟩
        · obtain ⟨rfl, rfl⟩ := Prod.mk.inj h
          exact ⟨hwaits.writes, fun _ => hwaits.heard⟩

def Makes (w : Surroundings) (c : Call) (succeeded : Prop) (v : Surroundings) : Prop :=
  w.Heard v ∧ (succeeded ∧ w.Writes [c] [] v ∨ ¬ succeeded ∧ w.Writes [c] [c] v)

theorem Returned.makes {ε : Type} {c : Call} {limit : Time.Duration} {after : Effect} {reply : Reply ε}
    (h : w.Returned c limit after reply v) : w.Makes c (reply = .done) v := by
  cases h with
  | done _ _ does => exact ⟨does.heard, .inl ⟨rfl, does.writes⟩⟩
  | undone ne _ does => exact ⟨does.heard, .inr ⟨ne, does.writes⟩⟩

theorem makes_save {limit : Time.Duration} {o : Order} {reply : Reply Store.Failure}
    (h : save limit o w = (reply, v)) : w.Makes (.save o.uid) (reply = .done) v :=
  (returned_save h).makes

theorem makes_publish {limit : Time.Duration} {r : OutgoingRecord} {reply : Reply String}
    (h : publish limit r w = (reply, v)) : w.Makes (.publish r.key) (reply = .done) v :=
  (returned_publish h).makes

theorem makes_commit {limit : Time.Duration} {m : Message} {reply : Reply SourceError}
    (h : commit limit m w = (reply, v)) : w.Makes (.commit m.position) (reply = .done) v :=
  (returned_commit h).makes

theorem makes_rewind {m : Message} {reply : Except SourceError Unit} (h : w.rewind m = some (reply, v)) :
    w.Makes (.rewind m.position) (reply = .ok ()) v := by
  obtain ⟨hdone | hundone, -⟩ := rewind_does h
  · exact ⟨hdone.2.heard, .inl ⟨hdone.1, hdone.2.writes⟩⟩
  · exact ⟨hundone.2.heard, .inr ⟨hundone.1, hundone.2.writes⟩⟩

end Surroundings

def Fetched.calls : Fetched → List Call
  | .message m => [.fetch m.position]
  | .failed _ => [.fetchError]
  | .interrupted => []

namespace Surroundings

variable {u w v : Surroundings}

theorem writes_fetchNow {fetched : Fetched} (h : w.fetchNow = some (fetched, v)) :
    w.Writes fetched.calls [] v ∧ (fetched ≠ .interrupted → w.Heard v ∧ v.signal.changed = false) := by
  simp only [fetchNow] at h
  split at h
  · obtain ⟨rfl, rfl⟩ := Prod.mk.inj (Option.some.inj h)
    exact ⟨⟨⟨[], rfl, rfl⟩, rfl⟩, fun hne => absurd rfl hne⟩
  · next hchanged =>
    have hsame : w.signal.changed = false := by simpa using hchanged
    split at h
    · cases h
    · next m queue _ =>
      obtain ⟨rfl, rfl⟩ := Prod.mk.inj (Option.some.inj h)
      exact ⟨⟨⟨[(w.clock, .fetch m.position)], rfl, rfl⟩, rfl⟩, fun _ => ⟨⟨[], rfl, rfl⟩, hsame⟩⟩
    · obtain ⟨rfl, rfl⟩ := Prod.mk.inj (Option.some.inj h)
      exact ⟨⟨⟨[(w.clock, .fetchError)], rfl, rfl⟩, rfl⟩, fun _ => ⟨⟨[], rfl, rfl⟩, hsame⟩⟩

theorem writes_fetch {fetched : Fetched} (h : w.fetch = some (fetched, v)) :
    w.Writes fetched.calls [] v ∧ (fetched ≠ .interrupted → w.Heard v ∧ v.signal.changed = false) := by
  simp only [fetch] at h
  split at h
  · next r hr =>
    obtain rfl := Option.some.inj h
    exact writes_fetchNow hr
  · obtain ⟨u, hu, hv⟩ := Option.bind_eq_some_iff.1 h
    have hwait : w.Waits u := waits_passes (passes_waitFor hu)
    obtain ⟨hwrites, hheard⟩ := writes_fetchNow hv
    refine ⟨hwait.writes.trans hwrites, fun hne => ?_⟩
    obtain ⟨hheard, hsame⟩ := hheard hne
    exact ⟨hwait.heard.trans hheard, hsame⟩

end Surroundings

namespace Call

def isWork : Call → Bool
  | .save _ | .publish _ => true
  | .fetch _ | .fetchError | .commit _ | .rewind _ => false

def isFetch : Call → Bool
  | .fetch _ => true
  | .fetchError | .save _ | .publish _ | .commit _ | .rewind _ => false

def isFetchError : Call → Bool
  | .fetchError => true
  | .fetch _ | .save _ | .publish _ | .commit _ | .rewind _ => false

def isCommit : Call → Bool
  | .commit _ => true
  | .fetch _ | .fetchError | .save _ | .publish _ | .rewind _ => false

def isRewind : Call → Bool
  | .rewind _ => true
  | .fetch _ | .fetchError | .save _ | .publish _ | .commit _ => false

end Call

/-- The calls of a turn in the order of time, and those of them that failed. A message that was fetched is worked
on, and then it is committed or rewound to. -/
inductive Turn.Account : Turn → List Call → List Call → Prop where
  | stopped : Account .stopped [] []
  | missed {cause : SourceError} : Account (.missed cause) [.fetchError] []
  | ended {m : Message} {h : Handled} {work failed : List Call} (final : h.outcome.isFinal = true)
      (working : ∀ c ∈ work, c.isWork = true) (before : ∀ c ∈ failed, c.isCommit = false) :
      Account (.took m h) (.fetch m.position :: work ++ [.commit m.position])
        (failed ++ if h.committed then [] else [.commit m.position])
  | unended {m : Message} {h : Handled} {work failed : List Call} (final : h.outcome.isFinal = false)
      (working : ∀ c ∈ work, c.isWork = true) (before : ∀ c ∈ failed, c.isCommit = false) :
      Account (.took m h) (.fetch m.position :: work ++ [.rewind m.position]) failed

def Surroundings.Works (w v : Surroundings) : Prop :=
  w.Heard v ∧ ∃ work failed, w.Writes work failed v ∧ (∀ c ∈ work, c.isWork = true) ∧
    ∀ c ∈ failed, c.isCommit = false

theorem Surroundings.Works.refl (w : Surroundings) : w.Works w :=
  ⟨.refl w, [], [], .refl w, nofun, nofun⟩

theorem Surroundings.Makes.works {w v : Surroundings} {c : Call} {succeeded : Prop} (h : w.Makes c succeeded v)
    (hwork : c.isWork = true) (hcommit : c.isCommit = false) : w.Works v := by
  obtain ⟨hheard, ⟨-, hwrites⟩ | ⟨-, hwrites⟩⟩ := h
  · exact ⟨hheard, [c], [], hwrites, by simpa using hwork, nofun⟩
  · exact ⟨hheard, [c], [c], hwrites, by simpa using hwork, by simpa using hcommit⟩

namespace Pipeline

open Surroundings (facilities)

variable {p : Pipeline} {w v : Surroundings} {m : Message} {attempt : UInt32}

theorem works_process {outcome : Outcome}
    (h : p.process facilities.toFacilities m attempt w = some (outcome, v)) : w.Works v := by
  rcases process_made h with rfl | ⟨o, rfl⟩ | ⟨r, rfl⟩
  · exact .refl _
  · exact (Surroundings.makes_save rfl).works rfl rfl
  · exact (Surroundings.makes_publish rfl).works rfl rfl

theorem handle_account {u : Surroundings} {tracked tracked' : Attempts} {h : Handled}
    (hfetch : u.Writes [.fetch m.position] [] w)
    (hh : p.handle facilities.toFacilities tracked m w = some ((h, tracked'), v)) :
    w.Heard v ∧ ∃ calls failed, u.Writes calls failed v ∧ (Turn.took m h).Account calls failed := by
  obtain ⟨w₁, hprocess, -, hcloses⟩ := handle_closes hh
  obtain ⟨hheard, work, failed, hwrites, hwork, hfailed⟩ := works_process hprocess
  cases hcloses with
  | commits final committed call =>
    obtain ⟨hlater, hmakes⟩ := Surroundings.makes_commit call
    have haccount := Turn.Account.ended (m := m) (h := h) final hwork hfailed
    refine ⟨hheard.trans hlater, _, _, ?_, haccount⟩
    rw [← Reply.isDone_iff, ← committed] at hmakes
    rcases hmakes with ⟨hdone, hmakes⟩ | ⟨hundone, hmakes⟩
    · simpa [hdone] using hfetch.trans (hwrites.trans hmakes)
    · simpa [hundone] using hfetch.trans (hwrites.trans hmakes)
  | rewinds unended _ call =>
    obtain ⟨hlater, ⟨-, hmakes⟩ | ⟨-, hmakes⟩⟩ := Surroundings.makes_rewind call
    · exact ⟨hheard.trans hlater, _, _, hfetch.trans (hwrites.trans hmakes),
        .unended unended hwork (by simpa using hfailed)⟩
    · refine ⟨hheard.trans hlater, _, _, hfetch.trans (hwrites.trans hmakes), .unended unended hwork ?_⟩
      simpa [or_imp, forall_and, Call.isCommit] using hfailed

theorem turn_account {tracked tracked' : Attempts} {t : Turn} {again : Bool}
    (h : p.turn facilities tracked w = some ((t, tracked', again), v)) :
    (again = true → w.Heard v) ∧ ∃ calls failed, w.Writes calls failed v ∧ t.Account calls failed := by
  cases turn_goes h with
  | stopped => exact ⟨fun _ => .refl _, [], [], .refl _, .stopped⟩
  | interrupted fetch => exact ⟨nofun, [], [], (Surroundings.writes_fetch fetch).1, .stopped⟩
  | missed fetch pause =>
    obtain ⟨hwrites, hheard⟩ := Surroundings.writes_fetch fetch
    obtain ⟨hpaused, hlater⟩ := Surroundings.writes_pause pause
    exact ⟨fun hagain => (hheard nofun).1.trans (hlater hagain), _, _, hwrites.trans hpaused, .missed⟩
  | ended fetch handle _ =>
    obtain ⟨hwrites, hheard⟩ := Surroundings.writes_fetch fetch
    obtain ⟨hhandled, calls, failed, hcalls, haccount⟩ := handle_account hwrites handle
    exact ⟨fun _ => (hheard nofun).1.trans hhandled, calls, failed, hcalls, haccount⟩
  | unended fetch handle _ pause =>
    obtain ⟨hwrites, hheard⟩ := Surroundings.writes_fetch fetch
    obtain ⟨hhandled, calls, failed, hcalls, haccount⟩ := handle_account hwrites handle
    obtain ⟨hpaused, hlater⟩ := Surroundings.writes_pause pause
    refine ⟨fun hagain => ((hheard nofun).1.trans hhandled).trans (hlater hagain), calls, failed, ?_, haccount⟩
    simpa using hcalls.trans hpaused

end Pipeline

end OrderDepot.Delivery
