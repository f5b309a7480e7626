import OrderDepot.Proofs.Delivery.Ledger
import OrderDepot.Proofs.Delivery.Steps

/-!
# Turns of the loop as steps of the ledger

A turn either takes nothing off the source, or it takes the message that comes next. If that message ends, its
position is committed. If it does not, it comes next again, or it is lost.
-/

namespace OrderDepot.Delivery

inductive Ledger.Step : Ledger → Turn → Ledger → Prop where
  | stopped {l : Ledger} : Step l .stopped l
  | missed {l : Ledger} {cause : SourceError} : Step l (.missed cause) l
  | ended {m : Message} {h : Handled} {rest : List Message} {committed lost : List Position}
      (final : h.outcome.isFinal = true) :
      Step ⟨m :: rest, committed, lost⟩ (.took m h) ⟨rest, m.position :: committed, lost⟩
  | rewound {m : Message} {h : Handled} {rest : List Message} {committed lost : List Position}
      (unended : h.outcome.isFinal = false) :
      Step ⟨m :: rest, committed, lost⟩ (.took m h) ⟨m :: rest, committed, lost⟩
  | lost {m : Message} {h : Handled} {rest : List Message} {committed lost : List Position}
      (unended : h.outcome.isFinal = false) :
      Step ⟨m :: rest, committed, lost⟩ (.took m h) ⟨rest, committed, m.position :: lost⟩

namespace Pipeline

open Surroundings (facilities)

variable {p : Pipeline} {w v : Surroundings} {m : Message} {attempt : UInt32}

theorem ledger_process {outcome : Outcome}
    (h : p.process facilities.toFacilities m attempt w = some (outcome, v)) : v.ledger = w.ledger := by
  rcases process_made h with rfl | ⟨o, rfl⟩ | ⟨r, rfl⟩
  · rfl
  · exact Surroundings.ledger_save p.storeLimit o w
  · exact Surroundings.ledger_publish p.publishLimit r w

theorem handle_step {tracked tracked' : Attempts} {h : Handled} {l : Ledger}
    (hh : p.handle facilities.toFacilities tracked m w = some ((h, tracked'), v))
    (hcoming : l.coming = m :: w.ledger.coming) (hcommitted : w.ledger.committed = l.committed)
    (hlost : w.ledger.lost = l.lost) : Ledger.Step l (.took m h) v.ledger := by
  obtain ⟨coming, committed, lost⟩ := l
  obtain rfl : coming = m :: w.ledger.coming := hcoming
  obtain rfl : w.ledger.committed = committed := hcommitted
  obtain rfl : w.ledger.lost = lost := hlost
  obtain ⟨u, hprocess, -, hcloses⟩ := handle_closes hh
  have hu := ledger_process hprocess
  cases hcloses with
  | commits final _ call =>
    have hv := Surroundings.ledger_commit p.commitLimit m u
    rw [call, hu] at hv
    rw [hv]
    exact Ledger.Step.ended final
  | rewinds unended _ call =>
    rcases Surroundings.ledger_rewind call with hv | hv
    · rw [hv, hu]
      exact Ledger.Step.rewound unended
    · rw [hv, hu]
      exact Ledger.Step.lost unended

theorem turn_step {tracked tracked' : Attempts} {t : Turn} {again : Bool}
    (h : p.turn facilities tracked w = some ((t, tracked', again), v)) : Ledger.Step w.ledger t v.ledger := by
  cases turn_goes h with
  | stopped => exact Ledger.Step.stopped
  | interrupted fetch =>
    rw [show v.ledger = w.ledger from Surroundings.ledger_fetch fetch]
    exact Ledger.Step.stopped
  | @missed _ u _ _ fetch pause =>
    have hpaused := Surroundings.ledger_pause u p.retryInterval
    rw [pause] at hpaused
    rw [hpaused, show u.ledger = w.ledger from Surroundings.ledger_fetch fetch]
    exact Ledger.Step.missed
  | ended fetch handle _ =>
    obtain ⟨hcoming, hcommitted, hlost⟩ := Surroundings.ledger_fetch fetch
    exact handle_step handle hcoming hcommitted hlost
  | @unended _ _ _ _ u' _ _ fetch handle _ pause =>
    obtain ⟨hcoming, hcommitted, hlost⟩ := Surroundings.ledger_fetch fetch
    have hpaused := Surroundings.ledger_pause u' p.retryInterval
    rw [pause] at hpaused
    rw [hpaused]
    exact handle_step handle hcoming hcommitted hlost

/-- The loop has taken some turns, each of which called for another one. -/
inductive Reaches (p : Pipeline) (w : Surroundings) : List Turn → Attempts → Surroundings → Prop where
  | start : Reaches p w [] .empty w
  | turn {ts : List Turn} {tracked tracked' : Attempts} {t : Turn} {u v : Surroundings} :
      Reaches p w ts tracked u → (p.turn facilities tracked).run u = some ((t, tracked', true), v) →
      Reaches p w (ts ++ [t]) tracked' v

theorem turns_reaches {fuel : Nat} {s s' : Progress} {ts : List Turn} {u : Surroundings}
    (hreached : p.Reaches w ts s.tracked u) (hstats : s.stats = ts.foldl Stats.record {})
    (h : p.turns facilities fuel s u = some (some s', v)) :
    ∃ ts' tracked u' t, p.Reaches w ts' tracked u' ∧
      p.turn facilities tracked u' = some ((t, s'.tracked, false), v) ∧
      s'.stats = (ts' ++ [t]).foldl Stats.record {} := by
  induction fuel generalizing s ts u with
  | zero => cases (Scripted.pure_some h).1
  | succ fuel ih =>
    obtain ⟨⟨t, tracked, again⟩, u₁, hturn, h⟩ := Scripted.bind_some h
    have hstats₁ : s.stats.record t = (ts ++ [t]).foldl Stats.record {} := by
      simp [hstats]
    cases again with
    | true => exact ih (s := ⟨tracked, s.stats.record t⟩) (hreached.turn hturn) hstats₁ h
    | false =>
      obtain ⟨heq, rfl⟩ := Scripted.pure_some h
      obtain rfl := Option.some.inj heq
      exact ⟨ts, s.tracked, u, t, hreached, hturn, hstats₁⟩

end Pipeline

end OrderDepot.Delivery
