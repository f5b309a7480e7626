import OrderDepot.CommandLine.Outcome

/-!
# Verdicts

A payload is no order, or it is an order that breaks rules, or it is one that may be stored. The operators' tool
tells which of the three, and each in a way of its own.
-/

namespace OrderDepot

variable {payload : List UInt8} {now : Time.Instant} {o : Order}

structure Order.AcceptedFrom (o : Order) (payload : List UInt8) (now : Time.Instant) : Prop where
  decoded : Order.decode payload = .ok o
  valid : o.violations now = []

def Undecodable (payload : List UInt8) : Prop := ∃ e, Order.decode payload = .error e

def Faulty (payload : List UInt8) (now : Time.Instant) : Prop :=
  ∃ o, Order.decode payload = .ok o ∧ o.violations now ≠ []

theorem Order.AcceptedFrom.not_undecodable (h : o.AcceptedFrom payload now) : ¬ Undecodable payload := by
  rintro ⟨e, hdecode⟩
  cases h.decoded.symm.trans hdecode

theorem Order.AcceptedFrom.not_faulty (h : o.AcceptedFrom payload now) : ¬ Faulty payload now := by
  rintro ⟨o', hdecode, hfaulty⟩
  obtain rfl := Except.ok.inj (h.decoded.symm.trans hdecode)
  exact hfaulty h.valid

theorem Undecodable.not_faulty (h : Undecodable payload) : ¬ Faulty payload now := by
  obtain ⟨e, hdecode⟩ := h
  rintro ⟨o, hdecode', -⟩
  cases hdecode.symm.trans hdecode'

theorem acceptedFrom_or (payload : List UInt8) (now : Time.Instant) :
    (∃ o : Order, o.AcceptedFrom payload now) ∨ Undecodable payload ∨ Faulty payload now := by
  cases hdecode : Order.decode payload with
  | error e => exact .inr (.inl ⟨e, hdecode⟩)
  | ok o =>
    by_cases hvalid : o.violations now = []
    · exact .inl ⟨o, hdecode, hvalid⟩
    · exact .inr (.inr ⟨o, hdecode, hvalid⟩)

namespace Verdict

theorem of_accepted (hdecode : Order.decode payload = .ok o) (hvalid : o.violations now = []) :
    Verdict.of payload now = .accepted o := by
  simp only [Verdict.of, hdecode, hvalid]

theorem accepted_of (h : Verdict.of payload now = .accepted o) :
    Order.decode payload = .ok o ∧ o.violations now = [] := by
  unfold Verdict.of at h
  split at h
  · cases h
  · next o' hdecode =>
    split at h
    · next hvalid =>
      cases h
      exact ⟨hdecode, hvalid⟩
    · cases h

end Verdict

namespace CommandLine

structure Outcome.Succeeds (out : Outcome) : Prop where
  exit : out.exit = 0
  failure : out.failure = none

structure Outcome.ReportsDecodeError (out : Outcome) : Prop where
  exit : out.exit = 1
  stdout : out.stdout = ""
  failure : ∃ reason, out.failure = some ("Payload does not decode: " ++ reason)

structure Outcome.ReportsViolations (out : Outcome) (report : Report) : Prop where
  exit : out.exit = 1
  stdout : out.stdout = String.join (report.map fun v => v.describe ++ "\n")
  failure : out.failure = some s!"Order is invalid ({report.length} violations)"

theorem Outcome.ReportsDecodeError.not_violations {out : Outcome} (h : out.ReportsDecodeError) (report : Report) :
    ¬ out.ReportsViolations report := by
  intro hviolations
  obtain ⟨reason, hfailure⟩ := h.failure
  have htexts := congrArg String.toList (Option.some.inj (hfailure.symm.trans hviolations.failure))
  simp [String.toList_append, toString] at htexts

theorem validate_accepted (h : o.AcceptedFrom payload now) : (validate (.ok payload) now).Succeeds := by
  simp only [validate, Verdict.of_accepted h.decoded h.valid]
  exact ⟨rfl, rfl⟩

theorem validate_undecodable (h : Undecodable payload) : (validate (.ok payload) now).ReportsDecodeError := by
  obtain ⟨e, hdecode⟩ := h
  simp only [validate, Verdict.of, hdecode]
  exact ⟨rfl, rfl, _, rfl⟩

theorem validate_faulty (hdecode : Order.decode payload = .ok o) (hfaulty : o.violations now ≠ []) :
    (validate (.ok payload) now).ReportsViolations (o.violations now) := by
  obtain ⟨v, vs, hviolations⟩ := List.exists_cons_of_ne_nil hfaulty
  simp only [validate, Verdict.of, hdecode, hviolations]
  exact ⟨rfl, rfl, rfl⟩

theorem validate_succeeds_iff :
    (validate (.ok payload) now).Succeeds ↔ ∃ o : Order, o.AcceptedFrom payload now := by
  refine ⟨fun h => ?_, fun ⟨o, haccepted⟩ => validate_accepted haccepted⟩
  rcases acceptedFrom_or payload now with haccepted | hundecodable | ⟨o, hdecode, hfaulty⟩
  · exact haccepted
  · exact absurd (h.exit.symm.trans (validate_undecodable hundecodable).exit) (by decide)
  · exact absurd (h.exit.symm.trans (validate_faulty hdecode hfaulty).exit) (by decide)

theorem validate_reportsDecodeError_iff :
    (validate (.ok payload) now).ReportsDecodeError ↔ Undecodable payload := by
  refine ⟨fun h => ?_, validate_undecodable⟩
  rcases acceptedFrom_or payload now with ⟨o, haccepted⟩ | hundecodable | ⟨o, hdecode, hfaulty⟩
  · exact absurd ((validate_accepted haccepted).exit.symm.trans h.exit) (by decide)
  · exact hundecodable
  · exact absurd (validate_faulty hdecode hfaulty) (h.not_violations _)

theorem validate_reportsViolations_iff :
    (∃ report, (validate (.ok payload) now).ReportsViolations report) ↔ Faulty payload now := by
  refine ⟨fun ⟨report, h⟩ => ?_, fun ⟨o, hdecode, hfaulty⟩ => ⟨_, validate_faulty hdecode hfaulty⟩⟩
  rcases acceptedFrom_or payload now with ⟨o, haccepted⟩ | hundecodable | hfaulty
  · exact absurd ((validate_accepted haccepted).exit.symm.trans h.exit) (by decide)
  · exact absurd h ((validate_undecodable hundecodable).not_violations report)
  · exact hfaulty

end CommandLine

end OrderDepot
