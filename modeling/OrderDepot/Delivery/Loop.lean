import OrderDepot.Delivery.Handling

/-!
The loop that takes one message after the other from the source until it is told to stop. It pauses after a
fetch that failed and after a message that did not end, and counts what happened.
-/

namespace OrderDepot.Delivery

inductive Fetched where
  | message (msg : Message)
  | failed (cause : SourceError)
  | interrupted
  deriving DecidableEq, Repr

structure LoopFacilities (m : Type → Type) extends Facilities m where
  stopping : m Bool
  fetch : m Fetched
  pause : Time.Duration → m Bool

inductive Turn where
  | stopped
  | missed (cause : SourceError)
  | took (msg : Message) (handled : Handled)
  deriving DecidableEq, Repr

/-- What was counted. A counter has 64 bits, and what it counts stays below `Stats.limit`. -/
structure Stats where
  stored : Nat := 0
  deadLettered : Nat := 0
  redelivered : Nat := 0
  commitFailures : Nat := 0
  fetchErrors : Nat := 0
  deriving DecidableEq, Repr, Inhabited

def Stats.limit : Nat := UInt64.size

def Stats.count (s : Stats) (h : Handled) : Stats :=
  match h.outcome with
  | .stored =>
    { s with stored := s.stored + 1, commitFailures := s.commitFailures + (if h.committed then 0 else 1) }
  | .deadLettered _ =>
    { s with
      deadLettered := s.deadLettered + 1
      commitFailures := s.commitFailures + (if h.committed then 0 else 1) }
  | .storeFailed | .deadLetterFailed _ | .deadLetterDisabled _ => { s with redelivered := s.redelivered + 1 }

def Stats.record (s : Stats) : Turn → Stats
  | .stopped => s
  | .missed _ => { s with fetchErrors := s.fetchErrors + 1 }
  | .took _ h => s.count h

structure Progress where
  tracked : Attempts := .empty
  stats : Stats := {}
  deriving DecidableEq, Repr, Inhabited

namespace Pipeline

def turn {m : Type → Type} [Monad m] (p : Pipeline) (facilities : LoopFacilities m) (tracked : Attempts) :
    m (Turn × Attempts × Bool) := do
  if ← facilities.stopping then return (.stopped, tracked, false)
  match ← facilities.fetch with
  | .interrupted => return (.stopped, tracked, false)
  | .failed cause =>
    let again ← facilities.pause p.retryInterval
    return (.missed cause, tracked, again)
  | .message msg =>
    let (handled, tracked) ← p.handle facilities.toFacilities tracked msg
    if handled.outcome.isFinal then return (.took msg handled, tracked, true)
    let again ← facilities.pause p.retryInterval
    return (.took msg handled, tracked, again)

/-- Turns until the loop stops, at most `fuel` of them. -/
def turns {m : Type → Type} [Monad m] (p : Pipeline) (facilities : LoopFacilities m) :
    Nat → Progress → m (Option Progress)
  | 0, _ => return none
  | fuel + 1, s => do
    let (t, tracked, again) ← p.turn facilities s.tracked
    let s : Progress := ⟨tracked, s.stats.record t⟩
    if again then p.turns facilities fuel s else return some s

end Pipeline

end OrderDepot.Delivery
