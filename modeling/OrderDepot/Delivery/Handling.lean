import OrderDepot.Delivery.DeadLetter
import OrderDepot.Delivery.Message
import OrderDepot.Keyed
import OrderDepot.Order.Validation
import OrderDepot.Store.Failure

/-!
Handling of one message. Its order is stored, or the message is set aside as a dead letter. When that has
succeeded the position is committed, else the source is rewound to the message, which comes back later.
Storing, publishing and committing are given a limit of time, rewinding is not. How often a message has been
delivered is tracked only while its last delivery did not end, in a bounded table: when it is full, all counts
are forgotten before the next one is recorded.
-/

namespace OrderDepot.Delivery

abbrev Attempts := Keyed Position UInt32

namespace Attempts

def limit : Nat := 4096

def succ (n : UInt32) : UInt32 :=
  if n.toNat + 1 < UInt32.size then n + 1 else n

def next (a : Attempts) (p : Position) : UInt32 :=
  match a.find? p with
  | some n => succ n
  | none => 1

def unfinished (a : Attempts) (p : Position) (attempt : UInt32) : Attempts :=
  (if limit ≤ a.size then Keyed.empty else a).put p attempt

end Attempts

inductive Reply (ε : Type) where
  | done
  | failed (cause : ε)
  | late
  deriving DecidableEq, Repr

structure Facilities (m : Type → Type) where
  now : m Time.Instant
  save : Time.Duration → Order → m (Reply Store.Failure)
  publish : Time.Duration → OutgoingRecord → m (Reply String)
  commit : Time.Duration → Message → m (Reply SourceError)
  rewind : Message → m (Except SourceError Unit)

structure Pipeline where
  storeLimit : Time.Duration := .ofSeconds 5
  commitLimit : Time.Duration := .ofSeconds 5
  publishLimit : Time.Duration := .ofSeconds 7
  retryInterval : Time.Duration := .ofSeconds 1
  deadLetters : Bool := true
  deriving DecidableEq, Repr

inductive Outcome where
  | stored
  | deadLettered (reason : Reason)
  | storeFailed
  | deadLetterFailed (reason : Reason)
  | deadLetterDisabled (reason : Reason)
  deriving DecidableEq, Repr

def Outcome.isFinal : Outcome → Bool
  | .stored | .deadLettered _ => true
  | .storeFailed | .deadLetterFailed _ | .deadLetterDisabled _ => false

def send {m : Type → Type} [Monad m] (facilities : Facilities m) (limit : Time.Duration) (msg : Message)
    (reason : Reason) (attempt : UInt32) : m (Except PublishError Unit) := do
  let now ← facilities.now
  match ← facilities.publish limit (deadLetter msg reason attempt now) with
  | .done => return .ok ()
  | .failed text => return .error (.publish text)
  | .late => return .error (.late limit)

namespace Pipeline

def setAside {m : Type → Type} [Monad m] (p : Pipeline) (facilities : Facilities m) (msg : Message)
    (reason : Reason) (attempt : UInt32) : m Outcome := do
  if p.deadLetters then
    match ← send facilities p.publishLimit msg reason attempt with
    | .ok () => return .deadLettered reason
    | .error _ => return .deadLetterFailed reason
  else return .deadLetterDisabled reason

def process {m : Type → Type} [Monad m] (p : Pipeline) (facilities : Facilities m) (msg : Message)
    (attempt : UInt32) : m Outcome := do
  let now ← facilities.now
  match Verdict.of msg.payload now with
  | .accepted order =>
    match ← facilities.save p.storeLimit order with
    | .done => return .stored
    | .failed _ | .late => return .storeFailed
  | .undecodable _ => p.setAside facilities msg .unmarshalFailed attempt
  | .invalid _ _ => p.setAside facilities msg .validationFailed attempt

end Pipeline

structure Handled where
  outcome : Outcome
  attempt : UInt32
  committed : Bool
  deriving DecidableEq, Repr

/-- Processes a message, then commits its position or rewinds the source to it. -/
def Pipeline.handle {m : Type → Type} [Monad m] (p : Pipeline) (facilities : Facilities m)
    (tracked : Attempts) (msg : Message) : m (Handled × Attempts) := do
  let attempt := tracked.next msg.position
  let outcome ← p.process facilities msg attempt
  if outcome.isFinal then
    let committed := match ← facilities.commit p.commitLimit msg with
      | .done => true
      | .failed _ | .late => false
    return (⟨outcome, attempt, committed⟩, tracked.drop msg.position)
  else
    let _ ← facilities.rewind msg
    return (⟨outcome, attempt, false⟩, tracked.unfinished msg.position attempt)

end OrderDepot.Delivery
