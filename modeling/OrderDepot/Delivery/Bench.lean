import OrderDepot.Delivery.Handling
import OrderDepot.Store.Memory

/-!
A pipeline with all its surroundings in memory: a log of one partition with a cursor and a committed
position, a store, and a publisher of dead letters that can fail. A restart goes back to the committed
position.
-/

namespace OrderDepot.Delivery

/-- What becomes of a commit. One that is refused or not answered in time has no effect. -/
inductive CommitMode where
  | answered
  | refused
  | unanswered
  deriving DecidableEq, Repr, Inhabited

structure Log where
  messages : List Message := []
  cursor : Nat := 0
  committed : Int := 0
  commits : Nat := 0
  commitMode : CommitMode := .answered
  deriving DecidableEq, Repr, Inhabited

namespace Log

def topic : String := "orders"

/-- How many messages a log can hold, so that the position after each of them is an offset, too. -/
def capacity : Nat := Int64.maxValue.toInt.toNat

def messageAt (offset : Nat) (payload : List UInt8) : Message where
  topic := topic
  partition := 0
  offset := Int64.ofNat offset
  key := Text.bytes s!"k{offset}"
  payload := payload

def append (l : Log) (payload : List UInt8) : Option (Nat × Log) :=
  let offset := l.messages.length
  if offset < capacity then
    some (offset, { l with messages := l.messages ++ [messageAt offset payload] })
  else none

def next? (l : Log) : Option (Message × Log) :=
  l.messages[l.cursor]?.map fun m => (m, { l with cursor := l.cursor + 1 })

def commit (l : Log) (m : Message) : Reply SourceError × Log :=
  match l.commitMode with
  | .answered => (.done, { l with committed := max l.committed (m.offset.toInt + 1), commits := l.commits + 1 })
  | .refused => (.failed (.commit "refused"), l)
  | .unanswered => (.late, l)

def rewind (l : Log) (m : Message) : Except SourceError Unit × Log :=
  if m.offset < 0 then (.error (.seek "out of range integral type conversion attempted"), l)
  else (.ok (), { l with cursor := m.offset.toInt.toNat })

def restart (l : Log) : Log := { l with cursor := l.committed.toNat }

end Log

structure Publisher where
  records : List OutgoingRecord := []
  failing : Bool := false
  attempts : Nat := 0
  deriving DecidableEq, Repr, Inhabited

def Publisher.publish (p : Publisher) (r : OutgoingRecord) : Reply String × Publisher :=
  let p := { p with attempts := p.attempts + 1 }
  if p.failing then (.failed "dead-letter broker unreachable", p)
  else (.done, { p with records := p.records ++ [r] })

structure Bench where
  pipeline : Pipeline := {}
  log : Log := {}
  store : Store.Memory := {}
  publisher : Publisher := {}
  tracked : Attempts := .empty
  date : Time.Instant := .epoch
  deriving DecidableEq, Repr, Inhabited

namespace Bench

def start (settings : Pipeline) (date : Time.Instant) : Bench :=
  { pipeline := { settings with deadLetters := true }, date }

def facilities : Facilities (StateM Bench) where
  now := fun b => (b.date, b)
  save _ o := fun b =>
    match b.store.save o with
    | (.ok (), store) => (.done, { b with store })
    | (.error f, store) => (.failed f, { b with store })
  publish _ r := fun b =>
    let (reply, publisher) := b.publisher.publish r
    (reply, { b with publisher })
  commit _ m := fun b =>
    let (reply, log) := b.log.commit m
    (reply, { b with log })
  rewind m := fun b =>
    let (reply, log) := b.log.rewind m
    (reply, { b with log })

def step (b : Bench) : Option Handled × Bench :=
  match b.log.next? with
  | none => (none, b)
  | some (m, log) =>
    let ((handled, tracked), b) := (b.pipeline.handle facilities b.tracked m).run { b with log }
    (some handled, { b with tracked })

inductive Action where
  | publish (payload : List UInt8)
  | step
  | restart
  | available (value : Bool)
  | failing (value : Bool)
  | committing (mode : CommitMode)
  deriving DecidableEq, Repr

def act (b : Bench) : Action → Bench
  | .publish payload =>
    match b.log.append payload with
    | some (_, log) => { b with log }
    | none => b
  | .step => b.step.2
  | .restart => { b with log := b.log.restart }
  | .available value => { b with store := { b.store with online := value } }
  | .failing value => { b with publisher := { b.publisher with failing := value } }
  | .committing mode => { b with log := { b.log with commitMode := mode } }

def run (b : Bench) (actions : List Action) : Bench := actions.foldl act b

end Bench

end OrderDepot.Delivery
