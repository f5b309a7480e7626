import OrderDepot.Delivery.Loop
import OrderDepot.Store.Memory

/-!
Runs of the loop in surroundings that behave as a script says, on a clock of their own. The clock moves only
while the pipeline waits. An agenda says what happens at which time: it changes how calls behave, appends to
the source, and sends or closes the signal to stop; it is worked off only while the pipeline waits, too.
All calls are written down at the time at which they begin, and those that fail or are late once more; the lists
have the latest in front. The signal remembers a send until somebody notices it, whatever was sent. Times are
nanoseconds since the start.
-/

namespace OrderDepot.Delivery

structure Signal where
  value : Bool := false
  unseen : Bool := false
  closed : Bool := false
  deriving DecidableEq, Repr, Inhabited

namespace Signal

def send (s : Signal) (value : Bool) : Signal := { s with value, unseen := true }

def close (s : Signal) : Signal := { s with closed := true }

def changed (s : Signal) : Bool := s.unseen || s.closed

def notice (s : Signal) : Signal := { s with unseen := false }

end Signal

inductive Behaviour where
  | succeeds (after : Nat)
  | fails (after : Nat := 0)
  | stalls
  deriving DecidableEq, Repr, Inhabited

inductive CallKind where
  | save
  | publish
  | commit
  | rewind
  deriving DecidableEq, Repr

abbrev Conditions := CallKind → Behaviour

def Conditions.set (c : Conditions) (kind : CallKind) (b : Behaviour) : Conditions :=
  fun k => if k = kind then b else c k

inductive Call where
  | fetch (position : Position)
  | fetchError
  | save (uid : OrderUid)
  | publish (key : List UInt8)
  | commit (position : Position)
  | rewind (position : Position)
  deriving DecidableEq, Repr

def Call.text : Call → String
  | .fetch p => "fetch " ++ p.text
  | .fetchError => "fetch error"
  | .save uid => "save " ++ uid.text
  | .publish key => "publish " ++ Text.lossyText key
  | .commit p => "commit " ++ p.text
  | .rewind p => "rewind " ++ p.text

abbrev Arrival := Except SourceError Message

inductive Event where
  | set (kind : CallKind) (behaviour : Behaviour)
  | arrive (arrival : Arrival)
  | signal (value : Bool)
  | close

structure Surroundings where
  clock : Nat := 0
  /-- What will happen, in the order of time. -/
  agenda : List (Nat × Event) := []
  signal : Signal := {}
  queue : List Arrival := []
  /-- How calls behave, by the number of calls made before. -/
  conditions : Nat → Conditions := fun _ _ => .succeeds 0
  calls : Nat := 0
  store : Store.Memory := {}
  records : List OutgoingRecord := []
  trace : List (Nat × Call) := []
  failures : List Call := []
  date : Nat → Time.Instant := fun _ => .epoch

/-- Computations that may never return. -/
abbrev Scripted := StateT Surroundings Option

namespace Surroundings

def apply (w : Surroundings) : Event → Surroundings
  | .set kind b => { w with conditions := fun n => (w.conditions n).set kind b }
  | .arrive a => { w with queue := w.queue ++ [a] }
  | .signal v => { w with signal := w.signal.send v }
  | .close => { w with signal := w.signal.close }

/-- Waits until `wake` holds, at the latest until a time. The list is the agenda. -/
def waitUntil (wake : Surroundings → Bool) (deadline : Nat) :
    List (Nat × Event) → Surroundings → Surroundings
  | [], w =>
    if wake w then { w with agenda := [] } else { w with agenda := [], clock := max w.clock deadline }
  | (t, e) :: rest, w =>
    if w.clock < t ∧ wake w then { w with agenda := (t, e) :: rest }
    else if w.clock < t ∧ deadline ≤ t then
      { w with agenda := (t, e) :: rest, clock := max w.clock deadline }
    else waitUntil wake deadline rest (apply { w with clock := max w.clock t } e)

def waitFor (wake : Surroundings → Bool) : List (Nat × Event) → Surroundings → Option Surroundings
  | [], w => if wake w then some { w with agenda := [] } else none
  | (t, e) :: rest, w =>
    if w.clock < t ∧ wake w then some { w with agenda := (t, e) :: rest }
    else waitFor wake rest (apply { w with clock := max w.clock t } e)

def sleep (w : Surroundings) (nanos : Nat) : Surroundings :=
  if nanos = 0 then w else waitUntil (fun _ => false) (w.clock + nanos) w.agenda w

def begin (w : Surroundings) (c : Call) : Surroundings :=
  { w with trace := (w.clock, c) :: w.trace, calls := w.calls + 1 }

def ended {ε : Type} (w : Surroundings) (c : Call) : Reply ε → Surroundings
  | .done => w
  | .failed _ | .late => { w with failures := c :: w.failures }

/-- What comes of a call with a limit of time; `effect` is what it does if it succeeds in time. -/
def answer {ε : Type} (w : Surroundings) (behaviour : Behaviour) (limit : Time.Duration) (cause : ε)
    (effect : Surroundings → Reply ε × Surroundings) : Reply ε × Surroundings :=
  match behaviour with
  | .succeeds after =>
    if after ≤ limit.nanos then effect (w.sleep after) else (.late, w.sleep limit.nanos)
  | .fails after =>
    if after ≤ limit.nanos then (.failed cause, w.sleep after) else (.late, w.sleep limit.nanos)
  | .stalls => (.late, w.sleep limit.nanos)

def limited {ε : Type} (kind : CallKind) (call : Call) (limit : Time.Duration) (cause : ε)
    (effect : Surroundings → Reply ε × Surroundings) (w : Surroundings) : Reply ε × Surroundings :=
  let (reply, after) := (w.begin call).answer (w.conditions w.calls kind) limit cause effect
  (reply, after.ended call reply)

def save (limit : Time.Duration) (o : Order) : Surroundings → Reply Store.Failure × Surroundings :=
  limited .save (.save o.uid) limit (.unavailable "store down") fun w =>
    match w.store.save o with
    | (.ok (), store) => (.done, { w with store })
    | (.error f, store) => (.failed f, { w with store })

def publish (limit : Time.Duration) (r : OutgoingRecord) : Surroundings → Reply String × Surroundings :=
  limited .publish (.publish r.key) limit "broker down" fun w =>
    (.done, { w with records := r :: w.records })

def commit (limit : Time.Duration) (m : Message) : Surroundings → Reply SourceError × Surroundings :=
  limited .commit (.commit m.position) limit (.commit "broker down") fun w => (.done, w)

/-- Puts a message in front of the queue. A rewind that stalls never returns. -/
def rewind (m : Message) (w : Surroundings) : Option (Except SourceError Unit × Surroundings) :=
  let behaviour := w.conditions w.calls .rewind
  let call := .rewind m.position
  let w := w.begin call
  match behaviour with
  | .succeeds after =>
    let w := w.sleep after
    some (.ok (), { w with queue := .ok m :: w.queue })
  | .fails after =>
    let w := w.sleep after
    some (.error (.seek "broker down"), { w with failures := call :: w.failures })
  | .stalls => none

def fetchNow (w : Surroundings) : Option (Fetched × Surroundings) :=
  if w.signal.changed then some (.interrupted, { w with signal := w.signal.notice })
  else
    match w.queue with
    | [] => none
    | .ok m :: queue => some (.message m, { w with queue }.begin (.fetch m.position))
    | .error e :: queue => some (.failed e, { w with queue }.begin .fetchError)

def fetch (w : Surroundings) : Option (Fetched × Surroundings) :=
  match w.fetchNow with
  | some r => some r
  | none => (waitFor (fun w => w.signal.changed || !w.queue.isEmpty) w.agenda w).bind fetchNow

def pause (interval : Time.Duration) (w : Surroundings) : Bool × Surroundings :=
  if w.signal.value then (false, w)
  else if w.signal.changed then (false, { w with signal := w.signal.notice })
  else if interval.nanos = 0 then (true, w)
  else
    let w := waitUntil (·.signal.changed) (w.clock + interval.nanos) w.agenda w
    if w.signal.changed then (false, { w with signal := w.signal.notice }) else (true, w)

def total {α : Type} (f : Surroundings → α × Surroundings) : Scripted α := fun w => some (f w)

def facilities : LoopFacilities Scripted where
  now := total fun w => (w.date w.clock, w)
  save limit o := total (save limit o)
  publish limit r := total (publish limit r)
  commit limit m := total (commit limit m)
  rewind m := rewind m
  stopping := total fun w => (w.signal.value, w)
  fetch := fetch
  pause interval := total (pause interval)

end Surroundings

/-- The time of the last event that is planned. -/
def Surroundings.lastTime (w : Surroundings) : Nat := w.agenda.foldl (fun t e => max t e.1) w.clock

/-- More turns than a run can have whose agenda tells the loop to stop. -/
def Surroundings.turnBound (w : Surroundings) (interval : Time.Duration) : Nat :=
  w.queue.length + w.agenda.length + (w.lastTime - w.clock) / max 1 interval.nanos + 1

def Pipeline.run (p : Pipeline) (w : Surroundings) : Option (Stats × Surroundings) :=
  match (p.turns Surroundings.facilities (w.turnBound p.retryInterval) {}).run w with
  | some (some s, w) => some (s.stats, w)
  | _ => none

end OrderDepot.Delivery
