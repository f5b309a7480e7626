import Mathlib.Data.List.Dedup
import Mathlib.Data.List.DropRight
import Mathlib.Data.List.Perm.Subperm
import OrderDepot.Proofs.Delivery.Courses

/-!
# Attempts

The table of attempts holds a position from a failed delivery until one that ends. The table is shared and bounded:
when it is full and one more delivery fails, that position keeps its own count and all others are forgotten. So the
number of a delivery is one more than the failures there since the last delivery that ended, or since the last time
that another position had the table forgotten.
-/

namespace OrderDepot.Delivery

namespace Attempts

def counted (t : Attempts) (q : Position) : Nat := ((t.find? q).map UInt32.toNat).getD 0

theorem toNat_succ (n : UInt32) : (succ n).toNat = min (1 + n.toNat) (UInt32.size - 1) := by
  have hn := n.toNat_lt_size
  unfold succ
  split
  · next h =>
    have hnext : (n + 1).toNat = n.toNat + 1 := by
      rw [UInt32.toNat_add]
      exact Nat.mod_eq_of_lt h
    omega
  · omega

theorem toNat_next (t : Attempts) (q : Position) : (t.next q).toNat = min (1 + t.counted q) (UInt32.size - 1) := by
  unfold next counted
  cases t.find? q with
  | none => rfl
  | some n => exact toNat_succ n

end Attempts

/-- One call: what was handled and what came of it, with the table that it found and the one that it left. -/
structure Handling where
  message : Message
  handled : Handled
  found : Attempts
  left : Attempts

namespace Handling

def position (x : Handling) : Position := x.message.position

def failed (x : Handling) : Bool := !x.handled.outcome.isFinal

/-- Other positions were tracked when the call began, and when it returns none of them is. -/
def resets (x : Handling) : Bool := x.found.keys.any (· ≠ x.position) && x.left.keys.all (· = x.position)

/-- The failures at `q` are counted from this call on: a message has ended there, or the call is for another position and
resets the table. -/
def clears (q : Position) (x : Handling) : Bool := if x.position = q then !x.failed else x.resets

structure Tracks (x : Handling) : Prop where
  attempt_eq : x.handled.attempt = x.found.next x.position
  left_eq : x.left =
    if x.failed then x.found.unfinished x.position x.handled.attempt else x.found.drop x.position

end Handling

/-- The calls that failed at `q` after the last call from which they are counted. The latest call is the last. -/
def failuresAt (q : Position) (past : List Handling) : Nat :=
  (past.rtakeWhile (!·.clears q)).countP fun x => x.position = q && x.failed

def callsAt (q : Position) (past : List Handling) : List Handling := past.filter (·.position = q)

def failing (past : List Handling) (q : Position) : Bool := (callsAt q past).getLast?.any Handling.failed

section Call

variable {past : List Handling} {x : Handling} {q : Position}

namespace Handling.Tracks

variable (h : x.Tracks)

include h

end Handling.Tracks

/-- The table is the count of the failures of these calls. -/
structure Tallied (past : List Handling) (t : Attempts) : Prop where
  distinct : t.keys.Nodup
  bounded : t.size ≤ Attempts.limit
  counts : ∀ q, t.counted q = min (failuresAt q past) (UInt32.size - 1)
  only_failing : ∀ q ∈ t.keys, failing past q = true

theorem Tallied.attempt_eq (h : Tallied past x.found) (hx : x.Tracks) :
    x.handled.attempt.toNat = min (1 + failuresAt x.position past) (UInt32.size - 1) := by
  rw [hx.attempt_eq, Attempts.toNat_next, h.counts]
  omega

end Call

namespace Pipeline

open Surroundings (facilities)

variable {p : Pipeline} {past : List Handling} {found left : Attempts} {m : Message} {h : Handled}
  {w v : Surroundings}

end Pipeline

end OrderDepot.Delivery
