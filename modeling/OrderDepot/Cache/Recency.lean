import OrderDepot.Time.Duration

/-!
What a cache is: a list of entries with the most recently used one in front. An entry may have a time from
which on it is expired; it is dropped when it is asked for then, or when it is the last one and room is
needed. Times are nanoseconds since the start of the clock.
-/

namespace OrderDepot.Cache

/-- Times from here on cannot be told apart from never. -/
def horizon : Nat := (Int64.maxValue.toInt.toNat + 1) * Time.Duration.perSecond

def expiryFrom (ttl : Time.Duration) (now : Nat) : Option Nat :=
  if ttl.nanos = 0 then none
  else if now + ttl.nanos < horizon then some (now + ttl.nanos)
  else none

def isExpired (expiry : Option Nat) (now : Nat) : Bool :=
  expiry.any (· ≤ now)

structure Entry (κ α : Type) where
  key : κ
  value : α
  expiry : Option Nat
  deriving DecidableEq, Repr

/-- How much a cache holds, and for how long. Zero is no limit, in both. -/
structure Bounds where
  capacity : Nat
  ttl : Time.Duration
  deriving DecidableEq, Repr

abbrev Recency (κ α : Type) := List (Entry κ α)

namespace Recency

variable {κ α : Type} [DecidableEq κ]

def find? (r : Recency κ α) (k : κ) : Option (Entry κ α) :=
  List.find? (·.key = k) r

def without (r : Recency κ α) (k : κ) : Recency κ α :=
  List.filter (·.key ≠ k) r

def get (r : Recency κ α) (now : Nat) (k : κ) : Option α × Recency κ α :=
  match r.find? k with
  | none => (none, r)
  | some e =>
    if isExpired e.expiry now then (none, r.without k)
    else (some e.value, e :: r.without k)

def makeRoom (r : Recency κ α) (capacity : Nat) : Recency κ α :=
  if 0 < capacity ∧ capacity ≤ r.length then r.dropLast else r

def set (b : Bounds) (r : Recency κ α) (now : Nat) (k : κ) (a : α) : Recency κ α :=
  let e : Entry κ α := ⟨k, a, expiryFrom b.ttl now⟩
  match r.find? k with
  | some _ => e :: r.without k
  | none => e :: r.makeRoom b.capacity

def delete (r : Recency κ α) (k : κ) : Bool × Recency κ α :=
  ((r.find? k).isSome, r.without k)

end Recency

end OrderDepot.Cache
