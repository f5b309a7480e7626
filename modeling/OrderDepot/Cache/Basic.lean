import OrderDepot.Cache.Recency
import OrderDepot.Cache.Slab

/-!
A cache with a bounded number of entries, each of which lives for a bounded time.
-/

namespace OrderDepot

structure Cache (κ α : Type) where
  bounds : Cache.Bounds
  slab : Cache.Slab κ α := {}

namespace Cache

variable {κ α : Type} [DecidableEq κ]

def get (c : Cache κ α) (now : Nat) (k : κ) : Option α × Cache κ α :=
  match c.slab.index.find? k with
  | none => (none, c)
  | some i =>
    if (c.slab.node? i).any fun n => isExpired n.expiry now then
      (none, { c with slab := c.slab.remove i })
    else
      let slab := c.slab.promote i
      ((slab.node? i).map (·.value), { c with slab })

/-- Writes an entry as the most recently used one. A new key in a full cache takes the place of the least
recently used one. -/
def set (c : Cache κ α) (now : Nat) (k : κ) (a : α) : Cache κ α :=
  let expiry := expiryFrom c.bounds.ttl now
  match c.slab.index.find? k with
  | some i =>
    { c with slab := (c.slab.modify i fun n => { n with value := a, expiry }).promote i }
  | none =>
    let full := 0 < c.bounds.capacity ∧ c.bounds.capacity ≤ c.slab.size
    let slab := if full then c.slab.removeLast else c.slab
    { c with slab := slab.insertFront k a expiry }

def delete (c : Cache κ α) (k : κ) : Bool × Cache κ α :=
  match c.slab.index.find? k with
  | some i => (true, { c with slab := c.slab.remove i })
  | none => (false, c)

def purge (c : Cache κ α) : Cache κ α := { c with slab := {} }

def size (c : Cache κ α) : Nat := c.slab.size

end Cache

end OrderDepot
