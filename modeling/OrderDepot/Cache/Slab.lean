import OrderDepot.Keyed

/-!
The recency list in an array of slots. Occupied slots are linked in both directions, from the most recently
used one at the head to the least recently used one at the tail. Slots that were given up are used again,
the last one first, and an index leads from a key to its slot. No operation walks the list.
-/

namespace OrderDepot.Cache

structure Node (κ α : Type) where
  key : κ
  value : α
  expiry : Option Nat
  before : Option Nat
  after : Option Nat
  deriving DecidableEq, Repr

structure Slab (κ α : Type) where
  slots : Array (Option (Node κ α)) := #[]
  free : List Nat := []
  index : Keyed κ Nat := .empty
  head : Option Nat := none
  tail : Option Nat := none

namespace Slab

variable {κ α : Type}

def node? (s : Slab κ α) (i : Nat) : Option (Node κ α) :=
  s.slots[i]?.join

def modify (s : Slab κ α) (i : Nat) (f : Node κ α → Node κ α) : Slab κ α :=
  { s with slots := s.slots.modify i (Option.map f) }

def setAfter (s : Slab κ α) (before after : Option Nat) : Slab κ α :=
  match before with
  | some p => s.modify p fun n => { n with after }
  | none => { s with head := after }

def setBefore (s : Slab κ α) (after before : Option Nat) : Slab κ α :=
  match after with
  | some q => s.modify q fun n => { n with before }
  | none => { s with tail := before }

def linkFront (s : Slab κ α) (i : Nat) : Slab κ α :=
  let old := s.head
  let s := s.modify i fun n => { n with before := none, after := old }
  { s.setBefore old (some i) with head := some i }

def unlink (s : Slab κ α) (i : Nat) : Slab κ α :=
  match s.node? i with
  | none => s
  | some n =>
    ((s.setAfter n.before n.after).setBefore n.after n.before).modify i fun m =>
      { m with before := none, after := none }

def promote (s : Slab κ α) (i : Nat) : Slab κ α :=
  if s.head = some i then s else (s.unlink i).linkFront i

variable [DecidableEq κ]

def insertFront (s : Slab κ α) (k : κ) (a : α) (expiry : Option Nat) : Slab κ α :=
  let node : Node κ α := ⟨k, a, expiry, none, none⟩
  match s.free with
  | i :: free =>
    linkFront { s with slots := s.slots.setIfInBounds i (some node), free, index := s.index.put k i } i
  | [] =>
    let i := s.slots.size
    linkFront { s with slots := s.slots.push (some node), index := s.index.put k i } i

def remove (s : Slab κ α) (i : Nat) : Slab κ α :=
  let s := s.unlink i
  match s.node? i with
  | none => s
  | some n =>
    { s with slots := s.slots.setIfInBounds i none, free := i :: s.free, index := s.index.drop n.key }

def removeLast (s : Slab κ α) : Slab κ α :=
  match s.tail with
  | some i => s.remove i
  | none => s

def size (s : Slab κ α) : Nat := s.index.size

end Slab

end OrderDepot.Cache
