import OrderDepot.Proofs.Cache.History
import OrderDepot.Proofs.Cache.Inclusion

/-!
# The slots of a cache after any calls

From the head the links lead to every occupied slot, to each of them once, and end at the tail. From the tail they lead
back. The index leads from the key in an occupied slot to that slot, and a slot that is not occupied is free. All of
this holds of a slab that represents a list. A slot is added only if none is free, so a cache that makes room in time
never has more slots than it may have entries.
-/

namespace OrderDepot.Cache

variable {κ α : Type}

namespace Slab

inductive Walk (s : Slab κ α) (next : Node κ α → Option Nat) : Option Nat → List Nat → Prop where
  | ends : Walk s next none []
  | visits {i : Nat} {n : Node κ α} {rest : List Nat} (node : s.node? i = some n)
      (onward : Walk s next (next n) rest) : Walk s next (some i) (i :: rest)

def Occupied (s : Slab κ α) (i : Nat) : Prop := (s.node? i).isSome = true

structure Threaded (s : Slab κ α) (order : List Nat) : Prop where
  once : order.Nodup
  occupied : ∀ i, i ∈ order ↔ s.Occupied i
  onward : s.Walk (fun n => n.after) s.head order
  last : order.getLast? = s.tail
  back : s.Walk (fun n => n.before) s.tail order.reverse
  first : order.head? = s.head

/-- The links, the index and the free slots agree with what the slots hold. By `index`, looking a key up is a bijection
between the keys in the slots and the occupied slots. -/
structure Intact [DecidableEq κ] (s : Slab κ α) : Prop where
  threaded : ∃ order, s.Threaded order
  none_before_head : ∀ i, s.head = some i → ∃ n, s.node? i = some n ∧ n.before = none
  none_after_tail : ∀ i, s.tail = some i → ∃ n, s.node? i = some n ∧ n.after = none
  no_head : s.head = none ↔ ∀ i, ¬ s.Occupied i
  no_tail : s.tail = none ↔ ∀ i, ¬ s.Occupied i
  index : ∀ k i, s.index.find? k = some i ↔ ∃ n, s.node? i = some n ∧ n.key = k
  keys : s.index.keys.Nodup
  free_once : s.free.Nodup
  free : ∀ i, i ∈ s.free ↔ i < s.slots.size ∧ ¬ s.Occupied i
  size : s.slots.size = s.index.size + s.free.length

variable {s : Slab κ α} {i : Nat} {n : Node κ α} {l : Placed κ α} {before after : Option Nat} {k : κ}

theorem Occupied.of_node (h : s.node? i = some n) : s.Occupied i := by
  rw [Occupied, h]
  rfl

theorem Occupied.lt_size (h : s.Occupied i) : i < s.slots.size := by
  refine Nat.lt_of_not_ge fun hi => ?_
  rw [Occupied, node?, Array.getElem?_eq_none hi] at h
  cases h

theorem walk_after (h : s.Linked before l none) : s.Walk (fun n => n.after) (first? l) (slotsOf l) := by
  induction l generalizing before with
  | nil => exact .ends
  | cons p rest ih =>
    obtain ⟨i, e⟩ := p
    obtain ⟨hi, hrest⟩ := h
    rw [Option.or_none] at hi
    exact .visits hi (ih hrest)

theorem walk_before (h : s.Linked none l after) : s.Walk (fun n => n.before) (last? l) (slotsOf l).reverse := by
  induction l using List.reverseRecOn generalizing after with
  | nil => exact .ends
  | append_singleton l p ih =>
    obtain ⟨i, e⟩ := p
    obtain ⟨hl, hi, -⟩ := linked_append.1 h
    rw [Option.or_none] at hi
    have hwalk : s.Walk (fun n => n.before) (some i) (i :: (slotsOf l).reverse) := .visits hi (ih hl)
    simpa [last?, slotsOf] using hwalk

theorem split_at_slot (h : i ∈ slotsOf l) : ∃ l₁ e l₂, l = l₁ ++ (i, e) :: l₂ := by
  obtain ⟨⟨i, e⟩, hmem, rfl⟩ := List.mem_map.1 h
  obtain ⟨l₁, l₂, hl⟩ := List.append_of_mem hmem
  exact ⟨l₁, e, l₂, hl⟩

namespace Represents

theorem nodup_slots (h : s.Represents l) : (s.free ++ slotsOf l).Nodup :=
  h.slots.nodup_iff.2 List.nodup_range

theorem mem_slots_iff (h : s.Represents l) : i ∈ s.free ++ slotsOf l ↔ i < s.slots.size :=
  h.slots.mem_iff.trans List.mem_range

theorem mem_slotsOf_iff (h : s.Represents l) : i ∈ slotsOf l ↔ s.Occupied i := by
  constructor
  · intro hi
    obtain ⟨l₁, e, l₂, rfl⟩ := split_at_slot hi
    exact .of_node (chain_node h.chain)
  · intro hoccupied
    rcases List.mem_append.1 (h.mem_slots_iff.2 hoccupied.lt_size) with hfree | hi
    · rw [Occupied, h.vacant i hfree] at hoccupied
      cases hoccupied
    · exact hi

theorem mem_free_iff (h : s.Represents l) : i ∈ s.free ↔ i < s.slots.size ∧ ¬ s.Occupied i := by
  rw [← h.mem_slots_iff, ← h.mem_slotsOf_iff, List.mem_append]
  have hdisjoint : i ∈ s.free → i ∉ slotsOf l := fun hfree hi =>
    (List.nodup_append.1 h.nodup_slots).2.2 i hfree i hi rfl
  tauto

theorem threaded (h : s.Represents l) : s.Threaded (slotsOf l) where
  once := h.chain.distinct
  occupied := fun _ => h.mem_slotsOf_iff
  onward := h.chain.head ▸ walk_after h.chain.linked
  last := h.chain.tail.symm
  back := h.chain.tail ▸ walk_before h.chain.linked
  first := h.chain.head.symm

theorem none_before_head (h : s.Represents l) (hi : s.head = some i) : ∃ n, s.node? i = some n ∧ n.before = none := by
  rw [h.chain.head] at hi
  cases l with
  | nil => cases hi
  | cons p rest =>
    obtain ⟨j, e⟩ := p
    obtain rfl : j = i := Option.some.inj hi
    exact ⟨_, chain_front h.chain, rfl⟩

theorem none_after_tail (h : s.Represents l) (hi : s.tail = some i) : ∃ n, s.node? i = some n ∧ n.after = none := by
  rw [h.chain.tail] at hi
  cases l using List.reverseRecOn with
  | nil => cases hi
  | append_singleton l p =>
    obtain ⟨j, e⟩ := p
    obtain rfl : j = i := by simpa [last?, slotsOf] using hi
    exact ⟨_, chain_node h.chain, rfl⟩

theorem eq_nil_iff (h : s.Represents l) : l = [] ↔ ∀ i, ¬ s.Occupied i := by
  simp only [← h.mem_slotsOf_iff, ← List.eq_nil_iff_forall_not_mem, slotsOf, List.map_eq_nil_iff]

theorem head_eq_none_iff (h : s.Represents l) : s.head = none ↔ ∀ i, ¬ s.Occupied i := by
  rw [← h.eq_nil_iff, h.chain.head, first?, slotsOf, List.head?_eq_none_iff, List.map_eq_nil_iff]

theorem tail_eq_none_iff (h : s.Represents l) : s.tail = none ↔ ∀ i, ¬ s.Occupied i := by
  rw [← h.eq_nil_iff, h.chain.tail, last?, slotsOf, List.getLast?_eq_none_iff, List.map_eq_nil_iff]

theorem nodup_index_keys (h : s.Represents l) : s.index.keys.Nodup := by
  have hkeys := h.index.map fun p => p.1
  rw [keysOf_places] at hkeys
  exact hkeys.nodup_iff.2 h.keys

theorem slots_size (h : s.Represents l) : s.slots.size = s.index.size + s.free.length := by
  have hlength := h.slots.length_eq
  rw [List.length_append, List.length_range, slotsOf, List.length_map, ← size_eq_length h] at hlength
  omega

variable [DecidableEq κ]

theorem index_iff (h : s.Represents l) : s.index.find? k = some i ↔ ∃ n, s.node? i = some n ∧ n.key = k := by
  constructor
  · intro hfind
    by_cases hk : k ∈ keysOf l
    · obtain ⟨l₁, j, e, l₂, rfl, rfl⟩ := split_at_key hk
      obtain rfl : j = i := Option.some.inj ((find?_some h).symm.trans hfind)
      exact ⟨_, chain_node h.chain, rfl⟩
    · cases (find?_none h hk).symm.trans hfind
  · rintro ⟨n, hnode, rfl⟩
    obtain ⟨l₁, e, l₂, rfl⟩ := split_at_slot (h.mem_slotsOf_iff.2 (.of_node hnode))
    obtain rfl : _ = n := Option.some.inj ((chain_node h.chain).symm.trans hnode)
    exact find?_some h

theorem intact (h : s.Represents l) : s.Intact where
  threaded := ⟨_, h.threaded⟩
  none_before_head := fun _ => h.none_before_head
  none_after_tail := fun _ => h.none_after_tail
  no_head := h.head_eq_none_iff
  no_tail := h.tail_eq_none_iff
  index := fun _ _ => h.index_iff
  keys := h.nodup_index_keys
  free_once := (List.nodup_append.1 h.nodup_slots).1
  free := fun _ => h.mem_free_iff
  size := h.slots_size

end Represents

theorem promote_size (s : Slab κ α) (i : Nat) : (s.promote i).slots.size = s.slots.size := by
  unfold promote
  split
  · rfl
  · exact (relinked_trans (relinked_unlink s i) (relinked_linkFront _ i)).size

variable [DecidableEq κ]

theorem remove_size (s : Slab κ α) (i : Nat) : (s.remove i).slots.size = s.slots.size := by
  have hunlinked := (relinked_unlink s i).size
  unfold remove
  dsimp only
  split
  · exact hunlinked
  · rw [Array.size_setIfInBounds, hunlinked]

theorem removeLast_size (s : Slab κ α) : s.removeLast.slots.size = s.slots.size := by
  unfold removeLast
  split
  · exact remove_size s _
  · rfl

theorem insertFront_size (s : Slab κ α) (k : κ) (a : α) (expiry : Option Nat) :
    (s.insertFront k a expiry).slots.size = s.slots.size ∨
      s.free = [] ∧ (s.insertFront k a expiry).slots.size = s.slots.size + 1 := by
  unfold insertFront
  dsimp only
  split
  · left
    rw [(relinked_linkFront _ _).size, Array.size_setIfInBounds]
  · next hfree =>
    right
    rw [(relinked_linkFront _ _).size, Array.size_push]
    exact ⟨hfree, rfl⟩

end Slab

open Slab (Placed keysOf)

def WithinCapacity (c : Cache κ α) : Prop := c.bounds.capacity = 0 ∨ c.slab.slots.size ≤ c.bounds.capacity

variable [DecidableEq κ] {c : Cache κ α} {l : Placed κ α} {k : κ}

theorem get_size (c : Cache κ α) (now : Nat) (k : κ) : (c.get now k).2.slab.slots.size = c.slab.slots.size := by
  unfold get
  split
  · rfl
  · next i _ =>
    split
    · exact Slab.remove_size c.slab i
    · exact Slab.promote_size c.slab i

theorem delete_size (c : Cache κ α) (k : κ) : (c.delete k).2.slab.slots.size = c.slab.slots.size := by
  unfold delete
  split
  · exact Slab.remove_size c.slab _
  · rfl

theorem set_known_size {i : Nat} (hfind : c.slab.index.find? k = some i) (now : Nat) (a : α) :
    (c.set now k a).slab.slots.size = c.slab.slots.size := by
  simp only [set, hfind]
  rw [Slab.promote_size]
  exact (Slab.relinked_modify c.slab i _).size

theorem roomMade_size (c : Cache κ α) :
    (if 0 < c.bounds.capacity ∧ c.bounds.capacity ≤ c.slab.size then c.slab.removeLast
      else c.slab).slots.size = c.slab.slots.size := by
  split
  · exact Slab.removeLast_size c.slab
  · rfl

theorem set_new_size (h : c.slab.Represents l) (hk : k ∉ keysOf l) (hpos : 0 < c.bounds.capacity)
    (hcap : c.slab.slots.size ≤ c.bounds.capacity) (now : Nat) (a : α) :
    (c.set now k a).slab.slots.size ≤ c.bounds.capacity := by
  obtain ⟨l', hroom, hentries, -⟩ := makeRoom_represents h hk
  simp only [set, Slab.find?_none h hk]
  rcases Slab.insertFront_size _ k a (expiryFrom c.bounds.ttl now) with hreused | ⟨hfree, hadded⟩
  · rw [hreused, roomMade_size]
    exact hcap
  · have hlength : l'.length = if 0 < c.bounds.capacity ∧ c.bounds.capacity ≤ l.length then l.length - 1
        else l.length := by
      have hmade := congrArg List.length hentries
      rw [Recency.length_makeRoom, entriesOf, entriesOf, List.length_map, List.length_map] at hmade
      exact hmade.symm
    have hbefore : c.slab.slots.size = l.length + c.slab.free.length := by
      rw [h.slots_size, Slab.size_eq_length h]
    have hafter := hroom.slots_size
    rw [hfree, List.length_nil, Slab.size_eq_length hroom] at hafter
    rw [hadded, hafter]
    split at hlength <;> omega

theorem set_withinCapacity (h : c.slab.Represents l) (hcap : c.WithinCapacity) (now : Nat) (k : κ) (a : α) :
    (c.set now k a).WithinCapacity := by
  have hbounds : (c.set now k a).bounds = c.bounds := call_bounds c (.set now k a)
  rw [WithinCapacity, hbounds]
  rcases Nat.eq_zero_or_pos c.bounds.capacity with hunbounded | hpos
  · exact .inl hunbounded
  right
  have hslots := hcap.resolve_left (Nat.ne_of_gt hpos)
  by_cases hk : k ∈ keysOf l
  · obtain ⟨l₁, i, e, l₂, rfl, rfl⟩ := split_at_key hk
    rw [set_known_size (Slab.find?_some h)]
    exact hslots
  · exact set_new_size h hk hpos hslots now a

theorem call_withinCapacity (h : c.slab.Represents l) (hcap : c.WithinCapacity) (x : Call κ α) :
    (c.call x).2.WithinCapacity := by
  have hkept : ∀ c' : Cache κ α, c'.bounds = c.bounds → c'.slab.slots.size = c.slab.slots.size →
      c'.WithinCapacity := by
    intro c' hbounds hsize
    rw [WithinCapacity, hbounds, hsize]
    exact hcap
  cases x with
  | get now k => exact hkept _ (call_bounds c (.get now k)) (get_size c now k)
  | set now k a => exact set_withinCapacity h hcap now k a
  | delete k => exact hkept _ (call_bounds c (.delete k)) (delete_size c k)
  | purge => exact .inr (Nat.zero_le _)
  | size => exact hcap

theorem represents_after (h : c.slab.Represents l) (hcap : c.WithinCapacity) (calls : List (Call κ α)) :
    (∃ l', (c.after calls).slab.Represents l') ∧ (c.after calls).WithinCapacity := by
  induction calls generalizing c l with
  | nil => exact ⟨⟨l, h⟩, hcap⟩
  | cons x rest ih =>
    obtain ⟨l', hl', -⟩ := call_represents h x
    exact ih hl' (call_withinCapacity h hcap x)

theorem after_bounds (c : Cache κ α) (calls : List (Call κ α)) : (c.after calls).bounds = c.bounds := by
  induction calls generalizing c with
  | nil => rfl
  | cons x rest ih => exact (ih (c.call x).2).trans (call_bounds c x)

/-- Whatever is called and when, the slots of a cache that was empty stay in order, and if the number of entries is
limited, there are never more slots than that. -/
theorem slab_intact_after (b : Bounds) (calls : List (Call κ α)) :
    let c : Cache κ α := (⟨b, {}⟩ : Cache κ α).after calls
    c.slab.Intact ∧ (b.capacity = 0 ∨ c.slab.slots.size ≤ b.capacity) := by
  intro c
  obtain ⟨⟨l, hrepresents⟩, hcap⟩ :=
    represents_after (c := (⟨b, {}⟩ : Cache κ α)) Slab.represents_empty (.inr (Nat.zero_le _)) calls
  rw [WithinCapacity, after_bounds] at hcap
  exact ⟨hrepresents.intact, hcap⟩

example :
    let c := (⟨⟨2, .ofSeconds 60⟩, {}⟩ : Cache Nat Nat).after [.set 0 1 10, .set 1 2 20, .set 2 3 30]
    c.slab.slots.size = 2 ∧ c.slab.index.find? 3 = some 0 ∧ c.slab.free = [] := by
  decide

end OrderDepot.Cache
