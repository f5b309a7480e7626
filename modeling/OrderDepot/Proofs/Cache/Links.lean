import Mathlib.Data.List.Induction
import OrderDepot.Cache.Recency
import OrderDepot.Cache.Slab

/-!
# The links of a slab

A list of slots with their entries is linked in a slab when each slot holds the node of its entry, and the
node names the slots before and after it. Splitting such a list at a slot, setting the links at its two ends and
joining the parts again is all that taking a slot out and putting it in front does.
-/

namespace OrderDepot.Cache

variable {κ α : Type}

def Entry.node (e : Entry κ α) (before after : Option Nat) : Node κ α :=
  ⟨e.key, e.value, e.expiry, before, after⟩

namespace Slab

/-- Entries with their slots, in the order of the list. -/
abbrev Placed (κ α : Type) := List (Nat × Entry κ α)

def slotsOf (l : Placed κ α) : List Nat := l.map (·.1)

def first? (l : Placed κ α) : Option Nat := (slotsOf l).head?

def last? (l : Placed κ α) : Option Nat := (slotsOf l).getLast?

/-- The part of a list between two slots, which are given for its ends. -/
def Linked (s : Slab κ α) : Option Nat → Placed κ α → Option Nat → Prop
  | _, [], _ => True
  | before, (i, e) :: rest, after =>
    s.node? i = some (e.node before ((first? rest).or after)) ∧ Linked s (some i) rest after

structure Chain (s : Slab κ α) (l : Placed κ α) : Prop where
  distinct : (slotsOf l).Nodup
  linked : s.Linked none l none
  head : s.head = first? l
  tail : s.tail = last? l

variable {s s' : Slab κ α} {i j : Nat} {e : Entry κ α} {l l₁ l₂ : Placed κ α} {before after : Option Nat}

theorem node?_modify (s : Slab κ α) (i j : Nat) (f : Node κ α → Node κ α) :
    (s.modify i f).node? j = if i = j then (s.node? j).map f else s.node? j := by
  by_cases h : i = j
  · subst h
    cases hs : s.slots[i]? <;> simp [modify, node?, Array.getElem?_modify, hs]
  · simp [modify, node?, Array.getElem?_modify, h]

theorem node?_setAfter (s : Slab κ α) (p after : Option Nat) (j : Nat) :
    (s.setAfter p after).node? j =
      if p = some j then (s.node? j).map fun n => { n with after } else s.node? j := by
  cases p with
  | none => rfl
  | some p => simp [setAfter, node?_modify]

theorem node?_setBefore (s : Slab κ α) (q before : Option Nat) (j : Nat) :
    (s.setBefore q before).node? j =
      if q = some j then (s.node? j).map fun n => { n with before } else s.node? j := by
  cases q with
  | none => rfl
  | some q => simp [setBefore, node?_modify]

theorem head_setAfter (s : Slab κ α) (p after : Option Nat) :
    (s.setAfter p after).head = if p.isSome then s.head else after := by
  cases p <;> rfl

theorem head_setBefore (s : Slab κ α) (q before : Option Nat) : (s.setBefore q before).head = s.head := by
  cases q <;> rfl

theorem tail_setAfter (s : Slab κ α) (p after : Option Nat) : (s.setAfter p after).tail = s.tail := by
  cases p <;> rfl

theorem tail_setBefore (s : Slab κ α) (q before : Option Nat) :
    (s.setBefore q before).tail = if q.isSome then s.tail else before := by
  cases q <;> rfl

theorem first?_append (l₁ l₂ : Placed κ α) : first? (l₁ ++ l₂) = (first? l₁).or (first? l₂) := by
  simp [first?, slotsOf, List.head?_append]

theorem last?_append (l₁ l₂ : Placed κ α) : last? (l₁ ++ l₂) = (last? l₂).or (last? l₁) := by
  simp only [last?, slotsOf, List.map_append, List.getLast?_append]

theorem last?_cons (i : Nat) (e : Entry κ α) (l : Placed κ α) :
    last? ((i, e) :: l) = (last? l).or (some i) := by
  simp [last?, slotsOf, List.getLast?_cons]

theorem first?_mem (h : first? l = some i) : i ∈ slotsOf l := List.mem_of_head? h

theorem last?_mem (h : last? l = some i) : i ∈ slotsOf l := List.mem_of_getLast? h

theorem linked_congr (h : s.Linked before l after) (hs : ∀ i ∈ slotsOf l, s'.node? i = s.node? i) :
    s'.Linked before l after := by
  induction l generalizing before with
  | nil => trivial
  | cons p rest ih =>
    obtain ⟨i, e⟩ := p
    obtain ⟨hi, hrest⟩ := h
    exact ⟨(hs i List.mem_cons_self).trans hi, ih hrest fun j hj => hs j (List.mem_cons_of_mem _ hj)⟩

theorem linked_append :
    s.Linked before (l₁ ++ l₂) after ↔
      s.Linked before l₁ ((first? l₂).or after) ∧ s.Linked ((last? l₁).or before) l₂ after := by
  induction l₁ generalizing before with
  | nil => simp [Linked, last?, slotsOf]
  | cons p rest ih =>
    obtain ⟨i, e⟩ := p
    simp only [List.cons_append, Linked, ih, first?_append, last?_cons, Option.or_assoc, Option.some_or,
      and_assoc]

theorem linked_setAfter (h : s.Linked none l before) (hd : (slotsOf l).Nodup) (after : Option Nat) :
    (s.setAfter (last? l) after).Linked none l after := by
  induction l using List.reverseRecOn with
  | nil => trivial
  | append_singleton l p =>
    obtain ⟨i, e⟩ := p
    obtain ⟨hl, hi, -⟩ := linked_append.1 h
    have hlast : last? (l ++ [(i, e)]) = some i := by
      simp [last?, slotsOf]
    have hfresh : ∀ j ∈ slotsOf l, i ≠ j := by
      intro j hj hij
      simp only [slotsOf, List.map_append, List.nodup_append] at hd
      exact hd.2.2 j hj i List.mem_cons_self hij.symm
    rw [hlast]
    refine linked_append.2 ⟨?_, ?_, trivial⟩
    · refine linked_congr hl fun j hj => ?_
      rw [node?_setAfter, if_neg fun hij => hfresh j hj (Option.some.inj hij)]
    · rw [node?_setAfter, if_pos rfl, hi]
      rfl

theorem linked_setBefore (h : s.Linked after l none) (hd : (slotsOf l).Nodup) (before : Option Nat) :
    (s.setBefore (first? l) before).Linked before l none := by
  cases l with
  | nil => trivial
  | cons p rest =>
    obtain ⟨i, e⟩ := p
    obtain ⟨hi, hrest⟩ := h
    have hfresh := (List.nodup_cons.1 hd).1
    refine ⟨?_, linked_congr hrest fun j hj => ?_⟩
    · rw [node?_setBefore, if_pos (show first? ((i, e) :: rest) = some i from rfl), hi]
      rfl
    · rw [node?_setBefore, if_neg]
      intro hij
      obtain rfl : i = j := Option.some.inj hij
      exact hfresh hj

theorem linked_modify (h : s.Linked before l after) (hi : i ∉ slotsOf l) (f : Node κ α → Node κ α) :
    (s.modify i f).Linked before l after := by
  refine linked_congr h fun j hj => ?_
  rw [node?_modify, if_neg]
  rintro rfl
  exact hi hj

theorem linked_setAfter_of_not_mem {p : Option Nat} (h : s.Linked before l after)
    (hp : ∀ j ∈ slotsOf l, p ≠ some j) (q : Option Nat) : (s.setAfter p q).Linked before l after := by
  refine linked_congr h fun j hj => ?_
  rw [node?_setAfter, if_neg (hp j hj)]

theorem linked_setBefore_of_not_mem {q : Option Nat} (h : s.Linked before l after)
    (hq : ∀ j ∈ slotsOf l, q ≠ some j) (p : Option Nat) : (s.setBefore q p).Linked before l after := by
  refine linked_congr h fun j hj => ?_
  rw [node?_setBefore, if_neg (hq j hj)]

theorem chain_linkFront {b a : Option Nat} (h : s.Chain l) (hi : i ∉ slotsOf l)
    (hn : s.node? i = some (e.node b a)) : (s.linkFront i).Chain ((i, e) :: l) := by
  have hlinked := linked_modify h.linked hi fun n => { n with before := none, after := s.head }
  have hfront := linked_setBefore hlinked h.distinct (some i)
  rw [← h.head] at hfront
  refine ⟨List.nodup_cons.2 ⟨hi, h.distinct⟩, ⟨?_, linked_congr hfront fun _ _ => rfl⟩, rfl, ?_⟩
  · have hne : s.head ≠ some i := by
      intro hhead
      exact hi (first?_mem (h.head.symm.trans hhead))
    change ((s.modify i _).setBefore s.head (some i)).node? i = _
    rw [node?_setBefore, if_neg hne, node?_modify, if_pos rfl, hn, Option.or_none, ← h.head]
    rfl
  · cases l with
    | nil =>
      simp only [linkFront, h.head]
      rfl
    | cons p rest =>
      have htail : (s.linkFront i).tail = s.tail := by
        simp only [linkFront, h.head]
        rfl
      rw [htail, h.tail, last?_cons]
      simp [last?, slotsOf, List.getLast?_cons]

theorem chain_node (h : s.Chain (l₁ ++ (i, e) :: l₂)) :
    s.node? i = some (e.node (last? l₁) (first? l₂)) := by
  have hi := (linked_append.1 h.linked).2.1
  simpa using hi

theorem chain_front (h : s.Chain ((i, e) :: l)) : s.node? i = some (e.node none (first? l)) := by
  have hi := h.linked.1
  simpa using hi

theorem unlink_eq (h : s.Chain (l₁ ++ (i, e) :: l₂)) :
    s.unlink i = ((s.setAfter (last? l₁) (first? l₂)).setBefore (first? l₂) (last? l₁)).modify i
      fun m => { m with before := none, after := none } := by
  simp only [unlink, chain_node h]
  rfl

theorem chain_unlink (h : s.Chain (l₁ ++ (i, e) :: l₂)) :
    (s.unlink i).Chain (l₁ ++ l₂) ∧ (s.unlink i).node? i = some (e.node none none) := by
  obtain ⟨hl₁, -, hl₂⟩ := linked_append.1 h.linked
  have hd := h.distinct
  simp only [slotsOf, List.map_append, List.map_cons] at hd
  obtain ⟨hd₁, hd', hdisjoint⟩ := List.nodup_append.1 hd
  obtain ⟨hi₂, hd₂⟩ := List.nodup_cons.1 hd'
  have hi₁ : i ∉ slotsOf l₁ := fun hmem => hdisjoint i hmem i List.mem_cons_self rfl
  have hlast : ∀ j ∈ slotsOf l₂, last? l₁ ≠ some j := fun j hj heq =>
    hdisjoint j (last?_mem heq) j (List.mem_cons_of_mem _ hj) rfl
  have hfirst : ∀ j ∈ slotsOf l₁, first? l₂ ≠ some j := fun j hj heq =>
    hdisjoint j hj j (List.mem_cons_of_mem _ (first?_mem heq)) rfl
  have hleft := linked_setBefore_of_not_mem (linked_setAfter hl₁ hd₁ (first? l₂)) hfirst (last? l₁)
  have hright := linked_setBefore (linked_setAfter_of_not_mem hl₂ hlast (first? l₂)) hd₂ (last? l₁)
  rw [unlink_eq h]
  refine ⟨⟨?_, ?_, ?_, ?_⟩, ?_⟩
  · simp only [slotsOf, List.map_append]
    exact List.nodup_append.2 ⟨hd₁, hd₂, fun j hj k hk => hdisjoint j hj k (List.mem_cons_of_mem _ hk)⟩
  · rw [linked_append, Option.or_none, Option.or_none]
    exact ⟨linked_modify hleft hi₁ _, linked_modify hright hi₂ _⟩
  · change ((s.setAfter _ _).setBefore _ _).head = _
    rw [head_setBefore, head_setAfter, h.head]
    cases l₁ <;> simp [first?, last?, slotsOf]
  · change ((s.setAfter _ _).setBefore _ _).tail = _
    rw [tail_setBefore, tail_setAfter, h.tail, last?_append, last?_append, last?_cons]
    cases l₂ <;> simp [first?, last?, slotsOf, List.getLast?_cons]
  · rw [node?_modify, if_pos rfl, node?_setBefore, if_neg fun heq => hi₂ (first?_mem heq), node?_setAfter,
      if_neg fun heq => hi₁ (last?_mem heq), chain_node h]
    rfl

end Slab

end OrderDepot.Cache
