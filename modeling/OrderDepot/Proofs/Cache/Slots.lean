import Mathlib.Data.List.Perm.Basic
import OrderDepot.Proofs.Cache.Links

/-!
# Slabs as lists

A slab represents a list of entries: the entries are chained in its slots, its index leads from the keys to the
slots, and every slot that holds none of them is empty and will be used again. Each operation of the slab is
one on the list.
-/

namespace OrderDepot.Cache.Slab

variable {κ α : Type}

def places (l : Placed κ α) : List (κ × Nat) := l.map fun p => (p.2.key, p.1)

def keysOf (l : Placed κ α) : List κ := l.map fun p => p.2.key

structure Represents (s : Slab κ α) (l : Placed κ α) : Prop where
  chain : s.Chain l
  keys : (keysOf l).Nodup
  index : s.index.entries.Perm (places l)
  slots : (s.free ++ slotsOf l).Perm (List.range s.slots.size)
  vacant : ∀ i ∈ s.free, s.node? i = none

structure Relinked (s s' : Slab κ α) : Prop where
  index : s'.index = s.index
  free : s'.free = s.free
  size : s'.slots.size = s.slots.size
  vacant : ∀ i, s.node? i = none → s'.node? i = none

variable {s s' s'' : Slab κ α} {i : Nat} {e : Entry κ α} {l l' l₁ l₂ : Placed κ α}

theorem not_mem_of_nodup_middle {β γ : Type} (f : β → γ) {b : β} {bs bs' : List β}
    (h : ((bs ++ b :: bs').map f).Nodup) : f b ∉ (bs ++ bs').map f := by
  have hperm : ((bs ++ b :: bs').map f).Perm (f b :: (bs ++ bs').map f) := List.perm_middle.map f
  exact (List.nodup_cons.1 (hperm.nodup_iff.1 h)).1

theorem slot_not_mem (h : (slotsOf (l₁ ++ (i, e) :: l₂)).Nodup) : i ∉ slotsOf (l₁ ++ l₂) :=
  not_mem_of_nodup_middle (fun p : Nat × Entry κ α => p.1) h

theorem key_not_mem (h : (keysOf (l₁ ++ (i, e) :: l₂)).Nodup) : e.key ∉ keysOf (l₁ ++ l₂) :=
  not_mem_of_nodup_middle (fun p : Nat × Entry κ α => p.2.key) h

theorem keysOf_places (l : Placed κ α) : (places l).map (·.1) = keysOf l := by
  simp [places, keysOf]

theorem slotsOf_places (l : Placed κ α) : (places l).map (·.2) = slotsOf l := by
  simp [places, slotsOf]

theorem represents_empty : ({} : Slab κ α).Represents [] where
  chain := ⟨List.nodup_nil, trivial, rfl, rfl⟩
  keys := List.nodup_nil
  index := List.Perm.nil
  slots := List.Perm.nil
  vacant := fun _ hi => by cases hi

theorem relinked_trans (h : Relinked s s') (h' : Relinked s' s'') : Relinked s s'' :=
  ⟨h'.index.trans h.index, h'.free.trans h.free, h'.size.trans h.size, fun i hi => h'.vacant i (h.vacant i hi)⟩

theorem relinked_modify (s : Slab κ α) (i : Nat) (f : Node κ α → Node κ α) : Relinked s (s.modify i f) := by
  refine ⟨rfl, rfl, Array.size_modify, fun j hj => ?_⟩
  rw [node?_modify, hj]
  split <;> rfl

theorem relinked_setAfter (s : Slab κ α) (p after : Option Nat) : Relinked s (s.setAfter p after) := by
  cases p with
  | none => exact ⟨rfl, rfl, rfl, fun _ => id⟩
  | some p => exact relinked_modify s p _

theorem relinked_setBefore (s : Slab κ α) (q before : Option Nat) : Relinked s (s.setBefore q before) := by
  cases q with
  | none => exact ⟨rfl, rfl, rfl, fun _ => id⟩
  | some q => exact relinked_modify s q _

theorem relinked_linkFront (s : Slab κ α) (i : Nat) : Relinked s (s.linkFront i) := by
  have h := relinked_trans (relinked_modify s i fun n => { n with before := none, after := s.head })
    (relinked_setBefore _ s.head (some i))
  exact ⟨h.index, h.free, h.size, h.vacant⟩

theorem relinked_unlink (s : Slab κ α) (i : Nat) : Relinked s (s.unlink i) := by
  unfold unlink
  split
  · exact ⟨rfl, rfl, rfl, fun _ => id⟩
  · next n _ =>
    exact relinked_trans (relinked_trans (relinked_setAfter s n.before n.after) (relinked_setBefore _ _ _))
      (relinked_modify _ i _)

theorem represents_relinked (h : s.Represents l) (hr : Relinked s s') (hc : s'.Chain l')
    (hp : (places l').Perm (places l)) : s'.Represents l' := by
  have hkeys := hp.map fun p => p.1
  have hslots := hp.map fun p => p.2
  rw [keysOf_places, keysOf_places] at hkeys
  rw [slotsOf_places, slotsOf_places] at hslots
  refine ⟨hc, hkeys.nodup_iff.2 h.keys, ?_, ?_, ?_⟩
  · rw [hr.index]
    exact h.index.trans hp.symm
  · rw [hr.free, hr.size]
    exact (hslots.append_left s.free).trans h.slots
  · intro i hi
    rw [hr.free] at hi
    exact hr.vacant i (h.vacant i hi)

theorem chain_congr (h : s.Chain l) (hhead : s'.head = s.head) (htail : s'.tail = s.tail)
    (hs : ∀ i ∈ slotsOf l, s'.node? i = s.node? i) : s'.Chain l :=
  ⟨h.distinct, linked_congr h.linked hs, hhead.trans h.head, htail.trans h.tail⟩

theorem promote_represents (h : s.Represents (l₁ ++ (i, e) :: l₂)) :
    (s.promote i).Represents ((i, e) :: (l₁ ++ l₂)) := by
  have hplaces : (places ((i, e) :: (l₁ ++ l₂))).Perm (places (l₁ ++ (i, e) :: l₂)) :=
    (List.perm_middle.symm).map _
  unfold promote
  split
  · next hhead =>
    have hnil : l₁ = [] := by
      cases l₁ with
      | nil => rfl
      | cons p rest =>
        have hp : p.1 = i := Option.some.inj (h.chain.head.symm.trans hhead)
        have hd := (List.nodup_cons.1 h.chain.distinct).1
        simp [hp] at hd
    subst hnil
    exact h
  · obtain ⟨hchain, hnode⟩ := chain_unlink h.chain
    have hfresh : i ∉ slotsOf (l₁ ++ l₂) := slot_not_mem h.chain.distinct
    exact represents_relinked h (relinked_trans (relinked_unlink s i) (relinked_linkFront _ i))
      (chain_linkFront hchain hfresh hnode) hplaces

theorem linkFront_represents (hc : s.Chain l) (hi : i ∉ slotsOf l) (hn : s.node? i = some (e.node none none))
    (hkeys : (keysOf l).Nodup) (hk : e.key ∉ keysOf l) (hindex : s.index.entries.Perm ((e.key, i) :: places l))
    (hslots : (s.free ++ i :: slotsOf l).Perm (List.range s.slots.size))
    (hvacant : ∀ j ∈ s.free, s.node? j = none) : (s.linkFront i).Represents ((i, e) :: l) := by
  have hr := relinked_linkFront s i
  refine ⟨chain_linkFront hc hi hn, List.nodup_cons.2 ⟨hk, hkeys⟩, ?_, ?_, ?_⟩
  · rw [hr.index]
    exact hindex
  · rw [hr.free, hr.size]
    exact hslots
  · intro j hj
    rw [hr.free] at hj
    exact hr.vacant j (hvacant j hj)

theorem modify_represents (h : s.Represents (l₁ ++ (i, e) :: l₂)) (a : α) (expiry : Option Nat) :
    (s.modify i fun n => { n with value := a, expiry }).Represents (l₁ ++ (i, ⟨e.key, a, expiry⟩) :: l₂) := by
  have hplaces : places (l₁ ++ (i, ⟨e.key, a, expiry⟩) :: l₂) = places (l₁ ++ (i, e) :: l₂) := by
    simp [places]
  have hslots : slotsOf (l₁ ++ (i, ⟨e.key, a, expiry⟩) :: l₂) = slotsOf (l₁ ++ (i, e) :: l₂) := by
    simp [slotsOf]
  have hi := slot_not_mem h.chain.distinct
  simp only [slotsOf, List.map_append, List.mem_append, not_or] at hi
  obtain ⟨hl₁, hn, hl₂⟩ := linked_append.1 h.chain.linked
  refine represents_relinked h (relinked_modify s i _) ⟨?_, ?_, ?_, ?_⟩ (List.Perm.of_eq hplaces)
  · rw [hslots]
    exact h.chain.distinct
  · refine linked_append.2 ⟨linked_modify hl₁ hi.1 _, ?_, linked_modify hl₂ hi.2 _⟩
    rw [node?_modify, if_pos rfl, hn]
    rfl
  · rw [first?, hslots]
    exact h.chain.head
  · rw [last?, hslots]
    exact h.chain.tail

theorem size_eq_length (h : s.Represents l) : s.index.size = l.length := by
  have hlength := h.index.length_eq
  simpa [Keyed.size, places] using hlength

theorem node?_clear (s : Slab κ α) (i j : Nat) (free : List Nat) (index : Keyed κ Nat) :
    ({ s with slots := s.slots.setIfInBounds i none, free, index } : Slab κ α).node? j =
      if i = j then none else s.node? j := by
  by_cases h : i = j
  · subst h
    by_cases hi : i < s.slots.size <;> simp [node?, hi]
  · simp [node?, h]

variable [DecidableEq κ]

theorem remove_represents (h : s.Represents (l₁ ++ (i, e) :: l₂)) : (s.remove i).Represents (l₁ ++ l₂) := by
  obtain ⟨hchain, hnode⟩ := chain_unlink h.chain
  have hr := relinked_unlink s i
  have hslot : i ∉ slotsOf (l₁ ++ l₂) := slot_not_mem h.chain.distinct
  have hkey : e.key ∉ keysOf (l₁ ++ l₂) := key_not_mem h.keys
  have hsub : (l₁ ++ l₂).Sublist (l₁ ++ (i, e) :: l₂) :=
    (List.Sublist.refl l₁).append (List.sublist_cons_self _ l₂)
  simp only [remove, hnode]
  refine ⟨chain_congr hchain rfl rfl ?_, h.keys.sublist (hsub.map _), ?_, ?_, ?_⟩
  · intro j hj
    rw [node?_clear, if_neg]
    rintro rfl
    exact hslot hj
  · have hplaces : (places (l₁ ++ (i, e) :: l₂)).Perm ((e.key, i) :: places (l₁ ++ l₂)) :=
      List.perm_middle.map _
    have hkept : (places (l₁ ++ l₂)).filter (fun p => p.1 ≠ e.key) = places (l₁ ++ l₂) := by
      refine List.filter_eq_self.2 fun p hp => ?_
      rw [← keysOf_places] at hkey
      have hne : p.1 ≠ e.key := fun heq => hkey (heq ▸ List.mem_map_of_mem hp)
      simpa using hne
    have hdrop := (h.index.trans hplaces).filter fun p => decide (p.1 ≠ e.key)
    rw [List.filter_cons_of_neg (by simp), hkept] at hdrop
    rw [hr.index]
    exact hdrop
  · have hslots : (slotsOf (l₁ ++ (i, e) :: l₂)).Perm (i :: slotsOf (l₁ ++ l₂)) := List.perm_middle.map _
    rw [hr.free, Array.size_setIfInBounds, hr.size]
    exact (List.perm_middle.symm.trans (hslots.symm.append_left s.free)).trans h.slots
  · intro j hj
    rw [node?_clear]
    split
    · rfl
    · next hij =>
      rcases List.mem_cons.1 hj with rfl | hj
      · exact absurd rfl hij
      · rw [hr.free] at hj
        exact hr.vacant j (h.vacant j hj)

theorem removeLast_represents (h : s.Represents l) : s.removeLast.Represents l.dropLast := by
  cases l using List.reverseRecOn with
  | nil =>
    have htail : s.tail = none := h.chain.tail
    simpa [removeLast, htail] using h
  | append_singleton l p =>
    obtain ⟨i, e⟩ := p
    have htail : s.tail = some i := by
      rw [h.chain.tail]
      simp [last?, slotsOf]
    have hremove := remove_represents h
    rw [List.append_nil] at hremove
    simpa [removeLast, htail] using hremove

theorem replace_fresh {β : Type} {k : κ} {es : List (κ × β)} (h : k ∉ es.map (·.1)) (b : β) :
    Keyed.replace k b es = es ++ [(k, b)] := by
  induction es with
  | nil => rfl
  | cons e rest ih =>
    simp only [List.map_cons, List.mem_cons, not_or] at h
    rw [Keyed.replace, if_neg (Ne.symm h.1), ih h.2]
    rfl

theorem put_perm (h : s.index.entries.Perm (places l)) {k : κ} (hk : k ∉ keysOf l) (i : Nat) :
    (s.index.put k i).entries.Perm ((k, i) :: places l) := by
  have hfresh : k ∉ s.index.entries.map (·.1) := by
    intro hmem
    exact hk (keysOf_places l ▸ (h.map _).mem_iff.1 hmem)
  simp only [Keyed.put, replace_fresh hfresh]
  exact (List.perm_append_singleton _ _).trans (h.cons _)

theorem insertFront_new (h : s.Represents l) (hfree : s.free = []) {k : κ} (hk : k ∉ keysOf l) (a : α)
    (expiry : Option Nat) :
    (s.insertFront k a expiry).Represents ((s.slots.size, ⟨k, a, expiry⟩) :: l) := by
  have hslots := h.slots
  rw [hfree, List.nil_append] at hslots
  have hlt : ∀ j ∈ slotsOf l, j < s.slots.size := fun j hj => List.mem_range.1 (hslots.mem_iff.1 hj)
  have hold : ∀ j, j < s.slots.size →
      (s.slots.push (some ((⟨k, a, expiry⟩ : Entry κ α).node none none)))[j]?.join = s.node? j := by
    intro j hj
    rw [Array.getElem?_push, if_neg (Nat.ne_of_lt hj)]
    rfl
  simp only [insertFront, hfree]
  refine linkFront_represents (chain_congr h.chain rfl rfl fun j hj => hold j (hlt j hj)) ?_ ?_ h.keys hk
    (put_perm h.index hk _) ?_ ?_
  · exact fun hmem => Nat.lt_irrefl _ (hlt _ hmem)
  · simp [node?, Entry.node]
  · rw [List.nil_append, Array.size_push, List.range_succ]
    exact (hslots.cons _).trans (List.perm_append_singleton _ _).symm
  · intro j hj
    cases hj

theorem insertFront_reused (h : s.Represents l) {i : Nat} {free : List Nat} (hfree : s.free = i :: free)
    {k : κ} (hk : k ∉ keysOf l) (a : α) (expiry : Option Nat) :
    (s.insertFront k a expiry).Represents ((i, ⟨k, a, expiry⟩) :: l) := by
  have hslots := h.slots
  rw [hfree, List.cons_append] at hslots
  have hi : i < s.slots.size := List.mem_range.1 (hslots.mem_iff.1 List.mem_cons_self)
  have hfresh : i ∉ free ++ slotsOf l := (List.nodup_cons.1 (hslots.nodup_iff.2 List.nodup_range)).1
  rw [List.mem_append, not_or] at hfresh
  have hold : ∀ j, j ≠ i →
      (s.slots.setIfInBounds i (some ((⟨k, a, expiry⟩ : Entry κ α).node none none)))[j]?.join = s.node? j := by
    intro j hj
    rw [Array.getElem?_setIfInBounds, if_neg (Ne.symm hj)]
    rfl
  simp only [insertFront, hfree]
  refine linkFront_represents (chain_congr h.chain rfl rfl fun j hj => hold j ?_) hfresh.2 ?_ h.keys hk
    (put_perm h.index hk _) ?_ ?_
  · rintro rfl
    exact hfresh.2 hj
  · simp [node?, Entry.node, hi]
  · rw [Array.size_setIfInBounds]
    exact List.perm_middle.trans hslots
  · intro j hj
    have hji : j ≠ i := by
      rintro rfl
      exact hfresh.1 hj
    exact (hold j hji).trans (h.vacant j (by rw [hfree]; exact List.mem_cons_of_mem _ hj))

theorem insertFront_represents (h : s.Represents l) {k : κ} (hk : k ∉ keysOf l) (a : α) (expiry : Option Nat) :
    ∃ i, (s.insertFront k a expiry).Represents ((i, ⟨k, a, expiry⟩) :: l) := by
  cases hfree : s.free with
  | nil => exact ⟨_, insertFront_new h hfree hk a expiry⟩
  | cons i free => exact ⟨i, insertFront_reused h hfree hk a expiry⟩

theorem find?_none (h : s.Represents l) {k : κ} (hk : k ∉ keysOf l) : s.index.find? k = none := by
  refine List.lookup_eq_none_iff.2 fun p hp => ?_
  rw [← keysOf_places] at hk
  have hne : k ≠ p.1 := fun heq => hk (heq ▸ List.mem_map_of_mem (h.index.mem_iff.1 hp))
  simpa using hne

theorem find?_some (h : s.Represents (l₁ ++ (i, e) :: l₂)) : s.index.find? e.key = some i := by
  have hplace : (e.key, i) ∈ places (l₁ ++ (i, e) :: l₂) := by
    simp [places]
  obtain ⟨as, bs, hsplit⟩ := List.append_of_mem (h.index.mem_iff.2 hplace)
  have hkeys : (s.index.entries.map (·.1)).Nodup := (h.index.map _).nodup_iff.2 (keysOf_places _ ▸ h.keys)
  rw [hsplit, List.map_append, List.map_cons] at hkeys
  refine List.lookup_eq_some_iff.2 ⟨as, bs, hsplit, fun p hp => ?_⟩
  have hdisjoint := (List.nodup_append.1 hkeys).2.2
  have hne : p.1 ≠ e.key := hdisjoint p.1 (List.mem_map_of_mem hp) e.key List.mem_cons_self
  simpa using hne.symm

end OrderDepot.Cache.Slab
