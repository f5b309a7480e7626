import OrderDepot.Cache.Basic
import OrderDepot.Proofs.Cache.Slots

/-!
# A cache answers as a list does

Calls of a cache are answered one after the other, by the slab and by the list of entries that it represents.
What one call does keeps the representation and gives the same answer, so all answers of a run are the same.
-/

namespace OrderDepot.Cache

inductive Call (κ α : Type) where
  | get (now : Nat) (k : κ)
  | set (now : Nat) (k : κ) (a : α)
  | delete (k : κ)
  | purge
  | size

inductive Answer (α : Type) where
  | found (value : Option α)
  | dropped (present : Bool)
  | done
  | size (entries : Nat)

variable {κ α : Type} [DecidableEq κ]

def call (c : Cache κ α) : Call κ α → Answer α × Cache κ α
  | .get now k => (.found (c.get now k).1, (c.get now k).2)
  | .set now k a => (.done, c.set now k a)
  | .delete k => (.dropped (c.delete k).1, (c.delete k).2)
  | .purge => (.done, c.purge)
  | .size => (.size c.size, c)

def answers : Cache κ α → List (Call κ α) → List (Answer α)
  | _, [] => []
  | c, x :: rest => (c.call x).1 :: answers (c.call x).2 rest

namespace Recency

def call (b : Bounds) (r : Recency κ α) : Call κ α → Answer α × Recency κ α
  | .get now k => (.found (r.get now k).1, (r.get now k).2)
  | .set now k a => (.done, set b r now k a)
  | .delete k => (.dropped (r.delete k).1, (r.delete k).2)
  | .purge => (.done, [])
  | .size => (.size r.length, r)

def answers (b : Bounds) : Recency κ α → List (Call κ α) → List (Answer α)
  | _, [] => []
  | r, x :: rest => (call b r x).1 :: answers b (call b r x).2 rest

end Recency

open Slab (Placed keysOf slotsOf)

def entriesOf (l : Placed κ α) : Recency κ α := l.map (·.2)

variable {c : Cache κ α} {i : Nat} {e : Entry κ α} {l l₁ l₂ : Placed κ α} {k : κ}

omit [DecidableEq κ] in
theorem split_at_key (h : k ∈ keysOf l) : ∃ l₁ i e l₂, l = l₁ ++ (i, e) :: l₂ ∧ e.key = k := by
  obtain ⟨⟨i, e⟩, hmem, hkey⟩ := List.mem_map.1 h
  obtain ⟨l₁, l₂, hl⟩ := List.append_of_mem hmem
  exact ⟨l₁, i, e, l₂, hl, hkey⟩

theorem without_of_not_mem (h : k ∉ keysOf l) : (entriesOf l).without k = entriesOf l := by
  refine List.filter_eq_self.2 fun e he => ?_
  obtain ⟨p, hp, rfl⟩ := List.mem_map.1 he
  have hne : p.2.key ≠ k := fun heq => h (heq ▸ List.mem_map_of_mem hp)
  simpa using hne

theorem find?_of_not_mem (h : k ∉ keysOf l) : (entriesOf l).find? k = none := by
  refine List.find?_eq_none.2 fun e he => ?_
  obtain ⟨p, hp, rfl⟩ := List.mem_map.1 he
  have hne : p.2.key ≠ k := fun heq => h (heq ▸ List.mem_map_of_mem hp)
  simpa using hne

theorem without_middle (h : (keysOf (l₁ ++ (i, e) :: l₂)).Nodup) :
    (entriesOf (l₁ ++ (i, e) :: l₂)).without e.key = entriesOf (l₁ ++ l₂) := by
  have hkept := without_of_not_mem (Slab.key_not_mem h)
  simp only [Recency.without, entriesOf, List.map_append, List.map_cons, List.filter_append] at hkept ⊢
  rw [List.filter_cons_of_neg (by simp)]
  exact hkept

theorem find?_middle (h : (keysOf (l₁ ++ (i, e) :: l₂)).Nodup) :
    (entriesOf (l₁ ++ (i, e) :: l₂)).find? e.key = some e := by
  have hkey := Slab.key_not_mem h
  simp only [keysOf, List.map_append, List.mem_append, not_or] at hkey
  have hleft : List.find? (fun e' => decide (e'.key = e.key)) (entriesOf l₁) = none := find?_of_not_mem hkey.1
  simp only [Recency.find?, entriesOf, List.map_append, List.map_cons, List.find?_append] at hleft ⊢
  rw [hleft]
  simp

theorem get_represents (h : c.slab.Represents l) (now : Nat) (k : κ) :
    ∃ l', (c.get now k).2.slab.Represents l' ∧ (entriesOf l).get now k = ((c.get now k).1, entriesOf l') := by
  by_cases hk : k ∈ keysOf l
  · obtain ⟨l₁, i, e, l₂, rfl, rfl⟩ := split_at_key hk
    have hnode := Slab.chain_node h.chain
    have hpromoted := Slab.promote_represents h
    have hvalue : ((c.slab.promote i).node? i).map (·.value) = some e.value := by
      rw [Slab.chain_front hpromoted.chain]
      rfl
    simp only [get, Recency.get, Slab.find?_some h, find?_middle h.keys, without_middle h.keys, hnode, hvalue]
    by_cases hexpired : isExpired e.expiry now
    · refine ⟨l₁ ++ l₂, ?_, by simp [Entry.node, hexpired]⟩
      simpa [Entry.node, hexpired] using Slab.remove_represents h
    · refine ⟨(i, e) :: (l₁ ++ l₂), ?_, by simp [Entry.node, hexpired, entriesOf]⟩
      simpa [Entry.node, hexpired] using hpromoted
  · refine ⟨l, ?_⟩
    simp only [get, Recency.get, Slab.find?_none h hk, find?_of_not_mem hk]
    exact ⟨h, trivial⟩

theorem makeRoom_represents (h : c.slab.Represents l) (hk : k ∉ keysOf l) :
    ∃ l', (if 0 < c.bounds.capacity ∧ c.bounds.capacity ≤ c.slab.size then c.slab.removeLast
        else c.slab).Represents l' ∧
      (entriesOf l).makeRoom c.bounds.capacity = entriesOf l' ∧ k ∉ keysOf l' := by
  have hsize : c.slab.size = (entriesOf l).length := by
    rw [entriesOf, List.length_map]
    exact Slab.size_eq_length h
  rw [hsize]
  by_cases hfull : 0 < c.bounds.capacity ∧ c.bounds.capacity ≤ (entriesOf l).length
  · refine ⟨l.dropLast, ?_, ?_, ?_⟩
    · rw [if_pos hfull]
      exact Slab.removeLast_represents h
    · rw [Recency.makeRoom, if_pos hfull, entriesOf, entriesOf, List.map_dropLast]
    · exact fun hmem => hk ((List.dropLast_sublist l).map _ |>.subset hmem)
  · refine ⟨l, ?_, ?_, hk⟩
    · rw [if_neg hfull]
      exact h
    · rw [Recency.makeRoom, if_neg hfull]

theorem set_represents (h : c.slab.Represents l) (now : Nat) (k : κ) (a : α) :
    ∃ l', (c.set now k a).slab.Represents l' ∧ Recency.set c.bounds (entriesOf l) now k a = entriesOf l' := by
  by_cases hk : k ∈ keysOf l
  · obtain ⟨l₁, i, e, l₂, rfl, rfl⟩ := split_at_key hk
    have hset := Slab.promote_represents (Slab.modify_represents h a (expiryFrom c.bounds.ttl now))
    refine ⟨_, by simpa only [set, Slab.find?_some h] using hset, ?_⟩
    simp only [Recency.set, find?_middle h.keys, without_middle h.keys]
    rfl
  · obtain ⟨l', hroom, hentries, hk'⟩ := makeRoom_represents h hk
    obtain ⟨i, hinsert⟩ := Slab.insertFront_represents hroom hk' a (expiryFrom c.bounds.ttl now)
    refine ⟨_, by simpa only [set, Slab.find?_none h hk] using hinsert, ?_⟩
    simp only [Recency.set, find?_of_not_mem hk, hentries]
    rfl

theorem delete_represents (h : c.slab.Represents l) (k : κ) :
    ∃ l', (c.delete k).2.slab.Represents l' ∧ (entriesOf l).delete k = ((c.delete k).1, entriesOf l') := by
  by_cases hk : k ∈ keysOf l
  · obtain ⟨l₁, i, e, l₂, rfl, rfl⟩ := split_at_key hk
    refine ⟨l₁ ++ l₂, ?_, ?_⟩
    · simp only [delete, Slab.find?_some h]
      exact Slab.remove_represents h
    · simp only [delete, Recency.delete, Slab.find?_some h, find?_middle h.keys, without_middle h.keys]
      rfl
  · refine ⟨l, ?_, ?_⟩
    · simpa only [delete, Slab.find?_none h hk] using h
    · simp only [delete, Recency.delete, Slab.find?_none h hk, find?_of_not_mem hk, without_of_not_mem hk]
      rfl

theorem call_represents (h : c.slab.Represents l) (x : Call κ α) :
    ∃ l', (c.call x).2.slab.Represents l' ∧
      Recency.call c.bounds (entriesOf l) x = ((c.call x).1, entriesOf l') := by
  cases x with
  | get now k =>
    obtain ⟨l', hl', hget⟩ := get_represents h now k
    exact ⟨l', hl', by simp only [Recency.call, hget, call]⟩
  | set now k a =>
    obtain ⟨l', hl', hset⟩ := set_represents h now k a
    exact ⟨l', hl', by simp only [Recency.call, hset, call]⟩
  | delete k =>
    obtain ⟨l', hl', hdelete⟩ := delete_represents h k
    exact ⟨l', hl', by simp only [Recency.call, hdelete, call]⟩
  | purge => exact ⟨[], Slab.represents_empty, rfl⟩
  | size =>
    refine ⟨l, h, ?_⟩
    have hsize : c.size = (entriesOf l).length := by
      rw [entriesOf, List.length_map]
      exact Slab.size_eq_length h
    simp only [Recency.call, call, hsize]

theorem call_bounds (c : Cache κ α) (x : Call κ α) : (c.call x).2.bounds = c.bounds := by
  cases x with
  | get now k =>
    simp only [call, get]
    split
    · rfl
    · split <;> rfl
  | set now k a =>
    simp only [call, set]
    split <;> rfl
  | delete k =>
    simp only [call, delete]
    split <;> rfl
  | purge => rfl
  | size => rfl

theorem answers_of_represents (h : c.slab.Represents l) (calls : List (Call κ α)) :
    c.answers calls = Recency.answers c.bounds (entriesOf l) calls := by
  induction calls generalizing c l with
  | nil => rfl
  | cons x rest ih =>
    obtain ⟨l', hl', hcall⟩ := call_represents h x
    rw [answers, Recency.answers, hcall, ih hl', call_bounds]

/-- A cache gives the answers of a list that is kept in the order of use, whatever its bounds, the calls and
the times at which they are made. -/
theorem answers_eq_recency_answers (b : Bounds) (calls : List (Call κ α)) :
    (⟨b, {}⟩ : Cache κ α).answers calls = Recency.answers b [] calls :=
  answers_of_represents (c := ⟨b, {}⟩) (l := []) Slab.represents_empty calls

end OrderDepot.Cache
