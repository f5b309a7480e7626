/-!
Finite maps as lists of keys and values. A key occurs at most once: putting a value under a key replaces the
one that is there. What a map holds is said by `find?` alone.
-/

namespace OrderDepot

structure Keyed (κ α : Type) where
  entries : List (κ × α)
  deriving DecidableEq, Repr

namespace Keyed

variable {κ α : Type} [DecidableEq κ]

def empty : Keyed κ α := ⟨[]⟩

instance : Inhabited (Keyed κ α) := ⟨empty⟩

def size (t : Keyed κ α) : Nat := t.entries.length

def find? (t : Keyed κ α) (k : κ) : Option α := t.entries.lookup k

def contains (t : Keyed κ α) (k : κ) : Bool := (t.find? k).isSome

def replace (k : κ) (a : α) : List (κ × α) → List (κ × α)
  | [] => [(k, a)]
  | e :: rest => if e.1 = k then (k, a) :: rest else e :: replace k a rest

def put (t : Keyed κ α) (k : κ) (a : α) : Keyed κ α := ⟨replace k a t.entries⟩

def drop (t : Keyed κ α) (k : κ) : Keyed κ α := ⟨t.entries.filter fun e => e.1 ≠ k⟩

def keys (t : Keyed κ α) : List κ := t.entries.map (·.1)

theorem lookup_replace (k k' : κ) (a : α) (es : List (κ × α)) :
    (replace k a es).lookup k' = if k' = k then some a else es.lookup k' := by
  induction es with
  | nil =>
    by_cases h : k' = k
    · simp [replace, h]
    · have hb : (k' == k) = false := by simp [h]
      simp [replace, List.lookup_cons, h, hb]
  | cons e es ih =>
    obtain ⟨k₁, a₁⟩ := e
    by_cases h₁ : k₁ = k
    · subst h₁
      by_cases h : k' = k₁
      · simp [replace, h]
      · have hb : (k' == k₁) = false := by simp [h]
        simp [replace, List.lookup_cons, h, hb]
    · by_cases h : k' = k₁
      · subst h
        simp [replace, h₁]
      · have hb : (k' == k₁) = false := by simp [h]
        simp [replace, List.lookup_cons, h₁, hb, ih]

theorem find?_empty (k : κ) : (empty : Keyed κ α).find? k = none := rfl

theorem find?_put (t : Keyed κ α) (k k' : κ) (a : α) :
    (t.put k a).find? k' = if k' = k then some a else t.find? k' :=
  lookup_replace k k' a t.entries

variable {t : Keyed κ α} {k k' : κ} {a : α}

theorem keys_put (t : Keyed κ α) (k : κ) (a : α) :
    (t.put k a).keys = if k ∈ t.keys then t.keys else t.keys ++ [k] := by
  rw [keys, keys, put]
  induction t.entries with
  | nil => simp [replace]
  | cons e entries ih =>
    by_cases h : e.1 = k
    · simp [replace, h]
    · simp only [replace, if_neg h, List.map_cons, ih, List.mem_cons, Ne.symm h, false_or]
      split <;> simp

theorem mem_keys_put : k' ∈ (t.put k a).keys ↔ k' = k ∨ k' ∈ t.keys := by
  rw [keys_put]
  split
  · next h => exact ⟨.inr, fun hk => hk.elim (fun heq => heq ▸ h) id⟩
  · simp [or_comm]

theorem nodup_keys_put (h : t.keys.Nodup) (k : κ) (a : α) : (t.put k a).keys.Nodup := by
  rw [keys_put]
  split
  · exact h
  · next hk =>
    refine List.nodup_append.2 ⟨h, by simp, ?_⟩
    intro k₁ hk₁ k₂ hk₂ heq
    exact hk (List.mem_singleton.1 hk₂ ▸ heq ▸ hk₁)

omit [DecidableEq κ] in
theorem length_keys (t : Keyed κ α) : t.keys.length = t.size := List.length_map _

end Keyed

end OrderDepot
