import OrderDepot.Proofs.Cache.Refinement

/-!
The entry of a key, and where entries come from: looking a key up adds none and drops at most that key's expired
one, and writing adds the one that was written.
-/

namespace OrderDepot.Cache

/-- An entry expires just if it has a time to live and its last moment can be told from never, and it does so at
that moment. -/
theorem isExpired_iff {ttl : Time.Duration} {time now : Nat} :
    isExpired (expiryFrom ttl time) now = true ↔
      0 < ttl.nanos ∧ time + ttl.nanos < horizon ∧ time + ttl.nanos ≤ now := by
  unfold expiryFrom
  split
  · next hzero => simp [isExpired, hzero]
  · next hpos =>
    split
    · next hnear => simp [isExpired, hnear, Nat.pos_of_ne_zero hpos]
    · next hfar => simp [isExpired, hfar]

theorem not_expired_when_written (ttl : Time.Duration) (now : Nat) :
    isExpired (expiryFrom ttl now) now = false := by
  rw [Bool.eq_false_iff, Ne, isExpired_iff]
  omega

variable {κ α : Type} [DecidableEq κ]

namespace Recency

variable {r : Recency κ α} {now : Nat} {k : κ}

theorem mem_of_find? {e : Entry κ α} (h : r.find? k = some e) : e ∈ r ∧ e.key = k := by
  refine ⟨List.mem_of_find?_eq_some h, ?_⟩
  simpa using List.find?_some h

theorem find?_without (k' : κ) : (r.without k).find? k' = if k' = k then none else r.find? k' := by
  split
  · next heq =>
    subst heq
    simp [find?, without]
  · next hne =>
    induction r with
    | nil => rfl
    | cons e r ih =>
      simp only [find?, without] at ih ⊢
      by_cases hk : e.key = k
      · have hk' : e.key ≠ k' := fun h => hne (h ▸ hk)
        rw [List.filter_cons_of_neg (by simpa using hk), List.find?_cons_of_neg (by simpa using hk')]
        exact ih
      · rw [List.filter_cons_of_pos (by simpa using hk), List.find?_cons, List.find?_cons, ih]

theorem mem_get {e : Entry κ α} (h : e ∈ (r.get now k).2) : e ∈ r := by
  unfold get at h
  split at h
  · exact h
  · next e' hfind =>
    split at h
    · exact List.mem_of_mem_filter h
    · rcases List.mem_cons.1 h with rfl | h
      · exact (mem_of_find? hfind).1
      · exact List.mem_of_mem_filter h

theorem get_some {a : α} (h : (r.get now k).1 = some a) :
    ∃ e ∈ r, e.key = k ∧ e.value = a ∧ isExpired e.expiry now = false := by
  unfold get at h
  split at h
  · cases h
  · next e hfind =>
    split at h
    · cases h
    · next hfresh =>
      obtain ⟨hmem, hkey⟩ := mem_of_find? hfind
      exact ⟨e, hmem, hkey, Option.some.inj h, Bool.eq_false_iff.2 hfresh⟩

theorem find?_get (h : (r.get now k).1 = none) (k' : κ) :
    (r.get now k).2.find? k' = r.find? k' ∨
      k' = k ∧ (r.get now k).2.find? k' = none ∧ ∃ e, r.find? k' = some e ∧ isExpired e.expiry now = true := by
  unfold get at h ⊢
  split at h
  · exact .inl rfl
  · next e hfind =>
    split at h
    · next hexpired =>
      simp only [hexpired, if_true, find?_without]
      by_cases hk : k' = k
      · subst hk
        exact .inr ⟨rfl, if_pos rfl, e, hfind, hexpired⟩
      · exact .inl (if_neg hk)
    · cases h

omit [DecidableEq κ] in
theorem mem_of_mem_makeRoom {capacity : Nat} {e : Entry κ α} (h : e ∈ r.makeRoom capacity) : e ∈ r := by
  unfold makeRoom at h
  split at h
  · exact (List.dropLast_sublist r).subset h
  · exact h

theorem mem_set {b : Bounds} {a : α} {e : Entry κ α} (h : e ∈ set b r now k a) :
    e = ⟨k, a, expiryFrom b.ttl now⟩ ∨ e ∈ r := by
  unfold set at h
  split at h
  · exact (List.mem_cons.1 h).imp_right List.mem_of_mem_filter
  · exact (List.mem_cons.1 h).imp_right mem_of_mem_makeRoom

theorem key_ne_of_mem_without {e : Entry κ α} (h : e ∈ r.without k) : e.key ≠ k := by
  simpa using (List.mem_filter.1 h).2

theorem value_of_hit {a : α} (h : (r.get now k).1 = some a) {e : Entry κ α} (he : e ∈ (r.get now k).2)
    (hkey : e.key = k) : e.value = a := by
  unfold get at h he
  split at h
  · cases h
  · next hfind =>
    split at h
    · cases h
    · next hfresh =>
      simp only [hfind, if_neg hfresh] at he
      rcases List.mem_cons.1 he with rfl | he
      · exact Option.some.inj h
      · exact absurd hkey (key_ne_of_mem_without he)

theorem value_of_set {b : Bounds} {a : α} {e : Entry κ α} (he : e ∈ set b r now k a) (hkey : e.key = k) :
    e.value = a := by
  unfold set at he
  split at he
  · rcases List.mem_cons.1 he with rfl | he
    · rfl
    · exact absurd hkey (key_ne_of_mem_without he)
  · next hnone =>
    rcases List.mem_cons.1 he with rfl | he
    · rfl
    · exact absurd hkey (by simpa using List.find?_eq_none.1 hnone e (mem_of_mem_makeRoom he))

theorem get_after_set (b : Bounds) (r : Recency κ α) (now : Nat) (k : κ) (a : α) :
    ((set b r now k a).get now k).1 = some a := by
  have hfind : (set b r now k a).find? k = some ⟨k, a, expiryFrom b.ttl now⟩ := by
    unfold set
    split <;> exact List.find?_cons_of_pos (by simp)
  simp only [get, hfind, not_expired_when_written, Bool.false_eq_true, if_false]

end Recency

def entry? (c : Cache κ α) (k : κ) : Option (Entry κ α) :=
  ((c.slab.index.find? k).bind c.slab.node?).map fun n => ⟨n.key, n.value, n.expiry⟩

open Slab (Placed keysOf)

def Holds (c : Cache κ α) (r : Recency κ α) : Prop :=
  ∃ l, c.slab.Represents l ∧ entriesOf l = r

variable {c : Cache κ α} {r : Recency κ α}

omit [DecidableEq κ] in
theorem holds_empty (b : Bounds) : (⟨b, {}⟩ : Cache κ α).Holds [] :=
  ⟨[], Slab.represents_empty, rfl⟩

theorem Holds.entry? (h : c.Holds r) (k : κ) : c.entry? k = r.find? k := by
  obtain ⟨l, hl, rfl⟩ := h
  by_cases hk : k ∈ keysOf l
  · obtain ⟨l₁, i, e, l₂, rfl, rfl⟩ := split_at_key hk
    have hnode := Slab.chain_node hl.chain
    rw [Cache.entry?, Slab.find?_some hl, find?_middle hl.keys, Option.bind_some, hnode]
    rfl
  · rw [Cache.entry?, Slab.find?_none hl hk, find?_of_not_mem hk]
    rfl

theorem Holds.get (h : c.Holds r) (now : Nat) (k : κ) :
    (c.get now k).2.Holds (r.get now k).2 ∧ (r.get now k).1 = (c.get now k).1 := by
  obtain ⟨l, hl, rfl⟩ := h
  obtain ⟨l', hl', hget⟩ := get_represents hl now k
  rw [hget]
  exact ⟨⟨l', hl', rfl⟩, rfl⟩

theorem Holds.set (h : c.Holds r) (now : Nat) (k : κ) (a : α) :
    (c.set now k a).Holds (Recency.set c.bounds r now k a) := by
  obtain ⟨l, hl, rfl⟩ := h
  obtain ⟨l', hl', hset⟩ := set_represents hl now k a
  rw [hset]
  exact ⟨l', hl', rfl⟩

def Keeps (c : Cache κ α) (P : κ → α → Prop) : Prop :=
  ∃ r, c.Holds r ∧ ∀ e ∈ r, P e.key e.value

variable {P Q : κ → α → Prop} {now : Nat} {k : κ} {a : α}

omit [DecidableEq κ] in
theorem keeps_empty (b : Bounds) (P : κ → α → Prop) : (⟨b, {}⟩ : Cache κ α).Keeps P :=
  ⟨[], holds_empty b, fun _ h => nomatch h⟩

omit [DecidableEq κ] in
theorem Keeps.imp (h : c.Keeps P) (hpq : ∀ k a, P k a → Q k a) : c.Keeps Q := by
  obtain ⟨r, hr, hentries⟩ := h
  exact ⟨r, hr, fun e he => hpq _ _ (hentries e he)⟩

theorem Keeps.get (h : c.Keeps P) (now : Nat) (k : κ) : (c.get now k).2.Keeps P := by
  obtain ⟨r, hr, hentries⟩ := h
  exact ⟨_, (hr.get now k).1, fun e he => hentries e (Recency.mem_get he)⟩

theorem Keeps.of_hit (h : c.Keeps P) (hget : (c.get now k).1 = some a) :
    P k a ∧ (c.get now k).2.Keeps fun k' a' => P k' a' ∧ (k' = k → a' = a) := by
  obtain ⟨r, hr, hentries⟩ := h
  obtain ⟨hafter, hfound⟩ := hr.get now k
  obtain ⟨e, he, rfl, rfl, -⟩ := Recency.get_some (hfound.trans hget)
  exact ⟨hentries e he, _, hafter, fun e he => ⟨hentries e (Recency.mem_get he),
    Recency.value_of_hit (hfound.trans hget) he⟩⟩

theorem Keeps.set (h : c.Keeps P) (now : Nat) (ha : P k a) :
    (c.set now k a).Keeps fun k' a' => P k' a' ∧ (k' = k → a' = a) := by
  obtain ⟨r, hr, hentries⟩ := h
  refine ⟨_, hr.set now k a, fun e he => ⟨?_, Recency.value_of_set he⟩⟩
  rcases Recency.mem_set he with rfl | he
  · exact ha
  · exact hentries e he

theorem Holds.get_after_set (h : c.Holds r) (now : Nat) (k : κ) (a : α) : ((c.set now k a).get now k).1 = some a :=
  ((h.set now k a).get now k).2.symm.trans (Recency.get_after_set c.bounds r now k a)

end OrderDepot.Cache
