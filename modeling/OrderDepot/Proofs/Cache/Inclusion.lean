import OrderDepot.Proofs.Cache.Keys

/-!
# A larger cache has the hits of a smaller one

Two caches take the same calls; their entries live equally long, but there is more room in one than in the other. The
entries of the smaller one are a sublist of those of the larger one, and the larger one has no more entries beside them
than it has more room. So whenever the larger one has to make room, it is full with the smaller one, and the entry that
it gives up is the last one of the smaller one, too, or none of its entries.
-/

open scoped List

namespace OrderDepot.Cache

/-- There is room for as many entries and more. Zero is no limit. -/
def AtLeastAsLarge (c₂ c₁ : Nat) : Prop := 0 < c₁ ∧ c₁ ≤ c₂ ∨ c₂ = 0

namespace Recency

variable {κ α : Type} {c₁ c₂ : Nat} {small large : Recency κ α} {k : κ} {e : Entry κ α}

structure Included (c₁ c₂ : Nat) (small large : Recency κ α) : Prop where
  sublist : small <+ large
  distinct : large.keys.Nodup
  spare : c₂ = 0 ∨ large.length + c₁ ≤ small.length + c₂

theorem dropLast_sublist_dropLast {β : Type} {l₁ l₂ : List β} (h : l₁ <+ l₂) : l₁.dropLast <+ l₂.dropLast := by
  have hreverse := h.reverse.tail.reverse
  simpa using hreverse

theorem length_makeRoom (r : Recency κ α) (c : Nat) :
    (r.makeRoom c).length = if 0 < c ∧ c ≤ r.length then r.length - 1 else r.length := by
  unfold makeRoom
  split
  · exact List.length_dropLast
  · rfl

theorem included_nil (h : AtLeastAsLarge c₂ c₁) : Included c₁ c₂ ([] : Recency κ α) [] := by
  refine ⟨List.Sublist.refl [], List.nodup_nil, ?_⟩
  rcases h with ⟨-, hle⟩ | hzero
  · right
    simpa using hle
  · left
    exact hzero

namespace Included

theorem small_distinct (h : Included c₁ c₂ small large) : small.keys.Nodup :=
  h.distinct.sublist (keys_sublist h.sublist)

theorem front (h : Included c₁ c₂ small large) (hfresh : e.key ∉ large.keys) :
    Included c₁ c₂ (e :: small) (e :: large) := by
  refine ⟨h.sublist.cons_cons e, List.nodup_cons.2 ⟨hfresh, h.distinct⟩, ?_⟩
  rcases h.spare with hzero | hspare
  · left
    exact hzero
  · right
    simp only [List.length_cons]
    omega

theorem makeRoom_sublist_makeRoom (h : Included c₁ c₂ small large) (hc : AtLeastAsLarge c₂ c₁) :
    small.makeRoom c₁ <+ large.makeRoom c₂ := by
  by_cases hlarge : 0 < c₂ ∧ c₂ ≤ large.length
  · -- Where the larger one is full, the smaller one is: otherwise it would have too much spare room.
    have hsmall : 0 < c₁ ∧ c₁ ≤ small.length := by
      have hspare := h.spare
      unfold AtLeastAsLarge at hc
      omega
    rw [Recency.makeRoom, Recency.makeRoom, if_pos hlarge, if_pos hsmall]
    exact dropLast_sublist_dropLast h.sublist
  · have hkept : large.makeRoom c₂ = large := if_neg hlarge
    rw [hkept]
    exact (makeRoom_sublist small c₁).trans h.sublist

theorem makeRoom (h : Included c₁ c₂ small large) (hc : AtLeastAsLarge c₂ c₁) :
    Included c₁ c₂ (small.makeRoom c₁) (large.makeRoom c₂) := by
  refine ⟨h.makeRoom_sublist_makeRoom hc, h.distinct.sublist (keys_sublist (makeRoom_sublist large c₂)), ?_⟩
  have hspare := h.spare
  unfold AtLeastAsLarge at hc
  rw [length_makeRoom, length_makeRoom]
  split <;> split <;> omega

variable [DecidableEq κ]

theorem found (h : Included c₁ c₂ small large) (hfind : small.find? k = some e) : large.find? k = some e :=
  find?_sublist h.distinct h.sublist hfind

theorem missing (h : Included c₁ c₂ small large) (hfind : large.find? k = none) : small.find? k = none := by
  rw [find?_eq_none_iff] at hfind ⊢
  exact fun hk => hfind ((keys_sublist h.sublist).subset hk)

theorem without (h : Included c₁ c₂ small large) (k : κ) : Included c₁ c₂ (small.without k) (large.without k) := by
  refine ⟨without_sublist_without h.sublist k, nodup_without h.distinct k, ?_⟩
  rcases h.spare with hzero | hspare
  · left
    exact hzero
  right
  cases hsmall : small.find? k with
  | some e =>
    have hlength := length_without h.small_distinct hsmall
    have hlength' := length_without h.distinct (h.found hsmall)
    omega
  | none =>
    have hlength := (without_sublist large k).length_le
    rw [without_absent hsmall]
    omega

theorem front_both (h : Included c₁ c₂ small large) (hkey : e.key = k) :
    Included c₁ c₂ (e :: small.without k) (e :: large.without k) := by
  apply (h.without k).front
  rw [hkey]
  exact not_mem_keys_without large k

theorem front_large (h : Included c₁ c₂ small large) (hsmall : small.find? k = none) (hlarge : large.find? k = some e) :
    Included c₁ c₂ small (e :: large.without k) := by
  have hsublist := without_sublist_without h.sublist k
  rw [without_absent hsmall] at hsublist
  refine ⟨hsublist.cons e, nodup_front h.distinct (mem_of_find? hlarge).2, ?_⟩
  rw [List.length_cons, length_without h.distinct hlarge]
  exact h.spare

theorem rewritten_large (h : Included c₁ c₂ small large) (hsmall : small.find? k = none)
    (hlarge : ∃ e, large.find? k = some e) (hkey : e.key = k) :
    Included c₁ c₂ (e :: small.makeRoom c₁) (e :: large.without k) := by
  obtain ⟨old, hold⟩ := hlarge
  have hsublist := without_sublist_without h.sublist k
  rw [without_absent hsmall] at hsublist
  refine ⟨((makeRoom_sublist small c₁).trans hsublist).cons_cons e, nodup_front h.distinct hkey, ?_⟩
  have hspare := h.spare
  rw [List.length_cons, List.length_cons, length_without h.distinct hold, length_makeRoom]
  split <;> omega

end Included

variable [DecidableEq κ] {b₁ b₂ : Bounds}

theorem included_get (h : Included c₁ c₂ small large) (now : Nat) (k : κ) :
    Included c₁ c₂ (small.get now k).2 (large.get now k).2 ∧
      ∀ a, (small.get now k).1 = some a → (large.get now k).1 = some a := by
  cases hsmall : small.find? k with
  | some e =>
    simp only [get, hsmall, h.found hsmall]
    split
    · exact ⟨h.without k, fun a ha => ha⟩
    · exact ⟨h.front_both (mem_of_find? hsmall).2, fun a ha => ha⟩
  | none =>
    simp only [get, hsmall]
    refine ⟨?_, fun a ha => by cases ha⟩
    cases hlarge : large.find? k with
    | none => exact h
    | some e =>
      dsimp only
      split
      · have hdropped := h.without k
        rw [without_absent hsmall] at hdropped
        exact hdropped
      · exact h.front_large hsmall hlarge

theorem included_set (h : Included b₁.capacity b₂.capacity small large) (httl : b₁.ttl = b₂.ttl)
    (hc : AtLeastAsLarge b₂.capacity b₁.capacity) (now : Nat) (k : κ) (a : α) :
    Included b₁.capacity b₂.capacity (set b₁ small now k a) (set b₂ large now k a) := by
  simp only [set, httl]
  cases hlarge : large.find? k with
  | none =>
    simp only [h.missing hlarge]
    apply (h.makeRoom hc).front
    exact fun hk => find?_eq_none_iff.1 hlarge ((keys_sublist (makeRoom_sublist large _)).subset hk)
  | some e =>
    cases hsmall : small.find? k with
    | some e' => exact h.front_both rfl
    | none => exact h.rewritten_large hsmall ⟨e, hlarge⟩ rfl

theorem included_call (h : Included b₁.capacity b₂.capacity small large) (httl : b₁.ttl = b₂.ttl)
    (hc : AtLeastAsLarge b₂.capacity b₁.capacity) (x : Call κ α) :
    Included b₁.capacity b₂.capacity (call b₁ small x).2 (call b₂ large x).2 ∧
      ∀ a, (call b₁ small x).1 = .found (some a) → (call b₂ large x).1 = .found (some a) := by
  cases x with
  | get now k =>
    obtain ⟨hincluded, hhit⟩ := included_get h now k
    refine ⟨hincluded, fun a ha => ?_⟩
    simp only [call, Answer.found.injEq] at ha ⊢
    exact hhit a ha
  | set now k a => exact ⟨included_set h httl hc now k a, fun a ha => by cases ha⟩
  | delete k => exact ⟨h.without k, fun a ha => by cases ha⟩
  | purge => exact ⟨included_nil hc, fun a ha => by cases ha⟩
  | size => exact ⟨h, fun a ha => by cases ha⟩

theorem included_answers (h : Included b₁.capacity b₂.capacity small large) (httl : b₁.ttl = b₂.ttl)
    (hc : AtLeastAsLarge b₂.capacity b₁.capacity) (calls : List (Call κ α)) (i : Nat) (a : α)
    (ha : (answers b₁ small calls)[i]? = some (.found (some a))) :
    (answers b₂ large calls)[i]? = some (.found (some a)) := by
  induction calls generalizing small large i with
  | nil => cases ha
  | cons x rest ih =>
    obtain ⟨hnext, hhit⟩ := included_call h httl hc x
    cases i with
    | zero =>
      simp only [answers, List.getElem?_cons_zero, Option.some.injEq] at ha ⊢
      exact hhit a ha
    | succ i => exact ih hnext i ha

end Recency

variable {κ α : Type} [DecidableEq κ]

/-- Whatever is called and when: what is found in a cache is found by the same call in one that is at least as large
and was filled by the same calls. -/
theorem hit_in_larger_cache (ttl : Time.Duration) {c₁ c₂ : Nat} (hc : 0 < c₁ ∧ c₁ ≤ c₂ ∨ c₂ = 0)
    (calls : List (Call κ α)) (i : Nat) (a : α)
    (hhit : ((⟨⟨c₁, ttl⟩, {}⟩ : Cache κ α).answers calls)[i]? = some (.found (some a))) :
    ((⟨⟨c₂, ttl⟩, {}⟩ : Cache κ α).answers calls)[i]? = some (.found (some a)) := by
  have hsmall := answers_of_represents (c := (⟨⟨c₁, ttl⟩, {}⟩ : Cache κ α)) Slab.represents_empty calls
  have hlarge := answers_of_represents (c := (⟨⟨c₂, ttl⟩, {}⟩ : Cache κ α)) Slab.represents_empty calls
  rw [hsmall] at hhit
  rw [hlarge]
  refine Recency.included_answers ?_ ?_ ?_ calls i a hhit
  · exact Recency.included_nil hc
  · rfl
  · exact hc

theorem hits_after_parting :
    let calls : List (Call Nat Nat) :=
      [.set 0 1 10, .set 0 2 20, .set 0 3 30, .get 1 1, .set 1 4 40, .get 2 3]
    let small := (⟨⟨2, .ofSeconds 60⟩, {}⟩ : Cache Nat Nat).answers calls
    let large := (⟨⟨3, .ofSeconds 60⟩, {}⟩ : Cache Nat Nat).answers calls
    (0 < 2 ∧ 2 ≤ 3 ∨ 3 = 0) ∧ small[3]? = some (.found none) ∧ large[3]? = some (.found (some 10)) ∧
      small[5]? = some (.found (some 30)) ∧ large[5]? = some (.found (some 30)) := by
  intro calls small large
  have hc : 0 < 2 ∧ 2 ≤ 3 ∨ 3 = 0 := by decide
  have hhit : small[5]? = some (.found (some 30)) := rfl
  exact ⟨hc, rfl, rfl, hhit, hit_in_larger_cache (.ofSeconds 60) hc calls 5 30 hhit⟩

end OrderDepot.Cache
