import Mathlib.Data.List.Dedup
import Mathlib.Data.List.DropRight
import OrderDepot.Proofs.Cache.Keys

/-!
# What is found, told from the calls

A value that is found is the one that was written last under its key, was neither deleted nor purged since then, and
has not expired. Conversely such a value is found unless its entry had to make room. An entry stands behind entries
only whose keys were used after it, and it is given up only when it is the last one of a full cache and a new key is
written. By then as many other keys were used after it as there is room for entries.
-/

open scoped List

namespace OrderDepot.Cache

variable {κ α : Type}

def Call.time? : Call κ α → Option Nat
  | .get now _ | .set now _ _ => some now
  | .delete _ | .purge | .size => none

def Call.Spares (k : κ) : Call κ α → Prop
  | .set _ k' _ | .delete k' => k' ≠ k
  | .purge => False
  | .get _ _ | .size => True

/-- The value was written under the key at that time, and no later call wrote or dropped the key. -/
def LastWritten (calls : List (Call κ α)) (k : κ) (time : Nat) (a : α) : Prop :=
  ∃ before after, calls = before ++ .set time k a :: after ∧ ∀ x ∈ after, x.Spares k

def Fresh (ttl : Time.Duration) (time now : Nat) : Prop :=
  ∀ expiry, expiryFrom ttl time = some expiry → now < expiry

def usedKey? : Call κ α → Answer α → Option κ
  | .set _ k _, _ => some k
  | .get _ k, .found (some _) => some k
  | _, _ => none

def usedKeys (calls : List (Call κ α)) (answers : List (Answer α)) : List κ :=
  (calls.zip answers).filterMap fun p => usedKey? p.1 p.2

/-- The other keys that were used after the last use of this one, each of them once. -/
def usedSince [DecidableEq κ] (k : κ) (used : List κ) : List κ := (used.rtakeWhile (· ≠ k)).dedup

variable {calls : List (Call κ α)} {x : Call κ α} {k k' : κ} {time time' now : Nat} {a a' : α} {ttl : Time.Duration}

theorem lastWritten_concat :
    LastWritten (calls ++ [x]) k time a ↔ x = .set time k a ∨ LastWritten calls k time a ∧ x.Spares k := by
  constructor
  · intro ⟨before, after, heq, hafter⟩
    rcases List.eq_nil_or_concat after with rfl | ⟨rest, y, rfl⟩
    · left
      exact (List.append_inj' heq rfl).2 |> List.head_eq_of_cons_eq
    · rw [List.concat_eq_append] at hafter heq
      rw [← List.cons_append, ← List.append_assoc] at heq
      obtain ⟨rfl, hlast⟩ := List.append_inj' heq rfl
      obtain rfl := List.head_eq_of_cons_eq hlast
      right
      refine ⟨⟨before, rest, rfl, fun z hz => hafter z (List.mem_append_left _ hz)⟩, ?_⟩
      exact hafter x (List.mem_append_right _ List.mem_cons_self)
  · intro h
    rcases h with rfl | ⟨⟨before, after, rfl, hafter⟩, hx⟩
    · exact ⟨calls, [], rfl, fun y hy => by cases hy⟩
    · refine ⟨before, after ++ [x], by simp, fun y hy => ?_⟩
      rcases List.mem_append.1 hy with hy | hy
      · exact hafter y hy
      · exact List.mem_singleton.1 hy ▸ hx

theorem LastWritten.unique (h : LastWritten calls k time a) (h' : LastWritten calls k time' a') :
    time = time' ∧ a = a' := by
  induction calls using List.reverseRecOn with
  | nil =>
    obtain ⟨before, after, heq, -⟩ := h
    simp at heq
  | append_singleton calls x ih =>
    rcases lastWritten_concat.1 h with rfl | ⟨h, hx⟩
    · rcases lastWritten_concat.1 h' with heq | ⟨-, hx⟩
      · cases heq
        exact ⟨rfl, rfl⟩
      · exact absurd rfl hx
    · rcases lastWritten_concat.1 h' with rfl | ⟨h', -⟩
      · exact absurd rfl hx
      · exact ih h h'

theorem fresh_iff : Fresh ttl time now ↔ isExpired (expiryFrom ttl time) now = false := by
  unfold Fresh isExpired
  cases expiryFrom ttl time with
  | none => simp
  | some expiry => simp

theorem Fresh.earlier (h : Fresh ttl time now) {before : Nat} (hle : before ≤ now) : Fresh ttl time before :=
  fun expiry hexpiry => Nat.lt_of_le_of_lt hle (h expiry hexpiry)

section Used

variable [DecidableEq κ] {used : List κ}

theorem usedSince_other (hne : k' ≠ k) (used : List κ) :
    usedSince k (used ++ [k']) = (used.rtakeWhile (· ≠ k) ++ [k']).dedup := by
  rw [usedSince, List.rtakeWhile_concat_pos _ _ _ (by simpa using hne)]

theorem usedSince_subset_other (hne : k' ≠ k) (used : List κ) : usedSince k used ⊆ usedSince k (used ++ [k']) := by
  intro j hj
  rw [usedSince_other hne, List.mem_dedup, List.mem_append]
  left
  exact List.mem_dedup.1 hj

theorem mem_usedSince_other (hne : k' ≠ k) (used : List κ) : k' ∈ usedSince k (used ++ [k']) := by
  rw [usedSince_other hne, List.mem_dedup]
  exact List.mem_append_right _ List.mem_cons_self

theorem length_usedSince_other (hne : k' ≠ k) (used : List κ) :
    (usedSince k used).length ≤ (usedSince k (used ++ [k'])).length :=
  (List.subperm_of_subset (List.nodup_dedup _) (usedSince_subset_other hne used)).length_le

end Used

namespace Recency

variable {b : Bounds} {r : Recency κ α} {e e' : Entry κ α} {others others' : List κ}

def Behind (others : List κ) (e : Entry κ α) (r : Recency κ α) : Prop :=
  ∃ front back, r = front ++ e :: back ∧ front.keys ⊆ others

theorem behind_first (others : List κ) (e : Entry κ α) (r : Recency κ α) : Behind others e (e :: r) :=
  ⟨[], r, rfl, List.nil_subset others⟩

theorem Behind.mem (h : Behind others e r) : e ∈ r := by
  obtain ⟨front, back, rfl, -⟩ := h
  exact List.mem_append_right _ List.mem_cons_self

theorem Behind.mono (h : Behind others e r) (hsub : others ⊆ others') : Behind others' e r := by
  obtain ⟨front, back, heq, hfront⟩ := h
  exact ⟨front, back, heq, List.Subset.trans hfront hsub⟩

theorem Behind.cons (h : Behind others e r) (hkey : e'.key ∈ others) : Behind others e (e' :: r) := by
  obtain ⟨front, back, rfl, hfront⟩ := h
  exact ⟨e' :: front, back, rfl, List.cons_subset.2 ⟨hkey, hfront⟩⟩

theorem Behind.makeRoom (h : Behind others e r) {capacity : Nat}
    (hroom : ∀ front : Recency κ α, r = front ++ [e] → front.keys ⊆ others → capacity = 0 ∨ r.length < capacity) :
    Behind others e (r.makeRoom capacity) := by
  unfold Recency.makeRoom
  split
  · next hfull =>
    obtain ⟨front, back, rfl, hfront⟩ := h
    rcases List.eq_nil_or_concat back with rfl | ⟨back, last, rfl⟩
    · have hspare := hroom front rfl hfront
      omega
    · refine ⟨front, back, ?_, hfront⟩
      rw [List.concat_eq_append, ← List.cons_append, ← List.append_assoc, List.dropLast_concat]
  · exact h

variable [DecidableEq κ]

theorem Behind.without (h : Behind others e r) (hne : e.key ≠ k) : Behind others e (r.without k) := by
  obtain ⟨front, back, rfl, hfront⟩ := h
  refine ⟨front.without k, Recency.without back k, without_around hne, ?_⟩
  exact List.Subset.trans (keys_sublist (without_sublist front k)).subset hfront

theorem Behind.found (h : Behind others e r) (hr : r.keys.Nodup) : r.find? e.key = some e := by
  apply find?_sublist hr (List.singleton_sublist.2 h.mem)
  simp [find?]

def RoomBehind (b : Bounds) (n : Nat) : Prop := b.capacity = 0 ∨ n < b.capacity

theorem behind_get (h : Behind others e r) (hne : e.key ≠ k) (hused : ∀ a, (r.get now k).1 = some a → k ∈ others) :
    Behind others e (r.get now k).2 := by
  unfold get at hused ⊢
  split
  · exact h
  · next e' hfind =>
    split
    · exact h.without hne
    · next hfresh =>
      apply (h.without hne).cons
      rw [(mem_of_find? hfind).2]
      apply hused e'.value
      simp [hfind, hfresh]

theorem behind_set (h : Behind others e r) (hr : r.keys.Nodup) (hne : e.key ≠ k) (hused : k ∈ others)
    (hroom : RoomBehind b others.length) : Behind others e (set b r now k a) := by
  unfold set
  split
  · exact (h.without hne).cons hused
  · next hfind =>
    refine Behind.cons (h.makeRoom fun front hr' hfront => ?_) hused
    rcases hroom with hzero | hroom
    · left
      exact hzero
    · right
      -- The new key and those in front of the entry differ, and all of them were used.
      have hnew : (k :: front.keys).Nodup := by
        rw [hr'] at hfind hr
        have hsub : front.keys <+ keys (front ++ [e]) := keys_sublist (List.sublist_append_left front [e])
        exact List.nodup_cons.2 ⟨fun hk => find?_eq_none_iff.1 hfind (hsub.subset hk), hr.sublist hsub⟩
      have hlength := (List.subperm_of_subset hnew (List.cons_subset.2 ⟨hused, hfront⟩)).length_le
      rw [hr', List.length_append]
      simp only [List.length_cons, keys, List.length_map, List.length_nil] at hlength ⊢
      omega

def after (b : Bounds) (r : Recency κ α) (calls : List (Call κ α)) : Recency κ α :=
  calls.foldl (fun r x => (call b r x).2) r

theorem after_concat (b : Bounds) (r : Recency κ α) (calls : List (Call κ α)) (x : Call κ α) :
    after b r (calls ++ [x]) = (call b (after b r calls) x).2 := by
  simp [after]

theorem answers_concat (b : Bounds) (r : Recency κ α) (calls : List (Call κ α)) (x : Call κ α) :
    answers b r (calls ++ [x]) = answers b r calls ++ [(call b (after b r calls) x).1] := by
  induction calls generalizing r with
  | nil => rfl
  | cons y rest ih =>
    rw [List.cons_append, answers, ih]
    rfl

theorem length_answers (b : Bounds) (r : Recency κ α) (calls : List (Call κ α)) :
    (answers b r calls).length = calls.length := by
  induction calls generalizing r with
  | nil => rfl
  | cons x rest ih => rw [answers, List.length_cons, List.length_cons, ih]

def used (b : Bounds) (calls : List (Call κ α)) : List κ := usedKeys calls (answers b [] calls)

theorem used_concat (b : Bounds) (calls : List (Call κ α)) (x : Call κ α) :
    used b (calls ++ [x]) = used b calls ++ (usedKey? x (call b (after b [] calls) x).1).toList := by
  rw [used, usedKeys, answers_concat, List.zip_append (length_answers b [] calls).symm, List.filterMap_append]
  rfl

structure Recorded (b : Bounds) (calls : List (Call κ α)) (r : Recency κ α) : Prop where
  distinct : r.keys.Nodup
  written : ∀ e ∈ r, ∃ time, LastWritten calls e.key time e.value ∧ e.expiry = expiryFrom b.ttl time

theorem set_eq_cons (b : Bounds) (r : Recency κ α) (now : Nat) (k : κ) (a : α) :
    ∃ rest, set b r now k a = ⟨k, a, expiryFrom b.ttl now⟩ :: rest ∧ rest <+ r := by
  unfold set
  split
  · exact ⟨_, rfl, without_sublist r k⟩
  · exact ⟨_, rfl, makeRoom_sublist r b.capacity⟩

theorem recorded_call (h : Recorded b calls r) (x : Call κ α) : Recorded b (calls ++ [x]) (call b r x).2 := by
  have hdistinct := nodup_call b h.distinct x
  refine ⟨hdistinct, fun e he => ?_⟩
  -- What was there stays recorded if the call spares its key.
  have hold : e ∈ r → x.Spares e.key →
      ∃ time, LastWritten (calls ++ [x]) e.key time e.value ∧ e.expiry = expiryFrom b.ttl time := by
    intro he hx
    obtain ⟨time, hwritten, hexpiry⟩ := h.written e he
    exact ⟨time, lastWritten_concat.2 (.inr ⟨hwritten, hx⟩), hexpiry⟩
  cases x with
  | get now k => exact hold (mem_get he) trivial
  | set now k a =>
    obtain ⟨rest, hset, hrest⟩ := set_eq_cons b r now k a
    simp only [call, hset] at he hdistinct
    rcases List.mem_cons.1 he with rfl | he
    · exact ⟨now, lastWritten_concat.2 (.inl rfl), rfl⟩
    · refine hold (hrest.subset he) fun hkey => ?_
      rw [keys_cons, List.nodup_cons] at hdistinct
      have hnew : k ∉ keys rest := hdistinct.1
      rw [hkey] at hnew
      exact hnew (mem_keys_of_mem he)
  | delete k =>
    have hdropped : e ∈ r.without k := he
    refine hold ((without_sublist r k).subset hdropped) fun hkey => not_mem_keys_without r k ?_
    rw [hkey] at hdropped ⊢
    exact mem_keys_of_mem hdropped
  | purge => cases he
  | size => exact hold he trivial

/-- Each value that was written last under its key and has always been fresh stands behind entries only that were used
after it, as long as these leave room for it. -/
def Kept (b : Bounds) (calls : List (Call κ α)) (r : Recency κ α) : Prop :=
  ∀ k time a, LastWritten calls k time a → (∀ x ∈ calls, ∀ t, x.time? = some t → Fresh b.ttl time t) →
    RoomBehind b (usedSince k (used b calls)).length →
    Behind (usedSince k (used b calls)) ⟨k, a, expiryFrom b.ttl time⟩ r

theorem found_first (hr : Recorded b calls r) (hwritten : LastWritten calls k time a)
    (hhit : usedKey? (.get now k) (call b r (.get now k : Call κ α)).1 = some k) :
    ∃ rest, (call b r (.get now k)).2 = ⟨k, a, expiryFrom b.ttl time⟩ :: rest := by
  simp only [call, get] at hhit ⊢
  split at hhit
  · cases hhit
  · next e hfind =>
    split at hhit
    · cases hhit
    · next hfresh =>
      obtain ⟨he, hkey⟩ := mem_of_find? hfind
      obtain ⟨time', hwritten', hexpiry⟩ := hr.written e he
      rw [hkey] at hwritten'
      obtain ⟨rfl, rfl⟩ := hwritten.unique hwritten'
      refine ⟨r.without k, ?_⟩
      simp only [if_neg hfresh]
      rw [← hkey, ← hexpiry]

theorem usedSince_call {calls : List (Call κ α)} {x : Call κ α}
    (hx : usedKey? x (call b (after b [] calls) x).1 ≠ some k) :
    usedSince k (used b calls) ⊆ usedSince k (used b (calls ++ [x])) ∧
      (usedSince k (used b calls)).length ≤ (usedSince k (used b (calls ++ [x]))).length ∧
      ∀ j, usedKey? x (call b (after b [] calls) x).1 = some j → j ∈ usedSince k (used b (calls ++ [x])) := by
  rw [used_concat]
  cases hkey : usedKey? x (call b (after b [] calls) x).1 with
  | none => simp
  | some j =>
    have hne : j ≠ k := fun heq => hx (heq ▸ hkey)
    refine ⟨usedSince_subset_other hne _, length_usedSince_other hne _, fun i hi => ?_⟩
    obtain rfl := Option.some.inj hi
    exact mem_usedSince_other hne _

theorem kept_call (hr : Recorded b calls (after b [] calls)) (h : Kept b calls (after b [] calls)) (x : Call κ α) :
    Kept b (calls ++ [x]) (call b (after b [] calls) x).2 := by
  intro k time a hwritten hfresh hroom
  rcases lastWritten_concat.1 hwritten with rfl | ⟨hearlier, hspares⟩
  · obtain ⟨rest, hset, -⟩ := set_eq_cons b (after b [] calls) time k a
    rw [call, hset]
    exact behind_first _ _ _
  by_cases hhit : usedKey? x (call b (after b [] calls) x).1 = some k
  · cases x with
    | get now j =>
      obtain rfl : j = k := by
        unfold usedKey? at hhit
        split at hhit <;> simp_all
      obtain ⟨rest, hfirst⟩ := found_first hr hearlier hhit
      rw [hfirst]
      exact behind_first _ _ _
    | set now j v => exact absurd (Option.some.inj hhit) hspares
    | delete j => cases hhit
    | purge => cases hhit
    | size => cases hhit
  obtain ⟨hsubset, hlength, hused⟩ := usedSince_call hhit
  have hold : Behind (usedSince k (used b (calls ++ [x]))) ⟨k, a, expiryFrom b.ttl time⟩ (after b [] calls) := by
    refine (h k time a hearlier (fun y hy => hfresh y (List.mem_append_left _ hy)) ?_).mono hsubset
    exact hroom.imp_right (Nat.lt_of_le_of_lt hlength)
  cases x with
  | get now j =>
    by_cases hkey : k = j
    · -- The entry is there and fresh, so it would have been found.
      subst hkey
      have hlive := fresh_iff.1 (hfresh _ (List.mem_append_right _ List.mem_cons_self) now rfl)
      have hfind := hold.found hr.distinct
      refine absurd ?_ hhit
      simp [call, get, hfind, hlive, usedKey?]
    · refine behind_get hold hkey fun v hv => hused j ?_
      simp [call, hv, usedKey?]
  | set now j v => exact behind_set hold hr.distinct (Ne.symm hspares) (hused j rfl) hroom
  | delete j => exact hold.without (Ne.symm hspares)
  | purge => exact hspares.elim
  | size => exact hold

theorem recorded_kept_after (b : Bounds) (calls : List (Call κ α)) :
    Recorded b calls (after b [] calls) ∧ Kept b calls (after b [] calls) := by
  induction calls using List.reverseRecOn with
  | nil =>
    refine ⟨⟨List.nodup_nil, nofun⟩, fun k time a hwritten => ?_⟩
    obtain ⟨before, rest, heq, -⟩ := hwritten
    simp at heq
  | append_singleton calls x ih =>
    rw [after_concat]
    exact ⟨recorded_call ih.1 x, kept_call ih.1 ih.2 x⟩

end Recency

variable [DecidableEq κ]

def after (c : Cache κ α) (calls : List (Call κ α)) : Cache κ α := calls.foldl (fun c x => (c.call x).2) c

theorem Holds.call {c : Cache κ α} {r : Recency κ α} (h : c.Holds r) (x : Call κ α) :
    (c.call x).2.Holds (Recency.call c.bounds r x).2 := by
  obtain ⟨l, hl, rfl⟩ := h
  obtain ⟨l', hl', hcall⟩ := call_represents hl x
  rw [hcall]
  exact ⟨l', hl', rfl⟩

theorem Holds.after {c : Cache κ α} {r : Recency κ α} (h : c.Holds r) (calls : List (Call κ α)) :
    (c.after calls).Holds (Recency.after c.bounds r calls) := by
  induction calls generalizing c r with
  | nil => exact h
  | cons x rest ih =>
    have hrest := ih (h.call x)
    rw [call_bounds] at hrest
    exact hrest

/-- A value that is found was written last under its key and is fresh. Such a value is found if fewer other keys were
used since then than there is room for, as long as no call was made later than this one. -/
theorem get_of_history (b : Bounds) (calls : List (Call κ α)) (now : Nat) (k : κ) (a : α) :
    let c : Cache κ α := ⟨b, {}⟩
    (((c.after calls).get now k).1 = some a → ∃ time, LastWritten calls k time a ∧ Fresh b.ttl time now) ∧
      ((∀ x ∈ calls, ∀ t, x.time? = some t → t ≤ now) → ∀ time, LastWritten calls k time a → Fresh b.ttl time now →
        b.capacity = 0 ∨ (usedSince k (usedKeys calls (c.answers calls))).length < b.capacity →
        ((c.after calls).get now k).1 = some a) := by
  intro c
  have hholds : (c.after calls).Holds (Recency.after b [] calls) := (holds_empty b).after calls
  have hused : usedKeys calls (c.answers calls) = Recency.used b calls := by
    rw [Recency.used, answers_of_represents (c := c) Slab.represents_empty calls]
    rfl
  obtain ⟨hrecorded, hkept⟩ := Recency.recorded_kept_after b calls
  rw [← (hholds.get now k).2, hused]
  constructor
  · intro hhit
    obtain ⟨e, he, rfl, rfl, hlive⟩ := Recency.get_some hhit
    obtain ⟨time, hwritten, hexpiry⟩ := hrecorded.written e he
    rw [hexpiry] at hlive
    exact ⟨time, hwritten, fresh_iff.2 hlive⟩
  · intro hclock time hwritten hfresh hroom
    have hbehind := hkept k time a hwritten (fun x hx t ht => hfresh.earlier (hclock x hx t ht)) hroom
    have hfind := hbehind.found hrecorded.distinct
    simp [Recency.get, hfind, fresh_iff.1 hfresh]

def rivalCalls : List (Call Nat Nat) := [.set 0 1 10, .set 1 2 20, .get 2 1, .set 3 3 30]

def pairCache : Cache Nat Nat := ⟨⟨2, .ofSeconds 60⟩, {}⟩

theorem used_key_outlives_other :
    (∀ x ∈ rivalCalls, ∀ t, x.time? = some t → t ≤ 4) ∧
      (LastWritten rivalCalls 1 0 10 ∧ Fresh (.ofSeconds 60) 0 4 ∧
        (usedSince 1 (usedKeys rivalCalls (pairCache.answers rivalCalls))).length < 2 ∧
        ((pairCache.after rivalCalls).get 4 1).1 = some 10) ∧
      LastWritten rivalCalls 2 1 20 ∧
        (usedSince 2 (usedKeys rivalCalls (pairCache.answers rivalCalls))).length = 2 ∧
        ((pairCache.after rivalCalls).get 4 2).1 = none := by
  have hclock : ∀ x ∈ rivalCalls, ∀ t, x.time? = some t → t ≤ 4 := by simp [rivalCalls, Call.time?]
  have hfirst : LastWritten rivalCalls 1 0 10 := ⟨[], _, rfl, by simp [Call.Spares]⟩
  have hsecond : LastWritten rivalCalls 2 1 20 := ⟨[.set 0 1 10], _, rfl, by simp [Call.Spares]⟩
  have hfresh : Fresh (.ofSeconds 60) 0 4 := fresh_iff.2 rfl
  have hused : usedKeys rivalCalls (pairCache.answers rivalCalls) = [1, 2, 1, 3] := rfl
  have hroom : (usedSince 1 (usedKeys rivalCalls (pairCache.answers rivalCalls))).length < 2 := by
    rw [hused]
    decide
  have hcrowd : (usedSince 2 (usedKeys rivalCalls (pairCache.answers rivalCalls))).length = 2 := by
    rw [hused]
    decide
  have hfound := (get_of_history ⟨2, .ofSeconds 60⟩ rivalCalls 4 1 10).2 hclock 0 hfirst hfresh (.inr hroom)
  exact ⟨hclock, ⟨hfirst, hfresh, hroom, hfound⟩, hsecond, hcrowd, rfl⟩

end OrderDepot.Cache
