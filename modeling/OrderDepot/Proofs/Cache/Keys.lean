import Mathlib.Data.List.Nodup
import OrderDepot.Proofs.Cache.Entries

/-!
# The keys of a list of entries

No key occurs twice in a list that was filled by calls. So the entry of a key is the one that has it, and to drop the
key is to take out that one entry.
-/

open scoped List

namespace OrderDepot.Cache.Recency

variable {κ α : Type} {r s front back : Recency κ α} {k : κ} {e : Entry κ α}

def keys (r : Recency κ α) : List κ := r.map (·.key)

theorem keys_cons (e : Entry κ α) (r : Recency κ α) : keys (e :: r) = e.key :: r.keys := rfl

theorem mem_keys_of_mem (h : e ∈ r) : e.key ∈ r.keys := List.mem_map_of_mem h

theorem keys_sublist (h : r <+ s) : r.keys <+ s.keys := h.map _

theorem makeRoom_sublist (r : Recency κ α) (capacity : Nat) : r.makeRoom capacity <+ r := by
  unfold makeRoom
  split
  · exact List.dropLast_sublist r
  · exact List.Sublist.refl r

variable [DecidableEq κ]

theorem find?_eq_none_iff : r.find? k = none ↔ k ∉ r.keys := by
  simp [find?, keys, List.find?_eq_none]

theorem without_sublist (r : Recency κ α) (k : κ) : r.without k <+ r := List.filter_sublist

theorem without_sublist_without (h : r <+ s) (k : κ) : r.without k <+ s.without k := h.filter _

theorem not_mem_keys_without (r : Recency κ α) (k : κ) : k ∉ (r.without k).keys := by
  intro hk
  obtain ⟨e, he, hkey⟩ := List.mem_map.1 hk
  have hne : e.key ≠ k := by simpa using List.of_mem_filter he
  exact hne hkey

theorem without_absent (h : r.find? k = none) : r.without k = r := by
  apply List.filter_eq_self.2
  intro e he
  have hne : e.key ≠ k := fun heq => find?_eq_none_iff.1 h (heq ▸ mem_keys_of_mem he)
  simpa using hne

theorem without_around (hne : e.key ≠ k) :
    without (front ++ e :: back) k = front.without k ++ e :: back.without k := by
  simp [without, List.filter_cons_of_pos, hne]

theorem around_found (hr : r.keys.Nodup) (hfind : r.find? k = some e) :
    ∃ front back, r = front ++ e :: back ∧ r.without k = front ++ back := by
  obtain ⟨he, hkey⟩ := mem_of_find? hfind
  obtain ⟨front, back, rfl⟩ := List.append_of_mem he
  refine ⟨front, back, rfl, ?_⟩
  have hperm : keys (front ++ e :: back) ~ e.key :: keys (front ++ back) := List.perm_middle.map _
  have hfresh := (List.nodup_cons.1 (hperm.nodup_iff.1 hr)).1
  rw [hkey, ← find?_eq_none_iff] at hfresh
  have hkept := without_absent hfresh
  simp only [without, List.filter_append] at hkept ⊢
  rw [List.filter_cons_of_neg (by simpa using hkey)]
  exact hkept

theorem length_without (hr : r.keys.Nodup) (hfind : r.find? k = some e) : (r.without k).length + 1 = r.length := by
  obtain ⟨front, back, heq, hwithout⟩ := around_found hr hfind
  rw [hwithout, heq, List.length_append, List.length_append, List.length_cons]
  omega

theorem find?_sublist (hs : s.keys.Nodup) (h : r <+ s) (hfind : r.find? k = some e) : s.find? k = some e := by
  obtain ⟨he, hkey⟩ := mem_of_find? hfind
  obtain ⟨e', hfind'⟩ : ∃ e', s.find? k = some e' := by
    refine Option.ne_none_iff_exists'.1 fun hnone => find?_eq_none_iff.1 hnone ?_
    exact hkey ▸ mem_keys_of_mem (h.subset he)
  obtain ⟨he', hkey'⟩ := mem_of_find? hfind'
  rw [hfind', List.inj_on_of_nodup_map hs he' (h.subset he) (hkey'.trans hkey.symm)]

theorem nodup_without (hr : r.keys.Nodup) (k : κ) : (r.without k).keys.Nodup :=
  hr.sublist (keys_sublist (without_sublist r k))

theorem nodup_front (hr : r.keys.Nodup) (hkey : e.key = k) : (keys (e :: r.without k)).Nodup := by
  rw [keys_cons, List.nodup_cons, hkey]
  exact ⟨not_mem_keys_without r k, nodup_without hr k⟩

theorem nodup_call (b : Bounds) (hr : r.keys.Nodup) (x : Call κ α) : (call b r x).2.keys.Nodup := by
  cases x with
  | get now k =>
    simp only [call, get]
    split
    · exact hr
    · next e hfind =>
      split
      · exact nodup_without hr k
      · exact nodup_front hr (mem_of_find? hfind).2
  | set now k a =>
    simp only [call, set]
    split
    · exact nodup_front hr rfl
    · next hfind =>
      have hroom := keys_sublist (makeRoom_sublist r b.capacity)
      rw [keys_cons, List.nodup_cons]
      exact ⟨fun hk => find?_eq_none_iff.1 hfind (hroom.subset hk), hr.sublist hroom⟩
  | delete k => exact nodup_without hr k
  | purge => exact List.nodup_nil
  | size => exact hr

end OrderDepot.Cache.Recency
