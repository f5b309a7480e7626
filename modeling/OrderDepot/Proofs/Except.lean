/-!
Computations that may fail, taken apart where they succeeded.
-/

namespace OrderDepot

variable {ε α β : Type}

theorem bind_eq_ok {x : Except ε α} {f : α → Except ε β} {b : β} (h : x >>= f = .ok b) :
    ∃ a, x = .ok a ∧ f a = .ok b := by
  cases x with
  | error e => cases h
  | ok a => exact ⟨a, rfl, h⟩

theorem length_of_mapM {f : α → Except ε β} {as : List α} {bs : List β} (h : as.mapM f = .ok bs) :
    bs.length = as.length := by
  induction as generalizing bs with
  | nil =>
    cases h
    rfl
  | cons a as ih =>
    rw [List.mapM_cons] at h
    obtain ⟨b, -, hrest⟩ := bind_eq_ok h
    obtain ⟨rest, hmap, hcons⟩ := bind_eq_ok hrest
    cases hcons
    rw [List.length_cons, List.length_cons, ih hmap]

end OrderDepot
