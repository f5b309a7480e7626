import OrderDepot.Time.Calendar

/-!
# Days and dates

A date is written from a number of days and leads back to it, and it exists. A day of a cycle of 400 years is
taken apart into centuries, spans of four years, years and days of the year; only the last day of a leap year
makes the parts longer than they are elsewhere.
-/

namespace OrderDepot.Time

/-- A day of a cycle of 400 years that begin in March: `k` centuries, `j` spans of four years, `m` years and
`y` days. -/
structure CycleParts (day k j m y : Int) : Prop where
  sum : day = 36524 * k + 1461 * j + 365 * m + y
  centuries : 0 ≤ k ∧ k ≤ 3
  spans : 0 ≤ j ∧ j ≤ 24
  years : 0 ≤ m ∧ m ≤ 3
  days : 0 ≤ y
  last : y ≤ 364 ∨ y = 365 ∧ m = 3 ∧ (j ≤ 23 ∨ k = 3)

theorem exists_cycleParts (day : Int) (hlow : 0 ≤ day) (hhigh : day < daysPerCycle) :
    ∃ centuries spans years rest, CycleParts day centuries spans years rest := by
  simp only [daysPerCycle] at hhigh
  obtain ⟨k, hk⟩ : ∃ k, k = min (day / 36524) 3 := ⟨_, rfl⟩
  obtain ⟨j, hj⟩ : ∃ j, j = min ((day - 36524 * k) / 1461) 24 := ⟨_, rfl⟩
  obtain ⟨m, hm⟩ : ∃ m, m = min ((day - 36524 * k - 1461 * j) / 365) 3 := ⟨_, rfl⟩
  refine ⟨k, j, m, day - 36524 * k - 1461 * j - 365 * m, ?_⟩
  constructor <;> omega

namespace CycleParts

variable {day k j m y : Int}

theorem year_of_cycle (h : CycleParts day k j m y) :
    (day - day / 1460 + day / 36524 - day / 146096) / 365 = 100 * k + 4 * j + m := by
  obtain ⟨hday, hk, hj, hm, hy, hlast⟩ := h
  have hcenturies : day / 36524 - day / 146096 = k := by
    rcases (by omega : day - 36524 * k ≤ 36523 ∨ k = 3 ∧ day = 146096) with hin | ⟨rfl, rfl⟩
    · have : day / 36524 = k := by omega
      omega
    · rfl
  have hupper : day / 1460 ≤ 25 * k + j + 1 := by omega
  rcases (by omega : day / 1460 = 25 * k + j ∨ day / 1460 = 25 * k + j + 1) with hspans | hspans
  · have : y ≤ 364 := by omega
    omega
  · have : 1 ≤ y := by omega
    omega

theorem day_of_year (h : CycleParts day k j m y) :
    let c := 100 * k + 4 * j + m
    day - (365 * c + c / 4 - c / 100) = y := by
  obtain ⟨hday, hk, hj, hm, hy, hlast⟩ := h
  intro c
  have hspans : c / 4 = 25 * k + j := by omega
  have hcenturies : c / 100 = k := by omega
  omega

end CycleParts

theorem month_of_day {y : Int} (hlow : 0 ≤ y) (hhigh : y ≤ 365) :
    0 ≤ (5 * y + 2) / 153 ∧ (5 * y + 2) / 153 ≤ 11 ∧ (153 * ((5 * y + 2) / 153) + 2) / 5 ≤ y := by
  omega

theorem ofDays_eq {n q k j m y : Int} (hq : q = (n + epochShift) / daysPerCycle)
    (h : CycleParts ((n + epochShift) % daysPerCycle) k j m y) :
    Date.ofDays n =
      let month := (5 * y + 2) / 153
      let year := q * 400 + (100 * k + 4 * j + m)
      ⟨if month < 10 then year else year + 1, (if month < 10 then month + 3 else month - 9).toNat,
        (y - (153 * month + 2) / 5 + 1).toNat⟩ := by
  have hyear := h.year_of_cycle
  have hrest := h.day_of_year
  simp only [Date.ofDays, hyear, ← hq] at hrest ⊢
  simp only [hrest]

theorem toDays_ofDays (n : Int) : (Date.ofDays n).toDays = n := by
  obtain ⟨q, hq⟩ : ∃ q, q = (n + epochShift) / daysPerCycle := ⟨_, rfl⟩
  obtain ⟨k, j, m, y, h⟩ := exists_cycleParts ((n + epochShift) % daysPerCycle)
    (Int.emod_nonneg _ (by decide)) (Int.emod_lt_of_pos _ (by decide))
  rw [ofDays_eq hq h]
  have hrest := h.day_of_year
  obtain ⟨hday, hk, hj, hm, hy, hlast⟩ := h
  obtain ⟨hlow, hhigh, hstart⟩ := month_of_day hy (by omega)
  simp only [daysPerCycle, epochShift] at hq hday
  generalize (5 * y + 2) / 153 = month at hlow hhigh hstart ⊢
  obtain ⟨c, hc⟩ : ∃ c, c = 100 * k + 4 * j + m := ⟨_, rfl⟩
  rw [← hc] at hrest ⊢
  have hcycle : (q * 400 + c) / 400 = q ∧ (q * 400 + c) % 400 = c := by omega
  simp only [Date.toDays]
  by_cases hmonth : month < 10
  · have hcivil : ¬ (month + 3).toNat ≤ 2 := by omega
    simp only [hmonth, if_true, hcivil, if_false, hcycle, daysPerCycle, epochShift]
    have : (((month + 3).toNat : Nat) : Int) - 3 = month := by omega
    rw [this]
    omega
  · have hcivil : (month - 9).toNat ≤ 2 := by omega
    simp only [hmonth, if_false, hcivil, if_true, daysPerCycle, epochShift]
    have hback : q * 400 + c + 1 - 1 = q * 400 + c := by omega
    have : (((month - 9).toNat : Nat) : Int) + 9 = month := by omega
    rw [this, hback, hcycle.1, hcycle.2]
    omega

theorem day_of_month {y : Int} (hlow : 0 ≤ y) (hhigh : y ≤ 365) :
    let month := (5 * y + 2) / 153
    let day := y - (153 * month + 2) / 5 + 1
    1 ≤ day ∧ day ≤ 31 ∧ (month = 1 ∨ month = 3 ∨ month = 6 ∨ month = 8 → day ≤ 30) ∧
      (month = 11 → day ≤ 29 ∧ (day = 29 → y = 365)) := by
  intro month day
  refine ⟨by omega, by omega, ?_, by omega⟩
  rintro (h | h | h | h) <;> omega

theorem isLeap_of_last {q k j m : Int} (hj : 0 ≤ j ∧ j ≤ 24) (hm : m = 3) (hlast : j ≤ 23 ∨ k = 3) :
    isLeap (q * 400 + (100 * k + 4 * j + m) + 1) = true := by
  have hfour : (q * 400 + (100 * k + 4 * j + m) + 1) % 4 = 0 := by omega
  have hcentury : (q * 400 + (100 * k + 4 * j + m) + 1) % 100 ≠ 0 ∨
      (q * 400 + (100 * k + 4 * j + m) + 1) % 400 = 0 := by omega
  simp only [isLeap, hfour]
  rcases hcentury with h | h <;> simp [h]

theorem isValid_of_month {year month day : Int} (hmonth : 0 ≤ month ∧ month ≤ 11) (hday : 1 ≤ day ∧ day ≤ 31)
    (hshort : month = 1 ∨ month = 3 ∨ month = 6 ∨ month = 8 → day ≤ 30)
    (hfebruary : month = 11 → day ≤ 29 ∧ (day = 29 → isLeap (year + 1) = true))
    (hyear : month < 10 → firstYear ≤ year ∧ year ≤ lastYear)
    (hnext : 10 ≤ month → firstYear ≤ year + 1 ∧ year + 1 ≤ lastYear) :
    (Date.mk (if month < 10 then year else year + 1) (if month < 10 then month + 3 else month - 9).toNat
      day.toNat).isValid = true := by
  simp only [Date.isValid, Bool.and_eq_true, decide_eq_true_eq]
  by_cases hlate : month < 10
  · obtain ⟨hlow, hhigh⟩ := hyear hlate
    simp only [hlate, if_true]
    refine ⟨⟨⟨⟨⟨hlow, hhigh⟩, by omega⟩, by omega⟩, by omega⟩, ?_⟩
    have hnotFebruary : (month + 3).toNat ≠ 2 := by omega
    simp only [monthLength, hnotFebruary, if_false]
    split <;> omega
  · obtain ⟨hlow, hhigh⟩ := hnext (by omega)
    simp only [hlate, if_false]
    refine ⟨⟨⟨⟨⟨hlow, hhigh⟩, by omega⟩, by omega⟩, by omega⟩, ?_⟩
    by_cases hlast : month = 11
    · obtain ⟨hlength, hleap⟩ := hfebruary hlast
      have hnumber : (month - 9).toNat = 2 := by omega
      simp only [monthLength, hnumber, if_true]
      by_cases h29 : day = 29
      · simp [hleap h29, h29]
      · split <;> omega
    · have hnotFebruary : (month - 9).toNat ≠ 2 := by omega
      simp only [monthLength, hnotFebruary, if_false]
      split <;> omega

def firstDay : Int := (Date.mk firstYear 1 1).toDays

def lastDay : Int := (Date.mk lastYear 12 31).toDays

theorem ofDays_isValid {n : Int} (hlow : firstDay ≤ n) (hhigh : n ≤ lastDay) :
    (Date.ofDays n).isValid = true := by
  obtain ⟨q, hq⟩ : ∃ q, q = (n + epochShift) / daysPerCycle := ⟨_, rfl⟩
  obtain ⟨k, j, m, y, h⟩ := exists_cycleParts ((n + epochShift) % daysPerCycle)
    (Int.emod_nonneg _ (by decide)) (Int.emod_lt_of_pos _ (by decide))
  rw [ofDays_eq hq h]
  obtain ⟨hday, hk, hj, hm, hy, hlast⟩ := h
  obtain ⟨hmlow, hmhigh, -⟩ := month_of_day hy (by omega)
  obtain ⟨hdlow, hdhigh, hshort, hfebruary⟩ := day_of_month hy (by omega)
  have hbounds : firstDay = -96465292 ∧ lastDay = 95026236 := by decide
  simp only [daysPerCycle, epochShift, hbounds] at hq hday hlow hhigh
  refine isValid_of_month ⟨hmlow, hmhigh⟩ ⟨hdlow, hdhigh⟩ hshort ?_ ?_ ?_
  · intro hmonth
    obtain ⟨hlength, h365⟩ := hfebruary hmonth
    refine ⟨hlength, fun h29 => ?_⟩
    have := h365 h29
    exact isLeap_of_last hj (by omega) (by omega)
  · intro hmonth
    simp only [firstYear, lastYear]
    omega
  · intro hmonth
    have hbefore : q ≤ 654 ∨ q = 655 ∧ (k = 0 ∨ k = 1 ∧ j ≤ 10) := by omega
    simp only [firstYear, lastYear]
    omega

theorem bounds_of_year {n : Int} (hfirst : 0 ≤ (Date.ofDays n).year) (hlast : (Date.ofDays n).year ≤ 9999) :
    firstDay ≤ n ∧ n ≤ lastDay := by
  obtain ⟨q, hq⟩ : ∃ q, q = (n + epochShift) / daysPerCycle := ⟨_, rfl⟩
  obtain ⟨k, j, m, y, h⟩ := exists_cycleParts ((n + epochShift) % daysPerCycle)
    (Int.emod_nonneg _ (by decide)) (Int.emod_lt_of_pos _ (by decide))
  rw [ofDays_eq hq h] at hfirst hlast
  obtain ⟨-, hk, hj, hm, -⟩ := h
  have hbounds : firstDay = -96465292 ∧ lastDay = 95026236 := by decide
  have hyear : -1 ≤ q * 400 + (100 * k + 4 * j + m) ∧ q * 400 + (100 * k + 4 * j + m) ≤ 9999 := by
    simp only at hfirst hlast
    split at hfirst <;> split at hlast <;> omega
  simp only [daysPerCycle, epochShift] at hq
  omega

end OrderDepot.Time
