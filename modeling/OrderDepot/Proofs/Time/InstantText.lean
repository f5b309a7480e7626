import Mathlib.Algebra.Ring.Nat
import OrderDepot.Proofs.Except
import OrderDepot.Proofs.Text.Numeral
import OrderDepot.Proofs.Time.Calendar
import OrderDepot.Time.InstantReader

/-!
# The text of an instant reads back

Every number of the text is written in digits alone and has a sign, a separator or the end behind it, so each
step of reading takes exactly what was written. The instants for which this holds are those that reading gives.
-/

namespace OrderDepot.Time

open OrderDepot.Text (trimStart digit? digit?_of_isDigit digit?_lt isSpace)

theorem isSpace_of_isDigit {c : Char} (h : c.isDigit = true) : isSpace c = false := by
  obtain ⟨hlow, hhigh⟩ := Text.isDigit_bounds h
  simp [isSpace, Text.spaceRanges]
  omega

theorem trimStart_cons {c : Char} {s : List Char} (h : isSpace c = false) : trimStart (c :: s) = c :: s := by
  simp [trimStart, h]

theorem digitsValue_eq {ds : List Char} (h : ∀ c ∈ ds, c.isDigit = true) :
    digitsValue ds = Nat.ofDigitChars 10 ds 0 := by
  have hfold : ∀ n, ds.foldl (fun n c => n * 10 + (digit? c).getD 0) n = Nat.ofDigitChars 10 ds n := by
    induction ds with
    | nil => simp
    | cons c ds ih =>
      intro n
      have hc := digit?_of_isDigit (h c List.mem_cons_self)
      rw [List.foldl_cons, Nat.ofDigitChars_cons, ih fun c hc => h c (List.mem_cons_of_mem _ hc), hc]
      simp [Nat.mul_comm]
  exact hfold 0

theorem padded_isDigit (width n : Nat) : ∀ c ∈ padded width n, c.isDigit = true := by
  intro c hc
  simp only [padded, List.mem_append, List.mem_replicate] at hc
  rcases hc with ⟨-, rfl⟩ | hc
  · rfl
  · exact Nat.isDigit_of_mem_toDigits (by decide) (by decide) hc

theorem padded_value (width n : Nat) : digitsValue (padded width n) = n := by
  rw [digitsValue_eq (padded_isDigit width n), padded, Nat.ofDigitChars_append]
  simp

theorem padded_length (width n : Nat) (hwidth : 0 < width) (h : n < 10 ^ width) :
    (padded width n).length = width := by
  have hdigits := (Nat.length_toDigits_le_iff (b := 10) (by decide) hwidth).2 h
  simp only [padded, List.length_append, List.length_replicate]
  omega

theorem padded_eq_cons (width n : Nat) : ∃ c cs, padded width n = c :: cs ∧ c.isDigit = true := by
  cases h : padded width n with
  | nil =>
    simp only [padded, List.append_eq_nil_iff] at h
    exact absurd h.2 Nat.toDigits_ne_nil
  | cons c cs => exact ⟨c, cs, rfl, padded_isDigit width n c (h ▸ List.mem_cons_self)⟩

theorem trimStart_padded (width n : Nat) (rest : List Char) :
    trimStart (padded width n ++ rest) = padded width n ++ rest := by
  obtain ⟨c, cs, hpadded, hc⟩ := padded_eq_cons width n
  rw [hpadded]
  exact trimStart_cons (isSpace_of_isDigit hc)

theorem takeWhile_digits {ds rest : List Char} (h : ∀ c ∈ ds, c.isDigit = true)
    (hrest : ∀ c, rest.head? = some c → digit? c = none) :
    (ds ++ rest).takeWhile (fun c => (digit? c).isSome) = ds := by
  rw [List.takeWhile_append_of_pos fun c hc => by simp [digit?_of_isDigit (h c hc)]]
  cases rest with
  | nil => simp
  | cons c rest => simp [hrest c rfl]

theorem numberIn_padded {width n : Nat} {window rest : List Char}
    (hwindow : window.takeWhile (fun c => (digit? c).isSome) = padded width n)
    (hn : n ≤ Int64.maxValue.toInt.toNat) :
    numberIn window (padded width n ++ rest) = .ok (n, rest) := by
  obtain ⟨c, cs, hpadded, -⟩ := padded_eq_cons width n
  have hempty : (padded width n ++ rest).isEmpty = false := by simp [hpadded]
  have hdigits : (padded width n).isEmpty = false := by simp [hpadded]
  simp only [numberIn, hwindow, hempty, hdigits, padded_value, hn, Bool.false_eq_true, if_false, if_true,
    List.drop_left]

theorem number_padded (width n : Nat) (hwidth : 0 < width) (h : n < 10 ^ width)
    (hn : n ≤ Int64.maxValue.toInt.toNat) (rest : List Char) :
    number width (padded width n ++ rest) = .ok (n, rest) := by
  refine numberIn_padded ?_ hn
  have htake : (padded width n ++ rest).take width = padded width n ++ [] := by
    have hlength := padded_length width n hwidth h
    rw [List.take_append_of_le_length (Nat.le_of_eq hlength.symm), List.append_nil,
      List.take_of_length_le (Nat.le_of_eq hlength)]
  rw [htake]
  exact takeWhile_digits (padded_isDigit width n) (by simp)

theorem longNumber_padded (width n : Nat) {rest : List Char} (hn : n ≤ Int64.maxValue.toInt.toNat)
    (hrest : ∀ c, rest.head? = some c → digit? c = none) :
    longNumber (padded width n ++ rest) = .ok (n, rest) :=
  numberIn_padded (takeWhile_digits (padded_isDigit width n) hrest) hn

theorem field_padded {low high n : Nat} (hlow : low ≤ n) (hhigh : n ≤ high) (h : n < 100) (rest : List Char) :
    field low high (padded 2 n ++ rest) = .ok (n, rest) := by
  have hn := number_padded 2 n (by decide) h (Nat.le_trans (Nat.le_of_lt h) (by decide)) rest
  simp only [field, trimStart_padded, hn, bind, Except.bind, hlow, hhigh, and_self, if_true]
  rfl

theorem separator_cons (c : Char) (h : isSpace c = false) (rest : List Char) :
    separator c (c :: rest) = .ok rest := by
  simp only [separator, trimStart_cons h, if_true]

theorem yearField_plain {n : Nat} (h : n < 10000) (rest : List Char) :
    yearField (padded 4 n ++ rest) = .ok ((n : Int), rest) := by
  have hnumber := number_padded 4 n (by decide) h (Nat.le_trans (Nat.le_of_lt h) (by decide)) rest
  have hrange : Int32.minValue.toInt ≤ (n : Int) ∧ (n : Int) ≤ Int32.maxValue.toInt := by
    have : Int32.minValue.toInt = -2147483648 ∧ Int32.maxValue.toInt = 2147483647 := by decide
    omega
  have htrim := trimStart_padded 4 n rest
  obtain ⟨c, cs, hpadded, hc⟩ := padded_eq_cons 4 n
  rw [hpadded, List.cons_append] at hnumber htrim ⊢
  have hminus : c ≠ '-' := by
    rintro rfl
    cases hc
  have hplus : c ≠ '+' := by
    rintro rfl
    cases hc
  simp only [yearField, htrim]
  split
  · next heq => exact absurd (List.cons.inj heq).1 hminus
  · next heq => exact absurd (List.cons.inj heq).1 hplus
  · simp only [hnumber, bind, Except.bind, pure, Except.pure, hrange, and_self, if_true]

theorem yearField_signed (n : Nat) (h : n ≤ Int32.maxValue.toInt.toNat) {rest : List Char}
    (hrest : ∀ c, rest.head? = some c → digit? c = none) (negative : Bool) :
    yearField ((if negative then '-' else '+') :: padded 4 n ++ rest) =
      .ok (if negative then -(n : Int) else n, rest) := by
  have hnumber := longNumber_padded 4 n (Nat.le_trans h (by decide)) hrest
  have hmax : Int32.minValue.toInt = -2147483648 ∧ Int32.maxValue.toInt = 2147483647 ∧
      Int32.maxValue.toInt.toNat = 2147483647 := by decide
  have hplus : Int32.minValue.toInt ≤ (n : Int) ∧ (n : Int) ≤ Int32.maxValue.toInt := by omega
  have hminus : Int32.minValue.toInt ≤ -(n : Int) ∧ -(n : Int) ≤ Int32.maxValue.toInt := by omega
  cases negative with
  | false =>
    have htrim : trimStart ('+' :: (padded 4 n ++ rest)) = '+' :: (padded 4 n ++ rest) :=
      trimStart_cons (by decide)
    simp only [Bool.false_eq_true, if_false, List.cons_append, yearField, htrim, hnumber, bind, Except.bind,
      pure, Except.pure, hplus, and_self, if_true]
  | true =>
    have htrim : trimStart ('-' :: (padded 4 n ++ rest)) = '-' :: (padded 4 n ++ rest) :=
      trimStart_cons (by decide)
    simp only [if_true, List.cons_append, yearField, htrim, hnumber, bind, Except.bind,
      pure, Except.pure, hminus, and_self]

theorem yearField_yearChars {year : Int} (hlow : firstYear ≤ year) (hhigh : year ≤ lastYear)
    (rest : List Char) (hrest : ∀ c, rest.head? = some c → digit? c = none) :
    yearField (yearChars year ++ rest) = .ok (year, rest) := by
  simp only [firstYear, lastYear] at hlow hhigh
  have hmax : Int32.maxValue.toInt.toNat = 2147483647 := by decide
  unfold yearChars
  split
  · next hplain =>
    rw [yearField_plain (by omega)]
    congr 2
    omega
  · next hsigned =>
    have hread := yearField_signed year.natAbs (by omega) hrest (decide (year < 0))
    simp only [decide_eq_true_eq] at hread
    rw [hread]
    congr 2
    split <;> omega

theorem fraction_padded (width n : Nat) (hwidth : 0 < width) (hnine : width ≤ 9) (h : n < 10 ^ width)
    {rest : List Char} (hrest : ∀ c, rest.head? = some c → digit? c = none) :
    fraction ('.' :: padded width n ++ rest) = .ok (n * 10 ^ (9 - width), rest) := by
  have hlength := padded_length width n hwidth h
  have hmax : n ≤ Int64.maxValue.toInt.toNat := by
    have : 10 ^ width ≤ 10 ^ 9 := Nat.pow_le_pow_right (by decide) hnine
    have : Int64.maxValue.toInt.toNat = 9223372036854775807 := by decide
    omega
  have hwindow : ((padded width n ++ rest).take 9).takeWhile (fun c => (digit? c).isSome) =
      padded width n := by
    rw [List.take_append, List.take_of_length_le (by omega)]
    refine takeWhile_digits (padded_isDigit width n) fun c hc => hrest c ?_
    cases rest with
    | nil => simp at hc
    | cons d rest =>
      cases hleft : 9 - (padded width n).length with
      | zero => simp [hleft] at hc
      | succ k => simpa [hleft] using hc
  have hnumber : number 9 (padded width n ++ rest) = .ok (n, rest) := numberIn_padded hwindow hmax
  have hread : (padded width n ++ rest).length - rest.length = width := by
    rw [List.length_append]
    omega
  have hdrop : rest.dropWhile (fun c => (digit? c).isSome) = rest := by
    cases rest with
    | nil => rfl
    | cons c rest => simp [hrest c rfl]
  simp only [List.cons_append, fraction, hnumber, bind, Except.bind, hread, hdrop]
  rfl

theorem fraction_fractionChars {n : Nat} (h : n < 1000000000) (rest : List Char)
    (hrest : ∀ c, rest.head? = some c → digit? c = none ∧ c ≠ '.') :
    fraction (fractionChars n ++ rest) = .ok (n, rest) := by
  have hdigit : ∀ c, rest.head? = some c → digit? c = none := fun c hc => (hrest c hc).1
  unfold fractionChars
  split
  · next hzero =>
    subst hzero
    cases rest with
    | nil => rfl
    | cons c rest =>
      have hpoint := (hrest c rfl).2
      simp only [List.nil_append, fraction]
      split
      · next heq => exact absurd (List.cons.inj heq).1 hpoint
      · rfl
  · split
    · rw [fraction_padded _ _ (by decide) (by decide) (by omega) hdigit]
      congr 2
      omega
    · split
      · rw [fraction_padded _ _ (by decide) (by decide) (by omega) hdigit]
        congr 2
        omega
      · rw [fraction_padded _ _ (by decide) (by decide) (by omega) hdigit]
        simp

theorem read_written {d : Date} (hdate : d.isValid = true) (hour minute second nanos : Nat) (hhour : hour ≤ 23)
    (hminute : minute ≤ 59) (hsecond : second ≤ 60) (hnanos : nanos < 1000000000) :
    LocalTime.read (yearChars d.year ++ '-' :: (padded 2 d.month ++ '-' :: (padded 2 d.day ++
      'T' :: (padded 2 hour ++ ':' :: (padded 2 minute ++ ':' :: (padded 2 second ++
        (fractionChars nanos ++ ['Z']))))))) = .ok ⟨d, hour, minute, second, nanos, 0⟩ := by
  simp only [Date.isValid, Bool.and_eq_true, decide_eq_true_eq] at hdate
  obtain ⟨⟨⟨⟨⟨hyearLow, hyearHigh⟩, hmonthLow⟩, hmonthHigh⟩, hdayLow⟩, hday⟩ := hdate
  have hdayHigh : d.day ≤ 31 := by
    refine Nat.le_trans hday ?_
    simp only [monthLength]
    split
    · split <;> omega
    · split <;> omega
  have hyear := yearField_yearChars hyearLow hyearHigh ('-' :: (padded 2 d.month ++
    '-' :: (padded 2 d.day ++ 'T' :: (padded 2 hour ++ ':' :: (padded 2 minute ++ ':' :: (padded 2 second ++
      (fractionChars nanos ++ ['Z']))))))) (by simp [digit?])
  have hmonth := fun rest => field_padded hmonthLow hmonthHigh (by omega) rest
  have hdayRead := fun rest => field_padded hdayLow hdayHigh (by omega) rest
  have hhourRead := fun rest => field_padded (Nat.zero_le hour) hhour (by omega) rest
  have hminuteRead := fun rest => field_padded (Nat.zero_le minute) hminute (by omega) rest
  have hsecondRead := fun rest => field_padded (Nat.zero_le second) hsecond (by omega) rest
  have hfraction := fraction_fractionChars hnanos ['Z'] (by simp [digit?])
  have hminus := fun rest => separator_cons '-' (by decide) rest
  have hcolon := fun rest => separator_cons ':' (by decide) rest
  have hdateEnd : ∀ rest, dateEnd ('T' :: rest) = .ok rest := fun rest => rfl
  have hzone : zone (trimStart ['Z']) = .ok (0, []) := rfl
  simp only [LocalTime.read, hyear, bind, Except.bind, hminus, hmonth, hdayRead, hdateEnd, hhourRead, hcolon,
    hminuteRead, hsecondRead, hfraction, hzone]
  rfl

theorem instant_eq {d : Date} (hd : d.isValid = true) (hour minute second nanos : Nat) {seconds : Int}
    (hfirst : firstSecond ≤ seconds) (hlast : seconds ≤ lastSecond)
    (hs : seconds = d.toDays * secondsPerDay +
      (hour * 3600 + minute * 60 + (if second = 60 then 59 else second : Nat) : Int)) :
    LocalTime.instant ⟨d, hour, minute, second, nanos, 0⟩ =
      .ok ⟨seconds, if second = 60 then nanos + 1000000000 else nanos⟩ := by
  have hzero : ¬ secondsPerDay ≤ ((0 : Int).natAbs : Int) := by decide
  have hseconds : d.toDays * secondsPerDay + ((hour : Int) * 3600 + minute * 60 +
      ((if second = 60 then 59 else second : Nat) : Int)) - 0 = seconds := by
    omega
  simp only [LocalTime.instant, hd, Bool.not_true, Bool.false_eq_true, if_false, hzero]
  rw [hseconds, if_pos ⟨hfirst, hlast⟩]

/-- What a text that is read can give: a time that can be written down, and a leap second only behind the last
second of a minute. -/
structure Instant.Writable (t : Instant) : Prop where
  first : firstSecond ≤ t.seconds
  last : t.seconds ≤ lastSecond
  nanos : t.nanos < 1000000000 ∨ t.nanos < 2000000000 ∧ t.seconds % 60 = 59

theorem Instant.Writable.read_text {t : Instant} (h : t.Writable) : Instant.read t.text = .ok t := by
  obtain ⟨seconds, nanos⟩ := t
  obtain ⟨hfirst, hlast, hnanos⟩ := h
  simp only at hfirst hlast hnanos
  have hlow : firstDay * 86400 ≤ seconds := hfirst
  have hhigh : seconds ≤ lastDay * 86400 + 86399 := hlast
  obtain ⟨time, htime⟩ : ∃ time, time = (seconds % 86400).toNat := ⟨_, rfl⟩
  have hvalid := ofDays_isValid (n := seconds / 86400) (by omega) (by omega)
  have hdays := toDays_ofDays (seconds / 86400)
  have hread := read_written hvalid (time / 3600) (time / 60 % 60) (time % 60 + nanos / 1000000000)
    (nanos % 1000000000) (by omega) (by omega) (by omega) (by omega)
  have hchars : (Instant.mk seconds nanos).text.toList = yearChars (Date.ofDays (seconds / 86400)).year ++
      '-' :: (padded 2 (Date.ofDays (seconds / 86400)).month ++ '-' ::
        (padded 2 (Date.ofDays (seconds / 86400)).day ++ 'T' :: (padded 2 (time / 3600) ++ ':' ::
          (padded 2 (time / 60 % 60) ++ ':' :: (padded 2 (time % 60 + nanos / 1000000000) ++
            (fractionChars (nanos % 1000000000) ++ ['Z'])))))) := by
    simp only [Instant.text, String.toList_ofList, Instant.chars, secondsPerDay, ← htime, List.append_assoc,
      List.cons_append]
  have hsecond : time % 60 + nanos / 1000000000 = 60 ↔ 1000000000 ≤ nanos := by omega
  have hseconds : seconds = (Date.ofDays (seconds / 86400)).toDays * secondsPerDay +
      ((time / 3600 : Nat) * 3600 + (time / 60 % 60 : Nat) * 60 +
        (if time % 60 + nanos / 1000000000 = 60 then 59 else time % 60 + nanos / 1000000000 : Nat) : Int) := by
    rw [hdays, secondsPerDay]
    split <;> omega
  have hinstant := instant_eq hvalid (time / 3600) (time / 60 % 60)
    (time % 60 + nanos / 1000000000) (nanos % 1000000000) hfirst hlast hseconds
  have hleap : (if time % 60 + nanos / 1000000000 = 60 then nanos % 1000000000 + 1000000000
      else nanos % 1000000000) = nanos := by
    split <;> omega
  rw [Instant.read, hchars, hread]
  simp only [bind, Except.bind, hinstant, hleap]

theorem digitsValue_lt (ds : List Char) : digitsValue ds < 10 ^ ds.length := by
  have hfold : ∀ n, ds.foldl (fun n c => n * 10 + (digit? c).getD 0) n < (n + 1) * 10 ^ ds.length := by
    induction ds with
    | nil =>
      intro n
      simp
    | cons c ds ih =>
      intro n
      have hc := digit?_lt c
      have hle : (n * 10 + (digit? c).getD 0 + 1) * 10 ^ ds.length ≤ (n + 1) * 10 * 10 ^ ds.length :=
        Nat.mul_le_mul_right _ (by omega)
      rw [List.foldl_cons, List.length_cons, Nat.pow_succ, Nat.mul_comm (10 ^ ds.length), ← Nat.mul_assoc]
      exact Nat.lt_of_lt_of_le (ih _) hle
  simpa [digitsValue] using hfold 0

theorem numberIn_lt {window s rest : List Char} {n : Nat} (h : numberIn window s = .ok (n, rest)) :
    ∃ ds : List Char, ds.length ≤ window.length ∧ n < 10 ^ ds.length ∧ rest = s.drop ds.length := by
  simp only [numberIn] at h
  split at h
  · cases h
  · split at h
    · cases h
    · split at h
      · cases h
        exact ⟨_, (List.takeWhile_sublist _).length_le, digitsValue_lt _, rfl⟩
      · cases h

theorem fraction_lt {s rest : List Char} {n : Nat} (h : fraction s = .ok (n, rest)) : n < 1000000000 := by
  unfold fraction at h
  split at h
  · next s =>
    obtain ⟨⟨m, rest⟩, hm, h⟩ := bind_eq_ok h
    obtain ⟨ds, hlength, hlt, rfl⟩ := numberIn_lt hm
    rw [List.length_take] at hlength
    have hread : s.length - (s.drop ds.length).length = ds.length := by
      rw [List.length_drop]
      omega
    simp only [hread] at h
    cases h
    calc m * 10 ^ (9 - ds.length) < 10 ^ ds.length * 10 ^ (9 - ds.length) :=
          Nat.mul_lt_mul_of_pos_right hlt (Nat.pow_pos (by decide))
      _ = 10 ^ 9 := by rw [← Nat.pow_add]; congr 1; omega
  · cases h
    decide

theorem zoneSize_mod {s rest : List Char} {n : Nat} (h : zoneSize s = .ok (n, rest)) : n % 60 = 0 := by
  obtain ⟨⟨a, b, s⟩, -, h⟩ := bind_eq_ok h
  obtain ⟨⟨c, d, s⟩, -, h⟩ := bind_eq_ok h
  simp only at h
  split at h
  · cases h
  · cases h
    omega

theorem zone_mod {s rest : List Char} {ahead : Int} (h : zone s = .ok (ahead, rest)) : ahead % 60 = 0 := by
  unfold zone at h
  split at h
  · cases h
  · split at h
    · cases h
      rfl
    · split at h
      · cases h
        rfl
      · split at h
        · obtain ⟨⟨n, s⟩, hn, h⟩ := bind_eq_ok h
          have := zoneSize_mod hn
          cases h
          omega
        · split at h
          · obtain ⟨⟨n, s⟩, hn, h⟩ := bind_eq_ok h
            have := zoneSize_mod hn
            cases h
            omega
          · cases h

theorem read_localTime {s : List Char} {t : LocalTime} (h : LocalTime.read s = .ok t) :
    t.nanos < 1000000000 ∧ t.ahead % 60 = 0 := by
  obtain ⟨⟨year, s⟩, -, h⟩ := bind_eq_ok h
  obtain ⟨s, -, h⟩ := bind_eq_ok h
  obtain ⟨⟨month, s⟩, -, h⟩ := bind_eq_ok h
  obtain ⟨s, -, h⟩ := bind_eq_ok h
  obtain ⟨⟨day, s⟩, -, h⟩ := bind_eq_ok h
  obtain ⟨s, -, h⟩ := bind_eq_ok h
  obtain ⟨⟨hour, s⟩, -, h⟩ := bind_eq_ok h
  obtain ⟨s, -, h⟩ := bind_eq_ok h
  obtain ⟨⟨minute, s⟩, -, h⟩ := bind_eq_ok h
  obtain ⟨s, -, h⟩ := bind_eq_ok h
  obtain ⟨⟨second, s⟩, -, h⟩ := bind_eq_ok h
  obtain ⟨⟨nanos, s⟩, hn, h⟩ := bind_eq_ok h
  obtain ⟨⟨ahead, s⟩, ha, h⟩ := bind_eq_ok h
  simp only at h
  split at h
  · cases h
    exact ⟨fraction_lt hn, zone_mod ha⟩
  · cases h

theorem epoch_writable : Instant.epoch.Writable := by
  constructor <;> decide

theorem writable_of_read {s : String} {t : Instant} (h : Instant.read s = .ok t) : t.Writable := by
  obtain ⟨l, hl, h⟩ := bind_eq_ok h
  obtain ⟨hnanos, hahead⟩ := read_localTime hl
  by_cases hleap : l.second = 60
  · simp only [LocalTime.instant, hleap, if_true] at h
    split at h
    · cases h
    · split at h
      · cases h
      · split at h
        · next hrange =>
          cases h
          refine ⟨hrange.1, hrange.2, .inr ⟨by simp only; omega, ?_⟩⟩
          simp only [secondsPerDay]
          omega
        · cases h
  · simp only [LocalTime.instant, hleap, if_false] at h
    split at h
    · cases h
    · split at h
      · cases h
      · split at h
        · next hrange =>
          cases h
          exact ⟨hrange.1, hrange.2, .inl hnanos⟩
        · cases h

def Instant.year (t : Instant) : Int := (Date.ofDays (t.seconds / secondsPerDay)).year

/-- The nanoseconds go on behind a second only where a leap second can be, at the end of a minute. -/
def Instant.Counted (t : Instant) : Prop :=
  t.nanos < 1000000000 ∨ t.nanos < 2000000000 ∧ t.seconds % 60 = 59

theorem Instant.Counted.writable {t : Instant} (h : t.Counted) (hfirst : 0 ≤ t.year) (hlast : t.year ≤ 9999) :
    t.Writable := by
  obtain ⟨hlow, hhigh⟩ := bounds_of_year hfirst hlast
  simp only [secondsPerDay] at hlow hhigh
  have hfirstSecond : firstSecond = firstDay * 86400 := rfl
  have hlastSecond : lastSecond = lastDay * 86400 + 86399 := rfl
  exact ⟨by omega, by omega, h⟩

end OrderDepot.Time
