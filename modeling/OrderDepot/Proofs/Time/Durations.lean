import Mathlib.Data.List.DropRight
import OrderDepot.Proofs.Time.InstantText
import OrderDepot.Time.Duration

/-!
# Which texts are read as a duration

A number in front of a unit, with white space around each. What it comes to is exact: where 64 bits do not hold the
number, or the seconds it makes, nothing is read.
-/

namespace OrderDepot.Time

open Text (isSpace digit? trimStart trimEnd trimmed)

def White (w : List Char) : Prop := ∀ c ∈ w, isSpace c = true

theorem White.nil : White [] := fun _ h => nomatch h

theorem White.append {w v : List Char} (hw : White w) (hv : White v) : White (w ++ v) := fun c hc =>
  (List.mem_append.1 hc).elim (hw c) (hv c)

theorem trimStart_white {w : List Char} (hw : White w) (s : List Char) : trimStart (w ++ s) = trimStart s :=
  List.dropWhile_append_of_pos hw

theorem trimEnd_white {w : List Char} (hw : White w) : trimEnd w = [] :=
  (Text.trimEnd_eq_nil_iff w).2 hw

theorem trimEnd_append {a : List Char} (ha : trimEnd a = a) (b : List Char) : trimEnd (a ++ b) = a ++ trimEnd b := by
  have hback : a.reverse.dropWhile isSpace = a.reverse := List.reverse_eq_iff.1 ha
  rw [trimEnd, trimEnd, List.reverse_append, List.dropWhile_append, hback]
  split
  · next hempty => rw [List.isEmpty_iff.1 hempty, List.reverse_reverse, List.reverse_nil, List.append_nil]
  · rw [List.reverse_append, List.reverse_reverse]

theorem exists_trimmed (s : List Char) : ∃ lead tail, White lead ∧ White tail ∧ s = lead ++ (trimmed s ++ tail) := by
  refine ⟨s.takeWhile isSpace, (trimStart s).rtakeWhile isSpace, fun c hc => List.mem_takeWhile_imp hc,
    fun c hc => List.mem_rtakeWhile_imp hc, ?_⟩
  have hend : trimmed s ++ (trimStart s).rtakeWhile isSpace = trimStart s :=
    List.rdropWhile_append_rtakeWhile ..
  rw [hend]
  exact List.takeWhile_append_dropWhile.symm

theorem trimEnd_digits {ds : List Char} (h : ∀ c ∈ ds, c.isDigit = true) : trimEnd ds = ds :=
  List.rdropWhile_eq_self_iff.2 fun hne => by
    rw [isSpace_of_isDigit (h _ (List.getLast_mem hne))]
    exact Bool.false_ne_true

inductive TimeUnit where
  | unwritten
  | seconds
  | millis
  | minutes
  | hours
  deriving DecidableEq, Repr

namespace TimeUnit

def chars : TimeUnit → List Char
  | .unwritten => []
  | .seconds => ['s']
  | .millis => ['m', 's']
  | .minutes => ['m']
  | .hours => ['h']

def nanos : TimeUnit → Nat
  | .unwritten => 1000000000
  | .seconds => 1000000000
  | .millis => 1000000
  | .minutes => 60 * 1000000000
  | .hours => 3600 * 1000000000

/-- What one of the unit adds to the number that 64 bits have to hold, which is of milliseconds or of seconds. -/
def count : TimeUnit → Nat
  | .minutes => 60
  | .hours => 3600
  | _ => 1

theorem trimStart_chars (unit : TimeUnit) : trimStart unit.chars = unit.chars := by
  cases unit <;> decide

theorem trimEnd_chars (unit : TimeUnit) : trimEnd unit.chars = unit.chars := by
  cases unit <;> decide

theorem getLast_chars (unit : TimeUnit) (h : unit.chars ≠ []) : isSpace (unit.chars.getLast h) = false := by
  cases unit with
  | unwritten => exact absurd rfl h
  | seconds => rfl
  | millis => rfl
  | minutes => rfl
  | hours => rfl

theorem head_chars (unit : TimeUnit) : ∀ c, unit.chars.head? = some c → digit? c = none := by
  intro c hc
  cases unit with
  | unwritten => cases hc
  | seconds => cases hc; rfl
  | millis => cases hc; rfl
  | minutes => cases hc; rfl
  | hours => cases hc; rfl

end TimeUnit

/-- The text of `n` of a unit, with white space around the number and the unit. -/
inductive DurationText : List Char → Nat → TimeUnit → Prop where
  | intro {lead digits gap tail : List Char} (unit : TimeUnit) (hlead : White lead) (hne : digits ≠ [])
      (hdigits : ∀ c ∈ digits, c.isDigit = true) (hgap : White gap) (htail : White tail) :
      DurationText (lead ++ (digits ++ (gap ++ (unit.chars ++ tail)))) (Nat.ofDigitChars 10 digits 0) unit

theorem trimEnd_unit {gap tail : List Char} (hgap : White gap) (htail : White tail) (unit : TimeUnit) :
    ∃ between, White between ∧ trimEnd (gap ++ (unit.chars ++ tail)) = between ++ unit.chars := by
  by_cases hchars : unit.chars = []
  · refine ⟨[], White.nil, ?_⟩
    rw [hchars]
    exact trimEnd_white (hgap.append htail)
  · have hself : trimEnd (gap ++ unit.chars) = gap ++ unit.chars :=
      List.rdropWhile_eq_self_iff.2 fun hne => by
        rw [List.getLast_append_of_ne_nil hne hchars, unit.getLast_chars]
        exact Bool.false_ne_true
    refine ⟨gap, hgap, ?_⟩
    rw [← List.append_assoc, trimEnd_append hself, trimEnd_white htail, List.append_nil]

theorem head_between {between : List Char} (h : White between) (unit : TimeUnit) :
    ∀ c, (between ++ unit.chars).head? = some c → digit? c = none := by
  intro c hc
  cases between with
  | nil => exact unit.head_chars c hc
  | cons b between =>
    cases hc
    have hspace := h c List.mem_cons_self
    cases hdigit : c.isDigit with
    | true => exact absurd (isSpace_of_isDigit hdigit) (by rw [hspace]; decide)
    | false => rw [← Option.not_isSome_iff_eq_none, Text.isSome_digit?, hdigit]; decide

theorem read_text {s : String} {n : Nat} {unit : TimeUnit} (h : DurationText s.toList n unit) :
    Duration.read s =
      if n ≤ largestCount then
        if n * unit.count ≤ largestCount then .ok ⟨n * unit.nanos⟩
        else .error (.tooLarge (Text.trim s))
      else .error (.notWhole (Text.trim s)) := by
  generalize hs : s.toList = text at h
  cases h with
  | @intro lead digits gap tail _ hlead hne hdigits hgap htail =>
  obtain ⟨between, hbetween, hend⟩ := trimEnd_unit hgap htail unit
  have htrimmed : trimmed s.toList = digits ++ (between ++ unit.chars) := by
    have hstart : trimStart (digits ++ (gap ++ (unit.chars ++ tail))) = digits ++ (gap ++ (unit.chars ++ tail)) := by
      cases digits with
      | nil => exact absurd rfl hne
      | cons c digits => exact trimStart_cons (isSpace_of_isDigit (hdigits c List.mem_cons_self))
    rw [hs, trimmed, trimStart_white hlead, hstart, trimEnd_append (trimEnd_digits hdigits), hend]
  have hunit : trimmed (between ++ unit.chars) = unit.chars := by
    rw [trimmed, trimStart_white hbetween, unit.trimStart_chars, unit.trimEnd_chars]
  simp only [Duration.read, Text.trim, htrimmed, takeWhile_digits hdigits (head_between hbetween unit),
    List.drop_left, hunit, Text.readUnsigned_digits hne hdigits]
  generalize Nat.ofDigitChars 10 digits 0 = n
  by_cases hfits : n ≤ largestCount
  · simp only [if_pos hfits]
    cases unit with
    | unwritten => simp [TimeUnit.chars, TimeUnit.count, TimeUnit.nanos, Duration.ofSeconds, Duration.perSecond]
    | seconds => simp [TimeUnit.chars, TimeUnit.count, TimeUnit.nanos, Duration.ofSeconds, Duration.perSecond]
    | millis => simp [TimeUnit.chars, TimeUnit.count, TimeUnit.nanos, Duration.ofMillis, hfits]
    | minutes =>
      simp [TimeUnit.chars, TimeUnit.count, TimeUnit.nanos, Duration.ofSeconds, Duration.perSecond, Nat.mul_assoc]
    | hours =>
      simp [TimeUnit.chars, TimeUnit.count, TimeUnit.nanos, Duration.ofSeconds, Duration.perSecond, Nat.mul_assoc]
  · simp only [if_neg hfits]

theorem text_of_read {s : String} {d : Duration} (h : Duration.read s = .ok d) :
    ∃ n unit, DurationText s.toList n unit := by
  obtain ⟨lead, tail, hlead, htail, hs⟩ := exists_trimmed s.toList
  simp only [Duration.read] at h
  generalize trimmed s.toList = text at hs h
  generalize hdigits : text.takeWhile (fun c => (digit? c).isSome) = digits at h
  have hsplit : digits ++ text.drop digits.length = text :=
    List.prefix_iff_eq_append.1 (hdigits ▸ List.takeWhile_prefix _)
  have hall : ∀ c ∈ digits, c.isDigit = true := by
    intro c hc
    rw [← hdigits] at hc
    have hdigit := List.mem_takeWhile_imp hc
    rwa [Text.isSome_digit?] at hdigit
  have hne : digits ≠ [] := by
    rintro rfl
    cases h
  obtain ⟨gap, between, hgap, hbetween, hrest⟩ := exists_trimmed (text.drop digits.length)
  generalize trimmed (text.drop digits.length) = written at hrest h
  have hunit : ∃ unit : TimeUnit, written = unit.chars := by
    have hwritten : ∀ t, String.ofList written = t → written = t.toList := fun t ht => by
      rw [← ht, String.toList_ofList]
    split at h
    · cases h
    · split at h
      · next hms => exact ⟨.millis, hwritten _ hms⟩
      · split at h
        · next hs => exact hs.elim (fun hs => ⟨.unwritten, hwritten _ hs⟩) fun hs => ⟨.seconds, hwritten _ hs⟩
        · split at h
          · next hm => exact ⟨.minutes, hwritten _ hm⟩
          · split at h
            · next hh => exact ⟨.hours, hwritten _ hh⟩
            · cases h
  obtain ⟨unit, rfl⟩ := hunit
  refine ⟨Nat.ofDigitChars 10 digits 0, unit, ?_⟩
  have htext : s.toList = lead ++ (digits ++ (gap ++ (unit.chars ++ (between ++ tail)))) := by
    rw [hs, ← hsplit, hrest]
    simp only [List.append_assoc]
  rw [htext]
  exact .intro unit hlead hne hall hgap (hbetween.append htail)

theorem nanos_le_longest {n : Nat} {unit : TimeUnit} (h : n * unit.count ≤ largestCount) :
    n * unit.nanos ≤ Duration.longest.nanos := by
  have hnanos : unit.nanos ≤ unit.count * Duration.perSecond := by
    cases unit <;> decide
  calc n * unit.nanos ≤ n * unit.count * Duration.perSecond := by
        rw [Nat.mul_assoc]
        exact Nat.mul_le_mul_left n hnanos
    _ ≤ largestCount * Duration.perSecond := Nat.mul_le_mul_right _ h
    _ ≤ Duration.longest.nanos := by decide +kernel

/-- A text is read exactly when it is one of a duration whose number, and whose seconds, 64 bits can hold; what is read
is then what the text says, and no more than the longest duration. -/
theorem duration_read_exactly (s : String) :
    (∀ d, Duration.read s = .ok d ↔
      ∃ n unit, DurationText s.toList n unit ∧ n < 2 ^ 64 ∧ n * unit.count < 2 ^ 64 ∧ d = ⟨n * unit.nanos⟩) ∧
    ∀ d, Duration.read s = .ok d → d.nanos ≤ Duration.longest.nanos := by
  have hlargest : ∀ n, n ≤ largestCount ↔ n < 2 ^ 64 := fun n => by
    have hvalue : largestCount = 2 ^ 64 - 1 := rfl
    omega
  have hexact : ∀ d, Duration.read s = .ok d ↔
      ∃ n unit, DurationText s.toList n unit ∧ n < 2 ^ 64 ∧ n * unit.count < 2 ^ 64 ∧ d = ⟨n * unit.nanos⟩ := by
    intro d
    simp only [← hlargest]
    constructor
    · intro h
      obtain ⟨n, unit, htext⟩ := text_of_read h
      rw [read_text htext] at h
      split at h
      · next hn =>
        split at h
        · next hcount =>
          cases h
          exact ⟨n, unit, htext, hn, hcount, rfl⟩
        · cases h
      · cases h
    · rintro ⟨n, unit, htext, hn, hcount, rfl⟩
      rw [read_text htext, if_pos hn, if_pos hcount]
  refine ⟨hexact, fun d h => ?_⟩
  obtain ⟨n, unit, -, -, hcount, rfl⟩ := (hexact d).1 h
  exact nanos_le_longest ((hlargest _).2 hcount)

theorem hours_read_up_to_the_limit :
    Duration.read "\u00a05124095576030431 h" = .ok ⟨5124095576030431 * (3600 * 1000000000)⟩ ∧
      5124095576030431 * (3600 * 1000000000) ≤ Duration.longest.nanos := by
  have hread : Duration.read "\u00a05124095576030431 h" = .ok ⟨5124095576030431 * (3600 * 1000000000)⟩ := by
    decide +kernel
  exact ⟨hread, (duration_read_exactly _).2 _ hread⟩

end OrderDepot.Time
