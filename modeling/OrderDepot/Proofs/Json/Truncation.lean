import Mathlib.Data.List.TakeWhile
import OrderDepot.Proofs.Json.Exact

/-!
# Documents that are cut short

A reader that takes a value off some bytes is run on the first of them alone. It either runs out of input or takes the
same value, and leaves what it left of them before. Only an integer may be cut into another one, behind which nothing
is left; whatever has to follow it is then missing.
-/

namespace OrderDepot.Json

variable {α β : Type}

/-- The computation ends for want of input, or with a result that has the property. -/
def ShortOr (P : α → Prop) : Except Fault α → Prop
  | .error f => f.cause.category = .truncated
  | .ok a => P a

theorem ShortOr.bind {x : Except Fault α} {k : α → Except Fault β} {P : α → Prop} {Q : β → Prop} (h : ShortOr P x)
    (hk : ∀ a, P a → ShortOr Q (k a)) : ShortOr Q (x >>= k) := by
  cases x with
  | error f => exact h
  | ok a => exact hk a h

theorem ShortOr.mono {x : Except Fault α} {P Q : α → Prop} (h : ShortOr P x) (hpq : ∀ a, P a → Q a) :
    ShortOr Q x := by
  cases x with
  | error f => exact h
  | ok a => exact hpq a h

/-- On the first bytes alone the reader runs out of input or takes the same value. -/
def Firm (r : Reader α) : Prop :=
  ∀ ⦃s t rest : List UInt8⦄ ⦃a : α⦄, r (s ++ t) = .ok (a, rest) →
    ShortOr (fun p => ∃ left, rest = left ++ t ∧ p = (a, left)) (r s)

/-- As `Firm`, but a value that may go on where the bytes end may be taken for another. -/
def Steady (r : Reader α) : Prop :=
  ∀ ⦃s t rest : List UInt8⦄ ⦃a : α⦄, r (s ++ t) = .ok (a, rest) →
    ShortOr (fun p => (∃ left, rest = left ++ t ∧ p = (a, left)) ∨ ∃ b, p = (b, [])) (r s)

def FirmStep (f : List UInt8 → Except Fault (List UInt8)) : Prop :=
  ∀ ⦃s t rest : List UInt8⦄, f (s ++ t) = .ok rest → ShortOr (fun left => rest = left ++ t) (f s)

theorem Firm.steady {r : Reader α} (h : Firm r) : Steady r := fun _ _ _ _ hr => (h hr).mono fun _ => .inl

theorem Firm.map {r : Reader α} (h : Firm r) (f : α → β) : Firm (r.map f) := by
  intro s t rest b hb
  obtain ⟨⟨a, rest'⟩, ha, hb⟩ := bind_eq_ok hb
  cases hb
  refine (h ha).bind ?_
  rintro _ ⟨left, rfl, rfl⟩
  exact ⟨left, rfl, rfl⟩

theorem Steady.map {r : Reader α} (h : Steady r) (f : α → β) : Steady (r.map f) := by
  intro s t rest b hb
  obtain ⟨⟨a, rest'⟩, ha, hb⟩ := bind_eq_ok hb
  cases hb
  refine (h ha).bind ?_
  rintro _ (⟨left, rfl, rfl⟩ | ⟨a', rfl⟩)
  · exact .inl ⟨left, rfl, rfl⟩
  · exact .inr ⟨f a', rfl⟩

theorem skipBlank_prefix (s t : List UInt8) :
    skipBlank s = [] ∨ ∃ b r, skipBlank s = b :: r ∧ skipBlank (s ++ t) = b :: (r ++ t) := by
  cases h : skipBlank s with
  | nil => exact .inl rfl
  | cons b r =>
    refine .inr ⟨b, r, rfl, ?_⟩
    rw [skipBlank] at h
    rw [skipBlank, List.dropWhile_append, h]
    rfl

theorem firmStep_of_mark {f : List UInt8 → Except Fault (List UInt8)} {mark : UInt8}
    (hend : ∀ s, skipBlank s = [] → ShortOr (fun _ => False) (f s))
    (hmark : ∀ s rest, f s = .ok rest ↔ skipBlank s = mark :: rest) : FirmStep f := by
  intro s t rest h
  rcases skipBlank_prefix s t with hs | ⟨b, r, hs, hst⟩
  · exact (hend s hs).mono fun _ => False.elim
  · obtain ⟨rfl, rfl⟩ := List.cons.inj (hst.symm.trans ((hmark _ _).1 h))
    rw [(hmark s r).2 hs]
    rfl

theorem colon_eq_ok_iff (s rest : List UInt8) : colon s = .ok rest ↔ skipBlank s = 0x3A :: rest := by
  unfold colon
  split
  · next hs => simp [hs]
  · next hs => simp [hs]
  · next hother => exact ⟨(nomatch ·), fun h => (hother rest h).elim⟩

theorem objectEnd_eq_ok_iff (s rest : List UInt8) : objectEnd s = .ok rest ↔ skipBlank s = 0x7D :: rest := by
  unfold objectEnd
  split
  · next hs => simp [hs]
  · next hs => simp [hs]
  · next hs => simp [hs]
  · next hother _ => exact ⟨(nomatch ·), fun h => (hother rest h).elim⟩

theorem listEnd_eq_ok_iff (s rest : List UInt8) : listEnd s = .ok rest ↔ skipBlank s = 0x5D :: rest := by
  unfold listEnd
  split
  · next hs => simp [hs]
  · next hs => simp [hs]
  · next hs =>
    rw [hs]
    split <;> simp
  · next hother _ => exact ⟨(nomatch ·), fun h => (hother rest h).elim⟩

theorem firmStep_colon : FirmStep colon := by
  refine firmStep_of_mark (fun s hs => ?_) colon_eq_ok_iff
  rw [colon, hs]
  rfl

theorem firmStep_objectEnd : FirmStep objectEnd := by
  refine firmStep_of_mark (fun s hs => ?_) objectEnd_eq_ok_iff
  rw [objectEnd, hs]
  rfl

theorem firmStep_listEnd : FirmStep listEnd := by
  refine firmStep_of_mark (fun s hs => ?_) listEnd_eq_ok_iff
  rw [listEnd, hs]
  rfl

theorem firm_element? (first : Bool) : Firm (element? first) := by
  intro s t rest more h
  unfold element? at h ⊢
  rcases skipBlank_prefix s t with hs | ⟨b, r, hs, hst⟩
  · rw [hs]
    rfl
  rw [hst] at h
  rw [hs]
  by_cases hb : b = 0x5D
  · subst hb
    cases h
    exact ⟨0x5D :: r, rfl, rfl⟩
  simp only at h ⊢
  split at h
  · next hfirst =>
    cases h
    rw [if_pos hfirst]
    exact ⟨b :: r, rfl, rfl⟩
  · next hfirst =>
    rw [if_neg hfirst]
    split at h
    · next hcomma =>
      rw [if_pos hcomma]
      rcases skipBlank_prefix r t with hr | ⟨c, r', hr, hrt⟩
      · rw [hr]
        rfl
      rw [hrt] at h
      rw [hr]
      split at h
      · next heq => cases heq
      · cases h
      · next hlist =>
        cases h
        split
        · next heq => cases heq
        · next heq =>
          cases heq
          exact absurd rfl (hlist (r' ++ t))
        · exact ⟨c :: r', rfl, rfl⟩
    · cases h

theorem firm_name? (first : Bool) : Firm (name? first) := by
  intro s t rest more h
  unfold name? at h ⊢
  rcases skipBlank_prefix s t with hs | ⟨b, r, hs, hst⟩
  · rw [hs]
    rfl
  rw [hst] at h
  rw [hs]
  by_cases hb : b = 0x7D
  · subst hb
    cases h
    exact ⟨0x7D :: r, rfl, rfl⟩
  simp only at h ⊢
  split at h
  · next hfirst =>
    rw [if_pos hfirst]
    split at h
    · next heq =>
      cases heq
      cases h
      exact ⟨r, rfl, rfl⟩
    · cases h
  · next hfirst =>
    rw [if_neg hfirst]
    split at h
    · next hcomma =>
      rw [if_pos hcomma]
      rcases skipBlank_prefix r t with hr | ⟨c, r', hr, hrt⟩
      · rw [hr]
        rfl
      rw [hrt] at h
      rw [hr]
      split at h
      · next heq => cases heq
      · cases h
      · split at h
        · next heq =>
          cases heq
          cases h
          exact ⟨r', rfl, rfl⟩
        · cases h
    · cases h

theorem firm_scan (q : Scan) : Firm (scan q) := by
  intro s
  induction s generalizing q with
  | nil =>
    intro t rest content _
    rfl
  | cons b s ih =>
    intro t rest content h
    rw [List.cons_append] at h
    simp only [scan] at h ⊢
    split at h
    · next hcloses =>
      cases h
      rw [if_pos hcloses]
      exact ⟨s, rfl, rfl⟩
    · next hcloses =>
      rw [if_neg hcloses]
      cases hstep : q.step b with
      | error cause =>
        rw [hstep] at h
        cases h
      | ok p =>
        rw [hstep] at h
        obtain ⟨⟨more, rest'⟩, hscan, h⟩ := bind_eq_ok h
        cases h
        refine (ih p.2 hscan).bind ?_
        rintro _ ⟨left, rfl, rfl⟩
        exact ⟨left, rfl, rfl⟩

theorem firm_literal : Firm literal := by
  intro s t rest text h
  obtain ⟨⟨content, rest'⟩, hscan, h⟩ := bind_eq_ok h
  refine (firm_scan .plain hscan).bind ?_
  rintro _ ⟨left, rfl, rfl⟩
  simp only at h ⊢
  split at h
  · cases h
    exact ⟨left, rfl, rfl⟩
  · cases h

theorem firm_textAs (expected : String) (convert : String → Except Cause α) : Firm (textAs expected convert) := by
  intro s t rest a h
  unfold textAs at h ⊢
  rcases skipBlank_prefix s t with hs | ⟨b, r, hs, hst⟩
  · rw [hs]
    rfl
  rw [hst] at h
  rw [hs]
  split at h
  · next heq =>
    cases heq
    obtain ⟨⟨u, rest'⟩, hliteral, h⟩ := bind_eq_ok h
    refine (firm_literal hliteral).bind ?_
    rintro _ ⟨left, rfl, rfl⟩
    simp only at h ⊢
    cases hu : convert u with
    | error cause =>
      rw [hu] at h
      cases h
    | ok a' =>
      rw [hu] at h
      cases h
      exact ⟨left, rfl, rfl⟩
  · cases h

theorem firm_text : Firm text :=
  firm_textAs "a string" .ok

theorem stops_of_append {s t : List UInt8} (h : Stops (s ++ t)) : Stops s := by
  cases s with
  | nil => exact stops_nil
  | cons b s => exact fun c hc => h c hc

theorem unsigned_stops {negative : Bool} {s rest : List UInt8} {v : Int}
    (h : unsigned negative s = .ok (.integer v, rest)) : Stops rest := by
  have hsplit : splitDigits s = (s.takeWhile isDigit, s.dropWhile isDigit) := by
    rw [splitDigits, List.span_eq_takeWhile_dropWhile]
  generalize hrest : s.dropWhile isDigit = s' at hsplit
  simp only [unsigned, hsplit] at h
  split at h
  · split at h <;> cases h
  · cases h
  · split at h
    · obtain ⟨bits, hbits⟩ := afterPoint_binary h
      cases hbits
    · obtain ⟨bits, hbits⟩ := exponentPart_binary h
      cases hbits
    · obtain ⟨bits, hbits⟩ := exponentPart_binary h
      cases hbits
    · next hpoint hsmall hlarge =>
      split at h
      · cases h
        rintro b hb
        obtain ⟨more, rfl⟩ := List.head?_eq_some_iff.1 hb
        refine ⟨?_, ?_, ?_, ?_⟩
        · have hhead := List.head?_dropWhile_not isDigit s
          rw [hrest] at hhead
          exact hhead
        · rintro rfl
          exact hpoint more rfl
        · rintro rfl
          exact hsmall more rfl
        · rintro rfl
          exact hlarge more rfl
      · obtain ⟨bits, hbits⟩ := finish_binary h
        cases hbits

theorem number_stops {s rest : List UInt8} {v : Int} (h : number s = .ok (.integer v, rest)) : Stops rest := by
  unfold number at h
  split at h
  · exact unsigned_stops h
  · exact unsigned_stops h

theorem integer_inv {expected : String} {low high v : Int} {s rest : List UInt8}
    (h : integer expected low high s = .ok (v, rest)) :
    ∃ b r, skipBlank s = b :: r ∧ (b = 0x2D ∨ isDigit b = true) ∧ number (b :: r) = .ok (.integer v, rest) ∧
      low ≤ v ∧ v ≤ high := by
  unfold integer at h
  split at h
  · cases h
  · next b r hskip =>
    split at h
    · next hb =>
      obtain ⟨⟨n, rest'⟩, hnumber, h⟩ := bind_eq_ok h
      cases n with
      | integer w =>
        simp only at h
        split at h
        · next hrange =>
          cases h
          exact ⟨b, r, hskip, hb, hnumber, hrange⟩
        · cases h
      | binary bits => cases h
    · cases h

theorem integer_of_number {expected : String} {low high v : Int} {s r rest : List UInt8} {b : UInt8}
    (hskip : skipBlank s = b :: r) (hb : b = 0x2D ∨ isDigit b = true)
    (hnumber : number (b :: r) = .ok (.integer v, rest)) (hlow : low ≤ v) (hhigh : v ≤ high) :
    integer expected low high s = .ok (v, rest) := by
  simp only [integer, hskip, hb, if_true, hnumber, bind, Except.bind, hlow, hhigh, and_self]
  rfl

theorem Whole.value_pos {ds : List Char} (h : Whole ds) (hne : ds ≠ ['0']) : 0 < Nat.ofDigitChars 10 ds 0 := by
  cases ds with
  | nil => exact absurd rfl h.nonempty
  | cons c ds =>
    have hc : c ≠ '0' := fun hc => hne (h.leading (congrArg some hc))
    have hdigit := (Text.isDigit_bounds (h.digits c List.mem_cons_self)).1
    have hlarge : 48 < c.toNat := by
      refine Nat.lt_of_le_of_ne hdigit fun heq => hc ?_
      rw [← Char.ofNat_toNat c, ← heq]
    rw [Nat.ofDigitChars_cons]
    refine Nat.lt_of_lt_of_le ?_ (Text.le_ofDigitChars ds _)
    have hzero : '0'.toNat = 48 := rfl
    omega

theorem Whole.cut {ds more : List Char} (h : Whole (ds ++ more)) (hne : ds ≠ []) :
    Whole ds ∧ Nat.ofDigitChars 10 ds 0 ≤ Nat.ofDigitChars 10 (ds ++ more) 0 := by
  refine ⟨⟨⟨hne, fun c hc => h.digits c (List.mem_append_left _ hc)⟩, fun hhead => ?_⟩, ?_⟩
  · obtain ⟨cs, rfl⟩ := List.head?_eq_some_iff.1 hhead
    have hall := h.leading rfl
    simp only [List.cons_append, List.cons.injEq, List.append_eq_nil_iff, true_and] at hall
    rw [hall.1]
  · rw [Nat.ofDigitChars_append]
    exact Text.le_ofDigitChars more _

theorem prefix_digits {ds : List Char} (h : ∀ c ∈ ds, c.isDigit = true) {bs more : List UInt8}
    (heq : utf8 ds = bs ++ more) : ∃ cut left, ds = cut ++ left ∧ bs = utf8 cut := by
  rw [utf8_digits h] at heq
  obtain ⟨cut, left, rfl, rfl, -⟩ := List.map_eq_append_iff.1 heq
  exact ⟨cut, left, rfl, (utf8_digits fun c hc => h c (List.mem_append_left _ hc)).symm⟩

theorem integer?_eq_some_iff {negative : Bool} {size : Nat} {v : Int} :
    integer? negative size = some (.integer v) ↔
      negative = false ∧ v = size ∨
        negative = true ∧ 0 < size ∧ size ≤ Int64.minValue.toInt.natAbs ∧ v = -(size : Int) := by
  cases negative with
  | false => simp [integer?, eq_comm]
  | true => simp [integer?, eq_comm, and_assoc]

theorem integer?_cut {negative : Bool} {ds more : List Char} {v low high : Int} (h : Whole (ds ++ more)) (hne : ds ≠ [])
    (hv : integer? negative (Nat.ofDigitChars 10 (ds ++ more) 0) = some (.integer v)) (hlow : low ≤ v)
    (hhigh : v ≤ high) (hzero : low ≤ 0 ∧ 0 ≤ high) :
    ∃ w, integer? negative (Nat.ofDigitChars 10 ds 0) = some (.integer w) ∧ low ≤ w ∧ w ≤ high := by
  obtain ⟨hwhole, hle⟩ := h.cut hne
  rcases integer?_eq_some_iff.1 hv with ⟨rfl, rfl⟩ | ⟨rfl, hpos, hmin, rfl⟩
  · exact ⟨_, integer?_eq_some_iff.2 (.inl ⟨rfl, rfl⟩), by omega, by omega⟩
  · have hcut : 0 < Nat.ofDigitChars 10 ds 0 := by
      refine hwhole.value_pos ?_
      rintro rfl
      obtain rfl : more = [] := by simpa using h.leading rfl
      exact absurd hpos (by decide)
    exact ⟨_, integer?_eq_some_iff.2 (.inr ⟨rfl, hcut, Nat.le_trans hle hmin, rfl⟩), by omega, by omega⟩

theorem integer?_size_le {negative : Bool} {size : Nat} {v : Int} (h : integer? negative size = some (.integer v))
    (hv : v ≤ largestWord) : size ≤ largestWord := by
  rcases integer?_eq_some_iff.1 h with ⟨-, rfl⟩ | ⟨-, -, hmin, -⟩
  · omega
  · exact Nat.le_trans hmin (by decide)

theorem prefix_signed (negative : Bool) {ds : List Char} (h : ∀ c ∈ ds, c.isDigit = true) {bs more : List UInt8}
    (hne : bs ≠ []) (heq : utf8 ((if negative then ['-'] else []) ++ ds) = bs ++ more) :
    bs = [0x2D] ∨
      ∃ cut left, ds = cut ++ left ∧ cut ≠ [] ∧ bs = utf8 ((if negative then ['-'] else []) ++ cut) := by
  cases negative with
  | false =>
    obtain ⟨cut, left, hds, rfl⟩ := prefix_digits h heq
    refine .inr ⟨cut, left, hds, ?_, rfl⟩
    rintro rfl
    exact hne rfl
  | true =>
    cases bs with
    | nil => exact absurd rfl hne
    | cons b bs =>
      obtain ⟨rfl, hdigits⟩ : 0x2D = b ∧ utf8 ds = bs ++ more := List.cons.inj heq
      obtain ⟨cut, left, hds, rfl⟩ := prefix_digits h hdigits
      cases cut with
      | nil => exact .inl rfl
      | cons c cut => exact .inr ⟨c :: cut, left, hds, List.cons_ne_nil _ _, rfl⟩

theorem steady_integer (expected : String) {low high : Int} (hzero : low ≤ 0 ∧ 0 ≤ high)
    (hword : high ≤ largestWord) : Steady (integer expected low high) := by
  intro s t rest v h
  rcases skipBlank_prefix s t with hs | ⟨b, r, hs, hst⟩
  · rw [integer, hs]
    rfl
  obtain ⟨b', r', hskip, hb, hnumber, hlow, hhigh⟩ := integer_inv h
  obtain ⟨rfl, rfl⟩ := List.cons.inj (hst.symm.trans hskip)
  obtain ⟨negative, ds, hds, hbytes, hv⟩ := number_sound hnumber
  rw [← List.cons_append] at hbytes
  rcases List.append_eq_append_iff.1 hbytes with ⟨more, hcut, rfl⟩ | ⟨left, hwhole, rfl⟩
  · rcases prefix_signed negative hds.digits (List.cons_ne_nil b r) hcut with hsign | ⟨cut, gone, rfl, hne, hbs⟩
    · obtain ⟨rfl, rfl⟩ := List.cons.inj hsign
      rw [integer, hs]
      rfl
    · obtain ⟨w, hw, hwlow, hwhigh⟩ := integer?_cut hds hne hv hlow hhigh hzero
      have hread := number_complete (hds.cut hne).1 (integer?_size_le hw (by omega)) hw stops_nil
      rw [List.append_nil, ← hbs] at hread
      rw [integer_of_number hs hb hread hwlow hwhigh]
      exact .inr ⟨w, rfl⟩
  · have hstops := stops_of_append (number_stops hnumber)
    have hread := number_complete hds (integer?_size_le hv (by omega)) hv hstops
    rw [← hwhole] at hread
    rw [integer_of_number hs hb hread hlow hhigh]
    exact .inl ⟨left, rfl, rfl⟩

theorem steady_int64 : Steady int64 :=
  (steady_integer "i64" (by decide) (by decide)).map Int64.ofInt

theorem elements_end (r : Reader α) (limit : List UInt8) (first : Bool) :
    ShortOr (fun _ => False) (elements r limit first []) := by
  cases limit with
  | nil => rfl
  | cons b limit => rfl

/-- The limits differ, since there are fewer bytes; reaching the end of one is running out of input. -/
theorem elements_cut {r : Reader α} (hr : Steady r) {limit s t rest : List UInt8} {as : List α} {first : Bool}
    (limit' : List UInt8) (h : elements r limit first (s ++ t) = .ok (as, rest)) :
    ShortOr (fun p => ∃ left, rest = left ++ t ∧ p = (as, left)) (elements r limit' first s) := by
  induction limit generalizing limit' first s as with
  | nil => cases h
  | cons _ limit ih =>
    cases limit' with
    | nil => rfl
    | cons b limit' =>
      obtain ⟨⟨more, behind⟩, hnext, h⟩ := bind_eq_ok h
      refine (firm_element? first hnext).bind ?_
      rintro _ ⟨left, rfl, rfl⟩
      cases more with
      | true =>
        obtain ⟨⟨a, behind⟩, hread, h⟩ := bind_eq_ok h
        obtain ⟨⟨others, behind⟩, hothers, h⟩ := bind_eq_ok h
        cases h
        refine (hr hread).bind ?_
        rintro _ (⟨left, rfl, rfl⟩ | ⟨a', rfl⟩)
        · refine (ih limit' hothers).bind ?_
          rintro _ ⟨left, rfl, rfl⟩
          exact ⟨left, rfl, rfl⟩
        · exact (elements_end r limit' false).bind fun _ => False.elim
      | false =>
        cases h
        exact ⟨left, rfl, rfl⟩

theorem Steady.listOf {r : Reader α} (hr : Steady r) : Firm (listOf r) := by
  intro s t rest as h
  unfold Json.listOf at h ⊢
  rcases skipBlank_prefix s t with hs | ⟨b, r', hs, hst⟩
  · rw [hs]
    rfl
  rw [hst] at h
  rw [hs]
  split at h
  · next heq =>
    cases heq
    obtain ⟨⟨as', behind⟩, hread, h⟩ := bind_eq_ok h
    obtain ⟨rest', hend, h⟩ := bind_eq_ok h
    cases h
    refine (elements_cut hr _ hread).bind ?_
    rintro _ ⟨left, rfl, rfl⟩
    refine (firmStep_listEnd hend).bind ?_
    rintro left rfl
    exact ⟨left, rfl, rfl⟩
  · cases h

def Field.Steady (f : Field α) : Prop :=
  ∀ ⦃s t rest : List UInt8⦄ ⦃put : α → Except Cause α⦄, f.read (s ++ t) = .ok (put, rest) →
    ShortOr (fun p => (∃ left, rest = left ++ t ∧ p = (put, left)) ∨
      ∃ fill, p = (fill, []) ∧ ∀ a, ∃ b, fill a = .ok b) (f.read s)

theorem Steady.field {r : Reader β} (hr : Steady r) (name : String) (put : β → α → α) :
    (Field.of name r put).Steady := by
  intro s t rest fill h
  obtain ⟨⟨b, rest'⟩, hb, h⟩ := bind_eq_ok h
  cases h
  refine (hr hb).bind ?_
  rintro _ (⟨left, rfl, rfl⟩ | ⟨b', rfl⟩)
  · exact .inl ⟨left, rfl, rfl⟩
  · exact .inr ⟨_, rfl, fun a => ⟨put b' a, rfl⟩⟩

theorem Firm.field {r : Reader β} (hr : Firm r) (name : String) (put : β → α → α) : (Field.of name r put).Steady :=
  hr.steady.field name put

theorem positional_end (sh : Shape α) (fs : List (Field α)) (first : Bool) (a : α) :
    ShortOr (fun p => ∃ b, p = (b, [])) (positional sh fs first a []) := by
  cases fs with
  | nil => exact ⟨a, rfl⟩
  | cons f fs => rfl

theorem positional_steady {sh : Shape α} {fs : List (Field α)} (hfs : ∀ f ∈ fs, f.Steady) (first : Bool) (a : α) :
    Steady (positional sh fs first a) := by
  induction fs generalizing first a with
  | nil =>
    intro s t rest a' h
    cases h
    exact .inl ⟨s, rfl, rfl⟩
  | cons f fs ih =>
    intro s t rest a' h
    obtain ⟨⟨more, behind⟩, hnext, h⟩ := bind_eq_ok h
    refine (firm_element? first hnext).bind ?_
    rintro _ ⟨left, rfl, rfl⟩
    cases more with
    | true =>
      obtain ⟨⟨put, behind⟩, hread, h⟩ := bind_eq_ok h
      cases hput : put a with
      | error cause =>
        simp only [hput] at h
        cases h
      | ok b =>
        simp only [hput] at h
        refine (hfs f List.mem_cons_self hread).bind ?_
        rintro _ (⟨left, rfl, rfl⟩ | ⟨fill, rfl, hfits⟩)
        · simp only [hput]
          exact ih (fun f hf => hfs f (List.mem_cons_of_mem _ hf)) false b h
        · obtain ⟨c, hc⟩ := hfits a
          simp only [hc]
          exact (positional_end sh fs false c).mono fun _ => .inr
    | false =>
      simp only [Bool.false_eq_true, if_false] at h ⊢
      split at h
      · cases h
      · next hfull =>
        cases h
        rw [if_neg hfull]
        exact .inl ⟨left, rfl, rfl⟩

theorem members_end (sh : Shape α) (limit : List UInt8) (first : Bool) (seen : List String) (a : α) :
    ShortOr (fun _ => False) (members sh limit first seen a []) := by
  cases limit with
  | nil => rfl
  | cons b limit => rfl

theorem members_cut {sh : Shape α} (hclosed : sh.closed = true) (hfs : ∀ f ∈ sh.fields, f.Steady)
    {limit s t rest : List UInt8} {first : Bool} {seen : List String} {a : α} {p : List String × α}
    (limit' : List UInt8) (h : members sh limit first seen a (s ++ t) = .ok (p, rest)) :
    ShortOr (fun q => ∃ left, rest = left ++ t ∧ q = (p, left)) (members sh limit' first seen a s) := by
  induction limit generalizing limit' first seen a s with
  | nil => cases h
  | cons _ limit ih =>
    cases limit' with
    | nil => rfl
    | cons b limit' =>
      obtain ⟨⟨more, behind⟩, hnext, h⟩ := bind_eq_ok h
      refine (firm_name? first hnext).bind ?_
      rintro _ ⟨left, rfl, rfl⟩
      cases more with
      | true =>
        obtain ⟨⟨name, behind⟩, hname, h⟩ := bind_eq_ok h
        refine (firm_literal hname).bind ?_
        rintro _ ⟨left, rfl, rfl⟩
        simp only at h ⊢
        cases hfind : sh.fields.find? (·.name == name) with
        | none =>
          simp only [hfind, hclosed, if_true] at h
          cases h
        | some f =>
          simp only [hfind] at h ⊢
          split at h
          · cases h
          · next hseen =>
            rw [if_neg hseen]
            obtain ⟨behind, hcolon, h⟩ := bind_eq_ok h
            refine (firmStep_colon hcolon).bind ?_
            rintro left rfl
            obtain ⟨⟨put, behind⟩, hread, h⟩ := bind_eq_ok h
            cases hput : put a with
            | error cause =>
              simp only [hput] at h
              cases h
            | ok b =>
              simp only [hput] at h
              refine (hfs f (List.mem_of_find?_eq_some hfind) hread).bind ?_
              rintro _ (⟨left, rfl, rfl⟩ | ⟨fill, rfl, hfits⟩)
              · simp only [hput]
                exact ih limit' h
              · obtain ⟨c, hc⟩ := hfits a
                simp only [hc]
                exact (members_end sh limit' false (name :: seen) c).mono fun _ => False.elim
      | false =>
        cases h
        exact ⟨left, rfl, rfl⟩

theorem listEnd_end : ShortOr (fun _ => False) (listEnd []) := rfl

theorem Shape.firm {sh : Shape α} (hclosed : sh.closed = true) (hfs : ∀ f ∈ sh.fields, f.Steady) :
    Firm (record sh) := by
  intro s t rest a h
  unfold record at h ⊢
  rcases skipBlank_prefix s t with hs | ⟨b, r, hs, hst⟩
  · rw [hs]
    rfl
  rw [hst] at h
  rw [hs]
  split at h
  · next heq =>
    cases heq
    obtain ⟨⟨a', behind⟩, hread, h⟩ := bind_eq_ok h
    obtain ⟨rest', hend, h⟩ := bind_eq_ok h
    cases h
    refine (positional_steady hfs true sh.start hread).bind ?_
    rintro _ (⟨left, rfl, rfl⟩ | ⟨a', rfl⟩)
    · refine (firmStep_listEnd hend).bind ?_
      rintro left rfl
      exact ⟨left, rfl, rfl⟩
    · exact listEnd_end.bind fun _ => False.elim
  · next heq =>
    cases heq
    obtain ⟨⟨⟨seen, a'⟩, behind⟩, hread, h⟩ := bind_eq_ok h
    refine (members_cut hclosed hfs _ hread).bind ?_
    rintro _ ⟨left, rfl, rfl⟩
    cases hmissing : sh.missing? seen with
    | some name =>
      simp only [hmissing] at h
      cases h
    | none =>
      simp only [hmissing] at h ⊢
      obtain ⟨rest', hend, h⟩ := bind_eq_ok h
      cases h
      refine (firmStep_objectEnd hend).bind ?_
      rintro left rfl
      exact ⟨left, rfl, rfl⟩
  · cases h

/-- A document that is read, cut in front of a byte that is not white space, is seen to be cut short. -/
theorem readDocument_cut {r : Reader α} (hr : Firm r) {p t : List UInt8} {a : α}
    (h : readDocument r (p ++ t) = .ok a) (ht : ¬ Blanks t) :
    ∃ e, readDocument r p = .error e ∧ e.cause.category = .truncated := by
  simp only [readDocument] at h
  split at h
  · cases h
  · next b rest hread =>
    split at h
    · next hblank =>
      cases h
      have hcut := hr hread
      cases hp : r p with
      | error f =>
        rw [hp] at hcut
        refine ⟨f.locate p, ?_, hcut⟩
        simp only [readDocument, hp]
      | ok q =>
        rw [hp] at hcut
        obtain ⟨left, rfl, -⟩ := hcut
        refine absurd (fun b hb => ?_) ht
        exact List.dropWhile_eq_nil_iff.1 hblank b (List.mem_append_right _ hb)
    · cases h

end OrderDepot.Json
