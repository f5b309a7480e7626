import OrderDepot.Proofs.Json.Meaning
import OrderDepot.Proofs.Json.Reader
import OrderDepot.Proofs.Json.Strings

/-!
# Readers of trees

A reader goes through the bytes once and never builds a tree. It is exact for a meaning of trees if it takes off the
spelled trees that have one, each with its meaning, and nothing else. Lists and records of exact readers are exact:
their soundness follows the recursion of the reader, their completeness the derivation of the spelling.
-/

namespace OrderDepot.Json

variable {α β : Type}

theorem blanks_space_chars {w : List Char} (hw : Space w) : Blanks (utf8 w) := by
  intro b hb
  obtain ⟨c, hc, hb⟩ := List.mem_flatMap.1 hb
  rcases hw c hc with rfl | rfl | rfl | rfl <;>
  · rw [List.mem_singleton.1 hb]
    rfl

theorem exists_space {w : List UInt8} (hw : Blanks w) : ∃ cs, Space cs ∧ w = utf8 cs := by
  induction w with
  | nil => exact ⟨[], fun _ h => absurd h List.not_mem_nil, rfl⟩
  | cons b w ih =>
    obtain ⟨hb, hw⟩ := List.forall_mem_cons.1 hw
    obtain ⟨cs, hcs, rfl⟩ := ih hw
    simp only [isBlankByte, Bool.or_eq_true, beq_iff_eq] at hb
    rcases hb with ((rfl | rfl) | rfl) | rfl
    · exact ⟨' ' :: cs, List.forall_mem_cons.2 ⟨.inl rfl, hcs⟩, rfl⟩
    · exact ⟨'\n' :: cs, List.forall_mem_cons.2 ⟨.inr (.inr (.inl rfl)), hcs⟩, rfl⟩
    · exact ⟨'\t' :: cs, List.forall_mem_cons.2 ⟨.inr (.inl rfl), hcs⟩, rfl⟩
    · exact ⟨'\r' :: cs, List.forall_mem_cons.2 ⟨.inr (.inr (.inr rfl)), hcs⟩, rfl⟩

theorem utf8_split (cs ds : List Char) (s : List UInt8) : utf8 (cs ++ ds) ++ s = utf8 cs ++ (utf8 ds ++ s) := by
  rw [utf8_append, List.append_assoc]

theorem skipBlank_space {w : List Char} (hw : Space w) (s : List UInt8) : skipBlank (utf8 w ++ s) = skipBlank s :=
  skipBlank_append (blanks_space_chars hw) s

theorem skipBlank_sound (s : List UInt8) : ∃ w, Space w ∧ s = utf8 w ++ skipBlank s := by
  obtain ⟨w, hw, hutf8⟩ := exists_space (w := s.takeWhile isBlankByte) (List.all_eq_true.1 List.all_takeWhile)
  exact ⟨w, hw, by rw [← hutf8, skipBlank, List.takeWhile_append_dropWhile]⟩

theorem Space.append {w w' : List Char} (hw : Space w) (hw' : Space w') : Space (w ++ w') :=
  List.forall_mem_append.2 ⟨hw, hw'⟩

theorem Gap.append {first : Bool} {gap w : List Char} (hgap : Gap first gap) (hw : Space w) : Gap first (gap ++ w) := by
  cases first with
  | true => exact Space.append hgap hw
  | false =>
    obtain ⟨v, v', hv, hv', rfl⟩ := hgap
    exact ⟨v, v' ++ w, hv, hv'.append hw, by simp⟩

theorem Whole.opens {ds : List Char} (h : Whole ds) :
    ∃ b more, utf8 ds = b :: more ∧ isDigit b = true := by
  cases ds with
  | nil => exact absurd rfl h.nonempty
  | cons c cs =>
    obtain ⟨hbytes, hdigit, -⟩ := isDigit_of_char (h.digits c List.mem_cons_self)
    exact ⟨_, utf8 cs, by rw [utf8_cons, hbytes]; rfl, hdigit⟩

theorem signed_opens (negative : Bool) {ds : List Char} (h : Whole ds) :
    ∃ b more, utf8 ((if negative then ['-'] else []) ++ ds) = b :: more ∧ (b = 0x2D ∨ isDigit b = true) := by
  cases negative with
  | true => exact ⟨0x2D, utf8 ds, rfl, .inl rfl⟩
  | false =>
    obtain ⟨b, more, hbytes, hb⟩ := h.opens
    exact ⟨b, more, hbytes, .inr hb⟩

theorem Spelled.opens {t : Tree} {cs : List Char} (h : Spelled t cs) : Opens (utf8 cs) := by
  cases h with
  | null => exact ⟨0x6E, _, rfl, rfl, by decide, by decide⟩
  | true => exact ⟨0x74, _, rfl, rfl, by decide, by decide⟩
  | false => exact ⟨0x66, _, rfl, rfl, by decide, by decide⟩
  | number negative digits =>
    obtain ⟨b, more, hbytes, hb⟩ := signed_opens negative digits
    rw [utf8_append, utf8_append, hbytes]
    exact opens_digit hb _
  | string quoted =>
    obtain ⟨more, rfl⟩ := quoted.exists_cons
    exact ⟨0x22, _, rfl, rfl, by decide, by decide⟩
  | array => exact ⟨0x5B, _, rfl, rfl, by decide, by decide⟩
  | object => exact ⟨0x7B, _, rfl, rfl, by decide, by decide⟩

theorem Opens.skipBlank {bs : List UInt8} (h : Opens bs) (s : List UInt8) : skipBlank (bs ++ s) = bs ++ s := by
  obtain ⟨b, more, rfl, hb, -⟩ := h
  exact skipBlank_cons hb _

/-- The reader takes off just the spelled trees that have a meaning, with white space in front of them. -/
structure Exact (r : Reader α) (meaning : Tree → Option α) : Prop where
  sound : ∀ {s rest : List UInt8} {a : α}, r s = .ok (a, rest) →
    ∃ w cs t, Space w ∧ Spelled t cs ∧ meaning t = some a ∧ s = utf8 (w ++ cs) ++ rest
  complete : ∀ {w cs : List Char} {t : Tree} {a : α}, Space w → Spelled t cs → meaning t = some a →
    ∀ {rest : List UInt8}, Stops rest → r (utf8 (w ++ cs) ++ rest) = .ok (a, rest)

theorem Exact.congr {r : Reader α} {meaning meaning' : Tree → Option α} (h : Exact r meaning)
    (heq : ∀ t, meaning t = meaning' t) : Exact r meaning' :=
  funext heq ▸ h

theorem Exact.map {r : Reader α} {meaning : Tree → Option α} (h : Exact r meaning) (f : α → β) :
    Exact (r.map f) fun t => (meaning t).map f where
  sound {s rest b} hread := by
    obtain ⟨⟨a, rest'⟩, hread, hb⟩ := bind_eq_ok hread
    cases hb
    obtain ⟨w, cs, t, hw, hcs, ha, rfl⟩ := h.sound hread
    exact ⟨w, cs, t, hw, hcs, by rw [ha, Option.map_some], rfl⟩
  complete {w cs t b} hw hcs hb rest hrest := by
    obtain ⟨a, ha, rfl⟩ := Option.map_eq_some_iff.1 hb
    simp only [Reader.map, h.complete hw hcs ha hrest, bind, Except.bind]
    rfl

theorem skipBlank_spelled {w cs : List Char} {t : Tree} (hw : Space w) (hcs : Spelled t cs) (rest : List UInt8) :
    skipBlank (utf8 (w ++ cs) ++ rest) = utf8 cs ++ rest := by
  rw [utf8_split, skipBlank_space hw, hcs.opens.skipBlank]

theorem exact_textAs (expected : String) (convert : String → Except Cause α) :
    Exact (textAs expected convert) fun t => t.text?.bind fun s => (convert s).toOption where
  sound {s rest a} hread := by
    obtain ⟨w, hw, hs⟩ := skipBlank_sound s
    unfold textAs at hread
    split at hread
    · next r hskip =>
      obtain ⟨⟨t, rest'⟩, hliteral, hread⟩ := bind_eq_ok hread
      dsimp only at hread
      split at hread
      · next b hconvert =>
        cases hread
        obtain ⟨cs, hquoted, rfl⟩ := literal_sound hliteral
        refine ⟨w, _, _, hw, .string hquoted, ?_, ?_⟩
        · rw [Tree.text?, Option.bind_some, hconvert]
          rfl
        · rw [hs, hskip]
          exact (utf8_split w ('"' :: cs) rest).symm
      · cases hread
    · cases hread
  complete {w cs t a} hw hcs ha rest hrest := by
    obtain ⟨text, htext, hconvert⟩ := Option.bind_eq_some_iff.1 ha
    cases hcs with
    | string quoted =>
      cases htext
      obtain ⟨more, rfl⟩ := quoted.exists_cons
      have hskip : skipBlank (utf8 (w ++ '"' :: more) ++ rest) = 0x22 :: (utf8 more ++ rest) :=
        skipBlank_spelled hw (.string quoted) rest
      simp only [textAs, hskip, literal_complete quoted, bind, Except.bind]
      cases hc : convert text with
      | ok b =>
        rw [hc] at hconvert
        cases hconvert
        rfl
      | error cause =>
        rw [hc] at hconvert
        cases hconvert
    | _ => cases htext

theorem exact_text : Exact text Tree.text? :=
  (exact_textAs "a string" .ok).congr fun t => by cases t.text? <;> rfl

theorem integer?_sound {negative : Bool} {whole : List Char} {n : Int}
    (h : integer? negative (Nat.ofDigitChars 10 whole 0) = some (.integer n)) :
    (Tree.number negative whole [] []).integer? = some n := by
  rw [integer?] at h
  rw [Tree.integer?]
  cases negative with
  | true =>
    simp only [Bool.not_true, Bool.false_eq_true, if_false, Option.ite_none_right_eq_some] at h
    obtain ⟨⟨hpositive, -⟩, hn⟩ := h
    cases hn
    simp only [if_true, Nat.ne_of_gt hpositive, if_false]
  | false =>
    cases h
    rfl

theorem integer?_complete {negative : Bool} {whole : List Char} {n : Int} (hlow : Int64.minValue.toInt ≤ n)
    (hhigh : n ≤ Int64.maxValue.toInt) (h : (Tree.number negative whole [] []).integer? = some n) :
    Nat.ofDigitChars 10 whole 0 ≤ largestWord ∧
      integer? negative (Nat.ofDigitChars 10 whole 0) = some (.integer n) := by
  have hmin : Int64.minValue.toInt = -9223372036854775808 ∧ Int64.minValue.toInt.natAbs = 9223372036854775808 := by
    decide
  have hmax : Int64.maxValue.toInt = 9223372036854775807 := by decide
  have hword : largestWord = 18446744073709551615 := by decide
  rw [Tree.integer?] at h
  generalize Nat.ofDigitChars 10 whole 0 = size at h ⊢
  cases negative with
  | true =>
    simp only [if_true, Option.ite_none_left_eq_some, Option.some.injEq] at h
    obtain ⟨hpositive, rfl⟩ := h
    refine ⟨by omega, ?_⟩
    have hrange : 0 < size ∧ size ≤ Int64.minValue.toInt.natAbs := by omega
    simp only [integer?, Bool.not_true, Bool.false_eq_true, if_false, hrange, and_self, if_true]
  | false =>
    cases h
    exact ⟨by omega, rfl⟩

theorem number_complete {negative : Bool} {ds : List Char} {m : Number} (hds : Whole ds)
    (hfits : Nat.ofDigitChars 10 ds 0 ≤ largestWord)
    (hm : Json.integer? negative (Nat.ofDigitChars 10 ds 0) = some m) {rest : List UInt8} (hrest : Stops rest) :
    number (utf8 ((if negative then ['-'] else []) ++ ds) ++ rest) = .ok (m, rest) := by
  have hread := unsigned_whole negative hds hfits hm hrest
  cases negative with
  | true => exact hread
  | false =>
    obtain ⟨b, more, hbytes, hb⟩ := hds.opens
    rw [hbytes] at hread
    rw [if_neg Bool.false_ne_true, List.nil_append, hbytes]
    exact (number_of_digit hb _).trans hread

theorem exact_integer (expected : String) {low high : Int} (hlow : Int64.minValue.toInt ≤ low)
    (hhigh : high ≤ Int64.maxValue.toInt) : Exact (integer expected low high) (Tree.integerIn? low high) where
  sound {s rest n} hread := by
    obtain ⟨w, hw, hs⟩ := skipBlank_sound s
    unfold integer at hread
    split at hread
    · cases hread
    · next b r hskip =>
      split at hread
      · obtain ⟨⟨m, rest'⟩, hnumber, hread⟩ := bind_eq_ok hread
        dsimp only at hread
        split at hread
        · next v =>
          split at hread
          · next hrange =>
            cases hread
            obtain ⟨negative, ds, hds, hbytes, hv⟩ := number_sound hnumber
            have hspelled := Spelled.number negative hds (.inl rfl) (.inl rfl)
            rw [List.append_nil, List.append_nil] at hspelled
            refine ⟨w, _, _, hw, hspelled, ?_, ?_⟩
            · rw [Tree.integerIn?, integer?_sound hv, Option.filter_some, if_pos (decide_eq_true hrange)]
            · rw [hs, hskip, hbytes]
              exact (utf8_split w _ rest).symm
          · cases hread
        · cases hread
      · cases hread
  complete {w cs t n} hw hcs hn rest hrest := by
    have hskip := skipBlank_spelled hw hcs rest
    obtain ⟨hvalue, hrange⟩ := Option.filter_eq_some_iff.1 hn
    obtain ⟨hlow', hhigh'⟩ := of_decide_eq_true hrange
    unfold Tree.integer? at hvalue
    split at hvalue
    · next negative whole =>
      cases hcs with
      | number _ digits =>
        obtain ⟨hfits, hinteger⟩ := integer?_complete (Int.le_trans hlow hlow') (Int.le_trans hhigh' hhigh) hvalue
        have hnumber := number_complete digits hfits hinteger hrest
        obtain ⟨b, more, hbytes, hb⟩ := signed_opens negative digits
        rw [List.append_nil, List.append_nil, hbytes] at hskip
        rw [hbytes] at hnumber
        simp only [List.append_nil, integer, hskip, List.cons_append, hb, if_true] at hnumber ⊢
        simp only [hnumber, bind, Except.bind, hlow', hhigh', and_self, if_true]
        rfl
    · cases hvalue

theorem exact_int64 : Exact int64 Tree.int64? :=
  (exact_integer "i64" (Int.le_refl _) (Int.le_refl _)).map Int64.ofInt

theorem gap_of_skipBlank {s rest : List UInt8} (h : skipBlank s = rest) : ∃ gap, Gap true gap ∧ s = utf8 gap ++ rest := by
  obtain ⟨w, hw, hs⟩ := skipBlank_sound s
  exact ⟨w, hw, h ▸ hs⟩

theorem gap_of_comma {s more rest : List UInt8} (h : skipBlank s = 0x2C :: more) (hmore : skipBlank more = rest)
    (first : Bool) (hfirst : first = false) : ∃ gap, Gap first gap ∧ s = utf8 gap ++ rest := by
  obtain ⟨w, hw, hs⟩ := skipBlank_sound s
  obtain ⟨w', hw', hs'⟩ := skipBlank_sound more
  refine ⟨w ++ ',' :: w', hfirst ▸ ⟨w, w', hw, hw', rfl⟩, ?_⟩
  rw [hs, h, hs', hmore]
  exact (utf8_split w (',' :: w') rest).symm

theorem element?_sound {first more : Bool} {s rest : List UInt8} (h : element? first s = .ok (more, rest)) :
    (more = true ∧ ∃ gap, Gap first gap ∧ s = utf8 gap ++ rest) ∨
      (more = false ∧ ∃ w rest', Space w ∧ rest = 0x5D :: rest' ∧ s = utf8 (w ++ [']']) ++ rest') := by
  unfold element? at h
  split at h
  · cases h
  · next rest' hskip =>
    cases h
    obtain ⟨w, hw, hs⟩ := skipBlank_sound s
    refine .inr ⟨rfl, w, rest', hw, rfl, ?_⟩
    rw [hs, hskip]
    exact (utf8_split w [']'] rest').symm
  · next b rest' hskip =>
    split at h
    · next hfirst =>
      cases h
      exact .inl ⟨rfl, hfirst ▸ gap_of_skipBlank hskip⟩
    · next hfirst =>
      split at h
      · next hcomma =>
        rw [hcomma] at hskip
        split at h
        · cases h
        · cases h
        · cases h
          exact .inl ⟨rfl, gap_of_comma hskip rfl first (by simpa using hfirst)⟩
      · cases h

theorem element?_space (first : Bool) {w : List Char} (hw : Space w) (s : List UInt8) :
    element? first (utf8 w ++ s) = element? first s := by
  rw [element?, element?, skipBlank_space hw]

theorem element?_gap {first : Bool} {gap : List Char} (hgap : Gap first gap) {bs : List UInt8} (hbs : Opens bs)
    (rest : List UInt8) : element? first (utf8 gap ++ (bs ++ rest)) = .ok (true, bs ++ rest) := by
  cases first with
  | true =>
    rw [element?_space true hgap]
    exact element?_next true blanks_nil hbs rest
  | false =>
    obtain ⟨w, w', hw, hw', rfl⟩ := hgap
    rw [utf8_split, element?_space false hw, utf8_cons, List.append_assoc, ← List.append_assoc (utf8 w'),
      ← List.append_assoc, ← List.append_assoc]
    exact element?_next false (blanks_space_chars hw') hbs rest

theorem element?_close (first : Bool) {w : List Char} (hw : Space w) (rest : List UInt8) :
    element? first (utf8 (w ++ [']']) ++ rest) = .ok (false, 0x5D :: rest) := by
  rw [utf8_split]
  exact element?_end first (blanks_space_chars hw) rest

theorem elements_sound {r : Reader α} {meaning : Tree → Option α} (h : Exact r meaning) {limit s rest : List UInt8}
    {first : Bool} {as : List α} (hread : elements r limit first s = .ok (as, rest)) :
    ∃ ts cs rest', Elements first ts cs ∧ ts.mapM meaning = some as ∧ rest = 0x5D :: rest' ∧
      s = utf8 cs ++ rest' := by
  induction limit generalizing first s as with
  | nil => cases hread
  | cons _ limit ih =>
    obtain ⟨⟨more, s'⟩, helement, hnext⟩ := bind_eq_ok hread
    obtain ⟨rfl, gap, hgap, rfl⟩ | ⟨rfl, w, rest', hw, rfl, rfl⟩ := element?_sound helement
    · obtain ⟨⟨a, s''⟩, ha, hnext⟩ := bind_eq_ok hnext
      obtain ⟨⟨as, s₃⟩, has, hnext⟩ := bind_eq_ok hnext
      cases hnext
      obtain ⟨w, cs, t, hw, hcs, ht, rfl⟩ := h.sound ha
      obtain ⟨ts, more, rest', hmore, hts, hrest, rfl⟩ := ih has
      refine ⟨t :: ts, gap ++ w ++ cs ++ more, rest', .next first (hgap.append hw) hcs hmore, ?_, hrest, ?_⟩
      · rw [List.mapM_cons, ht, hts]
        rfl
      · simp
    · cases hnext
      exact ⟨[], w ++ [']'], rest', .close first hw, rfl, rfl, rfl⟩

theorem Spelled.bytes_pos {t : Tree} {cs : List Char} (h : Spelled t cs) : 0 < (utf8 cs).length := by
  obtain ⟨b, more, hbytes, -⟩ := h.opens
  rw [hbytes]
  exact Nat.succ_pos _

theorem stops_gap {gap : List Char} (h : Gap false gap) (s : List UInt8) : Stops (utf8 gap ++ s) := by
  obtain ⟨w, w', hw, -, rfl⟩ := h
  rw [utf8_split]
  exact stops_blanks (blanks_space_chars hw) (stops_comma _)

theorem Elements.stops {ts : List Tree} {cs : List Char} (h : Elements false ts cs) (rest : List UInt8) :
    Stops (utf8 cs ++ rest) := by
  cases h with
  | close _ space =>
    rw [utf8_split]
    exact stops_blanks (blanks_space_chars space) (stops_listEnd rest)
  | next _ before =>
    rw [utf8_split, utf8_split]
    exact stops_gap before _

theorem Elements.bytes_pos {first : Bool} {ts : List Tree} {cs : List Char} (h : Elements first ts cs) :
    0 < (utf8 cs).length := by
  cases h with
  | close =>
    rw [utf8_append, List.length_append]
    exact Nat.succ_pos _
  | next _ _ value =>
    have hpos := value.bytes_pos
    simp only [utf8_append, List.length_append]
    omega

theorem elements_complete {r : Reader α} {meaning : Tree → Option α} (h : Exact r meaning) {ts : List Tree}
    {first : Bool} {cs : List Char} (hcs : Elements first ts cs) {as : List α} (has : ts.mapM meaning = some as)
    {limit : List UInt8} (hlimit : (utf8 cs).length ≤ limit.length) (rest : List UInt8) :
    elements r limit first (utf8 cs ++ rest) = .ok (as, 0x5D :: rest) := by
  induction ts generalizing first cs as limit with
  | nil =>
    obtain ⟨b, limit, rfl⟩ := List.exists_cons_of_length_pos (Nat.lt_of_lt_of_le hcs.bytes_pos hlimit)
    cases has
    cases hcs with
    | close _ space =>
      simp only [elements, element?_close first space, bind, Except.bind]
      rfl
  | cons t ts ih =>
    obtain ⟨b, limit, rfl⟩ := List.exists_cons_of_length_pos (Nat.lt_of_lt_of_le hcs.bytes_pos hlimit)
    rw [List.mapM_cons, Option.bind_eq_bind, Option.bind_eq_some_iff] at has
    obtain ⟨a, ha, has⟩ := has
    obtain ⟨as, hts, has⟩ := Option.bind_eq_some_iff.1 has
    cases has
    cases hcs with
    | @next _ _ _ gap cs more before value others =>
      have hnext := element?_gap before value.opens (utf8 more ++ rest)
      have hread := h.complete space_nil value ha (others.stops rest)
      have hmore : (utf8 more).length ≤ limit.length := by
        have hpos := value.bytes_pos
        simp only [utf8_append, List.length_append, List.length_cons] at hlimit
        omega
      have hrest := ih others hts hmore
      rw [List.nil_append] at hread
      rw [utf8_split, utf8_split]
      simp only [elements, hnext, bind, Except.bind, if_true, hread, hrest]
      rfl

theorem listEnd_sound {s rest : List UInt8} (h : listEnd s = .ok rest) :
    ∃ w, Space w ∧ s = utf8 (w ++ [']']) ++ rest := by
  obtain ⟨w, hw, hs⟩ := skipBlank_sound s
  unfold listEnd at h
  split at h
  · cases h
  · next rest' hskip =>
    cases h
    rw [hskip] at hs
    exact ⟨w, hw, hs.trans (utf8_split w [']'] rest).symm⟩
  · split at h <;> cases h
  · cases h

theorem Exact.listOf {r : Reader α} {meaning : Tree → Option α} (h : Exact r meaning) :
    Exact (listOf r) (Tree.list? meaning) where
  sound {s rest as} hread := by
    obtain ⟨w, hw, hs⟩ := skipBlank_sound s
    unfold Json.listOf at hread
    split at hread
    · next s' hskip =>
      obtain ⟨⟨as, s''⟩, has, hread⟩ := bind_eq_ok hread
      obtain ⟨rest, hend, hread⟩ := bind_eq_ok hread
      cases hread
      obtain ⟨ts, cs, rest', hcs, hts, rfl, rfl⟩ := elements_sound h has
      cases hend
      refine ⟨w, _, _, hw, .array hcs, hts, ?_⟩
      rw [hs, hskip]
      exact (utf8_split w ('[' :: cs) rest).symm
    · cases hread
  complete {w cs t as} hw hcs has rest hrest := by
    obtain ⟨ts, hts, has⟩ := Option.bind_eq_some_iff.1 has
    cases hcs with
    | @array ts cs elements =>
      cases hts
      have hskip : skipBlank (utf8 (w ++ '[' :: cs) ++ rest) = 0x5B :: (utf8 cs ++ rest) :=
        skipBlank_spelled hw (.array elements) rest
      have hlimit : (utf8 cs).length ≤ (0x5B :: (utf8 cs ++ rest)).length := by
        simp only [List.length_cons, List.length_append]
        omega
      have hread := elements_complete h elements has hlimit rest
      simp only [Json.listOf, hskip, hread, bind, Except.bind, listEnd_cons]
      rfl
    | _ => cases hts

end OrderDepot.Json
