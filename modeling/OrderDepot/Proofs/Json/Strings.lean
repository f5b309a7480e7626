import OrderDepot.Proofs.Except
import OrderDepot.Proofs.Json.Grammar
import OrderDepot.Proofs.Json.Literal

/-!
# Strings are read just as they are spelled

The scanner goes byte by byte. What it has settled is UTF-8 only if the bytes that stand in the literal as they are
are whole characters, since an escape always settles a whole one. So the characters of a string can be followed one
after the other, each through one piece, or through two that are a pair of surrogates.
-/

namespace OrderDepot.Json

open OrderDepot.Text (encodeChar)

theorem utf8_eq_nil {cs : List Char} (h : utf8 cs = []) : cs = [] := by
  cases cs with
  | nil => rfl
  | cons c cs =>
    obtain ⟨b, bs, hc, -⟩ := Text.encodeChar_shape c
    rw [utf8_cons, hc] at h
    cases h

theorem utf8_eq_append {c : Char} {cs : List Char} {more : List UInt8} (h : encodeChar c ++ more = utf8 cs) :
    ∃ ds, cs = c :: ds ∧ more = utf8 ds := by
  cases cs with
  | nil =>
    obtain ⟨b, bs, hc, -⟩ := Text.encodeChar_shape c
    rw [hc] at h
    cases h
  | cons d ds =>
    obtain ⟨rfl, hmore⟩ := Text.encodeChar_append_inj h
    exact ⟨ds, rfl, hmore⟩

theorem utf8_backslash (cs : List Char) : utf8 ('\\' :: cs) = 0x5C :: utf8 cs := rfl

theorem utf8_u (cs : List Char) : utf8 ('u' :: cs) = 0x75 :: utf8 cs := rfl

theorem Pieces.append {ps qs : List Piece} {cs ds : List Char} (hp : Pieces ps cs) (hq : Pieces qs ds) :
    Pieces (ps ++ qs) (cs ++ ds) := by
  induction hp with
  | nil => exact hq
  | cons first _ ih =>
    rw [List.append_assoc]
    exact .cons first ih

theorem Piece.Spelled.pieces {p : Piece} {cs : List Char} (h : p.Spelled cs) : Pieces [p] cs := by
  have hone := Pieces.cons h .nil
  rwa [List.append_nil] at hone

def Gives (ps : List Piece) (c : Char) : Prop :=
  ∀ qs, resolve none (ps ++ qs) = (resolve none qs).map (c :: ·)

def hexFold (n? : Option Nat) (ns : List Nat) : Option Nat :=
  ns.foldl (fun n? d => do return (← n?) * 16 + (← Text.hexValue? d)) n?

theorem hexNumber?_eq_hexFold (bs : List UInt8) : hexNumber? bs = hexFold (some 0) (bs.map UInt8.toNat) := by
  rw [hexFold, List.foldl_map]
  rfl

theorem hexDigits?_eq_hexFold (cs : List Char) : hexDigits? cs = hexFold (some 0) (cs.map Char.toNat) := by
  rw [hexFold, List.foldl_map]
  rfl

theorem hexValue?_lt {n d : Nat} (h : Text.hexValue? n = some d) : n < 0x80 := by
  unfold Text.hexValue? at h
  split at h
  · omega
  split at h
  · omega
  split at h
  · omega
  · cases h

theorem hexFold_ascii {ns : List Nat} {n? : Option Nat} {n : Nat} (h : hexFold n? ns = some n) :
    n? ≠ none ∧ ∀ k ∈ ns, k < 0x80 := by
  induction ns generalizing n? with
  | nil => exact ⟨by simpa [hexFold] using fun hnone => by simp [hexFold, hnone] at h, by simp⟩
  | cons k ns ih =>
    obtain ⟨hfirst, hns⟩ := ih h
    obtain ⟨m, hm⟩ := Option.ne_none_iff_exists'.1 hfirst
    obtain ⟨v, hv, hm⟩ := Option.bind_eq_some_iff.1 hm
    obtain ⟨d, hd, -⟩ := Option.bind_eq_some_iff.1 hm
    exact ⟨by simp [hv], List.forall_mem_cons.2 ⟨hexValue?_lt hd, hns⟩⟩

theorem exists_hexDigits {a b c d : UInt8} {n : Nat} (h : hexNumber? [a, b, c, d] = some n) :
    ∃ a' b' c' d', utf8 [a', b', c', d'] = [a, b, c, d] ∧ hexDigits? [a', b', c', d'] = some n := by
  rw [hexNumber?_eq_hexFold] at h
  obtain ⟨-, hascii⟩ := hexFold_ascii h
  simp only [List.map_cons, List.forall_mem_cons] at hascii
  obtain ⟨ha, hb, hc, hd, -⟩ := hascii
  obtain ⟨a', ha', hutf8a⟩ := Text.exists_ascii ha
  obtain ⟨b', hb', hutf8b⟩ := Text.exists_ascii hb
  obtain ⟨c', hc', hutf8c⟩ := Text.exists_ascii hc
  obtain ⟨d', hd', hutf8d⟩ := Text.exists_ascii hd
  refine ⟨a', b', c', d', ?_, ?_⟩
  · simp only [utf8_cons, hutf8a, hutf8b, hutf8c, hutf8d]
    rfl
  · rw [hexDigits?_eq_hexFold, ← h]
    simp only [List.map_cons, List.map_nil, ha', hb', hc', hd']

theorem hexNumber?_utf8 {ds : List Char} {n : Nat} (h : hexDigits? ds = some n) :
    utf8 ds = ds.map (fun c => UInt8.ofNat c.toNat) ∧ hexNumber? (utf8 ds) = some n := by
  rw [hexDigits?_eq_hexFold] at h
  obtain ⟨-, hascii⟩ := hexFold_ascii h
  have hbytes : utf8 ds = ds.map fun c => UInt8.ofNat c.toNat := by
    clear h
    induction ds with
    | nil => rfl
    | cons d ds ih =>
      rw [List.map_cons, List.forall_mem_cons] at hascii
      rw [utf8_cons, Text.encodeChar_ascii hascii.1, ih hascii.2]
      rfl
  refine ⟨hbytes, ?_⟩
  rw [hexNumber?_eq_hexFold, hbytes, ← h, List.map_map]
  congr 1
  refine List.map_congr_left fun c hc => ?_
  exact UInt8.toNat_ofNat_of_lt' (Nat.lt_trans (hascii _ (List.mem_map_of_mem hc)) (by decide))

theorem scan_inv {q : Scan} {s content rest : List UInt8} (h : scan q s = .ok (content, rest)) :
    ∃ b s', s = b :: s' ∧ (q.closes b = true ∧ content = [] ∧ rest = s' ∨
      q.closes b = false ∧ ∃ settled next more, q.step b = .ok (settled, next) ∧
        scan next s' = .ok (more, rest) ∧ content = settled ++ more) := by
  cases s with
  | nil => cases h
  | cons b s =>
    refine ⟨b, s, rfl, ?_⟩
    simp only [scan] at h
    split at h
    · next hcloses =>
      obtain ⟨rfl, rfl⟩ := Prod.mk.inj (Except.ok.inj h)
      exact .inl ⟨hcloses, rfl, rfl⟩
    · next hcloses =>
      refine .inr ⟨by simpa using hcloses, ?_⟩
      split at h
      · cases h
      · next settled next hstep =>
        obtain ⟨⟨more, rest'⟩, hscan, h⟩ := bind_eq_ok h
        obtain ⟨rfl, rfl⟩ := Prod.mk.inj (Except.ok.inj h)
        exact ⟨settled, next, more, hstep, hscan, rfl⟩

theorem scan_taking {q : Scan} {s content rest : List UInt8} (hq : ∀ b, q.closes b = false)
    (h : scan q s = .ok (content, rest)) : ∃ b s' settled next more, s = b :: s' ∧ q.step b = .ok (settled, next) ∧
      scan next s' = .ok (more, rest) ∧ content = settled ++ more := by
  obtain ⟨b, s', rfl, ⟨hcloses, -⟩ | ⟨-, settled, next, more, hrest⟩⟩ := scan_inv h
  · rw [hq b] at hcloses
    cases hcloses
  · exact ⟨b, s', settled, next, more, rfl, hrest⟩

theorem scan_digit {seen s content rest : List UInt8} {lead : Option Nat}
    (h : scan (.unit seen lead) s = .ok (content, rest)) (hseen : seen.length < 3) :
    ∃ b s', s = b :: s' ∧ scan (.unit (b :: seen) lead) s' = .ok (content, rest) := by
  obtain ⟨b, s', settled, next, more, rfl, hstep, hscan, rfl⟩ := scan_taking (fun _ => rfl) h
  rw [Scan.step, if_pos hseen] at hstep
  obtain ⟨rfl, rfl⟩ := Prod.mk.inj (Except.ok.inj hstep)
  exact ⟨b, s', rfl, hscan⟩

theorem scan_digits {s content rest : List UInt8} {lead : Option Nat}
    (h : scan (.unit [] lead) s = .ok (content, rest)) :
    ∃ a b c d n s' settled next more, hexDigits? [a, b, c, d] = some n ∧ s = utf8 [a, b, c, d] ++ s' ∧
      closeUnit lead n = .ok (settled, next) ∧ scan next s' = .ok (more, rest) ∧ content = settled ++ more := by
  obtain ⟨a, s₁, rfl, h₁⟩ := scan_digit h (by simp)
  obtain ⟨b, s₂, rfl, h₂⟩ := scan_digit h₁ (by simp)
  obtain ⟨c, s₃, rfl, h₃⟩ := scan_digit h₂ (by simp)
  obtain ⟨d, s', settled, next, more, rfl, hstep, hscan, rfl⟩ := scan_taking (fun _ => rfl) h₃
  rw [Scan.step, if_neg (show ¬ [c, b, a].length < 3 by simp)] at hstep
  split at hstep
  · next n hn =>
    obtain ⟨a', b', c', d', hutf8, hdigits⟩ := exists_hexDigits hn
    exact ⟨a', b', c', d', n, s', settled, next, more, hdigits, by rw [hutf8]; rfl, hstep, hscan, rfl⟩
  · cases hstep

theorem closeUnit_some (lead n : Nat) : closeUnit (some lead) n =
    if isTrail n then .ok (encodeChar (pairChar lead n), .plain) else .error .unpairedSurrogate := rfl

theorem scan_pair_inv {lead : Nat} {s content rest : List UInt8} (h : scan (.pair lead) s = .ok (content, rest)) :
    ∃ cs n s' more, (Piece.unit n).Spelled cs ∧ isTrail n = true ∧ s = utf8 cs ++ s' ∧
      content = encodeChar (pairChar lead n) ++ more ∧ scan .plain s' = .ok (more, rest) := by
  obtain ⟨x, s₁, settled, next, more, rfl, hstep, hscan, rfl⟩ := scan_taking (fun _ => rfl) h
  simp only [Scan.step] at hstep
  split at hstep
  · next hx =>
    obtain ⟨rfl, rfl⟩ := Prod.mk.inj (Except.ok.inj hstep)
    obtain ⟨y, s₂, settled, next, more, rfl, hstep, hscan, rfl⟩ := scan_taking (fun _ => rfl) hscan
    simp only [Scan.step] at hstep
    split at hstep
    · next hy =>
      obtain ⟨rfl, rfl⟩ := Prod.mk.inj (Except.ok.inj hstep)
      obtain ⟨a, b, c, d, n, s', settled, next, more, hdigits, rfl, hclose, hscan, hcontent⟩ := scan_digits hscan
      rw [closeUnit_some] at hclose
      split at hclose
      · next htrail =>
        obtain ⟨hsettled, rfl⟩ := Prod.mk.inj (Except.ok.inj hclose)
        refine ⟨_, n, s', more, .unit hdigits, htrail, ?_, by rw [hcontent, hsettled]; rfl, hscan⟩
        rw [hx, hy, utf8_backslash, utf8_u]
        simp only [List.cons_append]
      · cases hclose
    · cases hstep
  · cases hstep

/-- Behind `\u` comes one unit that is a character, or a pair of surrogates. -/
theorem scan_unit_inv {s content rest : List UInt8} (h : scan (.unit [] none) s = .ok (content, rest)) :
    ∃ ps cs c s' more, Pieces ps ('\\' :: 'u' :: cs) ∧ Gives ps c ∧ s = utf8 cs ++ s' ∧
      content = encodeChar c ++ more ∧ scan .plain s' = .ok (more, rest) := by
  obtain ⟨a, b, c, d, n, s, settled, next, more, hdigits, rfl, hclose, hscan, rfl⟩ := scan_digits h
  have hfirst := (Piece.Spelled.unit hdigits).pieces
  simp only [closeUnit] at hclose
  split at hclose
  · cases hclose
  · next htrail =>
    split at hclose
    · next hlead =>
      obtain ⟨rfl, rfl⟩ := Prod.mk.inj (Except.ok.inj hclose)
      obtain ⟨cs, m, s', more, hspelled, htrail', rfl, hcontent, hscan⟩ := scan_pair_inv hscan
      refine ⟨_, a :: b :: c :: d :: cs, pairChar n m, s', more, .append hfirst hspelled.pieces, ?_, ?_, hcontent,
        hscan⟩
      · intro qs
        simp [resolve, htrail, hlead, htrail']
      · simp
    · next hlead =>
      obtain ⟨rfl, rfl⟩ := Prod.mk.inj (Except.ok.inj hclose)
      refine ⟨_, _, _, s, more, hfirst, ?_, rfl, rfl, hscan⟩
      intro qs
      simp [resolve, htrail, hlead]

theorem mem_escapes {b c : UInt8} (h : escaped? b = some c) :
    ∃ e d, (e, d) ∈ escapes ∧ encodeChar e = [b] ∧ encodeChar d = [c] := by
  unfold escaped? at h
  split at h
  · obtain rfl := Option.some.inj h
    exact ⟨'"', '"', by decide, rfl, rfl⟩
  · obtain rfl := Option.some.inj h
    exact ⟨'\\', '\\', by decide, rfl, rfl⟩
  · obtain rfl := Option.some.inj h
    exact ⟨'/', '/', by decide, rfl, rfl⟩
  · obtain rfl := Option.some.inj h
    exact ⟨'b', '\x08', by decide, rfl, rfl⟩
  · obtain rfl := Option.some.inj h
    exact ⟨'f', '\x0c', by decide, rfl, rfl⟩
  · obtain rfl := Option.some.inj h
    exact ⟨'n', '\n', by decide, rfl, rfl⟩
  · obtain rfl := Option.some.inj h
    exact ⟨'r', '\r', by decide, rfl, rfl⟩
  · obtain rfl := Option.some.inj h
    exact ⟨'t', '\t', by decide, rfl, rfl⟩
  · cases h

theorem scan_escape_inv {s content rest : List UInt8} (h : scan .escape s = .ok (content, rest)) :
    ∃ ps cs c s' more, Pieces ps ('\\' :: cs) ∧ Gives ps c ∧ s = utf8 cs ++ s' ∧
      content = encodeChar c ++ more ∧ scan .plain s' = .ok (more, rest) := by
  obtain ⟨b, s, settled, next, more, rfl, hstep, hscan, rfl⟩ := scan_taking (fun _ => rfl) h
  simp only [Scan.step] at hstep
  split at hstep
  · next hb =>
    obtain ⟨rfl, rfl⟩ := Prod.mk.inj (Except.ok.inj hstep)
    obtain ⟨ps, cs, c, s', more, hpieces, hgives, rfl, hcontent, hscan⟩ := scan_unit_inv hscan
    exact ⟨ps, 'u' :: cs, c, s', more, hpieces, hgives, by rw [hb, utf8_u]; rfl, hcontent, hscan⟩
  · split at hstep
    · next c hc =>
      obtain ⟨rfl, rfl⟩ := Prod.mk.inj (Except.ok.inj hstep)
      obtain ⟨e, d, hknown, he, hd⟩ := mem_escapes hc
      refine ⟨[.char d], [e], d, s, more, (Piece.Spelled.escape hknown).pieces, fun _ => rfl, ?_, ?_, hscan⟩
      · rw [utf8_cons, he]
        rfl
      · rw [hd]
    · cases hstep

theorem scan_plain_inv {s content rest : List UInt8} (h : scan .plain s = .ok (content, rest)) :
    (s = 0x22 :: rest ∧ content = []) ∨
      (∃ b s' more, s = b :: s' ∧ (b ≠ 0x22 ∧ b ≠ 0x5C ∧ ¬ b < 0x20) ∧ content = b :: more ∧
        scan .plain s' = .ok (more, rest)) ∨
      ∃ ps cs c s' more, Pieces ps cs ∧ Gives ps c ∧ s = utf8 cs ++ s' ∧ content = encodeChar c ++ more ∧
        scan .plain s' = .ok (more, rest) := by
  obtain ⟨b, s', rfl, ⟨hcloses, hcontent, rfl⟩ | ⟨hcloses, settled, next, more, hstep, hscan, rfl⟩⟩ := scan_inv h
  · obtain rfl : b = 0x22 := beq_iff_eq.1 hcloses
    exact .inl ⟨rfl, hcontent⟩
  · have hquote : b ≠ 0x22 := by simpa [Scan.closes] using hcloses
    simp only [Scan.step] at hstep
    split at hstep
    · next hb =>
      obtain ⟨rfl, rfl⟩ := Prod.mk.inj (Except.ok.inj hstep)
      obtain ⟨ps, cs, c, s', more, hpieces, hgives, rfl, hcontent, hscan⟩ := scan_escape_inv hscan
      refine .inr (.inr ⟨ps, _, c, s', more, hpieces, hgives, ?_, hcontent, hscan⟩)
      rw [hb, utf8_backslash]
      rfl
    · next hbackslash =>
      split at hstep
      · cases hstep
      · next hcontrol =>
        obtain ⟨rfl, rfl⟩ := Prod.mk.inj (Except.ok.inj hstep)
        exact .inr (.inl ⟨b, s', more, rfl, ⟨hquote, hbackslash, hcontrol⟩, rfl, hscan⟩)

theorem scan_tail_inv {bs s more rest : List UInt8} (hbs : ∀ b ∈ bs, 0x80 ≤ b ∧ b < 0xC0)
    (h : scan .plain s = .ok (bs ++ more, rest)) : ∃ s', s = bs ++ s' ∧ scan .plain s' = .ok (more, rest) := by
  induction bs generalizing s with
  | nil => exact ⟨s, rfl, h⟩
  | cons b bs ih =>
    obtain ⟨hlow, hhigh⟩ := hbs b List.mem_cons_self
    rcases scan_plain_inv h with ⟨-, hnil⟩ | ⟨b', s', more', rfl, -, hcontent, hscan⟩ |
      ⟨_, _, c, _, _, -, -, -, hcontent, -⟩
    · cases hnil
    · obtain ⟨rfl, rfl⟩ := List.cons.inj hcontent
      obtain ⟨s'', rfl, hrest⟩ := ih (fun b hb => hbs b (List.mem_cons_of_mem _ hb)) hscan
      exact ⟨s'', rfl, hrest⟩
    · obtain ⟨first, others, hc, -, hlead, -⟩ := Text.encodeChar_shape c
      rw [hc] at hcontent
      obtain ⟨rfl, -⟩ := List.cons.inj hcontent
      exact absurd (hlead (UInt8.not_lt.2 hlow)) (UInt8.not_le.2 hhigh)

theorem plain_spelled {c : Char} {b : UInt8} {bs : List UInt8} (hc : encodeChar c = b :: bs) (hquote : b ≠ 0x22)
    (hbackslash : b ≠ 0x5C) (hcontrol : ¬ b < 0x20) : (Piece.char c).Spelled [c] := by
  refine .plain (Nat.not_lt.1 fun hlow => ?_) ?_ ?_
  · rw [Text.encodeChar_ascii (Nat.lt_trans hlow (by decide))] at hc
    obtain ⟨rfl, -⟩ := List.cons.inj hc
    refine hcontrol ?_
    rw [UInt8.lt_iff_toNat_lt, UInt8.toNat_ofNat_of_lt' (Nat.lt_trans hlow (by decide))]
    exact hlow
  · rintro rfl
    exact hquote (List.cons.inj hc).1.symm
  · rintro rfl
    exact hbackslash (List.cons.inj hc).1.symm

theorem scan_sound {s rest : List UInt8} {us : List Char} (h : scan .plain s = .ok (utf8 us, rest)) :
    ∃ ps cs, Pieces ps cs ∧ resolve none ps = some us ∧ s = utf8 cs ++ 0x22 :: rest := by
  induction us generalizing s with
  | nil =>
    rcases scan_plain_inv h with ⟨rfl, -⟩ | ⟨_, _, _, -, -, hcontent, -⟩ | ⟨_, _, c, _, more, -, -, -, hcontent, -⟩
    · exact ⟨[], [], .nil, rfl, rfl⟩
    · cases hcontent
    · obtain ⟨_, heq, -⟩ := @utf8_eq_append c [] more hcontent.symm
      cases heq
  | cons u us ih =>
    obtain ⟨first, others, hu, hshape⟩ := Text.encodeChar_shape u
    rcases scan_plain_inv h with ⟨-, hnil⟩ | ⟨b, s', more, rfl, ⟨hquote, hbackslash, hcontrol⟩, hcontent, hscan⟩ |
      ⟨ps, cs, c, s', more, hpieces, hgives, rfl, hcontent, hscan⟩
    · cases utf8_eq_nil hnil
    · rw [utf8_cons, hu] at hcontent
      obtain ⟨rfl, rfl⟩ := List.cons.inj hcontent
      obtain ⟨s'', rfl, hrest⟩ := scan_tail_inv hshape.2.2 hscan
      obtain ⟨ps, cs, hpieces, hresolve, rfl⟩ := ih hrest
      refine ⟨.char u :: ps, u :: cs, .cons (plain_spelled hu hquote hbackslash hcontrol) hpieces, ?_, ?_⟩
      · rw [resolve, hresolve]
        rfl
      · rw [utf8_cons, hu]
        simp
    · obtain ⟨rfl, rfl⟩ := Text.encodeChar_append_inj hcontent
      obtain ⟨qs, ds, hpieces', hresolve, rfl⟩ := ih hscan
      refine ⟨ps ++ qs, cs ++ ds, hpieces.append hpieces', ?_, ?_⟩
      · rw [hgives, hresolve]
        rfl
      · rw [utf8_append, List.append_assoc]

theorem escaped?_of_known {e c : Char} (h : (e, c) ∈ escapes) :
    ∃ b d, encodeChar e = [b] ∧ encodeChar c = [d] ∧ b ≠ 0x75 ∧ escaped? b = some d := by
  simp only [escapes, List.mem_cons, Prod.mk.injEq, List.not_mem_nil, or_false] at h
  rcases h with ⟨rfl, rfl⟩ | ⟨rfl, rfl⟩ | ⟨rfl, rfl⟩ | ⟨rfl, rfl⟩ | ⟨rfl, rfl⟩ | ⟨rfl, rfl⟩ | ⟨rfl, rfl⟩ |
    ⟨rfl, rfl⟩ <;>
  exact ⟨_, _, rfl, rfl, by decide, rfl⟩

theorem scan_complete {ps : List Piece} {cs us : List Char} {lead : Option Nat} {rest : List UInt8}
    (h : Pieces ps cs) (hresolve : resolve lead ps = some us) :
    scan (waiting lead) (utf8 cs ++ 0x22 :: rest) = .ok (utf8 us, rest) := by
  induction h generalizing lead us with
  | nil =>
    cases lead with
    | none =>
      obtain rfl := Option.some.inj hresolve
      rfl
    | some lead => cases hresolve
  | cons first _ ih =>
    rw [utf8_append, List.append_assoc]
    cases first with
    | @plain c printable quote backslash =>
      cases lead with
      | none =>
        obtain ⟨us, hus, rfl⟩ := Option.map_eq_some_iff.1 hresolve
        rw [utf8_cons, utf8_nil, List.append_nil]
        exact scan_plain (plain_of_char quote backslash (Nat.not_lt.2 printable)) (ih hus)
      | some lead => cases hresolve
    | @escape e c known =>
      cases lead with
      | none =>
        obtain ⟨us, hus, rfl⟩ := Option.map_eq_some_iff.1 hresolve
        obtain ⟨b, d, he, hc, hb, hescaped⟩ := escaped?_of_known known
        rw [utf8_backslash, utf8_cons, utf8_nil, he, utf8_cons, hc]
        exact scan_escape hb hescaped (ih hus)
      | some lead => cases hresolve
    | @unit a b c d n digits =>
      obtain ⟨hbytes, hnumber⟩ := hexNumber?_utf8 digits
      rw [utf8_backslash, utf8_u, hbytes]
      rw [hbytes] at hnumber
      cases lead with
      | none =>
        rw [resolve] at hresolve
        split at hresolve
        · cases hresolve
        · next htrail =>
          split at hresolve
          · next hlead =>
            have hclose : closeUnit none n = .ok ([], .pair n) := by simp [closeUnit, htrail, hlead]
            exact scan_closeUnit hnumber hclose (ih hresolve)
          · next hlead =>
            obtain ⟨us, hus, rfl⟩ := Option.map_eq_some_iff.1 hresolve
            have hclose : closeUnit none n = .ok (encodeChar (Char.ofNat n), .plain) := by
              simp [closeUnit, htrail, hlead]
            exact scan_closeUnit hnumber hclose (ih hus)
      | some lead =>
        rw [resolve] at hresolve
        split at hresolve
        · next htrail =>
          obtain ⟨us, hus, rfl⟩ := Option.map_eq_some_iff.1 hresolve
          have hclose : closeUnit (some lead) n = .ok (encodeChar (pairChar lead n), .plain) := by
            rw [closeUnit_some, if_pos htrail]
          exact scan_closeUnit hnumber hclose (ih hus)
        · cases hresolve

theorem literal_sound {s rest : List UInt8} {t : String} (h : literal s = .ok (t, rest)) :
    ∃ cs, Quoted (some t) ('"' :: cs) ∧ s = utf8 cs ++ rest := by
  obtain ⟨⟨content, rest'⟩, hscan, h⟩ := bind_eq_ok h
  dsimp only at h
  split at h
  · next t' ht =>
    obtain ⟨rfl, rfl⟩ := Prod.mk.inj (Except.ok.inj h)
    rw [Text.eq_bytes_of_text? ht, Text.bytes_eq] at hscan
    obtain ⟨ps, cs, hpieces, hresolve, rfl⟩ := scan_sound hscan
    refine ⟨cs ++ ['"'], ⟨ps, cs, hpieces, ?_, rfl⟩, ?_⟩
    · rw [hresolve, Option.map_some, String.ofList_toList]
    · rw [utf8_append, List.append_assoc]
      rfl
  · cases h

theorem literal_complete {cs : List Char} {t : String} (h : Quoted (some t) ('"' :: cs)) (rest : List UInt8) :
    literal (utf8 cs ++ rest) = .ok (t, rest) := by
  obtain ⟨ps, body, hpieces, hvalue, hcs⟩ := h
  obtain ⟨us, hresolve, rfl⟩ := Option.map_eq_some_iff.1 hvalue.symm
  obtain rfl : cs = body ++ ['"'] := (List.cons.inj hcs).2
  have hscan : scan .plain (utf8 (body ++ ['"']) ++ rest) = .ok (utf8 us, rest) := by
    rw [utf8_append, List.append_assoc]
    exact @scan_complete ps body us none rest hpieces hresolve
  have htext : Text.text? (utf8 us) = some (String.ofList us) := by
    rw [← bytes_eq_utf8]
    exact Text.text?_bytes _
  simp only [literal, hscan, bind, Except.bind, htext]
  rfl

end OrderDepot.Json
