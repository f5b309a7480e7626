import Mathlib.Data.List.Nodup
import OrderDepot.Proofs.Json.Grammar
import OrderDepot.Proofs.Text.Utf8

/-!
# The grammar is unambiguous

A document has one tree. Strings, arrays and objects end with their own last character; a number goes on as far as it
can, and what may follow a value continues no number. So two spellings in front of whatever follows them are the same
if the texts are.
-/

namespace OrderDepot.Json

def IsSpace (c : Char) : Prop :=
  c = ' ' ∨ c = '\t' ∨ c = '\n' ∨ c = '\r'

def Free (P : Char → Prop) (cs : List Char) : Prop :=
  ∀ c, cs.head? = some c → ¬ P c

theorem free_cons {P : Char → Prop} {c : Char} (h : ¬ P c) (cs : List Char) : Free P (c :: cs) := by
  rintro _ ⟨⟩
  exact h

theorem span_unique {P : Char → Prop} {cs ds more more' : List Char} (hcs : ∀ c ∈ cs, P c) (hds : ∀ c ∈ ds, P c)
    (hmore : Free P more) (hmore' : Free P more') (h : cs ++ more = ds ++ more') : cs = ds ∧ more = more' := by
  induction cs generalizing ds with
  | nil =>
    cases ds with
    | nil => exact ⟨rfl, h⟩
    | cons d ds =>
      obtain rfl : more = d :: (ds ++ more') := h
      exact absurd (hds d List.mem_cons_self) (hmore d rfl)
  | cons c cs ih =>
    cases ds with
    | nil =>
      obtain rfl : c :: (cs ++ more) = more' := h
      exact absurd (hcs c List.mem_cons_self) (hmore' c rfl)
    | cons d ds =>
      obtain ⟨rfl, htail⟩ := List.cons.inj h
      obtain ⟨rfl, hrest⟩ := ih (fun c hc => hcs c (List.mem_cons_of_mem _ hc))
        (fun d hd => hds d (List.mem_cons_of_mem _ hd)) htail
      exact ⟨rfl, hrest⟩

theorem space_unique {w w' cs ds : List Char} (hw : Space w) (hw' : Space w') (hcs : Free IsSpace cs)
    (hds : Free IsSpace ds) (h : w ++ cs = w' ++ ds) : w = w' ∧ cs = ds :=
  span_unique (P := IsSpace) hw hw' hcs hds h

theorem gap_unique {first : Bool} {gap gap' cs ds : List Char} (hgap : Gap first gap) (hgap' : Gap first gap')
    (hcs : Free IsSpace cs) (hds : Free IsSpace ds) (h : gap ++ cs = gap' ++ ds) : gap = gap' ∧ cs = ds := by
  cases first with
  | true => exact space_unique hgap hgap' hcs hds h
  | false =>
    obtain ⟨v, w, hv, hw, rfl⟩ := hgap
    obtain ⟨v', w', hv', hw', rfl⟩ := hgap'
    have hcomma : ¬ IsSpace ',' := by simp [IsSpace]
    rw [List.append_assoc, List.append_assoc] at h
    obtain ⟨rfl, hcommas⟩ := space_unique hv hv' (free_cons hcomma _) (free_cons hcomma _) h
    obtain ⟨rfl, hrest⟩ := space_unique hw hw' hcs hds (List.cons.inj hcommas).2
    exact ⟨rfl, hrest⟩

theorem escapes_unique {e c c' : Char} (h : (e, c) ∈ escapes) (h' : (e, c') ∈ escapes) : c = c' := by
  have hletters : (escapes.map (·.1)).Nodup := by decide
  exact (Prod.mk.inj (List.inj_on_of_nodup_map hletters h h' rfl)).2

theorem escapes_not_u {c : Char} (h : ('u', c) ∈ escapes) : False := by
  simp [escapes] at h

theorem Piece.Spelled.unique {p q : Piece} {cs ds more more' : List Char} (hp : p.Spelled cs) (hq : q.Spelled ds)
    (h : cs ++ more = ds ++ more') : p = q ∧ cs = ds ∧ more = more' := by
  cases hp with
  | plain _ _ backslash =>
    cases hq with
    | plain =>
      obtain ⟨rfl, hrest⟩ := List.cons.inj h
      exact ⟨rfl, rfl, hrest⟩
    | escape => exact absurd (List.cons.inj h).1 backslash
    | unit => exact absurd (List.cons.inj h).1 backslash
  | escape known =>
    cases hq with
    | plain _ _ backslash => exact absurd (List.cons.inj h).1.symm backslash
    | escape known' =>
      obtain ⟨rfl, hrest⟩ := List.cons.inj (List.cons.inj h).2
      exact ⟨congrArg _ (escapes_unique known known'), rfl, hrest⟩
    | unit =>
      obtain ⟨rfl, -⟩ := List.cons.inj (List.cons.inj h).2
      exact (escapes_not_u known).elim
  | unit digits =>
    cases hq with
    | plain _ _ backslash => exact absurd (List.cons.inj h).1.symm backslash
    | escape known =>
      obtain ⟨rfl, -⟩ := List.cons.inj (List.cons.inj h).2
      exact (escapes_not_u known).elim
    | unit digits' =>
      simp only [List.cons_append, List.nil_append, List.cons.injEq, true_and] at h
      obtain ⟨rfl, rfl, rfl, rfl, hrest⟩ := h
      exact ⟨congrArg _ (Option.some.inj (digits.symm.trans digits')), rfl, hrest⟩

theorem Piece.Spelled.head {p : Piece} {cs more more' : List Char} (h : p.Spelled cs) :
    cs ++ more ≠ '"' :: more' := by
  cases h with
  | plain _ quote => exact fun heq => quote (List.cons.inj heq).1
  | escape => simp
  | unit => simp

theorem Pieces.unique {ps qs : List Piece} {cs ds more more' : List Char} (hp : Pieces ps cs) (hq : Pieces qs ds)
    (h : cs ++ '"' :: more = ds ++ '"' :: more') : ps = qs ∧ cs = ds ∧ more = more' := by
  induction hp generalizing qs ds with
  | nil =>
    cases hq with
    | nil => exact ⟨rfl, rfl, (List.cons.inj h).2⟩
    | cons first =>
      rw [List.append_assoc] at h
      exact absurd h.symm first.head
  | cons first _ ih =>
    cases hq with
    | nil =>
      rw [List.append_assoc] at h
      exact absurd h first.head
    | cons first' others' =>
      rw [List.append_assoc, List.append_assoc] at h
      obtain ⟨rfl, rfl, hothers⟩ := first.unique first' h
      obtain ⟨rfl, rfl, hrest⟩ := ih others' hothers
      exact ⟨rfl, rfl, hrest⟩

theorem Quoted.unique {value value' : Option String} {cs ds more more' : List Char} (hv : Quoted value cs)
    (hv' : Quoted value' ds) (h : cs ++ more = ds ++ more') : value = value' ∧ cs = ds ∧ more = more' := by
  obtain ⟨ps, body, hp, rfl, rfl⟩ := hv
  obtain ⟨qs, body', hq, rfl, rfl⟩ := hv'
  simp only [List.cons_append, List.append_assoc, List.nil_append, List.cons.injEq, true_and] at h
  obtain ⟨rfl, rfl, hrest⟩ := hp.unique hq h
  exact ⟨rfl, rfl, hrest⟩

/-- What may follow a value: the end, white space, or a character that separates or closes. -/
def Ends (cs : List Char) : Prop :=
  ∀ c, cs.head? = some c → IsSpace c ∨ c = ',' ∨ c = ']' ∨ c = '\x7d'

theorem Ends.free {P : Char → Prop} {cs : List Char} (h : Ends cs)
    (hP : ¬ P ' ' ∧ ¬ P '\t' ∧ ¬ P '\n' ∧ ¬ P '\r' ∧ ¬ P ',' ∧ ¬ P ']' ∧ ¬ P '\x7d') : Free P cs := by
  obtain ⟨hspace, htab, hline, hreturn, hcomma, hlist, hobject⟩ := hP
  intro c hc
  rcases h c hc with (rfl | rfl | rfl | rfl) | rfl | rfl | rfl <;> assumption

theorem Digits.unique {ds ds' more more' : List Char} (hds : Digits ds) (hds' : Digits ds')
    (hmore : Free (·.isDigit = true) more) (hmore' : Free (·.isDigit = true) more') (h : ds ++ more = ds' ++ more') :
    ds = ds' ∧ more = more' :=
  span_unique hds.digits hds'.digits hmore hmore' h

theorem Exponent.free {P : Char → Prop} {cs more : List Char} (hcs : Exponent cs) (hmore : Free P more)
    (hP : ¬ P 'e' ∧ ¬ P 'E') : Free P (cs ++ more) := by
  obtain rfl | ⟨mark, sign, ds, rfl | rfl, -, -, rfl⟩ := hcs
  · exact hmore
  · exact free_cons hP.1 _
  · exact free_cons hP.2 _

theorem Fraction.free {P : Char → Prop} {cs more : List Char} (hcs : Fraction cs) (hmore : Free P more)
    (hP : ¬ P '.') : Free P (cs ++ more) := by
  obtain rfl | ⟨ds, -, rfl⟩ := hcs
  · exact hmore
  · exact free_cons hP _

theorem Fraction.unique {cs ds more more' : List Char} (hcs : Fraction cs) (hds : Fraction ds)
    (hmore : Free (fun c => c.isDigit = true ∨ c = '.') more) (hmore' : Free (fun c => c.isDigit = true ∨ c = '.') more')
    (h : cs ++ more = ds ++ more') : cs = ds ∧ more = more' := by
  obtain rfl | ⟨digits, hdigits, rfl⟩ := hcs
  · obtain rfl | ⟨digits', -, rfl⟩ := hds
    · exact ⟨rfl, h⟩
    · obtain rfl : more = '.' :: (digits' ++ more') := h
      exact absurd (.inr rfl) (hmore _ rfl)
  · obtain rfl | ⟨digits', hdigits', rfl⟩ := hds
    · obtain rfl : '.' :: (digits ++ more) = more' := h
      exact absurd (.inr rfl) (hmore' _ rfl)
    · obtain ⟨rfl, hrest⟩ := hdigits.unique hdigits' (fun c hc hdigit => hmore c hc (.inl hdigit))
        (fun c hc hdigit => hmore' c hc (.inl hdigit)) (List.cons.inj h).2
      exact ⟨rfl, hrest⟩

theorem Digits.exists_cons {ds : List Char} (h : Digits ds) : ∃ d more, ds = d :: more ∧ d.isDigit = true := by
  cases ds with
  | nil => exact absurd rfl h.nonempty
  | cons d more => exact ⟨d, more, rfl, h.digits d List.mem_cons_self⟩

theorem Digits.free {P : Char → Prop} {ds : List Char} (h : Digits ds) (hP : ∀ c, c.isDigit = true → ¬ P c)
    (more : List Char) : Free P (ds ++ more) := by
  obtain ⟨d, ds, rfl, hd⟩ := h.exists_cons
  exact free_cons (hP d hd) _

theorem Exponent.unique {cs ds more more' : List Char} (hcs : Exponent cs) (hds : Exponent ds) (hmore : Ends more)
    (hmore' : Ends more') (h : cs ++ more = ds ++ more') : cs = ds ∧ more = more' := by
  have hmark : ∀ {mark : Char} {rest : List Char}, mark = 'e' ∨ mark = 'E' → ¬ Ends (mark :: rest) := by
    rintro _ rest (rfl | rfl) hends
    · exact absurd (hends 'e' rfl) (by simp [IsSpace])
    · exact absurd (hends 'E' rfl) (by simp [IsSpace])
  obtain rfl | ⟨mark, sign, digits, hm, hsign, hdigits, rfl⟩ := hcs
  · obtain rfl | ⟨mark', sign', digits', hm', -, -, rfl⟩ := hds
    · exact ⟨rfl, h⟩
    · obtain rfl : more = mark' :: (sign' ++ digits' ++ more') := h
      exact absurd hmore (hmark hm')
  · obtain rfl | ⟨mark', sign', digits', hm', hsign', hdigits', rfl⟩ := hds
    · obtain rfl : mark :: (sign ++ digits ++ more) = more' := h
      exact absurd hmore' (hmark hm)
    · have hsigns : ∀ {sign : List Char}, sign = [] ∨ sign = ['+'] ∨ sign = ['-'] → ∀ c ∈ sign, c = '+' ∨ c = '-' := by
        rintro _ (rfl | rfl | rfl) <;> simp
      have hdigit : ∀ c : Char, c.isDigit = true → ¬ (c = '+' ∨ c = '-') := by
        rintro _ hc (rfl | rfl) <;> cases hc
      simp only [List.cons_append, List.append_assoc, List.cons.injEq] at h
      obtain ⟨rfl, htail⟩ := h
      obtain ⟨rfl, hnumbers⟩ := span_unique (hsigns hsign) (hsigns hsign') (hdigits.free hdigit more)
        (hdigits'.free hdigit more') htail
      obtain ⟨rfl, hrest⟩ := hdigits.unique hdigits' (hmore.free (by decide)) (hmore'.free (by decide)) hnumbers
      exact ⟨rfl, hrest⟩

theorem sign_unique {negative negative' : Bool} {cs ds : List Char} (hcs : Free (· = '-') cs) (hds : Free (· = '-') ds)
    (h : (if negative then ['-'] else []) ++ cs = (if negative' then ['-'] else []) ++ ds) :
    negative = negative' ∧ cs = ds := by
  cases negative with
  | true =>
    cases negative' with
    | true => exact ⟨rfl, (List.cons.inj h).2⟩
    | false =>
      obtain rfl : '-' :: cs = ds := h
      exact absurd rfl (hds '-' rfl)
  | false =>
    cases negative' with
    | true =>
      obtain rfl : cs = '-' :: ds := h
      exact absurd rfl (hcs '-' rfl)
    | false => exact ⟨rfl, h⟩

theorem number_unique {negative negative' : Bool} {whole whole' fraction fraction' exponent exponent' : List Char}
    (hw : Whole whole) (hw' : Whole whole') (hf : Fraction fraction) (hf' : Fraction fraction')
    (he : Exponent exponent) (he' : Exponent exponent') {more more' : List Char} (hmore : Ends more)
    (hmore' : Ends more') (h : (if negative then ['-'] else []) ++ (whole ++ (fraction ++ (exponent ++ more))) =
      (if negative' then ['-'] else []) ++ (whole' ++ (fraction' ++ (exponent' ++ more')))) :
    negative = negative' ∧ whole = whole' ∧ fraction = fraction' ∧ exponent = exponent' ∧ more = more' := by
  have hdash : ∀ c : Char, c.isDigit = true → ¬ c = '-' := by
    rintro _ hc rfl
    cases hc
  have hpart : ∀ {exponent more : List Char}, Exponent exponent → Ends more →
      Free (fun c => c.isDigit = true ∨ c = '.') (exponent ++ more) := fun he hmore =>
    he.free (hmore.free (by simp)) (by simp)
  have hdigit : ∀ {fraction exponent more : List Char}, Fraction fraction → Exponent exponent → Ends more →
      Free (·.isDigit = true) (fraction ++ (exponent ++ more)) := fun hf he hmore =>
    hf.free (he.free (hmore.free (by decide)) (by decide)) (by decide)
  obtain ⟨rfl, hwholes⟩ := sign_unique (hw.toDigits.free hdash _) (hw'.toDigits.free hdash _) h
  obtain ⟨rfl, hfractions⟩ := hw.toDigits.unique hw'.toDigits (hdigit hf he hmore) (hdigit hf' he' hmore') hwholes
  obtain ⟨rfl, hexponents⟩ := hf.unique hf' (hpart he hmore) (hpart he' hmore') hfractions
  obtain ⟨rfl, hrest⟩ := he.unique he' hmore hmore' hexponents
  exact ⟨rfl, rfl, rfl, rfl, hrest⟩

inductive Kind where
  | null
  | boolean (value : Bool)
  | number
  | string
  | array
  | object

def Tree.kind : Tree → Kind
  | .null => .null
  | .boolean value => .boolean value
  | .number .. => .number
  | .string _ => .string
  | .array _ => .array
  | .object _ => .object

def kindOf (c : Char) : Kind :=
  if c = 'n' then .null
  else if c = 't' then .boolean true
  else if c = 'f' then .boolean false
  else if c = '"' then .string
  else if c = '[' then .array
  else if c = '\x7b' then .object
  else .number

def Opening (t : Tree) (c : Char) : Prop :=
  kindOf c = t.kind ∧ ¬ IsSpace c ∧ c ≠ ',' ∧ c ≠ ']' ∧ c ≠ '\x7d'

theorem opening_number {c : Char} (hc : c = '-' ∨ c.isDigit = true) (negative : Bool)
    (whole fraction exponent : List Char) : Opening (.number negative whole fraction exponent) c := by
  have hne : ∀ d : Char, d ≠ '-' → d.isDigit = false → c ≠ d := by
    rintro d hdash hdigit rfl
    rcases hc with rfl | hc
    · exact hdash rfl
    · rw [hdigit] at hc
      cases hc
  refine ⟨?_, ?_, hne ',' (by decide) rfl, hne ']' (by decide) rfl, hne '\x7d' (by decide) rfl⟩
  · simp only [kindOf, hne 'n' (by decide) rfl, hne 't' (by decide) rfl, hne 'f' (by decide) rfl,
      hne '"' (by decide) rfl, hne '[' (by decide) rfl, hne '\x7b' (by decide) rfl, if_false]
    rfl
  · rintro (heq | heq | heq | heq)
    · exact hne ' ' (by decide) rfl heq
    · exact hne '\t' (by decide) rfl heq
    · exact hne '\n' (by decide) rfl heq
    · exact hne '\r' (by decide) rfl heq

theorem Spelled.exists_cons {t : Tree} {cs : List Char} (h : Spelled t cs) : ∃ c more, cs = c :: more ∧ Opening t c := by
  cases h with
  | null => exact ⟨'n', _, rfl, rfl, by simp [IsSpace]⟩
  | true => exact ⟨'t', _, rfl, rfl, by simp [IsSpace]⟩
  | false => exact ⟨'f', _, rfl, rfl, by simp [IsSpace]⟩
  | @number negative whole fraction exponent digits =>
    cases negative with
    | true => exact ⟨'-', _, rfl, opening_number (.inl rfl) ..⟩
    | false =>
      obtain ⟨d, ds, rfl, hd⟩ := digits.exists_cons
      exact ⟨d, _, rfl, opening_number (.inr hd) ..⟩
  | string quoted =>
    obtain ⟨more, rfl⟩ := quoted.exists_cons
    exact ⟨'"', more, rfl, rfl, by simp [IsSpace]⟩
  | array => exact ⟨'[', _, rfl, rfl, by simp [IsSpace]⟩
  | object => exact ⟨'\x7b', _, rfl, rfl, by simp [IsSpace]⟩

theorem Spelled.same_kind {t t' : Tree} {cs ds more more' : List Char} (h : Spelled t cs) (h' : Spelled t' ds)
    (heq : cs ++ more = ds ++ more') : t.kind = t'.kind := by
  obtain ⟨c, cs, rfl, hc⟩ := h.exists_cons
  obtain ⟨d, ds, rfl, hd⟩ := h'.exists_cons
  obtain ⟨rfl, -⟩ := List.cons.inj heq
  exact hc.1.symm.trans hd.1

theorem Spelled.free {t : Tree} {cs : List Char} (h : Spelled t cs) (more : List Char) : Free IsSpace (cs ++ more) := by
  obtain ⟨c, cs, rfl, -, hc, -⟩ := h.exists_cons
  exact free_cons hc _

theorem ends_space {w : List Char} (hw : Space w) {c : Char} (hc : c = ',' ∨ c = ']' ∨ c = '\x7d') (more : List Char) :
    Ends (w ++ c :: more) := by
  cases w with
  | nil =>
    rintro _ ⟨⟩
    exact .inr hc
  | cons d w =>
    rintro _ ⟨⟩
    exact .inl (hw d List.mem_cons_self)

theorem ends_gap {gap : List Char} (h : Gap false gap) (more : List Char) : Ends (gap ++ more) := by
  obtain ⟨w, w', hw, -, rfl⟩ := h
  rw [List.append_assoc]
  exact ends_space hw (.inl rfl) _

theorem Elements.ends {ts : List Tree} {cs : List Char} (h : Elements false ts cs) (more : List Char) :
    Ends (cs ++ more) := by
  cases h with
  | close _ space =>
    rw [List.append_assoc]
    exact ends_space space (.inr (.inl rfl)) _
  | next _ before =>
    rw [List.append_assoc, List.append_assoc]
    exact ends_gap before _

theorem Members.ends {ms : List (Option String × Tree)} {cs : List Char} (h : Members false ms cs)
    (more : List Char) : Ends (cs ++ more) := by
  cases h with
  | close _ space =>
    rw [List.append_assoc]
    exact ends_space space (.inr (.inr rfl)) _
  | next _ before =>
    simp only [List.append_assoc]
    exact ends_gap before _

theorem gap_opening {first : Bool} {gap : List Char} (h : Gap first gap) {c close : Char} (hc : ¬ IsSpace c)
    (hclose : c ≠ close) (hcomma : ',' ≠ close) (more : List Char) :
    ∃ w d rest, Space w ∧ ¬ IsSpace d ∧ d ≠ close ∧ gap ++ c :: more = w ++ d :: rest := by
  cases first with
  | true => exact ⟨gap, c, more, h, hc, hclose, rfl⟩
  | false =>
    obtain ⟨w, w', hw, -, rfl⟩ := h
    exact ⟨w, ',', w' ++ c :: more, hw, by simp [IsSpace], hcomma, by simp⟩

theorem Elements.opening {first : Bool} {ts : List Tree} {cs : List Char} (h : Elements first ts cs)
    (more : List Char) : ∃ w d rest, Space w ∧ ¬ IsSpace d ∧ (d = ']' ↔ ts = []) ∧ cs ++ more = w ++ d :: rest := by
  cases h with
  | @close _ w space => exact ⟨w, ']', more, space, by simp [IsSpace], by simp, by simp⟩
  | next _ before value =>
    obtain ⟨c, cs, rfl, -, hc, -, hclose, -⟩ := value.exists_cons
    obtain ⟨w, d, rest, hw, hd, hne, heq⟩ := gap_opening before hc hclose (by decide) _
    refine ⟨w, d, rest, hw, hd, by simp [hne], ?_⟩
    rw [List.append_assoc, List.append_assoc]
    exact heq

theorem Members.opening {first : Bool} {ms : List (Option String × Tree)} {cs : List Char} (h : Members first ms cs)
    (more : List Char) : ∃ w d rest, Space w ∧ ¬ IsSpace d ∧ (d = '\x7d' ↔ ms = []) ∧ cs ++ more = w ++ d :: rest := by
  cases h with
  | @close _ w space => exact ⟨w, '\x7d', more, space, by simp [IsSpace], by simp, by simp⟩
  | next _ before named =>
    obtain ⟨quoted, rfl⟩ := named.exists_cons
    have hclose : '"' ≠ '\x7d' ∧ ',' ≠ '\x7d' := by decide
    obtain ⟨w, d, rest, hw, hd, hne, heq⟩ := gap_opening before (by simp [IsSpace]) hclose.1 hclose.2 _
    refine ⟨w, d, rest, hw, hd, by simp [hne], ?_⟩
    simp only [List.append_assoc]
    exact heq

theorem Elements.nil_iff {first : Bool} {ts ts' : List Tree} {cs ds more more' : List Char}
    (h : Elements first ts cs) (h' : Elements first ts' ds) (heq : cs ++ more = ds ++ more') : ts = [] ↔ ts' = [] := by
  obtain ⟨w, c, rest, hw, hc, hclose, hcs⟩ := h.opening more
  obtain ⟨w', d, rest', hw', hd, hclose', hds⟩ := h'.opening more'
  rw [hcs, hds] at heq
  obtain ⟨rfl, hrest⟩ := space_unique hw hw' (free_cons hc _) (free_cons hd _) heq
  obtain ⟨rfl, -⟩ := List.cons.inj hrest
  exact hclose.symm.trans hclose'

theorem Members.nil_iff {first : Bool} {ms ms' : List (Option String × Tree)} {cs ds more more' : List Char}
    (h : Members first ms cs) (h' : Members first ms' ds) (heq : cs ++ more = ds ++ more') : ms = [] ↔ ms' = [] := by
  obtain ⟨w, c, rest, hw, hc, hclose, hcs⟩ := h.opening more
  obtain ⟨w', d, rest', hw', hd, hclose', hds⟩ := h'.opening more'
  rw [hcs, hds] at heq
  obtain ⟨rfl, hrest⟩ := space_unique hw hw' (free_cons hc _) (free_cons hd _) heq
  obtain ⟨rfl, -⟩ := List.cons.inj hrest
  exact hclose.symm.trans hclose'

theorem close_unique {w w' more more' : List Char} (hw : Space w) (hw' : Space w') {close : Char}
    (hclose : ¬ IsSpace close) (heq : w ++ [close] ++ more = w' ++ [close] ++ more') :
    w ++ [close] = w' ++ [close] ∧ more = more' := by
  rw [List.append_assoc, List.append_assoc] at heq
  obtain ⟨rfl, hrest⟩ := space_unique hw hw' (free_cons hclose _) (free_cons hclose _) heq
  exact ⟨rfl, (List.cons.inj hrest).2⟩

mutual

theorem Spelled.unique : ∀ (t : Tree) {t' : Tree} {cs ds more more' : List Char}, Spelled t cs → Spelled t' ds →
    Ends more → Ends more' → cs ++ more = ds ++ more' → t = t' ∧ cs = ds ∧ more = more'
  | .null, _, _, _, _, _, h, h', _, _, heq => by
    have hkind := h.same_kind h' heq
    cases h' with
    | null =>
      cases h
      simpa using heq
    | _ => cases hkind
  | .boolean value, _, _, _, _, _, h, h', _, _, heq => by
    have hkind := h.same_kind h' heq
    cases h' with
    | true =>
      cases hkind
      cases h
      simpa using heq
    | false =>
      cases hkind
      cases h
      simpa using heq
    | _ => cases hkind
  | .number .., _, _, _, _, _, h, h', hmore, hmore', heq => by
    have hkind := h.same_kind h' heq
    cases h with
    | number negative hw hf he =>
      cases h' with
      | number negative' hw' hf' he' =>
        simp only [List.append_assoc] at heq
        obtain ⟨rfl, rfl, rfl, rfl, hrest⟩ := number_unique hw hw' hf hf' he he' hmore hmore' heq
        exact ⟨rfl, rfl, hrest⟩
      | _ => cases hkind
  | .string _, _, _, _, _, _, h, h', _, _, heq => by
    have hkind := h.same_kind h' heq
    cases h with
    | string quoted =>
      cases h' with
      | string quoted' =>
        obtain ⟨rfl, hcs⟩ := quoted.unique quoted' heq
        exact ⟨rfl, hcs⟩
      | _ => cases hkind
  | .array ts, _, _, _, _, _, h, h', _, _, heq => by
    have hkind := h.same_kind h' heq
    cases h with
    | array elements =>
      cases h' with
      | array elements' =>
        obtain ⟨rfl, rfl, hrest⟩ := elements_unique ts elements elements' (List.cons.inj heq).2
        exact ⟨rfl, rfl, hrest⟩
      | _ => cases hkind
  | .object ms, _, _, _, _, _, h, h', _, _, heq => by
    have hkind := h.same_kind h' heq
    cases h with
    | object members =>
      cases h' with
      | object members' =>
        obtain ⟨rfl, rfl, hrest⟩ := members_unique ms members members' (List.cons.inj heq).2
        exact ⟨rfl, rfl, hrest⟩
      | _ => cases hkind

theorem elements_unique : ∀ (ts : List Tree) {first : Bool} {ts' : List Tree} {cs ds more more' : List Char},
    Elements first ts cs → Elements first ts' ds → cs ++ more = ds ++ more' → ts = ts' ∧ cs = ds ∧ more = more'
  | [], _, _, _, _, _, _, h, h', heq => by
    obtain rfl := (h.nil_iff h' heq).1 rfl
    cases h with
    | close _ space =>
      cases h' with
      | close _ space' => exact ⟨rfl, close_unique space space' (by simp [IsSpace]) heq⟩
  | t :: ts, _, ts', _, _, _, _, h, h', heq => by
    have hnil := h.nil_iff h' heq
    cases h with
    | next _ before value others =>
      cases h' with
      | close => simp at hnil
      | next _ before' value' others' =>
        simp only [List.append_assoc] at heq
        obtain ⟨rfl, hvalues⟩ := gap_unique before before' (value.free _) (value'.free _) heq
        obtain ⟨rfl, rfl, hothers⟩ := Spelled.unique t value value' (others.ends _) (others'.ends _) hvalues
        obtain ⟨rfl, rfl, hrest⟩ := elements_unique ts others others' hothers
        exact ⟨rfl, rfl, hrest⟩

theorem members_unique : ∀ (ms : List (Option String × Tree)) {first : Bool} {ms' : List (Option String × Tree)}
    {cs ds more more' : List Char}, Members first ms cs → Members first ms' ds → cs ++ more = ds ++ more' →
    ms = ms' ∧ cs = ds ∧ more = more'
  | [], _, _, _, _, _, _, h, h', heq => by
    obtain rfl := (h.nil_iff h' heq).1 rfl
    cases h with
    | close _ space =>
      cases h' with
      | close _ space' => exact ⟨rfl, close_unique space space' (by simp [IsSpace]) heq⟩
  | (name, t) :: ms, _, ms', _, _, _, _, h, h', heq => by
    have hnil := h.nil_iff h' heq
    have hquote : ¬ IsSpace '"' := by simp [IsSpace]
    have hcolon : ¬ IsSpace ':' := by simp [IsSpace]
    cases h with
    | next _ before named space space₁ value others =>
      cases h' with
      | close => simp at hnil
      | next _ before' named' space' space₁' value' others' =>
        obtain ⟨quoted, rfl⟩ := named.exists_cons
        obtain ⟨quoted', rfl⟩ := named'.exists_cons
        simp only [List.append_assoc, List.cons_append] at heq
        obtain ⟨rfl, hnames⟩ := gap_unique before before' (free_cons hquote _) (free_cons hquote _) heq
        obtain ⟨rfl, hquoted, hcolons⟩ := named.unique named' hnames
        obtain ⟨rfl, hafter⟩ := space_unique space space' (free_cons hcolon _) (free_cons hcolon _) hcolons
        obtain ⟨rfl, hvalues⟩ := space_unique space₁ space₁' (value.free _) (value'.free _) (List.cons.inj hafter).2
        obtain ⟨rfl, rfl, hothers⟩ := Spelled.unique t value value' (others.ends _) (others'.ends _) hvalues
        obtain ⟨rfl, rfl, hrest⟩ := members_unique ms others others' hothers
        exact ⟨rfl, by rw [hquoted], hrest⟩

end

/-- A document is one of a single tree. -/
theorem Document.unique {document : List UInt8} {t t' : Tree} (h : Document document t) (h' : Document document t') :
    t = t' := by
  obtain ⟨text, w, cs, v, rfl, htext, hw, hcs, hv⟩ := h
  obtain ⟨text', w', ds, v', hbytes, htext', hw', hds, hv'⟩ := h'
  obtain rfl : text = text' := Text.bytes_inj hbytes
  have hends : ∀ {v : List Char}, Space v → Ends v := fun hv c hc => .inl (hv c (List.mem_of_mem_head? hc))
  rw [htext, List.append_assoc, List.append_assoc] at htext'
  obtain ⟨-, hvalues⟩ := space_unique hw hw' (hcs.free _) (hds.free _) htext'
  exact (Spelled.unique t hcs hds (hends hv) (hends hv') hvalues).1

end OrderDepot.Json
