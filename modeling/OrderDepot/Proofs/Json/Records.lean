import OrderDepot.Proofs.Json.Columns
import OrderDepot.Proofs.Json.Exact

/-!
# Records of exact fields

An object is read member by member, an array of values field by field. The record that comes out is the one that the
fields make of the values under their names.
-/

namespace OrderDepot.Json

variable {α β : Type}

def Field.Matches (f : Field α) (c : Column α) : Prop :=
  f.name = c.name ∧ Exact f.read fun t => (c.take t).map fun put a => .ok (put a)

theorem Exact.column {r : Reader β} {meaning : Tree → Option β} (h : Exact r meaning) (name : String)
    (put : β → α → α) : (Field.of name r put).Matches (.of name meaning put) := by
  have hmap := h.map fun b a => (.ok (put b a) : Except Cause α)
  refine ⟨rfl, ?_⟩
  simp only [Column.of, Option.map_map]
  exact hmap

theorem listEnd_close {w : List Char} (hw : Space w) (rest : List UInt8) :
    listEnd (utf8 (w ++ [']']) ++ rest) = .ok rest := by
  have hskip : skipBlank (utf8 (w ++ [']']) ++ rest) = 0x5D :: rest := by
    rw [utf8_split, skipBlank_space hw]
    exact skipBlank_cons rfl rest
  simp only [listEnd, hskip]

section

variable {sh : Shape α} {columns : List (Column α)}

theorem positional_sound (hfull : sh.full = false) {fs : List (Field α)} (h : List.Forall₂ Field.Matches fs columns)
    {first : Bool} {a a' : α} {s s' rest : List UInt8} (hread : positional sh fs first a s = .ok (a', s'))
    (hend : listEnd s' = .ok rest) :
    ∃ ts cs, Elements first ts cs ∧ fillFirst columns ts a = some a' ∧ s = utf8 cs ++ rest := by
  induction h generalizing first a s with
  | nil =>
    cases hread
    obtain ⟨w, hw, rfl⟩ := listEnd_sound hend
    exact ⟨[], _, .close first hw, rfl, rfl⟩
  | @cons f c fs columns hfield _ ih =>
    obtain ⟨⟨more, s₁⟩, helement, hnext⟩ := bind_eq_ok hread
    obtain ⟨rfl, gap, hgap, rfl⟩ | ⟨rfl, w, rest', hw, rfl, rfl⟩ := element?_sound helement
    · obtain ⟨⟨fill, s₂⟩, hfill, hnext⟩ := bind_eq_ok hnext
      obtain ⟨w, cs, t, hw, hcs, ht, rfl⟩ := hfield.2.sound hfill
      obtain ⟨put, hput, rfl⟩ := Option.map_eq_some_iff.1 ht
      obtain ⟨ts, more, hmore, hts, rfl⟩ := ih hnext
      refine ⟨t :: ts, gap ++ w ++ cs ++ more, .next first (hgap.append hw) hcs hmore, ?_, by simp⟩
      rw [fillFirst, hput, Option.bind_some, hts]
    · simp only [Bool.false_eq_true, if_false, hfull] at hnext
      cases hnext
      cases hend
      exact ⟨[], _, .close first hw, rfl, rfl⟩

theorem positional_complete (hfull : sh.full = false) {fs : List (Field α)}
    (h : List.Forall₂ Field.Matches fs columns) {first : Bool} {a a' : α} {ts : List Tree} {cs : List Char}
    (hcs : Elements first ts cs) (hfill : fillFirst columns ts a = some a') (rest : List UInt8) :
    ∃ s, positional sh fs first a (utf8 cs ++ rest) = .ok (a', s) ∧ listEnd s = .ok rest := by
  induction h generalizing first a ts cs with
  | nil =>
    cases hcs with
    | close _ space =>
      cases hfill
      exact ⟨_, rfl, listEnd_close space rest⟩
    | next => cases hfill
  | @cons f c fs columns hfield _ ih =>
    cases hcs with
    | close _ space =>
      cases hfill
      refine ⟨0x5D :: rest, ?_, rfl⟩
      simp only [positional, element?_close first space, bind, Except.bind, Bool.false_eq_true, if_false, hfull]
      rfl
    | @next _ t ts gap cs more before value others =>
      obtain ⟨put, hput, hfill⟩ := Option.bind_eq_some_iff.1 hfill
      obtain ⟨s, hs, hend⟩ := ih others hfill
      have hnext := element?_gap before value.opens (utf8 more ++ rest)
      have hread := hfield.2.complete space_nil value (by rw [hput, Option.map_some]) (others.stops rest)
      refine ⟨s, ?_, hend⟩
      rw [List.nil_append] at hread
      rw [utf8_split, utf8_split]
      simp only [positional, hnext, bind, Except.bind, if_true, hread, hs]

theorem name?_sound {first more : Bool} {s rest : List UInt8} (h : name? first s = .ok (more, rest)) :
    (more = true ∧ ∃ gap, Gap first gap ∧ s = utf8 gap ++ 0x22 :: rest) ∨
      (more = false ∧ ∃ w rest', Space w ∧ rest = 0x7D :: rest' ∧ s = utf8 (w ++ ['\x7d']) ++ rest') := by
  unfold name? at h
  dsimp only at h
  split at h
  · cases h
  · next rest' hskip =>
    cases h
    obtain ⟨w, hw, hs⟩ := skipBlank_sound s
    refine .inr ⟨rfl, w, rest', hw, rfl, ?_⟩
    rw [hs, hskip]
    exact (utf8_split w ['\x7d'] rest').symm
  · next b rest' hskip =>
    split at h
    · next hfirst =>
      split at h
      · next heq =>
        cases h
        exact .inl ⟨rfl, hfirst ▸ gap_of_skipBlank (hskip.trans heq)⟩
      · cases h
    · next hfirst =>
      split at h
      · next hcomma =>
        rw [hcomma] at hskip
        split at h
        · cases h
        · cases h
        · split at h
          · next heq =>
            cases h
            exact .inl ⟨rfl, gap_of_comma hskip heq first (by simpa using hfirst)⟩
          · cases h
      · cases h

theorem name?_space (first : Bool) {w : List Char} (hw : Space w) (s : List UInt8) :
    name? first (utf8 w ++ s) = name? first s := by
  rw [name?, name?, skipBlank_space hw]

theorem name?_gap {first : Bool} {gap : List Char} (hgap : Gap first gap) (rest : List UInt8) :
    name? first (utf8 gap ++ 0x22 :: rest) = .ok (true, rest) := by
  cases first with
  | true =>
    rw [name?_space true hgap]
    exact name?_quote true blanks_nil rest
  | false =>
    obtain ⟨w, w', hw, hw', rfl⟩ := hgap
    rw [utf8_split, name?_space false hw, utf8_cons]
    exact name?_quote false (blanks_space_chars hw') rest

theorem name?_close (first : Bool) {w : List Char} (hw : Space w) (rest : List UInt8) :
    name? first (utf8 (w ++ ['\x7d']) ++ rest) = .ok (false, 0x7D :: rest) := by
  rw [utf8_split]
  exact name?_end first (blanks_space_chars hw) rest

theorem colon_sound {s rest : List UInt8} (h : colon s = .ok rest) : ∃ w, Space w ∧ s = utf8 (w ++ [':']) ++ rest := by
  obtain ⟨w, hw, hs⟩ := skipBlank_sound s
  unfold colon at h
  split at h
  · cases h
  · next hskip =>
    cases h
    rw [hskip] at hs
    exact ⟨w, hw, hs.trans (utf8_split w [':'] rest).symm⟩
  · cases h

theorem colon_space {w : List Char} (hw : Space w) (rest : List UInt8) :
    colon (utf8 w ++ 0x3A :: rest) = .ok rest := by
  have hskip : skipBlank (utf8 w ++ 0x3A :: rest) = 0x3A :: rest := by
    rw [skipBlank_space hw]
    exact skipBlank_cons rfl rest
  simp only [colon, hskip]

theorem find?_matches {fs : List (Field α)} (h : List.Forall₂ Field.Matches fs columns) (name : String) :
    Option.Rel Field.Matches (fs.find? (·.name == name)) (columns.find? (·.name == name)) := by
  induction h with
  | nil => exact .none
  | @cons f c fs columns hfield _ ih =>
    rw [List.find?_cons, List.find?_cons, hfield.1]
    cases c.name == name with
    | true => exact .some hfield
    | false => exact ih

theorem Members.stops {ms : List (Option String × Tree)} {cs : List Char} (h : Members false ms cs)
    (rest : List UInt8) : Stops (utf8 cs ++ rest) := by
  cases h with
  | close _ space =>
    rw [utf8_split]
    exact stops_blanks (blanks_space_chars space) (stops_objectEnd rest)
  | next _ before =>
    simp only [List.append_assoc]
    rw [utf8_split]
    exact stops_gap before _

theorem Members.bytes_pos {first : Bool} {ms : List (Option String × Tree)} {cs : List Char}
    (h : Members first ms cs) : 0 < (utf8 cs).length := by
  cases h with
  | close =>
    rw [utf8_append, List.length_append]
    exact Nat.succ_pos _
  | next _ _ _ _ _ value =>
    have hpos := value.bytes_pos
    simp only [utf8_append, utf8_cons, List.length_append]
    omega

theorem members_inv (hclosed : sh.closed = true) {b : UInt8} {limit s rest : List UInt8} {first : Bool}
    {seen : List String} {a : α} {out : List String × α} (h : members sh (b :: limit) first seen a s = .ok (out, rest)) :
    (∃ w rest', Space w ∧ out = (seen, a) ∧ rest = 0x7D :: rest' ∧ s = utf8 (w ++ ['\x7d']) ++ rest') ∨
      ∃ gap name quoted w f put a' s₁ s₂, Gap first gap ∧ Quoted (some name) quoted ∧ Space w ∧
        sh.fields.find? (·.name == name) = some f ∧ name ∉ seen ∧ f.read s₁ = .ok (put, s₂) ∧ put a = .ok a' ∧
        members sh limit false (name :: seen) a' s₂ = .ok (out, rest) ∧
        s = utf8 (gap ++ quoted ++ (w ++ [':'])) ++ s₁ := by
  obtain ⟨⟨more, s'⟩, hname, hnext⟩ := bind_eq_ok h
  clear h
  obtain ⟨rfl, gap, hgap, rfl⟩ | ⟨rfl, w, rest', hw, rfl, rfl⟩ := name?_sound hname
  · obtain ⟨⟨name, s₀⟩, hliteral, hmember⟩ := bind_eq_ok hnext
    clear hnext
    obtain ⟨cs, hquoted, rfl⟩ := literal_sound hliteral
    dsimp only at hmember
    split at hmember
    · next f hfind =>
      split at hmember
      · cases hmember
      · next hseen =>
        obtain ⟨s₁, hcolon, hvalue⟩ := bind_eq_ok hmember
        clear hmember
        obtain ⟨w, hw, rfl⟩ := colon_sound hcolon
        obtain ⟨⟨put, s₂⟩, hread, hothers⟩ := bind_eq_ok hvalue
        dsimp only at hothers
        split at hothers
        · next a' hput =>
          refine .inr ⟨gap, name, _, w, f, put, a', s₁, s₂, hgap, hquoted, hw, hfind, by simpa using hseen, hread,
            hput, hothers, ?_⟩
          rw [utf8_split (gap ++ _), utf8_split gap]
          rfl
        · cases hothers
    · simp only [hclosed, if_true] at hmember
      cases hmember
  · cases hnext
    exact .inl ⟨w, rest', hw, rfl, rfl, rfl⟩

theorem members_sound (hclosed : sh.closed = true) (h : List.Forall₂ Field.Matches sh.fields columns)
    {limit s rest : List UInt8} {first : Bool} {seen seen' : List String} {a a' : α}
    (hread : members sh limit first seen a s = .ok ((seen', a'), rest)) :
    ∃ fs cs rest', Members first (fs.map fun f => (some f.1, f.2)) cs ∧ fillNamed columns fs a = some a' ∧
      (fs.map (·.1)).Nodup ∧ (∀ f ∈ fs, f.1 ∉ seen) ∧ rest = 0x7D :: rest' ∧ s = utf8 cs ++ rest' := by
  induction limit generalizing first seen a s with
  | nil => cases hread
  | cons b limit ih =>
    obtain ⟨w, rest', hw, hout, rfl, rfl⟩ | ⟨gap, name, quoted, w, f, fill, a₁, s₁, s₂, hgap, hquoted, hw, hfind, hseen,
      hvalue, hfill, hothers, rfl⟩ := members_inv hclosed hread
    · cases hout
      exact ⟨[], _, rest', .close first hw, rfl, List.nodup_nil, fun _ hf => absurd hf List.not_mem_nil, rfl, rfl⟩
    · have hmatch := find?_matches h name
      rw [hfind] at hmatch
      generalize hcolumn : columns.find? (·.name == name) = c? at hmatch
      cases hmatch with
      | @some f c hfield =>
        obtain ⟨w', cs, t, hw', hcs, ht, rfl⟩ := hfield.2.sound hvalue
        obtain ⟨put, hput, rfl⟩ := Option.map_eq_some_iff.1 ht
        cases hfill
        obtain ⟨fs, more, rest', hmore, hfs, hnames, hnew, rfl, rfl⟩ := ih hothers
        have hname : ∀ g ∈ fs, g.1 ≠ name ∧ g.1 ∉ seen := by simpa [not_or] using hnew
        refine ⟨(name, t) :: fs, _, rest', .next first hgap hquoted hw hw' hcs hmore, ?_, ?_, ?_, rfl, ?_⟩
        · simp only [fillNamed, hcolumn, Option.bind_some, hput, hfs]
        · refine List.nodup_cons.2 ⟨fun hmem => ?_, hnames⟩
          obtain ⟨g, hg, heq⟩ := List.mem_map.1 hmem
          exact (hname g hg).1 heq
        · exact List.forall_mem_cons.2 ⟨hseen, fun g hg => (hname g hg).2⟩
        · simp

theorem members_next {gap quoted w : List Char} {name : String} {first : Bool} (before : Gap first gap)
    (named : Quoted (some name) quoted) (space : Space w) {f : Field α} (hfind : sh.fields.find? (·.name == name) = some f)
    {seen : List String} (hnew : name ∉ seen) {put : α → Except Cause α} {a a' : α} {s s' : List UInt8}
    (hvalue : f.read s = .ok (put, s')) (hput : put a = .ok a') (b : UInt8) (limit : List UInt8) :
    members sh (b :: limit) first seen a (utf8 (gap ++ quoted ++ (w ++ [':'])) ++ s) =
      members sh limit false (name :: seen) a' s' := by
  obtain ⟨quoted, rfl⟩ := named.exists_cons
  have hbytes : utf8 (gap ++ '"' :: quoted ++ (w ++ [':'])) ++ s =
      utf8 gap ++ 0x22 :: (utf8 quoted ++ (utf8 w ++ 0x3A :: s)) := by
    rw [utf8_split (gap ++ _), utf8_split gap, utf8_split w]
    rfl
  have hliteral := literal_complete named (utf8 w ++ 0x3A :: s)
  have hseen : seen.contains name = false := by simpa using hnew
  simp only [hbytes, members, name?_gap before, bind, Except.bind, if_true, hliteral, hfind, hseen, Bool.false_eq_true,
    if_false, colon_space space, hvalue, hput]

theorem members_complete (h : List.Forall₂ Field.Matches sh.fields columns) {fs : List (String × Tree)} {first : Bool}
    {cs : List Char} (hcs : Members first (fs.map fun f => (some f.1, f.2)) cs) {seen : List String} {a a' : α}
    (hfill : fillNamed columns fs a = some a') (hnames : (fs.map (·.1)).Nodup) (hseen : ∀ f ∈ fs, f.1 ∉ seen)
    {limit : List UInt8} (hlimit : (utf8 cs).length ≤ limit.length) (rest : List UInt8) :
    ∃ seen', members sh limit first seen a (utf8 cs ++ rest) = .ok ((seen', a'), 0x7D :: rest) := by
  induction fs generalizing first cs seen a limit with
  | nil =>
    obtain ⟨b, limit, rfl⟩ := List.exists_cons_of_length_pos (Nat.lt_of_lt_of_le hcs.bytes_pos hlimit)
    cases hfill
    cases hcs with
    | close _ space =>
      refine ⟨seen, ?_⟩
      simp only [members, name?_close first space, bind, Except.bind]
      rfl
  | cons f fs ih =>
    obtain ⟨b, limit, rfl⟩ := List.exists_cons_of_length_pos (Nat.lt_of_lt_of_le hcs.bytes_pos hlimit)
    obtain ⟨name, t⟩ := f
    obtain ⟨hname, hnames⟩ := List.nodup_cons.1 hnames
    obtain ⟨hnew, hseen⟩ := List.forall_mem_cons.1 hseen
    obtain ⟨c, hcolumn, hfill⟩ := Option.bind_eq_some_iff.1 hfill
    obtain ⟨put, hput, hfill⟩ := Option.bind_eq_some_iff.1 hfill
    have hmatch := find?_matches h name
    rw [hcolumn] at hmatch
    generalize hfind : sh.fields.find? (·.name == name) = f? at hmatch
    cases hmatch with
    | @some g _ hfield =>
      cases hcs with
      | @next _ _ _ _ gap quoted w w' cs more before named space space' value others =>
        have hmore : (utf8 more).length ≤ limit.length := by
          have hpos := value.bytes_pos
          simp only [utf8_append, utf8_cons, List.length_append, List.length_cons] at hlimit
          omega
        have hlater : ∀ f ∈ fs, f.1 ∉ name :: seen := by
          intro f hf hmem
          rcases List.mem_cons.1 hmem with heq | hmem
          · exact hname (List.mem_map.2 ⟨f, hf, heq⟩)
          · exact hseen f hf hmem
        obtain ⟨seen', hothers⟩ := ih others hfill hnames hlater hmore
        have hvalue := hfield.2.complete space' value (by rw [hput, Option.map_some]) (others.stops rest)
        have hbytes : utf8 (gap ++ quoted ++ w ++ ':' :: (w' ++ cs) ++ more) ++ rest =
            utf8 (gap ++ quoted ++ (w ++ [':'])) ++ (utf8 (w' ++ cs) ++ (utf8 more ++ rest)) := by
          simp
        refine ⟨seen', ?_⟩
        rw [hbytes, members_next before named space hfind hnew hvalue rfl b limit]
        exact hothers

theorem names_eq {fs : List (Field α)} (h : List.Forall₂ Field.Matches fs columns) :
    fs.map (·.name) = columns.map (·.name) := by
  induction h with
  | nil => rfl
  | cons hfield _ ih => rw [List.map_cons, List.map_cons, hfield.1, ih]

theorem missing?_none (hfull : sh.full = false) (seen : List String) : sh.missing? seen = none := by
  rw [Shape.missing?, hfull, if_neg Bool.false_ne_true]

/-- A record without required and without unknown fields is read just from the trees that give its fields, and is what
the fields make of them in their order. -/
theorem Exact.record {build : List (String × Tree) → Option α} (hclosed : sh.closed = true) (hfull : sh.full = false)
    (hnames : sh.names.Nodup) (h : List.Forall₂ Field.Matches sh.fields columns) (hcommute : columns.Pairwise Commutes)
    (hbuild : ∀ fs, fillAll columns fs sh.start = build fs) :
    Exact (record sh) fun t => (t.fields? sh.names).bind build := by
  have hcolumns : sh.names = columns.map (·.name) := names_eq h
  rw [hcolumns] at hnames ⊢
  obtain rfl : (fillAll columns · sh.start) = build := funext hbuild
  refine ⟨fun {s rest a} hread => ?_, fun {w cs t a} hw hcs ha rest hrest => ?_⟩
  · obtain ⟨w, hw, hs⟩ := skipBlank_sound s
    unfold Json.record at hread
    split at hread
    · next s' hskip =>
      obtain ⟨⟨a, s₁⟩, hvalues, hread⟩ := bind_eq_ok hread
      obtain ⟨rest, hend, hread⟩ := bind_eq_ok hread
      cases hread
      obtain ⟨ts, cs, hcs, hfill, rfl⟩ := positional_sound hfull h hvalues hend
      refine ⟨w, _, _, hw, .array hcs, (filled_array hnames ts sh.start).trans hfill, ?_⟩
      rw [hs, hskip]
      exact (utf8_split w ('[' :: cs) rest).symm
    · next s' hskip =>
      obtain ⟨⟨⟨seen, a⟩, s₁⟩, hvalues, hread⟩ := bind_eq_ok hread
      simp only [missing?_none hfull] at hread
      obtain ⟨rest, hend, hread⟩ := bind_eq_ok hread
      cases hread
      obtain ⟨fs, cs, rest', hcs, hfill, hfs, -, rfl, rfl⟩ := members_sound hclosed h hvalues
      cases hend
      refine ⟨w, _, _, hw, .object hcs, (filled_object hcommute hnames).2 ⟨fs, rfl, hfs, hfill⟩, ?_⟩
      rw [hs, hskip]
      exact (utf8_split w ('\x7b' :: cs) rest).symm
    · cases hread
  · cases hcs with
    | @array ts cs elements =>
      rw [filled_array hnames] at ha
      obtain ⟨s, hvalues, hend⟩ := positional_complete hfull h elements ha rest
      have hskip : skipBlank (utf8 (w ++ '[' :: cs) ++ rest) = 0x5B :: (utf8 cs ++ rest) :=
        skipBlank_spelled hw (.array elements) rest
      simp only [Json.record, hskip, hvalues, bind, Except.bind, hend]
      rfl
    | @object ms cs members =>
      obtain ⟨fs, rfl, hfs, hfill⟩ := (filled_object hcommute hnames).1 ha
      have hlimit : (utf8 cs).length ≤ (0x7B :: (utf8 cs ++ rest)).length := by
        simp only [List.length_cons, List.length_append]
        omega
      obtain ⟨seen, hvalues⟩ := members_complete h members hfill hfs (fun _ _ => List.not_mem_nil) hlimit rest
      have hskip : skipBlank (utf8 (w ++ '\x7b' :: cs) ++ rest) = 0x7B :: (utf8 cs ++ rest) :=
        skipBlank_spelled hw (.object members) rest
      have hend : objectEnd (0x7D :: rest) = .ok rest := rfl
      simp only [Json.record, hskip, hvalues, bind, Except.bind, missing?_none hfull, hend]
      rfl
    | _ => cases ha

end

theorem document_iff {document : List UInt8} {t : Tree} :
    Document document t ↔ ∃ w cs w', document = utf8 (w ++ cs) ++ utf8 w' ∧ Space w ∧ Spelled t cs ∧ Space w' := by
  constructor
  · rintro ⟨text, w, cs, w', rfl, htext, h⟩
    refine ⟨w, cs, w', ?_, h⟩
    rw [Text.bytes_eq, htext]
    exact utf8_append _ _
  · rintro ⟨w, cs, w', rfl, h⟩
    refine ⟨String.ofList (w ++ cs ++ w'), w, cs, w', ?_, String.toList_ofList, h⟩
    rw [bytes_eq_utf8, utf8_append (w ++ cs)]

theorem Exact.readDocument {r : Reader α} {meaning : Tree → Option α} (h : Exact r meaning) (document : List UInt8)
    (a : α) : readDocument r document = .ok a ↔ ∃ t, Document document t ∧ meaning t = some a := by
  constructor
  · intro hread
    unfold Json.readDocument at hread
    split at hread
    · cases hread
    · next a' rest hvalue =>
      split at hread
      · next hskip =>
        cases hread
        obtain ⟨w, cs, t, hw, hcs, ht, hdocument⟩ := h.sound hvalue
        obtain ⟨w', hw', hrest⟩ := skipBlank_sound rest
        rw [hskip, List.append_nil] at hrest
        exact ⟨t, document_iff.2 ⟨w, cs, w', hrest ▸ hdocument, hw, hcs, hw'⟩, ht⟩
      · cases hread
  · rintro ⟨t, hdocument, ht⟩
    obtain ⟨w, cs, w', rfl, hw, hcs, hw'⟩ := document_iff.1 hdocument
    have hblanks := blanks_space_chars hw'
    have hvalue := h.complete hw hcs ht (stops_blanks hblanks stops_nil)
    have hskip := skipBlank_append hblanks []
    rw [List.append_nil] at hvalue hskip
    simp only [Json.readDocument, hvalue, hskip]
    rfl

end OrderDepot.Json
