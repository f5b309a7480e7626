import Mathlib.Data.List.Forall2
import OrderDepot.Json.Reader
import OrderDepot.Proofs.Except
import OrderDepot.Proofs.Json.Written

/-!
Readers take back what was written. A list is read element by element and a record member by member; each of
them takes at least one byte, so the limit on their number is never reached. A record whose members are those of
its shape, in order, is filled field after field.
-/

namespace OrderDepot.Json

variable {α β : Type}

theorem skipBlank_append {w : List UInt8} (hw : Blanks w) (s : List UInt8) : skipBlank (w ++ s) = skipBlank s := by
  rw [skipBlank, List.dropWhile_append_of_pos hw]
  rfl

theorem skipBlank_cons {b : UInt8} (hb : isBlankByte b = false) (s : List UInt8) :
    skipBlank (b :: s) = b :: s := by
  rw [skipBlank, List.dropWhile_cons_of_neg (by simp [hb])]

theorem stops_nil : Stops [] := fun _ h => nomatch h

theorem stops_comma (s : List UInt8) : Stops (0x2C :: s) := by
  rintro b ⟨⟩
  decide

theorem stops_listEnd (s : List UInt8) : Stops (0x5D :: s) := by
  rintro b ⟨⟩
  decide

theorem stops_objectEnd (s : List UInt8) : Stops (0x7D :: s) := by
  rintro b ⟨⟩
  decide

theorem stops_blanks {w s : List UInt8} (hw : Blanks w) (hs : Stops s) : Stops (w ++ s) := by
  cases w with
  | nil => exact hs
  | cons b w =>
    rintro c ⟨⟩
    have hb := hw b List.mem_cons_self
    refine ⟨?_, ?_, ?_, ?_⟩
    · simp only [isBlankByte, Bool.or_eq_true, beq_iff_eq] at hb
      rcases hb with ((rfl | rfl) | rfl) | rfl <;> rfl
    · rintro rfl
      cases hb
    · rintro rfl
      cases hb
    · rintro rfl
      cases hb

def Opens (bs : List UInt8) : Prop :=
  ∃ b more, bs = b :: more ∧ isBlankByte b = false ∧ b ≠ 0x5D ∧ b ≠ 0x7D

theorem isBlankByte_digit {b : UInt8} (h : b = 0x2D ∨ isDigit b = true) : isBlankByte b = false := by
  simp only [isBlankByte, Bool.or_eq_false_iff, beq_eq_false_iff_ne]
  refine ⟨⟨⟨?_, ?_⟩, ?_⟩, ?_⟩ <;> rintro rfl <;> revert h <;> decide

theorem opens_digit {b : UInt8} (h : b = 0x2D ∨ isDigit b = true) (s : List UInt8) : Opens (b :: s) := by
  refine ⟨b, s, rfl, isBlankByte_digit h, ?_, ?_⟩ <;> rintro rfl <;> revert h <;> decide

theorem Written.opens {v : Value} {bs : List UInt8} (h : Written v bs) : Opens bs := by
  cases h with
  | text s => exact ⟨0x22, _, rfl, rfl, by decide, by decide⟩
  | integer n =>
    obtain ⟨b, more, hbs, hb⟩ := integerChars_head n
    exact hbs ▸ opens_digit hb more
  | list => exact ⟨0x5B, _, rfl, rfl, by decide, by decide⟩
  | object => exact ⟨0x7B, _, rfl, rfl, by decide, by decide⟩

/-- The reader takes the value from each of its written forms, whatever stands around it. -/
def Reads (r : Reader α) (a : α) (v : Value) : Prop :=
  ∀ ⦃bs w rest : List UInt8⦄, Written v bs → Blanks w → Stops rest → r (w ++ bs ++ rest) = .ok (a, rest)

theorem Reads.map {r : Reader α} {a : α} {v : Value} (h : Reads r a v) (f : α → β) : Reads (r.map f) (f a) v := by
  intro bs w rest hbs hw hrest
  simp only [Reader.map, h hbs hw hrest, bind, Except.bind]
  rfl

theorem reads_textAs {expected : String} {convert : String → Except Cause α} {s : String} {a : α}
    (h : convert s = .ok a) : Reads (textAs expected convert) a (.text s) := by
  intro bs w rest hbs hw hrest
  cases hbs
  have hskip : skipBlank (w ++ quotedBytes s ++ rest) =
      0x22 :: (utf8 (s.toList.flatMap escapedChar) ++ 0x22 :: rest) := by
    rw [List.append_assoc, skipBlank_append hw, quotedBytes, List.append_assoc]
    exact skipBlank_cons rfl _
  simp only [textAs, hskip, literal_written, bind, Except.bind, h]
  rfl

theorem reads_text (s : String) : Reads text s (.text s) :=
  reads_textAs rfl

theorem reads_integer (expected : String) {low high n : Int} (hlow : low ≤ n) (hhigh : n ≤ high)
    (hmin : Int64.minValue.toInt ≤ n) (hmax : n ≤ Int64.maxValue.toInt) :
    Reads (integer expected low high) n (.integer n) := by
  intro bs w rest hbs hw hrest
  cases hbs
  obtain ⟨b, more, hbytes, hb⟩ := integerChars_head n
  have hnumber := number_integerChars hmin hmax hrest
  have hskip : skipBlank (w ++ (b :: more) ++ rest) = b :: (more ++ rest) := by
    rw [List.append_assoc, skipBlank_append hw]
    exact skipBlank_cons (isBlankByte_digit hb) _
  rw [hbytes, List.cons_append] at hnumber
  rw [hbytes]
  simp only [integer, hskip, hb, if_true, hnumber, bind, Except.bind, hlow, hhigh, and_self]
  rfl

theorem reads_int64 (n : Int64) : Reads int64 n (.integer n.toInt) := by
  have h := reads_integer "i64" n.minValue_le_toInt n.toInt_le n.minValue_le_toInt n.toInt_le
  have hmap := h.map Int64.ofInt
  rwa [Int64.ofInt_toInt] at hmap

theorem reads_int32 (n : Int32) : Reads int32 n (.integer n.toInt) := by
  have hlow := Int.le_trans (by decide : Int64.minValue.toInt ≤ Int32.minValue.toInt) n.minValue_le_toInt
  have hhigh := Int.le_trans n.toInt_le (by decide : Int32.maxValue.toInt ≤ Int64.maxValue.toInt)
  have h := reads_integer "i32" n.minValue_le_toInt n.toInt_le hlow hhigh
  have hmap := h.map Int32.ofInt
  rwa [Int32.ofInt_toInt] at hmap

theorem reads_uint32 (n : UInt32) : Reads uint32 n (.integer n.toNat) := by
  have hsize : n.toNat < 4294967296 := n.toNat_lt_size
  have hmin : Int64.minValue.toInt ≤ 0 := by decide
  have hmax : (4294967296 : Int) ≤ Int64.maxValue.toInt := by decide
  have hlast : ((UInt32.size - 1 : Nat) : Int) = 4294967295 := rfl
  have h : Reads (integer "u32" 0 (UInt32.size - 1 : Nat)) n.toNat (.integer n.toNat) :=
    reads_integer "u32" (by omega) (by omega) (by omega) (by omega)
  have hmap := h.map fun n => UInt32.ofNat n.toNat
  rwa [Int.toNat_natCast, UInt32.ofNat_toNat] at hmap

theorem reads_variant {names : List (String × α)} {name : String} {a : α}
    (h : names.lookup name = some a) : Reads (variant names) a (.text name) := by
  intro bs w rest hbs hw hrest
  cases hbs
  have hskip : skipBlank (w ++ quotedBytes name ++ rest) = quotedBytes name ++ rest := by
    rw [List.append_assoc, skipBlank_append hw]
    exact skipBlank_cons rfl _
  simp only [variant, hskip]
  refine reads_textAs ?_ (.text name) blanks_nil hrest
  simp only [h]

theorem element?_next (first : Bool) {w bs : List UInt8} (hw : Blanks w) (hbs : Opens bs) (rest : List UInt8) :
    element? first (comma first ++ w ++ bs ++ rest) = .ok (true, bs ++ rest) := by
  obtain ⟨b, more, rfl, hblank, hlist, -⟩ := hbs
  have hskip : skipBlank (w ++ (b :: more) ++ rest) = b :: more ++ rest := by
    rw [List.append_assoc, skipBlank_append hw]
    exact skipBlank_cons hblank _
  cases first with
  | true => simp only [comma, if_true, List.nil_append, element?, hskip, List.cons_append]
  | false =>
    have hcomma : skipBlank (comma false ++ w ++ (b :: more) ++ rest) = 0x2C :: (w ++ (b :: more) ++ rest) :=
      skipBlank_cons rfl _
    have hmark : (0x2C : UInt8) ≠ 0x5D := by decide
    rw [List.cons_append] at hskip
    simp only [element?, hcomma, Bool.false_eq_true, if_false, if_true, hskip, List.cons_append]
    split
    · next heq => cases heq
    · next heq => exact absurd (List.cons.inj heq).1 hlist
    · rfl

theorem element?_end (first : Bool) {w : List UInt8} (hw : Blanks w) (rest : List UInt8) :
    element? first (w ++ 0x5D :: rest) = .ok (false, 0x5D :: rest) := by
  have hskip : skipBlank (w ++ 0x5D :: rest) = 0x5D :: rest := by
    rw [skipBlank_append hw]
    exact skipBlank_cons rfl _
  simp only [element?, hskip]

theorem WrittenElements.stops {vs : List Value} {bs w : List UInt8} (h : WrittenElements false vs bs)
    (hw : Blanks w) (rest : List UInt8) : Stops (bs ++ w ++ 0x5D :: rest) := by
  cases h with
  | nil => exact stops_blanks hw (stops_listEnd rest)
  | cons => exact stops_comma _

theorem elements_written {r : Reader α} {as : List α} {vs : List Value} (h : List.Forall₂ (Reads r) as vs)
    {first : Bool} {bs limit w : List UInt8} (hbs : WrittenElements first vs bs) (hw : Blanks w)
    (hlimit : bs.length < limit.length) (rest : List UInt8) :
    elements r limit first (bs ++ w ++ 0x5D :: rest) = .ok (as, 0x5D :: rest) := by
  induction h generalizing first bs limit with
  | nil =>
    cases hbs
    cases limit with
    | nil => cases hlimit
    | cons b limit =>
      simp only [elements, List.nil_append, element?_end first hw rest, bind, Except.bind]
      rfl
  | cons hvalue _ ih =>
    cases limit with
    | nil => cases hlimit
    | cons b limit =>
      cases hbs with
      | cons _ hblanks hwritten hothers =>
        next w' bs' more =>
        have hnext := element?_next first hblanks hwritten.opens (more ++ w ++ 0x5D :: rest)
        have hread := hvalue hwritten blanks_nil (hothers.stops hw rest)
        have hmore : more.length < limit.length := by
          obtain ⟨c, cs, rfl, -⟩ := hwritten.opens
          simp only [List.length_append, List.length_cons] at hlimit
          omega
        have hrest := ih hothers hmore
        simp only [List.append_assoc, List.nil_append] at hnext hread hrest ⊢
        simp only [elements, hnext, bind, Except.bind, if_true, hread, hrest]
        rfl

theorem listEnd_cons (rest : List UInt8) : listEnd (0x5D :: rest) = .ok rest := rfl

theorem Reads.listOf {r : Reader α} {as : List α} {vs : List Value} (h : List.Forall₂ (Reads r) as vs) :
    Reads (listOf r) as (.list vs) := by
  intro bs w rest hbs hw hrest
  cases hbs with
  | list helements hblanks =>
    next bs w' =>
    have hskip : skipBlank (w ++ (0x5B :: bs ++ w' ++ [0x5D]) ++ rest) = 0x5B :: (bs ++ w' ++ 0x5D :: rest) := by
      rw [List.append_assoc, skipBlank_append hw]
      simp only [List.cons_append, List.append_assoc, List.nil_append]
      exact skipBlank_cons rfl _
    have hlimit : bs.length < (0x5B :: (bs ++ w' ++ 0x5D :: rest)).length := by
      simp only [List.length_cons, List.length_append]
      omega
    have hread := elements_written h helements hblanks hlimit rest
    simp only [Json.listOf, hskip, hread, bind, Except.bind, listEnd_cons]
    rfl

theorem name?_quote (first : Bool) {w : List UInt8} (hw : Blanks w) (rest : List UInt8) :
    name? first (comma first ++ w ++ 0x22 :: rest) = .ok (true, rest) := by
  have hskip : skipBlank (w ++ 0x22 :: rest) = 0x22 :: rest := by
    rw [skipBlank_append hw]
    exact skipBlank_cons rfl rest
  have hquote : (0x22 : UInt8) ≠ 0x7D := by decide
  cases first with
  | true => simp only [comma, if_true, List.nil_append, name?, hskip]
  | false =>
    have hcomma : skipBlank (comma false ++ w ++ 0x22 :: rest) = 0x2C :: (w ++ 0x22 :: rest) := skipBlank_cons rfl _
    have hmark : (0x2C : UInt8) ≠ 0x7D := by decide
    simp only [name?, hcomma, Bool.false_eq_true, if_false, if_true, hskip]
    rfl

theorem name?_next (first : Bool) {w : List UInt8} (hw : Blanks w) (name : String) (rest : List UInt8) :
    name? first (comma first ++ w ++ quotedBytes name ++ rest) =
      .ok (true, utf8 (name.toList.flatMap escapedChar) ++ 0x22 :: rest) := by
  have h := name?_quote first hw (utf8 (name.toList.flatMap escapedChar) ++ 0x22 :: rest)
  rw [quotedBytes]
  simp only [List.append_assoc, List.cons_append, List.nil_append] at h ⊢
  exact h

theorem name?_end (first : Bool) {w : List UInt8} (hw : Blanks w) (rest : List UInt8) :
    name? first (w ++ 0x7D :: rest) = .ok (false, 0x7D :: rest) := by
  have hskip : skipBlank (w ++ 0x7D :: rest) = 0x7D :: rest := by
    rw [skipBlank_append hw]
    exact skipBlank_cons rfl _
  simp only [name?, hskip]

theorem WrittenMembers.stops {ms : List (String × Value)} {bs w : List UInt8} (h : WrittenMembers false ms bs)
    (hw : Blanks w) (rest : List UInt8) : Stops (bs ++ w ++ 0x7D :: rest) := by
  cases h with
  | nil => exact stops_blanks hw (stops_objectEnd rest)
  | cons => exact stops_comma _

inductive Fills : List (Field α) → α → List (String × Value) → α → Prop where
  | nil (a : α) : Fills [] a [] a
  | cons {f : Field α} {fs : List (Field α)} {put : α → Except Cause α} {a a' a'' : α} {v : Value}
    {ms : List (String × Value)} (read : Reads f.read put v) (fits : put a = .ok a') (others : Fills fs a' ms a'') :
    Fills (f :: fs) a ((f.name, v) :: ms) a''

theorem Fills.of {name : String} {r : Reader β} {put : β → α → α} {fs : List (Field α)} {a a' : α} {b : β}
    {v : Value} {ms : List (String × Value)} (hread : Reads r b v) (hothers : Fills fs (put b a) ms a') :
    Fills (.of name r put :: fs) a ((name, v) :: ms) a' := by
  have hfield := hread.map fun (b : β) (a : α) => (.ok (put b a) : Except Cause α)
  exact .cons (f := .of name r put) hfield rfl hothers

theorem name_not_earlier {sh : Shape α} (hnames : sh.names.Nodup) {earlier fs : List (Field α)} {f : Field α}
    (hfields : sh.fields = earlier ++ f :: fs) : f.name ∉ earlier.map (·.name) := by
  rw [Shape.names, hfields, List.map_append, List.map_cons] at hnames
  exact fun hmem => (List.nodup_append.1 hnames).2.2 f.name hmem f.name List.mem_cons_self rfl

theorem find?_field {sh : Shape α} (hnames : sh.names.Nodup) {earlier fs : List (Field α)} {f : Field α}
    (hfields : sh.fields = earlier ++ f :: fs) : sh.fields.find? (·.name == f.name) = some f := by
  have hnone : earlier.find? (·.name == f.name) = none := by
    rw [List.find?_eq_none]
    intro g hg heq
    exact name_not_earlier hnames hfields (beq_iff_eq.1 heq ▸ List.mem_map_of_mem hg)
  rw [hfields, List.find?_append, hnone]
  simp

theorem members_written {sh : Shape α} (hnames : sh.names.Nodup) {fs : List (Field α)} {a a' : α}
    {ms : List (String × Value)} (h : Fills fs a ms a') (earlier : List (Field α))
    (hfields : sh.fields = earlier ++ fs) {first : Bool} {bs limit w : List UInt8}
    (hbs : WrittenMembers first ms bs) (hw : Blanks w) (hlimit : bs.length < limit.length) (rest : List UInt8) :
    members sh limit first (earlier.map (·.name)).reverse a (bs ++ w ++ 0x7D :: rest) =
      .ok ((sh.names.reverse, a'), 0x7D :: rest) := by
  induction h generalizing earlier first bs limit with
  | nil a =>
    cases hbs
    cases limit with
    | nil => cases hlimit
    | cons b limit =>
      rw [List.append_nil] at hfields
      simp only [members, List.nil_append, name?_end first hw rest, bind, Except.bind, Shape.names, hfields]
      rfl
  | @cons f fs put a a' a'' v ms hread hput _ ih =>
    cases limit with
    | nil => cases hlimit
    | cons b limit =>
      cases hbs with
      | @cons _ _ _ _ w' gap bs more hblanks hgap hwritten hothers =>
        have hnext := name?_next first hblanks f.name (0x3A :: (gap ++ bs ++ (more ++ w ++ 0x7D :: rest)))
        have hfind := find?_field hnames hfields
        have hseen : (earlier.map (·.name)).reverse.contains f.name = false := by
          simpa using name_not_earlier hnames hfields
        have hcolon : ∀ s, colon (0x3A :: s) = .ok s := fun s => rfl
        have hvalue := hread hwritten hgap (hothers.stops hw rest)
        have hmore : more.length < limit.length := by
          simp only [List.length_append, List.length_cons, quotedBytes] at hlimit
          omega
        have hrest := ih (earlier ++ [f]) (by simp [hfields]) hothers hmore
        rw [List.map_append, List.reverse_append] at hrest
        simp only [List.append_assoc, List.cons_append] at hnext hvalue hrest ⊢
        simp only [members, hnext, bind, Except.bind, if_true, literal_written, hfind, hseen, Bool.false_eq_true,
          if_false, hcolon, hvalue, hput]
        exact hrest

theorem Reads.record {sh : Shape α} {a : α} {ms : List (String × Value)} (hnames : sh.names.Nodup)
    (h : Fills sh.fields sh.start ms a) : Reads (record sh) a (.object ms) := by
  intro bs w rest hbs hw hrest
  cases hbs with
  | @object _ bs w' hmembers hblanks =>
    have hskip : skipBlank (w ++ (0x7B :: bs ++ w' ++ [0x7D]) ++ rest) = 0x7B :: (bs ++ w' ++ 0x7D :: rest) := by
      rw [List.append_assoc, skipBlank_append hw]
      simp only [List.cons_append, List.append_assoc, List.nil_append]
      exact skipBlank_cons rfl _
    have hlimit : bs.length < (0x7B :: (bs ++ w' ++ 0x7D :: rest)).length := by
      simp only [List.length_cons, List.length_append]
      omega
    have hread := members_written hnames h [] rfl hmembers hblanks hlimit rest
    have hmissing : sh.missing? sh.names.reverse = none := by
      simp only [Shape.missing?, ite_eq_right_iff, List.find?_eq_none]
      intro _ n hn
      simpa using hn
    have hend : objectEnd (0x7D :: rest) = .ok rest := rfl
    simp only [List.map_nil, List.reverse_nil] at hread
    simp only [Json.record, hskip, hread, bind, Except.bind, hmissing, hend]
    rfl

def Field.Keeps (P : α → Prop) (f : Field α) : Prop :=
  ∀ ⦃s rest : List UInt8⦄ ⦃put : α → Except Cause α⦄ ⦃a a' : α⦄,
    f.read s = .ok (put, rest) → put a = .ok a' → P a → P a'

theorem Field.keeps_of {P : α → Prop} {name : String} {r : Reader β} {put : β → α → α}
    (h : ∀ s rest b a, r s = .ok (b, rest) → P a → P (put b a)) : (Field.of name r put).Keeps P := by
  intro s rest fill a a' hread hfill ha
  obtain ⟨⟨b, rest'⟩, hb, hread⟩ := bind_eq_ok hread
  cases hread
  cases hfill
  exact h s rest b a hb ha

theorem positional_keeps {P : α → Prop} {sh : Shape α} {fs : List (Field α)} (hfields : ∀ f ∈ fs, f.Keeps P)
    {first : Bool} {a a' : α} {s rest : List UInt8} (h : positional sh fs first a s = .ok (a', rest)) (ha : P a) :
    P a' := by
  induction fs generalizing first a s with
  | nil =>
    cases h
    exact ha
  | cons f fs ih =>
    obtain ⟨⟨more, s⟩, -, h⟩ := bind_eq_ok h
    cases more with
    | true =>
      obtain ⟨⟨put, s⟩, hread, h⟩ := bind_eq_ok h
      cases hput : put a with
      | error cause => simp only [hput] at h; cases h
      | ok b =>
        simp only [hput] at h
        have hb := hfields f List.mem_cons_self hread hput ha
        exact ih (fun f hf => hfields f (List.mem_cons_of_mem _ hf)) h hb
    | false =>
      simp only [Bool.false_eq_true, if_false] at h
      split at h
      · cases h
      · cases h
        exact ha

theorem members_keeps {P : α → Prop} {sh : Shape α} (hfields : ∀ f ∈ sh.fields, f.Keeps P)
    {limit : List UInt8} {first : Bool} {seen seen' : List String} {a a' : α} {s rest : List UInt8}
    (h : members sh limit first seen a s = .ok ((seen', a'), rest)) (ha : P a) : P a' := by
  induction limit generalizing first seen a s with
  | nil => cases h
  | cons _ limit ih =>
    obtain ⟨⟨more, s⟩, -, h⟩ := bind_eq_ok h
    cases more with
    | true =>
      obtain ⟨⟨name, s⟩, -, h⟩ := bind_eq_ok h
      simp only at h
      split at h
      · next f hfind =>
        split at h
        · cases h
        · obtain ⟨s, -, h⟩ := bind_eq_ok h
          obtain ⟨⟨put, s⟩, hread, h⟩ := bind_eq_ok h
          cases hput : put a with
          | error cause => simp only [hput] at h; cases h
          | ok b =>
            simp only [hput] at h
            exact ih h (hfields f (List.mem_of_find?_eq_some hfind) hread hput ha)
      · split at h
        · cases h
        · obtain ⟨s, -, h⟩ := bind_eq_ok h
          obtain ⟨s, -, h⟩ := bind_eq_ok h
          exact ih h ha
    | false =>
      cases h
      exact ha

theorem record_keeps {P : α → Prop} {sh : Shape α} (hstart : P sh.start) (hfields : ∀ f ∈ sh.fields, f.Keeps P)
    {a : α} {s rest : List UInt8} (h : record sh s = .ok (a, rest)) : P a := by
  unfold record at h
  split at h
  · obtain ⟨⟨b, s⟩, hread, h⟩ := bind_eq_ok h
    obtain ⟨s, -, h⟩ := bind_eq_ok h
    cases h
    exact positional_keeps hfields hread hstart
  · obtain ⟨⟨⟨seen, b⟩, s⟩, hread, h⟩ := bind_eq_ok h
    simp only at h
    split at h
    · cases h
    · obtain ⟨s, -, h⟩ := bind_eq_ok h
      cases h
      exact members_keeps hfields hread hstart
  · cases h

theorem readDocument_written {r : Reader α} {a : α} {v : Value} (h : Reads r a v) {bs w : List UInt8}
    (hbs : Written v bs) (hw : Blanks w) : readDocument r (bs ++ w) = .ok a := by
  have hread := h hbs blanks_nil (stops_blanks hw stops_nil)
  rw [List.nil_append, List.append_nil] at hread
  have hskip : skipBlank w = [] := by
    have h := skipBlank_append hw []
    rw [List.append_nil] at h
    exact h
  simp only [readDocument, hread, hskip]

end OrderDepot.Json
