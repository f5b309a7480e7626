import OrderDepot.Proofs.Json.Records

/-!
# Records that are written as lists

A list of values can stand where a record is expected: it gives its values to the declared names in their order. Such a
list is turned into the object that gives the same values under their names, and the two have the same fields. A list
with more values than there are names is no record.
-/

namespace OrderDepot.Json

variable {names : List String} {inner : String → Tree → Tree} {name : String} {t u : Tree}

/-- An object, or a list with no more values than there are names. -/
def Tree.IsRecord (names : List String) : Tree → Prop
  | .object _ => True
  | .array ts => ts.length ≤ names.length
  | _ => False

/-- The tree gives a value to this name: as a member of an object, or at the place of the name in a list. -/
def Tree.Gives : Tree → List String → String → Tree → Prop
  | .object ms, _, name, u => (some name, u) ∈ ms
  | .array ts, names, name, u => (name, u) ∈ names.zip ts
  | _, _, _, _ => False

def Tree.inObject (names : List String) (inner : String → Tree → Tree) : Tree → Tree
  | .object ms => .object (ms.map fun m => (m.1, m.1.elim m.2 (inner · m.2)))
  | .array ts =>
    if ts.length ≤ names.length then .object ((names.zip ts).map fun f => (some f.1, inner f.1 f.2)) else .array ts
  | t => t

def Tree.asObject (names : List String) (t : Tree) : Tree := t.inObject names fun _ u => u

def Tree.mapElements (change : Tree → Tree) : Tree → Tree
  | .array ts => .array (ts.map change)
  | t => t

theorem isRecord_of_fields {fs : List (String × Tree)} (h : t.fields? names = some fs) : t.IsRecord names := by
  cases t with
  | object ms => trivial
  | array ts => exact (fields?_array.1 h).1
  | _ => cases h

theorem nodup_zip (hnames : names.Nodup) {ts : List Tree} (hlength : ts.length ≤ names.length) :
    ((names.zip ts).map (·.1)).Nodup := by
  rw [List.zip_eq_zip_take_min, Nat.min_eq_right hlength, List.take_length,
    List.map_fst_zip (Nat.le_of_eq (List.length_take_of_le hlength))]
  exact hnames.sublist (List.take_sublist _ _)

theorem lookup_of_mem {fs : List (String × Tree)} (hnames : (fs.map (·.1)).Nodup) (h : (name, u) ∈ fs) :
    fs.lookup name = some u := by
  obtain ⟨before, after, rfl⟩ := List.append_of_mem h
  refine List.lookup_eq_some_iff.2 ⟨before, after, rfl, fun f hf => bne_iff_ne.2 fun heq => ?_⟩
  rw [List.map_append, List.nodup_append] at hnames
  exact hnames.2.2 f.1 (List.mem_map_of_mem hf) name (by simp) heq.symm

theorem Tree.Gives.lookup (hnames : names.Nodup) (h : t.Gives names name u) {fs : List (String × Tree)}
    (hfs : t.fields? names = some fs) : fs.lookup name = some u := by
  cases t with
  | object ms =>
    obtain ⟨rfl, -, hnodup⟩ := fields?_object.1 hfs
    obtain ⟨f, hf, heq⟩ := List.mem_map.1 h
    obtain ⟨hname, rfl⟩ := Prod.mk.inj heq
    obtain rfl := Option.some.inj hname
    exact lookup_of_mem hnodup hf
  | array ts =>
    obtain ⟨hlength, rfl⟩ := fields?_array.1 hfs
    exact lookup_of_mem (nodup_zip hnames hlength) h
  | _ => exact h.elim

theorem named?_map (ms : List (Option String × Tree)) :
    named? (ms.map fun m => (m.1, m.1.elim m.2 (inner · m.2))) =
      (named? ms).map (·.map fun f => (f.1, inner f.1 f.2)) := by
  induction ms with
  | nil => rfl
  | cons m ms ih =>
    obtain ⟨name, t⟩ := m
    rw [List.map_cons, named?_cons, named?_cons, ih]
    cases name with
    | none => rfl
    | some name => cases named? ms <;> rfl

theorem fields?_inObject (hnames : names.Nodup) (inner : String → Tree → Tree) (t : Tree) :
    (t.inObject names inner).fields? names = (t.fields? names).map (·.map fun f => (f.1, inner f.1 f.2)) := by
  cases t with
  | object ms =>
    rw [Tree.inObject, Tree.fields?, Tree.fields?, named?_map, Option.filter_map]
    simp only [Function.comp_def, List.forall_mem_map, List.map_map]
  | array ts =>
    by_cases hlength : ts.length ≤ names.length
    · rw [Tree.inObject, if_pos hlength, fields?_array.2 ⟨hlength, rfl⟩, Option.map_some, fields?_object]
      refine ⟨by rw [List.map_map]; rfl, fun f hf => ?_, ?_⟩
      · obtain ⟨g, hg, rfl⟩ := List.mem_map.1 hf
        exact (List.of_mem_zip hg).1
      · rw [List.map_map]
        exact nodup_zip hnames hlength
    · rw [Tree.inObject, if_neg hlength, Tree.fields?, if_neg hlength, Option.map_none]
  | _ => rfl

theorem lookup_map (inner : String → Tree → Tree) (fs : List (String × Tree)) (name : String) :
    (fs.map fun f => (f.1, inner f.1 f.2)).lookup name = (fs.lookup name).map (inner name) := by
  induction fs with
  | nil => rfl
  | cons f fs ih =>
    rw [List.map_cons, List.lookup_cons, List.lookup_cons, ih]
    cases hname : name == f.1 with
    | true => rw [beq_iff_eq.1 hname]; rfl
    | false => rfl

theorem field?_map {α : Type} {meaning : Tree → Option α} (inner : String → Tree → Tree) {name : String}
    (hmeaning : ∀ u, meaning (inner name u) = meaning u) (fs : List (String × Tree)) (zero : α) :
    field? (fs.map fun f => (f.1, inner f.1 f.2)) name meaning zero = field? fs name meaning zero := by
  rw [field?, field?, lookup_map]
  cases fs.lookup name with
  | none => rfl
  | some u => exact hmeaning u

theorem meaning_inObject {α : Type} {build : List (String × Tree) → Option α} (hnames : names.Nodup)
    (hbuild : ∀ fs, build (fs.map fun f => (f.1, inner f.1 f.2)) = build fs) (t : Tree) :
    ((t.inObject names inner).fields? names).bind build = (t.fields? names).bind build := by
  rw [fields?_inObject hnames, Option.bind_map]
  exact congrArg _ (funext hbuild)

theorem meaning_asObject {α : Type} {build : List (String × Tree) → Option α} (hnames : names.Nodup) (t : Tree) :
    ((t.asObject names).fields? names).bind build = (t.fields? names).bind build :=
  meaning_inObject hnames (fun fs => by rw [List.map_id']) t

theorem list?_mapElements {α : Type} {meaning : Tree → Option α} {change : Tree → Tree}
    (hmeaning : ∀ u, meaning (change u) = meaning u) (t : Tree) :
    (t.mapElements change).list? meaning = t.list? meaning := by
  cases t with
  | array ts =>
    simp only [Tree.mapElements, Tree.list?, Tree.array?, Option.bind_some, List.mapM_map, Function.comp_def, hmeaning]
  | _ => rfl

theorem Tree.IsRecord.inObject (h : t.IsRecord names) (inner : String → Tree → Tree) :
    ∃ ms, t.inObject names inner = .object ms := by
  cases t with
  | object ms => exact ⟨_, rfl⟩
  | array ts => exact ⟨_, if_pos h⟩
  | _ => exact h.elim

theorem Tree.IsRecord.gives_inObject (h : t.IsRecord names) {inner : String → Tree → Tree}
    (hgives : (t.inObject names inner).Gives names name u) : ∃ v, t.Gives names name v ∧ inner name v = u := by
  cases t with
  | object ms =>
    obtain ⟨⟨_, v⟩, hm, heq⟩ := List.mem_map.1 hgives
    obtain ⟨rfl, hvalue⟩ := Prod.mk.inj heq
    exact ⟨v, hm, hvalue⟩
  | array ts =>
    rw [Tree.inObject, if_pos (show ts.length ≤ names.length from h)] at hgives
    obtain ⟨⟨_, v⟩, hf, heq⟩ := List.mem_map.1 hgives
    obtain ⟨hname, hvalue⟩ := Prod.mk.inj heq
    obtain rfl := Option.some.inj hname
    exact ⟨v, hf, hvalue⟩
  | _ => exact h.elim

def Tree.Spellable (t : Tree) : Prop := ∃ cs, Spelled t cs

theorem exists_gap (first : Bool) : ∃ gap, Gap first gap := by
  cases first with
  | true => exact ⟨[], space_nil⟩
  | false => exact ⟨[','], [], [], space_nil, space_nil, rfl⟩

theorem Elements.spellable {ts : List Tree} {first : Bool} {cs : List Char} (h : Elements first ts cs) :
    ∀ t ∈ ts, t.Spellable := by
  induction ts generalizing first cs with
  | nil => exact fun _ ht => absurd ht List.not_mem_nil
  | cons t ts ih =>
    cases h with
    | next _ _ value others => exact List.forall_mem_cons.2 ⟨⟨_, value⟩, ih others⟩

theorem exists_elements {ts : List Tree} (h : ∀ t ∈ ts, t.Spellable) (first : Bool) :
    ∃ cs, Elements first ts cs := by
  induction ts generalizing first with
  | nil => exact ⟨_, .close first space_nil⟩
  | cons t ts ih =>
    obtain ⟨⟨_, value⟩, hothers⟩ := List.forall_mem_cons.1 h
    obtain ⟨_, before⟩ := exists_gap first
    obtain ⟨_, others⟩ := ih hothers false
    exact ⟨_, .next first before value others⟩

theorem spellable_array {ts : List Tree} : (Tree.array ts).Spellable ↔ ∀ t ∈ ts, t.Spellable := by
  refine ⟨?_, fun h => (exists_elements h true).imp' _ fun _ => .array⟩
  rintro ⟨_, ⟨⟩⟩
  exact Elements.spellable ‹_›

theorem Members.spellable {ms : List (Option String × Tree)} {first : Bool} {cs : List Char}
    (h : Members first ms cs) : ∀ m ∈ ms, (∃ quoted, Quoted m.1 quoted) ∧ m.2.Spellable := by
  induction ms generalizing first cs with
  | nil => exact fun _ hm => absurd hm List.not_mem_nil
  | cons m ms ih =>
    cases h with
    | next _ _ named _ _ value others => exact List.forall_mem_cons.2 ⟨⟨⟨_, named⟩, ⟨_, value⟩⟩, ih others⟩

theorem exists_members {ms : List (Option String × Tree)}
    (h : ∀ m ∈ ms, (∃ quoted, Quoted m.1 quoted) ∧ m.2.Spellable) (first : Bool) : ∃ cs, Members first ms cs := by
  induction ms generalizing first with
  | nil => exact ⟨_, .close first space_nil⟩
  | cons m ms ih =>
    obtain ⟨⟨⟨_, named⟩, ⟨_, value⟩⟩, hothers⟩ := List.forall_mem_cons.1 h
    obtain ⟨_, before⟩ := exists_gap first
    obtain ⟨_, others⟩ := ih hothers false
    exact ⟨_, .next first before named space_nil space_nil value others⟩

theorem spellable_object {ms : List (Option String × Tree)} :
    (Tree.object ms).Spellable ↔ ∀ m ∈ ms, (∃ quoted, Quoted m.1 quoted) ∧ m.2.Spellable := by
  refine ⟨?_, fun h => (exists_members h true).imp' _ fun _ => .object⟩
  rintro ⟨_, ⟨⟩⟩
  exact Members.spellable ‹_›

theorem Tree.Spellable.mapElements {change : Tree → Tree} (h : t.Spellable)
    (hchange : ∀ u : Tree, u.Spellable → (change u).Spellable) : (t.mapElements change).Spellable := by
  cases t with
  | array ts => exact spellable_array.2 (List.forall_mem_map.2 fun u hu => hchange u (spellable_array.1 h u hu))
  | _ => exact h

theorem Tree.Spellable.inObject (h : t.Spellable) (hnames : ∀ name ∈ names, ∃ quoted, Quoted (some name) quoted)
    (hinner : ∀ name (u : Tree), u.Spellable → (inner name u).Spellable) : (t.inObject names inner).Spellable := by
  cases t with
  | object ms =>
    refine spellable_object.2 (List.forall_mem_map.2 fun m hm => ?_)
    obtain ⟨hnamed, hvalue⟩ := spellable_object.1 h m hm
    refine ⟨hnamed, ?_⟩
    cases m.1 with
    | none => exact hvalue
    | some name => exact hinner name _ hvalue
  | array ts =>
    by_cases hlength : ts.length ≤ names.length
    · rw [Tree.inObject, if_pos hlength]
      refine spellable_object.2 (List.forall_mem_map.2 fun f hf => ?_)
      obtain ⟨hname, hvalue⟩ := List.of_mem_zip hf
      exact ⟨hnames _ hname, hinner _ _ (spellable_array.1 h _ hvalue)⟩
    · rw [Tree.inObject, if_neg hlength]
      exact h
  | _ => exact h

theorem Tree.Spellable.asObject (h : t.Spellable) (hnames : ∀ name ∈ names, ∃ quoted, Quoted (some name) quoted) :
    (t.asObject names).Spellable :=
  h.inObject hnames fun _ _ hu => hu

theorem spellable_iff_document : t.Spellable ↔ ∃ document, Document document t := by
  constructor
  · rintro ⟨cs, value⟩
    refine ⟨Text.bytes (String.ofList cs), _, [], cs, [], rfl, ?_, space_nil, value, space_nil⟩
    rw [String.toList_ofList, List.nil_append, List.append_nil]
  · rintro ⟨_, _, _, cs, _, -, -, -, value, -⟩
    exact ⟨cs, value⟩

theorem Document.array_of_bracket {bs : List UInt8} (h : Document (0x5B :: bs) t) : ∃ ts, t = .array ts := by
  obtain ⟨w, cs, w', hbytes, hw, value, -⟩ := document_iff.1 h
  have hfirst : utf8 cs ++ utf8 w' = 0x5B :: bs := by
    rw [← skipBlank_spelled hw value, ← hbytes]
    exact skipBlank_cons rfl bs
  cases value with
  | array => exact ⟨_, rfl⟩
  | number negative digits =>
    obtain ⟨b, more, hdigits, hb⟩ := signed_opens negative digits
    rw [utf8_append, utf8_append, hdigits] at hfirst
    obtain ⟨rfl, -⟩ := List.cons.inj hfirst
    exact absurd hb (by decide)
  | string quoted =>
    obtain ⟨_, rfl⟩ := quoted.exists_cons
    exact absurd (List.cons.inj hfirst).1 (by decide)
  | _ => exact absurd (List.cons.inj hfirst).1 (by decide)

end OrderDepot.Json
