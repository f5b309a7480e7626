import OrderDepot.Proofs.Json.Meaning

/-!
# Filling records

A record is filled by the members of an object in whatever order they come, or by the elements of an array. Since
different fields fill different parts of the record, both come to the same as going through the fields in their order
and looking each of them up.
-/

namespace OrderDepot.Json

variable {α β : Type}

/-- What a field of a record takes from a tree. -/
structure Column (α : Type) where
  name : String
  take : Tree → Option (α → α)

def Column.of (name : String) (meaning : Tree → Option β) (put : β → α → α) : Column α :=
  ⟨name, fun t => (meaning t).map put⟩

def fillAll : List (Column α) → List (String × Tree) → α → Option α
  | [], _, a => some a
  | c :: columns, fs, a =>
    match fs.lookup c.name with
    | some t => (c.take t).bind fun put => fillAll columns fs (put a)
    | none => fillAll columns fs a

def fillNamed (columns : List (Column α)) : List (String × Tree) → α → Option α
  | [], a => some a
  | (name, t) :: fs, a =>
    (columns.find? (·.name == name)).bind fun c => (c.take t).bind fun put => fillNamed columns fs (put a)

def fillFirst : List (Column α) → List Tree → α → Option α
  | _, [], a => some a
  | [], _ :: _, _ => none
  | c :: columns, t :: ts, a => (c.take t).bind fun put => fillFirst columns ts (put a)

/-- The fields fill different parts of the record. -/
def Commutes (c d : Column α) : Prop :=
  ∀ ⦃t u put put'⦄, c.take t = some put → d.take u = some put' → ∀ a, put (put' a) = put' (put a)

theorem commutes_of {γ : Type} {name name' : String} {meaning : Tree → Option β} {meaning' : Tree → Option γ}
    {put : β → α → α} {put' : γ → α → α} (h : ∀ b c a, put b (put' c a) = put' c (put b a)) :
    Commutes (.of name meaning put) (.of name' meaning' put') := by
  intro t u fill fill' ht hu a
  obtain ⟨b, -, rfl⟩ := Option.map_eq_some_iff.1 ht
  obtain ⟨c, -, rfl⟩ := Option.map_eq_some_iff.1 hu
  exact h b c a

theorem find?_other {c : Column α} {name : String} (h : c.name ≠ name) (columns : List (Column α)) :
    (c :: columns).find? (·.name == name) = columns.find? (·.name == name) :=
  List.find?_cons_of_neg (by simpa using h)

theorem fillNamed_skip {c : Column α} {columns : List (Column α)} {fs : List (String × Tree)}
    (h : ∀ f ∈ fs, c.name ≠ f.1) (a : α) : fillNamed (c :: columns) fs a = fillNamed columns fs a := by
  induction fs generalizing a with
  | nil => rfl
  | cons f fs ih =>
    obtain ⟨hf, hfs⟩ := List.forall_mem_cons.1 h
    simp only [fillNamed, find?_other hf, ih hfs]

theorem fillNamed_front {c : Column α} {columns : List (Column α)} (hcommute : ∀ d ∈ columns, Commutes c d)
    {fs gs : List (String × Tree)} (h : ∀ f ∈ fs, c.name ≠ f.1) (t : Tree) (a : α) :
    fillNamed (c :: columns) (fs ++ (c.name, t) :: gs) a =
      (c.take t).bind fun put => fillNamed (c :: columns) (fs ++ gs) (put a) := by
  induction fs generalizing a with
  | nil => simp [fillNamed]
  | cons f fs ih =>
    obtain ⟨hf, hfs⟩ := List.forall_mem_cons.1 h
    simp only [List.cons_append, fillNamed, find?_other hf]
    cases hd : columns.find? (·.name == f.1) with
    | none => cases c.take t <;> rfl
    | some d =>
      simp only [Option.bind_some, ih hfs]
      cases hput : c.take t with
      | none => cases d.take f.2 <;> rfl
      | some put =>
        cases hput' : d.take f.2 with
        | none => rfl
        | some put' =>
          simp only [Option.bind_some, hcommute d (List.mem_of_find?_eq_some hd) hput hput' a]

theorem fillAll_congr {columns : List (Column α)} {fs gs : List (String × Tree)}
    (h : ∀ c ∈ columns, fs.lookup c.name = gs.lookup c.name) (a : α) : fillAll columns fs a = fillAll columns gs a := by
  induction columns generalizing a with
  | nil => rfl
  | cons c columns ih =>
    obtain ⟨hc, hcolumns⟩ := List.forall_mem_cons.1 h
    simp only [fillAll, hc, ih hcolumns]

theorem other_name {c : Column α} {columns : List (Column α)} (hnew : c.name ∉ columns.map (·.name)) {d : Column α}
    (hd : d ∈ columns) : (d.name == c.name) = false :=
  beq_false_of_ne fun heq => hnew (List.mem_map.2 ⟨d, hd, heq⟩)

theorem fillAll_eq_fillNamed {columns : List (Column α)} (hcommute : columns.Pairwise Commutes)
    (hcolumns : (columns.map (·.name)).Nodup) {fs : List (String × Tree)} (hfs : (fs.map (·.1)).Nodup)
    (hdeclared : ∀ f ∈ fs, f.1 ∈ columns.map (·.name)) (a : α) : fillAll columns fs a = fillNamed columns fs a := by
  induction columns generalizing fs a with
  | nil =>
    cases fs with
    | nil => rfl
    | cons f fs => exact absurd (hdeclared f List.mem_cons_self) List.not_mem_nil
  | cons c columns ih =>
    obtain ⟨hfirst, hothers⟩ := List.pairwise_cons.1 hcommute
    obtain ⟨hnew, hcolumns⟩ := List.nodup_cons.1 hcolumns
    cases hlookup : fs.lookup c.name with
    | none =>
      have hskip : ∀ f ∈ fs, c.name ≠ f.1 := fun f hf => bne_iff_ne.1 (List.lookup_eq_none_iff.1 hlookup f hf)
      have hrest : ∀ f ∈ fs, f.1 ∈ columns.map (·.name) := fun f hf =>
        (List.mem_cons.1 (hdeclared f hf)).resolve_left (hskip f hf).symm
      simp only [fillAll, hlookup, fillNamed_skip hskip]
      exact ih hothers hcolumns hfs hrest a
    | some t =>
      obtain ⟨fs, gs, rfl, hbefore⟩ := List.lookup_eq_some_iff.1 hlookup
      have hbefore : ∀ f ∈ fs, c.name ≠ f.1 := fun f hf => bne_iff_ne.1 (hbefore f hf)
      rw [List.map_append, List.map_cons, List.nodup_middle, ← List.map_append, List.nodup_cons] at hfs
      obtain ⟨honce, hfs⟩ := hfs
      have hskip : ∀ f ∈ fs ++ gs, c.name ≠ f.1 := fun f hf heq =>
        honce (List.mem_map.2 ⟨f, hf, heq.symm⟩)
      have hrest : ∀ f ∈ fs ++ gs, f.1 ∈ columns.map (·.name) := by
        intro f hf
        have hmem : f ∈ fs ++ (c.name, t) :: gs := by
          rw [List.mem_append] at hf ⊢
          exact hf.imp_right (List.mem_cons_of_mem _)
        exact (List.mem_cons.1 (hdeclared f hmem)).resolve_left (hskip f hf).symm
      have hothers' : ∀ d ∈ columns, (fs ++ (c.name, t) :: gs).lookup d.name = (fs ++ gs).lookup d.name := by
        intro d hd
        rw [List.lookup_append, List.lookup_append, List.lookup_cons, other_name hnew hd]
      simp only [fillAll, hlookup, fillNamed_front hfirst hbefore, fillNamed_skip hskip, fillAll_congr hothers',
        ih hothers hcolumns hfs hrest]

theorem fillAll_nil (columns : List (Column α)) (a : α) : fillAll columns [] a = some a := by
  induction columns with
  | nil => rfl
  | cons c columns ih => exact ih

theorem fillAll_eq_fillFirst {columns : List (Column α)} (hcolumns : (columns.map (·.name)).Nodup) {ts : List Tree}
    (hlength : ts.length ≤ columns.length) (a : α) :
    fillAll columns ((columns.map (·.name)).zip ts) a = fillFirst columns ts a := by
  induction ts generalizing columns a with
  | nil =>
    rw [List.zip_nil_right, fillAll_nil]
    cases columns <;> rfl
  | cons t ts ih =>
    cases columns with
    | nil => cases hlength
    | cons c columns =>
      obtain ⟨hnew, hcolumns⟩ := List.nodup_cons.1 hcolumns
      have hothers : ∀ d ∈ columns, ((c.name, t) :: (columns.map (·.name)).zip ts).lookup d.name =
          ((columns.map (·.name)).zip ts).lookup d.name := by
        intro d hd
        rw [List.lookup_cons, other_name hnew hd]
      rw [List.map_cons, List.zip_cons_cons]
      simp only [fillAll, List.lookup_cons, beq_self_eq_true, fillAll_congr hothers, fillFirst,
        ih hcolumns (Nat.le_of_succ_le_succ hlength)]

theorem length_of_fillFirst {columns : List (Column α)} {ts : List Tree} {a a' : α}
    (h : fillFirst columns ts a = some a') : ts.length ≤ columns.length := by
  induction ts generalizing columns a with
  | nil => exact Nat.zero_le _
  | cons t ts ih =>
    cases columns with
    | nil => cases h
    | cons c columns =>
      obtain ⟨put, -, h⟩ := Option.bind_eq_some_iff.1 h
      exact Nat.succ_le_succ (ih h)

theorem declared_of_fillNamed {columns : List (Column α)} {fs : List (String × Tree)} {a a' : α}
    (h : fillNamed columns fs a = some a') : ∀ f ∈ fs, f.1 ∈ columns.map (·.name) := by
  induction fs generalizing a with
  | nil => exact fun _ hf => absurd hf List.not_mem_nil
  | cons f fs ih =>
    obtain ⟨c, hc, h⟩ := Option.bind_eq_some_iff.1 h
    obtain ⟨put, -, h⟩ := Option.bind_eq_some_iff.1 h
    refine List.forall_mem_cons.2 ⟨List.mem_map.2 ⟨c, List.mem_of_find?_eq_some hc, ?_⟩, ih h⟩
    exact beq_iff_eq.1 (@List.find?_some _ (·.name == f.1) c columns hc)

theorem filled_array {columns : List (Column α)} (hcolumns : (columns.map (·.name)).Nodup) (ts : List Tree) (a : α) :
    ((Tree.array ts).fields? (columns.map (·.name))).bind (fillAll columns · a) = fillFirst columns ts a := by
  by_cases hlength : ts.length ≤ columns.length
  · rw [fields?_array.2 ⟨by rwa [List.length_map], rfl⟩, Option.bind_some, fillAll_eq_fillFirst hcolumns hlength]
  · have hnone : fillFirst columns ts a = none :=
      Option.eq_none_iff_forall_ne_some.2 fun _ hfill => hlength (length_of_fillFirst hfill)
    rw [hnone, Tree.fields?, if_neg (by rwa [List.length_map]), Option.bind_none]

theorem filled_object {columns : List (Column α)} (hcommute : columns.Pairwise Commutes)
    (hcolumns : (columns.map (·.name)).Nodup) {ms : List (Option String × Tree)} {a a' : α} :
    ((Tree.object ms).fields? (columns.map (·.name))).bind (fillAll columns · a) = some a' ↔
      ∃ fs, ms = fs.map (fun f => (some f.1, f.2)) ∧ (fs.map (·.1)).Nodup ∧ fillNamed columns fs a = some a' := by
  rw [Option.bind_eq_some_iff]
  constructor
  · rintro ⟨fs, hfields, hfill⟩
    obtain ⟨hms, hdeclared, hfs⟩ := fields?_object.1 hfields
    exact ⟨fs, hms, hfs, fillAll_eq_fillNamed hcommute hcolumns hfs hdeclared a ▸ hfill⟩
  · rintro ⟨fs, hms, hfs, hfill⟩
    have hdeclared := declared_of_fillNamed hfill
    exact ⟨fs, fields?_object.2 ⟨hms, hdeclared, hfs⟩,
      (fillAll_eq_fillNamed hcommute hcolumns hfs hdeclared a).trans hfill⟩

theorem fillAll_of {name : String} {meaning : Tree → Option β} {put : β → α → α} {columns : List (Column α)}
    {fs : List (String × Tree)} {a : α} {zero : β} {build : β → Option α} (hzero : put zero a = a)
    (h : ∀ b, fillAll columns fs (put b a) = build b) :
    fillAll (.of name meaning put :: columns) fs a = field? fs name meaning zero >>= build := by
  rw [fillAll, field?, Option.bind_eq_bind, Column.of]
  cases fs.lookup name with
  | none => rw [Option.bind_some, ← h, hzero]
  | some t => exact Option.bind_map.trans (congrArg _ (funext h))

end OrderDepot.Json
