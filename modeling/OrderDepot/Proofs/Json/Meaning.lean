import Mathlib.Data.List.Forall2
import Mathlib.Data.List.Nodup
import OrderDepot.Proofs.Json.Grammar

/-!
# What trees mean as data

A record is taken from a tree by the names of its fields: from an object with no other names and none twice, or from
an array that gives the first of the fields in their order. A tree that is no more than another one with members in
another order means the same.
-/

namespace OrderDepot.Json

variable {α β : Type}

def Tree.text? : Tree → Option String
  | .string text => text
  | _ => none

def Tree.integer? : Tree → Option Int
  | .number negative whole [] [] =>
    let size := Nat.ofDigitChars 10 whole 0
    if negative then if size = 0 then none else some (-size) else some size
  | _ => none

def Tree.integerIn? (low high : Int) (t : Tree) : Option Int :=
  t.integer?.filter fun n => low ≤ n ∧ n ≤ high

def Tree.int64? (t : Tree) : Option Int64 :=
  (t.integerIn? Int64.minValue.toInt Int64.maxValue.toInt).map Int64.ofInt

def Tree.array? : Tree → Option (List Tree)
  | .array ts => some ts
  | _ => none

def Tree.list? (meaning : Tree → Option α) (t : Tree) : Option (List α) :=
  t.array?.bind (·.mapM meaning)

theorem mapM_mem {f : α → Option β} {as : List α} {bs : List β} (h : as.mapM f = some bs) :
    ∀ a ∈ as, ∃ b, f a = some b := by
  induction as generalizing bs with
  | nil => exact fun _ ha => absurd ha List.not_mem_nil
  | cons a as ih =>
    rw [List.mapM_cons, Option.bind_eq_bind, Option.bind_eq_some_iff] at h
    obtain ⟨b, hb, hothers⟩ := h
    obtain ⟨bs, hbs, -⟩ := Option.bind_eq_some_iff.1 hothers
    exact List.forall_mem_cons.2 ⟨⟨b, hb⟩, ih hbs⟩

theorem meaning_of_mem {meaning : Tree → Option α} {ts : List Tree} {as : List α}
    (h : (Tree.array ts).list? meaning = some as) {t : Tree} (ht : t ∈ ts) : ∃ a, meaning t = some a :=
  mapM_mem h t ht

def named? (ms : List (Option String × Tree)) : Option (List (String × Tree)) :=
  ms.mapM fun m => m.1.map (·, m.2)

def Tree.fields? (names : List String) : Tree → Option (List (String × Tree))
  | .object ms =>
    (named? ms).filter fun fs => (∀ f ∈ fs, f.1 ∈ names) ∧ (fs.map (·.1)).Nodup
  | .array ts => if ts.length ≤ names.length then some (names.zip ts) else none
  | _ => none

def field? (fs : List (String × Tree)) (name : String) (meaning : Tree → Option α) (zero : α) : Option α :=
  match fs.lookup name with
  | some t => meaning t
  | none => some zero

theorem named?_cons (m : Option String × Tree) (ms : List (Option String × Tree)) :
    named? (m :: ms) = m.1.bind fun name => (named? ms).map fun fs => (name, m.2) :: fs := by
  obtain ⟨name, t⟩ := m
  cases name <;> cases hms : named? ms <;> simp_all [named?]

theorem named?_eq_some {ms : List (Option String × Tree)} {fs : List (String × Tree)} :
    named? ms = some fs ↔ ms = fs.map fun f => (some f.1, f.2) := by
  induction ms generalizing fs with
  | nil =>
    rw [named?, List.mapM_nil, eq_comm (a := []), List.map_eq_nil_iff]
    exact ⟨fun h => (Option.some.inj h).symm, fun h => h ▸ rfl⟩
  | cons m ms ih =>
    rw [named?_cons, Option.bind_eq_some_iff]
    constructor
    · rintro ⟨name, hname, h⟩
      obtain ⟨fs, hfs, rfl⟩ := Option.map_eq_some_iff.1 h
      rw [List.map_cons, ← ih.1 hfs, ← hname]
    · intro h
      obtain ⟨f, fs, rfl, rfl, rfl⟩ := List.map_eq_cons_iff.1 h.symm
      exact ⟨f.1, rfl, by rw [ih.2 rfl]; rfl⟩

theorem fields?_object {names : List String} {ms : List (Option String × Tree)} {fs : List (String × Tree)} :
    (Tree.object ms).fields? names = some fs ↔
      ms = fs.map (fun f => (some f.1, f.2)) ∧ (∀ f ∈ fs, f.1 ∈ names) ∧ (fs.map (·.1)).Nodup := by
  simp [Tree.fields?, Option.filter_eq_some_iff, named?_eq_some]

theorem fields?_array {names : List String} {ts : List Tree} {fs : List (String × Tree)} :
    (Tree.array ts).fields? names = some fs ↔ ts.length ≤ names.length ∧ fs = names.zip ts := by
  rw [Tree.fields?, Option.ite_none_right_eq_some, Option.some.injEq, eq_comm (b := fs)]

theorem field?_given {fs : List (String × Tree)} {name : String} {t : Tree} (h : fs.lookup name = some t)
    (meaning : Tree → Option α) (zero : α) : field? fs name meaning zero = meaning t := by
  rw [field?, h]

/-- The object has a name that is not declared, or a name twice. -/
def Strange (names : List String) (t : Tree) : Prop :=
  ∃ ms, t = .object ms ∧ ((∃ m ∈ ms, m.1 ∉ names.map some) ∨ ¬ (ms.map (·.1)).Nodup)

theorem Strange.no_fields {names : List String} {t : Tree} (h : Strange names t) : t.fields? names = none := by
  obtain ⟨ms, rfl, h⟩ := h
  refine Option.eq_none_iff_forall_ne_some.2 fun fs hfs => ?_
  obtain ⟨rfl, hdeclared, hnames⟩ := fields?_object.1 hfs
  rcases h with ⟨m, hm, hstrange⟩ | htwice
  · obtain ⟨f, hf, rfl⟩ := List.mem_map.1 hm
    exact hstrange (List.mem_map_of_mem (hdeclared f hf))
  · refine htwice ?_
    rw [List.map_map]
    have hsome := hnames.map fun _ _ => Option.some.inj
    rwa [List.map_map] at hsome

/-- The trees differ in the order of members alone, at any depth. -/
inductive Reordered : Tree → Tree → Prop where
  | refl (t : Tree) : Reordered t t
  | trans {t u v : Tree} (first : Reordered t u) (second : Reordered u v) : Reordered t v
  | members {ms ns : List (Option String × Tree)} (perm : ms.Perm ns) : Reordered (.object ms) (.object ns)
  | element (before after : List Tree) {t u : Tree} (inner : Reordered t u) :
      Reordered (.array (before ++ t :: after)) (.array (before ++ u :: after))
  | member (before after : List (Option String × Tree)) (name : Option String) {t u : Tree} (inner : Reordered t u) :
      Reordered (.object (before ++ (name, t) :: after)) (.object (before ++ (name, u) :: after))

theorem Reordered.symm {t u : Tree} (h : Reordered t u) : Reordered u t := by
  induction h with
  | refl t => exact .refl t
  | trans _ _ ih ih' => exact .trans ih' ih
  | members perm => exact .members perm.symm
  | element before after _ ih => exact .element before after ih
  | member before after name _ ih => exact .member before after name ih

def Insensitive (meaning : Tree → Option α) : Prop :=
  ∀ ⦃t u : Tree⦄, Reordered t u → meaning t = meaning u

theorem insensitive_text : Insensitive Tree.text? := by
  intro t u h
  induction h with
  | trans _ _ ih ih' => exact ih.trans ih'
  | _ => rfl

theorem insensitive_integer : Insensitive Tree.integer? := by
  intro t u h
  induction h with
  | trans _ _ ih ih' => exact ih.trans ih'
  | _ => rfl

theorem insensitive_int64 : Insensitive Tree.int64? := by
  intro t u h
  rw [Tree.int64?, Tree.int64?, Tree.integerIn?, Tree.integerIn?, insensitive_integer h]

theorem Insensitive.list {meaning : Tree → Option α} (hmeaning : Insensitive meaning) :
    Insensitive (Tree.list? meaning) := by
  intro t u h
  induction h with
  | trans _ _ ih ih' => exact ih.trans ih'
  | element before after inner => simp [Tree.list?, Tree.array?, hmeaning inner]
  | _ => rfl

def Alike (fs gs : List (String × Tree)) : Prop :=
  ∀ name, Option.Rel Reordered (fs.lookup name) (gs.lookup name)

theorem Alike.trans {fs gs hs : List (String × Tree)} (h : Alike fs gs) (h' : Alike gs hs) : Alike fs hs := by
  intro name
  have hfirst := h name
  have hsecond := h' name
  generalize fs.lookup name = a at hfirst ⊢
  generalize gs.lookup name = b at hfirst hsecond
  generalize hs.lookup name = c at hsecond ⊢
  cases hfirst with
  | none => exact hsecond
  | some first =>
    cases hsecond with
    | some second => exact .some (first.trans second)

theorem alike_of_forall₂ {fs gs : List (String × Tree)}
    (h : List.Forall₂ (fun f g => f.1 = g.1 ∧ Reordered f.2 g.2) fs gs) : Alike fs gs := by
  intro name
  induction h with
  | nil => exact .none
  | @cons f g fs gs hfirst _ ih =>
    obtain ⟨hname, hvalue⟩ := hfirst
    rw [List.lookup_cons, List.lookup_cons, hname]
    cases name == g.1 with
    | true => exact .some hvalue
    | false => exact ih

theorem alike_refl (fs : List (String × Tree)) : Alike fs fs :=
  alike_of_forall₂ (List.forall₂_same.2 fun f _ => ⟨rfl, .refl f.2⟩)

theorem lookup_perm {fs gs : List (String × Tree)} (h : fs.Perm gs) (hnames : (fs.map (·.1)).Nodup) (name : String) :
    fs.lookup name = gs.lookup name := by
  induction h with
  | nil => rfl
  | cons f _ ih => rw [List.lookup_cons, List.lookup_cons, ih (List.nodup_cons.1 hnames).2]
  | swap f g fs =>
    simp only [List.map_cons, List.nodup_cons, List.mem_cons, not_or] at hnames
    rw [List.lookup_cons, List.lookup_cons, List.lookup_cons, List.lookup_cons]
    cases hf : name == f.1 <;> cases hg : name == g.1 <;> simp_all
  | trans h _ ih ih' => exact (ih hnames).trans (ih' ((h.map _).nodup_iff.1 hnames))

theorem zip_forall₂ {ts us : List Tree} (h : List.Forall₂ Reordered ts us) (names : List String) :
    List.Forall₂ (fun f g => f.1 = g.1 ∧ Reordered f.2 g.2) (names.zip ts) (names.zip us) := by
  induction h generalizing names with
  | nil => rw [List.zip_nil_right]; exact .nil
  | cons hvalue _ ih =>
    cases names with
    | nil => exact .nil
    | cons name names => exact .cons ⟨rfl, hvalue⟩ (ih names)

theorem Reordered.fields {names : List String} {t u : Tree} (h : Reordered t u) {fs : List (String × Tree)}
    (hfs : t.fields? names = some fs) : ∃ gs, u.fields? names = some gs ∧ Alike fs gs := by
  induction h generalizing fs with
  | refl t => exact ⟨fs, hfs, alike_refl fs⟩
  | trans _ _ ih ih' =>
    obtain ⟨gs, hgs, hfirst⟩ := ih hfs
    obtain ⟨hs, hhs, hsecond⟩ := ih' hgs
    exact ⟨hs, hhs, hfirst.trans hsecond⟩
  | @members ms ns perm =>
    obtain ⟨rfl, hdeclared, hnames⟩ := fields?_object.1 hfs
    have hns : ns = (ns.map fun m => (m.1.getD "", m.2)).map fun f => (some f.1, f.2) := by
      rw [List.map_map, eq_comm]
      refine (List.map_congr_left fun m hm => ?_).trans (List.map_id ns)
      obtain ⟨f, -, rfl⟩ := List.mem_map.1 (perm.mem_iff.2 hm)
      rfl
    have hperm : fs.Perm (ns.map fun m => (m.1.getD "", m.2)) := by
      have hmap := perm.map fun m => (m.1.getD "", m.2)
      rw [List.map_map] at hmap
      exact (List.map_id fs).symm ▸ hmap
    refine ⟨_, fields?_object.2 ⟨hns, fun f hf => hdeclared f (hperm.mem_iff.2 hf), ?_⟩, fun name => ?_⟩
    · exact (hperm.map _).nodup_iff.1 hnames
    · rw [← lookup_perm hperm hnames name]
      exact alike_refl fs name
  | @element before after t u inner =>
    obtain ⟨hlength, rfl⟩ := fields?_array.1 hfs
    have hsame : List.Forall₂ Reordered (before ++ t :: after) (before ++ u :: after) := by
      refine List.rel_append (List.forall₂_same.2 fun t _ => .refl t) (.cons inner ?_)
      exact List.forall₂_same.2 fun t _ => .refl t
    exact ⟨_, fields?_array.2 ⟨by simpa using hlength, rfl⟩, alike_of_forall₂ (zip_forall₂ hsame names)⟩
  | @member before after name t u inner =>
    obtain ⟨hms, hdeclared, hnames⟩ := fields?_object.1 hfs
    obtain ⟨fs, more, rfl, rfl, hmore⟩ := List.append_eq_map_iff.1 hms
    obtain ⟨f, gs, rfl, hf, rfl⟩ := List.map_eq_cons_iff.1 hmore
    obtain ⟨rfl, rfl⟩ := Prod.mk.inj hf
    refine ⟨fs ++ (f.1, u) :: gs, fields?_object.2 ⟨by simp, ?_, by simpa using hnames⟩, alike_of_forall₂ ?_⟩
    · simp only [List.mem_append, List.mem_cons, or_imp, forall_and, forall_eq] at hdeclared ⊢
      exact hdeclared
    · refine List.rel_append (List.forall₂_same.2 fun t _ => ⟨rfl, .refl _⟩) (.cons ⟨rfl, inner⟩ ?_)
      exact List.forall₂_same.2 fun t _ => ⟨rfl, .refl _⟩

theorem Insensitive.field {meaning : Tree → Option α} (hmeaning : Insensitive meaning) {fs gs : List (String × Tree)}
    (h : Alike fs gs) (name : String) (zero : α) : field? fs name meaning zero = field? gs name meaning zero := by
  have hname := h name
  rw [field?, field?]
  generalize fs.lookup name = a at hname ⊢
  generalize gs.lookup name = b at hname ⊢
  cases hname with
  | none => rfl
  | some hvalue => exact hmeaning hvalue

theorem insensitive_record {build : List (String × Tree) → Option α}
    (hbuild : ∀ fs gs, Alike fs gs → build fs = build gs) (names : List String) :
    Insensitive fun t => (t.fields? names).bind build := by
  intro t u h
  dsimp only
  cases ht : t.fields? names with
  | some fs =>
    obtain ⟨gs, hu, halike⟩ := h.fields ht
    rw [hu, Option.bind_some, Option.bind_some, hbuild fs gs halike]
  | none =>
    cases hu : u.fields? names with
    | none => rfl
    | some gs =>
      obtain ⟨fs, hfs, -⟩ := h.symm.fields hu
      rw [ht] at hfs
      cases hfs

end OrderDepot.Json
