import Mathlib.Data.List.Basic
import Mathlib.Data.List.TakeWhile
import OrderDepot.Order.Email

/-!
# The grammar of addresses

An address is a local part, a single `@` and labels with dots between them. Reading accepts just the addresses, gives
back their parts, and names the first condition that is broken, in the order in which the errors are listed.
-/

namespace OrderDepot

open Text (isSpace isControl)

/-- Labels with dots between them. A label is not empty and has no dot. -/
def Dotted (domain : List Char) : Prop :=
  ∃ labels : List (List Char), labels ≠ [] ∧ (∀ label ∈ labels, label ≠ [] ∧ '.' ∉ label) ∧
    domain = ['.'].intercalate labels

theorem domainLabels_cons (c : Char) (cs : List Char) :
    domainLabels (c :: cs) =
      if c = '.' then [] :: domainLabels cs else (domainLabels cs).modifyHead (c :: ·) := by
  simpa [domainLabels] using List.splitOnP_cons_eq_if_modifyHead (p := (· = '.')) c cs

theorem dot_notMem_domainLabels (domain : List Char) : ∀ label ∈ domainLabels domain, '.' ∉ label := by
  induction domain with
  | nil => simp [domainLabels, List.splitOnP_nil]
  | cons c cs ih =>
    rw [domainLabels_cons]
    split
    · exact List.forall_mem_cons.2 ⟨List.not_mem_nil, ih⟩
    · next hdot =>
      obtain ⟨first, others, hlabels⟩ := List.exists_cons_of_ne_nil (List.splitOnP_ne_nil (· = '.') cs)
      rw [domainLabels, hlabels] at ih ⊢
      obtain ⟨hfirst, hothers⟩ := List.forall_mem_cons.1 ih
      refine List.forall_mem_cons.2 ⟨?_, hothers⟩
      rw [List.mem_cons, not_or]
      exact ⟨Ne.symm hdot, hfirst⟩

theorem dotted_iff (domain : List Char) : Dotted domain ↔ (domainLabels domain).any List.isEmpty = false := by
  have hempty : (domainLabels domain).any List.isEmpty = false ↔ ∀ label ∈ domainLabels domain, label ≠ [] := by
    simp
  rw [hempty]
  constructor
  · rintro ⟨labels, hne, hlabels, rfl⟩
    have hsplit : domainLabels (['.'].intercalate labels) = labels :=
      List.splitOn_intercalate '.' (fun label hlabel => (hlabels label hlabel).2) hne
    rw [hsplit]
    exact fun label hlabel => (hlabels label hlabel).1
  · intro hlabels
    exact ⟨domainLabels domain, List.splitOnP_ne_nil _ _,
      fun label hlabel => ⟨hlabels label hlabel, dot_notMem_domainLabels domain label hlabel⟩,
      (List.intercalate_splitOn '.').symm⟩

structure IsAddress (s localPart domain : String) : Prop where
  nonempty : 1 ≤ s.utf8ByteSize
  fits : s.utf8ByteSize ≤ 254
  printable : ∀ c ∈ s.toList, isSpace c = false ∧ isControl c = false
  joined : s = localPart ++ "@" ++ domain
  local_at : '@' ∉ localPart.toList
  domain_at : '@' ∉ domain.toList
  local_nonempty : localPart ≠ ""
  dotted : Dotted domain.toList

def EmailError.inOrder : List EmailError :=
  [.empty, .tooLong, .invalidCharacter, .missingAt, .severalAts, .emptyLocal, .emptyDomain, .emptyLabel]

def EmailError.Condition : EmailError → String → Prop
  | .empty, s => 1 ≤ s.utf8ByteSize
  | .tooLong, s => s.utf8ByteSize ≤ 254
  | .invalidCharacter, s => ∀ c ∈ s.toList, isSpace c = false ∧ isControl c = false
  | .missingAt, s => 1 ≤ s.toList.count '@'
  | .severalAts, s => s.toList.count '@' ≤ 1
  | .emptyLocal, s => ∀ domain, s ≠ "@" ++ domain
  | .emptyDomain, s => ∀ localPart, s ≠ localPart ++ "@"
  | .emptyLabel, s => ∀ localPart domain, s = localPart ++ "@" ++ domain → Dotted domain.toList

/-- The condition is broken, and those in front of it are not. -/
def EmailError.FirstBroken (e : EmailError) (s : String) : Prop :=
  ∃ before after, EmailError.inOrder = before ++ e :: after ∧ (∀ e' ∈ before, e'.Condition s) ∧ ¬ e.Condition s

theorem EmailError.FirstBroken.unique {e e' : EmailError} {s : String} (h : e.FirstBroken s)
    (h' : e'.FirstBroken s) : e = e' := by
  obtain ⟨before, after, hlist, hbefore, hbroken⟩ := h
  obtain ⟨before', after', hlist', hbefore', hbroken'⟩ := h'
  rcases List.append_eq_append_iff.1 (hlist.symm.trans hlist') with ⟨more, rfl, hmore⟩ | ⟨more, rfl, hmore⟩
  · cases more with
    | nil => exact (List.cons.inj hmore).1
    | cons first more =>
      obtain rfl := (List.cons.inj hmore).1
      exact absurd (hbefore' e (by simp)) hbroken
  · cases more with
    | nil => exact (List.cons.inj hmore).1.symm
    | cons first more =>
      obtain rfl := (List.cons.inj hmore).1
      exact absurd (hbefore e' (by simp)) hbroken'

variable {s : String} {l d : List Char}

/-- The text is divided by its first `@`. -/
structure Divided (s : String) (l d : List Char) : Prop where
  joined : s.toList = l ++ '@' :: d
  first : '@' ∉ l

theorem exists_divided (h : '@' ∈ s.toList) : ∃ l d, Divided s l d := by
  obtain ⟨l, d, hjoined, hfirst⟩ := List.eq_append_cons_of_mem h
  exact ⟨l, d, hjoined, hfirst⟩

namespace Divided

theorem forall_ne (h : Divided s l d) : ∀ c ∈ l, decide (c ≠ '@') = true := by
  intro c hc
  exact decide_eq_true fun heq => h.first (heq ▸ hc)

theorem takeWhile_eq (h : Divided s l d) : s.toList.takeWhile (· ≠ '@') = l := by
  rw [h.joined, List.takeWhile_append_of_pos h.forall_ne]
  simp

theorem dropWhile_eq (h : Divided s l d) : s.toList.dropWhile (· ≠ '@') = '@' :: d := by
  rw [h.joined, List.dropWhile_append_of_pos h.forall_ne]
  simp

theorem unique (h : Divided s l d) (hd : '@' ∉ d) (l' d' : List Char) (hjoined : s.toList = l' ++ '@' :: d') :
    l' = l ∧ d' = d := by
  rw [h.joined] at hjoined
  obtain ⟨hl, -, hd⟩ := (List.append_cons_inj_of_notMem h.first hd).1 hjoined
  exact ⟨hl.symm, hd.symm⟩

theorem several_iff (h : Divided s l d) : d.contains '@' = true ↔ ¬ EmailError.severalAts.Condition s := by
  have hcount : s.toList.count '@' = d.count '@' + 1 := by
    rw [h.joined, List.count_append, List.count_eq_zero.2 h.first, List.count_cons_self, Nat.zero_add]
  rw [EmailError.Condition, hcount, List.contains_iff_mem, ← List.count_pos_iff]
  omega

theorem notMem (h : Divided s l d) (hsingle : EmailError.severalAts.Condition s) : '@' ∉ d := by
  rw [← List.contains_iff_mem, h.several_iff, not_not]
  exact hsingle

theorem local_iff (h : Divided s l d) : s.toList.head? = some '@' ↔ ¬ EmailError.emptyLocal.Condition s := by
  rw [EmailError.Condition, not_forall_not]
  constructor
  · intro hhead
    obtain ⟨more, hmore⟩ := List.head?_eq_some_iff.1 hhead
    exact ⟨String.ofList more, String.toList_inj.1 (by simp [hmore, String.toList_append])⟩
  · rintro ⟨domain, rfl⟩
    simp [String.toList_append]

theorem domain_iff (h : Divided s l d) (hd : '@' ∉ d) :
    d.isEmpty = true ↔ ¬ EmailError.emptyDomain.Condition s := by
  rw [EmailError.Condition, not_forall_not, List.isEmpty_iff]
  constructor
  · rintro rfl
    exact ⟨String.ofList l, String.toList_inj.1 (by simp [h.joined, String.toList_append])⟩
  · rintro ⟨localPart, rfl⟩
    exact (h.unique hd localPart.toList [] (by simp [String.toList_append])).2.symm

theorem label_iff (h : Divided s l d) (hd : '@' ∉ d) :
    (domainLabels d).any List.isEmpty = true ↔ ¬ EmailError.emptyLabel.Condition s := by
  rw [← Bool.not_eq_false, not_iff_not, ← dotted_iff, EmailError.Condition]
  constructor
  · rintro hdotted localPart domain rfl
    rw [(h.unique hd localPart.toList domain.toList (by simp [String.toList_append])).2]
    exact hdotted
  · intro hcondition
    have hdotted := hcondition (String.ofList l) (String.ofList d)
      (String.toList_inj.1 (by simp [h.joined, String.toList_append]))
    rwa [String.toList_ofList] at hdotted

end Divided

theorem empty_iff : s.toList.isEmpty = true ↔ ¬ EmailError.empty.Condition s := by
  rw [EmailError.Condition, Nat.not_le, Nat.lt_one_iff, String.utf8ByteSize_eq_zero_iff, List.isEmpty_iff,
    String.toList_eq_nil_iff]

theorem invalid_iff :
    (s.toList.any fun c => isSpace c || isControl c) = true ↔ ¬ EmailError.invalidCharacter.Condition s := by
  simp [EmailError.Condition, imp_iff_not_or]

theorem missing_iff : (!s.toList.contains '@') = true ↔ ¬ EmailError.missingAt.Condition s := by
  simp [EmailError.Condition, Nat.one_le_iff_ne_zero, List.count_eq_zero]

/-- The result is right for a text that meets the conditions `before`. -/
def Email.Judged (s : String) (before : List EmailError) (r : Except EmailError Email) : Prop :=
  (∀ e ∈ before, e.Condition s) →
    (r = .ok ⟨s⟩ ∧ ∀ e : EmailError, e.Condition s) ∨ ∃ e, r = .error e ∧ e.FirstBroken s

theorem Email.judged_test {before after : List EmailError} {e : EmailError} {c : Prop} [Decidable c]
    {r : Except EmailError Email} (hlist : EmailError.inOrder = before ++ e :: after)
    (htest : (∀ e ∈ before, e.Condition s) → (c ↔ ¬ e.Condition s)) (hrest : Judged s (before ++ [e]) r) :
    Judged s before (if c then .error e else r) := by
  intro hbefore
  by_cases hc : c
  · rw [if_pos hc]
    exact .inr ⟨e, rfl, before, after, hlist, hbefore, (htest hbefore).1 hc⟩
  · rw [if_neg hc]
    refine hrest (List.forall_mem_append.2 ⟨hbefore, List.forall_mem_singleton.2 ?_⟩)
    exact not_not.1 (mt (htest hbefore).2 hc)

theorem Email.parse_judged (s : String) : Judged s [] (Email.parse s) := by
  unfold Email.parse
  dsimp only
  refine judged_test rfl (fun _ => empty_iff) ?_
  refine judged_test rfl (fun _ => Nat.not_le.symm) ?_
  refine judged_test rfl (fun _ => invalid_iff) ?_
  refine judged_test rfl (fun _ => missing_iff) ?_
  -- From here on the text has an `@`, and the tests are about what stands on its two sides.
  intro hbefore
  obtain ⟨l, d, hdivided⟩ := exists_divided (List.count_pos_iff.1 (hbefore .missingAt (by simp)))
  have hsingle : ∀ {before : List EmailError}, .severalAts ∈ before → (∀ e ∈ before, e.Condition s) → '@' ∉ d :=
    fun hmem h => hdivided.notMem (h _ hmem)
  simp only [hdivided.dropWhile_eq, List.drop_succ_cons, List.drop_zero]
  refine (judged_test rfl (fun _ => hdivided.several_iff) ?_) hbefore
  refine judged_test rfl (fun _ => hdivided.local_iff) ?_
  refine judged_test rfl (fun h => hdivided.domain_iff (hsingle (by simp) h)) ?_
  refine judged_test rfl (fun h => hdivided.label_iff (hsingle (by simp) h)) ?_
  exact fun h => .inl ⟨rfl, fun e => h e (by cases e <;> simp)⟩

theorem Divided.isAddress (h : Divided s l d) (hconditions : ∀ e : EmailError, e.Condition s) :
    IsAddress s (String.ofList l) (String.ofList d) := by
  have hsecond := h.notMem (hconditions .severalAts)
  have hjoined : s = String.ofList l ++ "@" ++ String.ofList d :=
    String.toList_inj.1 (by simp [h.joined, String.toList_append])
  refine ⟨hconditions .empty, hconditions .tooLong, hconditions .invalidCharacter, hjoined, ?_, ?_, ?_, ?_⟩
  · rw [String.toList_ofList]
    exact h.first
  · rw [String.toList_ofList]
    exact hsecond
  · intro hlocal
    exact hconditions .emptyLocal (String.ofList d) (by rw [hjoined, hlocal]; rfl)
  · exact hconditions .emptyLabel (String.ofList l) (String.ofList d) hjoined

theorem Email.parse_cases (s : String) :
    (Email.parse s = .ok ⟨s⟩ ∧ ∃ localPart domain, IsAddress s localPart domain) ∨
      ∃ e, Email.parse s = .error e ∧ e.FirstBroken s := by
  rcases Email.parse_judged s (fun _ h => absurd h List.not_mem_nil) with ⟨hok, hconditions⟩ | hrefused
  · obtain ⟨l, d, hdivided⟩ := exists_divided (List.count_pos_iff.1 (hconditions .missingAt))
    exact .inl ⟨hok, _, _, hdivided.isAddress hconditions⟩
  · exact .inr hrefused

namespace IsAddress

variable {localPart domain : String}

theorem divided (h : IsAddress s localPart domain) : Divided s localPart.toList domain.toList :=
  ⟨by rw [h.joined]; simp [String.toList_append], h.local_at⟩

theorem parts (h : IsAddress s localPart domain) :
    (⟨s⟩ : Email).localPart = localPart ∧ (⟨s⟩ : Email).domain = domain := by
  constructor
  · rw [Email.localPart, h.divided.takeWhile_eq, String.ofList_toList]
  · have hwhole : domain.toList.takeWhile (· ≠ '@') = domain.toList := by
      rw [List.takeWhile_eq_self_iff]
      exact fun c hc => decide_eq_true fun heq => h.domain_at (heq ▸ hc)
    rw [Email.domain, h.divided.dropWhile_eq, List.drop_one, List.tail_cons, hwhole, String.ofList_toList]

theorem condition (h : IsAddress s localPart domain) (e : EmailError) : e.Condition s := by
  cases e with
  | empty => exact h.nonempty
  | tooLong => exact h.fits
  | invalidCharacter => exact h.printable
  | missingAt =>
    refine List.count_pos_iff.2 ?_
    rw [h.divided.joined]
    simp
  | severalAts =>
    refine Classical.not_not.1 (mt h.divided.several_iff.2 ?_)
    simpa using h.domain_at
  | emptyLocal =>
    rintro other rfl
    have hempty := (h.divided.unique h.domain_at [] other.toList (by simp [String.toList_append])).1
    exact h.local_nonempty (String.toList_eq_nil_iff.1 hempty.symm)
  | emptyDomain =>
    rintro other rfl
    have hempty := (h.divided.unique h.domain_at other.toList [] (by simp [String.toList_append])).2
    have hdotted := (dotted_iff _).1 h.dotted
    rw [← hempty] at hdotted
    cases hdotted
  | emptyLabel =>
    refine Classical.not_not.1 (mt (h.divided.label_iff h.domain_at).2 ?_)
    rw [Bool.not_eq_true]
    exact (dotted_iff _).1 h.dotted

end IsAddress

/-- A text is read just if it is an address, and then as that text with these parts. Any other one is refused with the
error of the first condition that it breaks. -/
theorem Email.parse_exact (s : String) :
    (∀ e, Email.parse s = .ok e ↔ ∃ localPart domain, IsAddress s localPart domain ∧ e.text = s ∧
      e.localPart = localPart ∧ e.domain = domain) ∧
      ∀ e, Email.parse s = .error e ↔ e.FirstBroken s := by
  constructor
  · intro e
    constructor
    · intro hparse
      rcases Email.parse_cases s with ⟨hok, localPart, domain, haddress⟩ | ⟨e', herror, -⟩
      · obtain rfl := Except.ok.inj (hparse.symm.trans hok)
        exact ⟨localPart, domain, haddress, rfl, haddress.parts⟩
      · cases hparse.symm.trans herror
    · rintro ⟨localPart, domain, haddress, rfl, -⟩
      rcases Email.parse_cases e.text with ⟨hok, -⟩ | ⟨e', -, _, _, -, -, hbroken⟩
      · exact hok
      · exact absurd (haddress.condition e') hbroken
  · intro e
    rcases Email.parse_cases s with ⟨hok, localPart, domain, haddress⟩ | ⟨e', herror, hfirst⟩
    · refine iff_of_false (fun herror => ?_) fun ⟨_, _, _, _, hbroken⟩ => hbroken (haddress.condition e)
      cases hok.symm.trans herror
    · rw [herror, Except.error.injEq]
      exact ⟨fun heq => heq ▸ hfirst, fun h => hfirst.unique h⟩

end OrderDepot
