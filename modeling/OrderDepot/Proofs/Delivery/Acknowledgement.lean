import OrderDepot.Proofs.Delivery.Turns

/-!
# What a commit acknowledges

A commit acknowledges everything below its position. The source delivers the messages of a partition in order,
so a message below is one that was taken before. It has ended, unless a rewind to it has failed: such a message
is not delivered again, and the next commit goes past it.
-/

namespace OrderDepot.Delivery

def Position.SamePartition (a b : Position) : Prop := a.topic = b.topic ∧ a.partition = b.partition

def Position.Below (a b : Position) : Prop := a.SamePartition b ∧ a.offset < b.offset

def Message.Before (a b : Message) : Prop :=
  a.position.SamePartition b.position → a.position.offset < b.position.offset

theorem Message.before_position_ne {a b : Message} (h : a.Before b) : a.position ≠ b.position := by
  intro heq
  have hlt := h (by rw [heq]; exact ⟨rfl, rfl⟩)
  rw [heq] at hlt
  exact Int64.lt_irrefl hlt

/-- The source delivers each partition in order, and no rewind has failed so far. -/
structure Surroundings.InOrder (w : Surroundings) : Prop where
  ordered : w.ledger.coming.Pairwise Message.Before
  kept : w.ledger.lost = []

def Taken (ts : List Turn) (m : Message) : Prop := ∃ h, .took m h ∈ ts

def Ended (ts : List Turn) (m : Message) : Prop := ∃ h, .took m h ∈ ts ∧ h.outcome.isFinal = true

theorem Ended.taken {ts : List Turn} {m : Message} (h : Ended ts m) : Taken ts m := by
  obtain ⟨handled, hmem, -⟩ := h
  exact ⟨handled, hmem⟩

theorem taken_concat {ts : List Turn} {t : Turn} {m : Message} :
    Taken (ts ++ [t]) m ↔ Taken ts m ∨ ∃ h, t = .took m h := by
  simp [Taken, exists_or, eq_comm]

theorem ended_concat {ts : List Turn} {t : Turn} {m : Message} :
    Ended (ts ++ [t]) m ↔ Ended ts m ∨ ∃ h, t = .took m h ∧ h.outcome.isFinal = true := by
  simp only [Ended, List.mem_append, List.mem_singleton, or_and_right, exists_or, @eq_comm _ t]

namespace Ledger

/-- A message that was taken comes again as long as it has not ended and no rewind to it has failed. -/
structure Inv (ts : List Turn) (l : Ledger) : Prop where
  ordered : l.coming.Pairwise Message.Before
  taken : ∀ m, Taken ts m →
    (m ∈ l.coming ∧ ¬ Ended ts m ∧ m.position ∉ l.lost) ∨
      ((∀ n ∈ l.coming, m.Before n) ∧ (Ended ts m ↔ m.position ∉ l.lost))
  lost : ∀ q ∈ l.lost, ∃ m, Taken ts m ∧ m.position = q

variable {ts : List Turn} {m : Message} {rest : List Message} {committed lost : List Position}

theorem inv_head (hi : Inv ts ⟨m :: rest, committed, lost⟩) : ¬ Ended ts m ∧ m.position ∉ lost := by
  have hself : ∀ n, Taken ts n → n.position = m.position → ¬ Ended ts n ∧ n.position ∉ lost := by
    intro n hn heq
    rcases hi.taken n hn with ⟨-, hunended, hkept⟩ | ⟨hbefore, -⟩
    · exact ⟨hunended, hkept⟩
    · exact absurd heq (Message.before_position_ne (hbefore m List.mem_cons_self))
  constructor
  · intro hended
    exact (hself m hended.taken rfl).1 hended
  · intro hmem
    obtain ⟨n, hn, heq⟩ := hi.lost m.position hmem
    exact (hself n hn heq).2 (heq ▸ hmem)

theorem inv_took {h : Handled} {l' : Ledger} (hi : Inv ts ⟨m :: rest, committed, lost⟩)
    (hcoming : l'.coming = m :: rest ∨ l'.coming = rest)
    (hlost : ∀ n : Message, n ≠ m → m.Before n ∨ n.Before m → (n.position ∈ l'.lost ↔ n.position ∈ lost))
    (hm : (m ∈ l'.coming ∧ h.outcome.isFinal = false ∧ m.position ∉ l'.lost) ∨
      (l'.coming = rest ∧ (h.outcome.isFinal = true ↔ m.position ∉ l'.lost)))
    (hback : ∀ q ∈ l'.lost, q = m.position ∨ q ∈ lost) : Inv (ts ++ [.took m h]) l' := by
  obtain ⟨hunended, -⟩ := inv_head hi
  have hordered := List.pairwise_cons.1 hi.ordered
  have hsubset : ∀ n ∈ l'.coming, n ∈ m :: rest := by
    rcases hcoming with heq | heq <;> rw [heq] <;> simp +contextual
  have hended : Ended (ts ++ [.took m h]) m ↔ h.outcome.isFinal = true := by
    simp [ended_concat, hunended]
  refine ⟨?_, ?_, ?_⟩
  · rcases hcoming with heq | heq <;> rw [heq]
    · exact hi.ordered
    · exact hordered.2
  · intro n hn
    by_cases heq : n = m
    · subst heq
      rcases hm with ⟨hmem, hfinal, hkept⟩ | ⟨hrest, hfinal⟩
      · exact Or.inl ⟨hmem, by simp [hended, hfinal], hkept⟩
      · exact Or.inr ⟨by rw [hrest]; exact hordered.1, hended.trans hfinal⟩
    · have htaken : Taken ts n := by
        rcases taken_concat.1 hn with hn | ⟨h', ht⟩
        · exact hn
        · cases ht
          exact absurd rfl heq
      have hsame : Ended (ts ++ [.took m h]) n ↔ Ended ts n := by
        simp [ended_concat, Ne.symm heq]
      rcases hi.taken n htaken with ⟨hmem, hrest⟩ | ⟨hbefore, hrest⟩
      · have hmem' : n ∈ rest := (List.mem_cons.1 hmem).resolve_left heq
        rw [hsame, hlost n heq (Or.inl (hordered.1 n hmem'))]
        refine Or.inl ⟨?_, hrest⟩
        rcases hcoming with heq | heq <;> rw [heq]
        · exact hmem
        · exact hmem'
      · rw [hsame, hlost n heq (Or.inr (hbefore m List.mem_cons_self))]
        exact Or.inr ⟨fun k hk => hbefore k (hsubset k hk), hrest⟩
  · intro q hq
    rcases hback q hq with rfl | hq
    · exact ⟨m, taken_concat.2 (Or.inr ⟨h, rfl⟩), rfl⟩
    · obtain ⟨n, hn, heq⟩ := hi.lost q hq
      exact ⟨n, taken_concat.2 (Or.inl hn), heq⟩

theorem inv_idle {l : Ledger} {t : Turn} (hi : Inv ts l) (ht : ∀ m h, t ≠ .took m h) : Inv (ts ++ [t]) l := by
  have htaken : ∀ m, Taken (ts ++ [t]) m ↔ Taken ts m := by
    simp [taken_concat, ht]
  have hended : ∀ m, Ended (ts ++ [t]) m ↔ Ended ts m := by
    simp [ended_concat, ht]
  refine ⟨hi.ordered, ?_, ?_⟩
  · intro m hm
    rw [hended]
    exact hi.taken m ((htaken m).1 hm)
  · intro q hq
    obtain ⟨m, hm, heq⟩ := hi.lost q hq
    exact ⟨m, (htaken m).2 hm, heq⟩

theorem inv_step {l l' : Ledger} {t : Turn} (hi : Inv ts l) (hstep : Step l t l') : Inv (ts ++ [t]) l' := by
  cases hstep with
  | stopped => exact inv_idle hi (by simp)
  | missed => exact inv_idle hi (by simp)
  | ended final =>
    have hkept := (inv_head hi).2
    exact inv_took hi (Or.inr rfl) (fun _ _ _ => Iff.rfl) (Or.inr ⟨rfl, by simp [final, hkept]⟩)
      fun _ => Or.inr
  | rewound unended =>
    have hkept := (inv_head hi).2
    exact inv_took hi (Or.inl rfl) (fun _ _ _ => Iff.rfl) (Or.inl ⟨List.mem_cons_self, unended, hkept⟩)
      fun _ => Or.inr
  | @lost m _ _ _ _ unended =>
    refine inv_took hi (Or.inr rfl) ?_ (Or.inr ⟨rfl, by simp [unended]⟩) ?_
    · intro n _ hbefore
      have hne : n.position ≠ m.position := by
        rcases hbefore with hbefore | hbefore
        · exact (Message.before_position_ne hbefore).symm
        · exact Message.before_position_ne hbefore
      simp [hne]
    · intro q hq
      exact List.mem_cons.1 hq

end Ledger

theorem inv_reaches {p : Pipeline} {w v : Surroundings} {ts : List Turn} {tracked : Attempts}
    (hw : w.InOrder) (h : p.Reaches w ts tracked v) : v.ledger.Inv ts := by
  induction h with
  | start =>
    refine ⟨hw.ordered, ?_, ?_⟩
    · rintro m ⟨h, hmem⟩
      cases hmem
    · intro q hq
      rw [hw.kept] at hq
      cases hq
  | turn _ hturn ih => exact Ledger.inv_step ih (Pipeline.turn_step hturn)

theorem step_commit {l l' : Ledger} {t : Turn} (h : Ledger.Step l t l') {made : List Position}
    (hmade : l'.committed = made ++ l.committed) {pos : Position} (hpos : pos ∈ made) :
    ∃ m rest, l.coming = m :: rest ∧ m.position = pos := by
  have hnone : l'.committed = l.committed → False := by
    intro heq
    rw [List.self_eq_append_left.1 (heq.symm.trans hmade)] at hpos
    cases hpos
  cases h with
  | stopped => exact (hnone rfl).elim
  | missed => exact (hnone rfl).elim
  | rewound => exact (hnone rfl).elim
  | lost => exact (hnone rfl).elim
  | @ended m h rest committed lost =>
    obtain rfl : [m.position] = made := List.append_cancel_right hmade
    exact ⟨m, rest, rfl, (List.mem_singleton.1 hpos).symm⟩

theorem ended_below_iff {ts : List Turn} {l : Ledger} (hi : l.Inv ts) {m : Message} {rest : List Message}
    (hcoming : l.coming = m :: rest) {d : Message} (hd : Taken ts d) (hbelow : d.position.Below m.position) :
    Ended ts d ↔ d.position ∉ l.lost := by
  rcases hi.taken d hd with ⟨hmem, -⟩ | ⟨-, hended⟩
  · have hordered := hi.ordered
    rw [hcoming] at hmem hordered
    rcases List.mem_cons.1 hmem with rfl | hmem
    · exact absurd hbelow.2 Int64.lt_irrefl
    · have hbefore : m.Before d := (List.pairwise_cons.1 hordered).1 d hmem
      have hlt := hbefore ⟨hbelow.1.1.symm, hbelow.1.2.symm⟩
      exact absurd hbelow.2 (Int64.lt_asymm hlt)
  · exact hended

/-- A failed rewind stays behind: its position is below all that come later in the partition. -/
theorem lost_below {ts : List Turn} {l : Ledger} (hi : l.Inv ts) {m : Message} {rest : List Message}
    (hcoming : l.coming = m :: rest) {q : Position} (hq : q ∈ l.lost) (hsame : q.SamePartition m.position) :
    ∃ d, Taken ts d ∧ d.position = q ∧ d.position.Below m.position := by
  obtain ⟨d, hd, rfl⟩ := hi.lost q hq
  refine ⟨d, hd, rfl, hsame, ?_⟩
  rcases hi.taken d hd with ⟨-, -, hkept⟩ | ⟨hbefore, -⟩
  · exact absurd hq hkept
  · rw [hcoming] at hbefore
    exact hbefore m List.mem_cons_self hsame

/-- When commit is called for a position, a message below it that was taken has ended just if no rewind to it
has failed. So they all have ended just if no rewind in the partition has failed. -/
theorem ended_below_commit_iff_no_rewind_failed {p : Pipeline} {w v v' : Surroundings} {ts : List Turn}
    {tracked tracked' : Attempts} {t : Turn} {again : Bool} {calls : List (Nat × Call)} {time : Nat}
    {pos : Position} (hw : w.InOrder) (hreached : p.Reaches w ts tracked v)
    (hturn : (p.turn Surroundings.facilities tracked).run v = some ((t, tracked', again), v'))
    (hcalls : v'.trace = calls ++ v.trace) (hcommit : (time, .commit pos) ∈ calls) :
    (∀ d, Taken ts d → d.position.Below pos → (Ended ts d ↔ .rewind d.position ∉ v.failures)) ∧
      ((∀ d, Taken ts d → d.position.Below pos → Ended ts d) ↔
        ∀ q, .rewind q ∈ v.failures → ¬ q.SamePartition pos) := by
  have hi := inv_reaches hw hreached
  have hmade : v'.ledger.committed = calls.filterMap (fun c => c.2.committed?) ++ v.ledger.committed := by
    simp [Surroundings.ledger, hcalls]
  have hpos : pos ∈ calls.filterMap fun c => c.2.committed? := List.mem_filterMap.2 ⟨_, hcommit, rfl⟩
  obtain ⟨m, rest, hcoming, rfl⟩ := step_commit (Pipeline.turn_step hturn) hmade hpos
  have hlost : ∀ q, q ∈ v.ledger.lost ↔ .rewind q ∈ v.failures := Surroundings.mem_lost v
  have hended : ∀ d, Taken ts d → d.position.Below m.position →
      (Ended ts d ↔ .rewind d.position ∉ v.failures) := by
    intro d hd hbelow
    rw [← hlost]
    exact ended_below_iff hi hcoming hd hbelow
  refine ⟨hended, ?_, ?_⟩
  · intro hall q hq hsame
    obtain ⟨d, hd, rfl, hbelow⟩ := lost_below hi hcoming ((hlost q).2 hq) hsame
    exact (hended d hd hbelow).1 (hall d hd hbelow) hq
  · intro hnone d hd hbelow
    exact (hended d hd hbelow).2 fun hmem => hnone _ hmem hbelow.1

def Message.blank (offset : Int64) : Message := { topic := "orders", partition := 0, offset }

def Pipeline.eager : Pipeline := { retryInterval := ⟨0⟩ }

def Surroundings.outage : Surroundings where
  queue := [.ok (.blank 0), .ok (.blank 1)]
  conditions := fun n _ => if n < 3 then .fails else .succeeds 0

theorem outage_inOrder : Surroundings.outage.InOrder :=
  ⟨List.pairwise_pair.2 fun _ => by decide, rfl⟩

theorem outage_turns : ∃ v v' tracked tracked' h t calls,
    Pipeline.eager.Reaches .outage [.took (.blank 0) h] tracked v ∧ h.outcome.isFinal = false ∧
      (Pipeline.eager.turn Surroundings.facilities tracked).run v = some ((t, tracked', true), v') ∧
      v'.trace = calls ++ v.trace ∧ (0, .commit (Message.blank 1).position) ∈ calls := by
  refine ⟨_, _, _, _, _, _, [_, _, _], Pipeline.Reaches.turn Pipeline.Reaches.start rfl, rfl, rfl, rfl, ?_⟩
  exact List.mem_cons_self

theorem ended_below_commit_of_outage : ∃ v v' tracked tracked' h t calls,
    Surroundings.outage.InOrder ∧ Pipeline.eager.Reaches .outage [.took (.blank 0) h] tracked v ∧
      (Pipeline.eager.turn Surroundings.facilities tracked).run v = some ((t, tracked', true), v') ∧
      v'.trace = calls ++ v.trace ∧ (0, .commit (Message.blank 1).position) ∈ calls ∧
      ((∀ d, Taken [.took (.blank 0) h] d → d.position.Below (Message.blank 1).position →
          Ended [.took (.blank 0) h] d) ↔
        ∀ q, .rewind q ∈ v.failures → ¬ q.SamePartition (Message.blank 1).position) := by
  obtain ⟨v, v', tracked, tracked', h, t, calls, hreached, -, hturn, hcalls, hcommit⟩ := outage_turns
  exact ⟨v, v', tracked, tracked', h, t, calls, outage_inOrder, hreached, hturn, hcalls, hcommit,
    (ended_below_commit_iff_no_rewind_failed outage_inOrder hreached hturn hcalls hcommit).2⟩

/-- The second message is committed though the first one, which was taken, has not ended. -/
theorem commit_passes_unended_message : ∃ v v' tracked tracked' h t calls,
    Surroundings.outage.InOrder ∧ Pipeline.eager.Reaches .outage [.took (.blank 0) h] tracked v ∧
      (Pipeline.eager.turn Surroundings.facilities tracked).run v = some ((t, tracked', true), v') ∧
      v'.trace = calls ++ v.trace ∧ (0, .commit (Message.blank 1).position) ∈ calls ∧
      ∃ d, Taken [.took (.blank 0) h] d ∧ d.position.Below (Message.blank 1).position ∧
        ¬ Ended [.took (.blank 0) h] d := by
  obtain ⟨v, v', tracked, tracked', h, t, calls, hreached, hunended, hturn, hcalls, hcommit⟩ := outage_turns
  refine ⟨v, v', tracked, tracked', h, t, calls, outage_inOrder, hreached, hturn, hcalls, hcommit,
    .blank 0, ⟨h, List.mem_cons_self⟩, ⟨⟨rfl, rfl⟩, by decide⟩, ?_⟩
  rintro ⟨h', hmem, hfinal⟩
  cases List.mem_singleton.1 hmem
  rw [hunended] at hfinal
  cases hfinal

end OrderDepot.Delivery
