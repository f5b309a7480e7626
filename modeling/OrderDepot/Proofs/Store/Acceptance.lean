import OrderDepot.Proofs.Store.Refusals

/-!
# Saves that are accepted, and saves that fail

A server that enforces the constraints of its schema accepts every statement that saves an order, as long as
columns can hold its texts and its date. A save one statement of which fails, whichever it is, leaves the tables as
they were.
-/

namespace OrderDepot.Store.Relational

/-- A whole number of microseconds that a column can hold, and no part of a leap second. -/
structure Datable (t : Time.Instant) : Prop where
  whole : t.nanos % 1000 = 0
  second : t.nanos < 1000000000
  lower : earliestMicros ≤ microsOf t
  upper : microsOf t < latestMicros

structure Storable (o : Order) : Prop where
  texts : ∀ s ∈ o.texts, NulFree s
  date : Datable o.dateCreated

theorem ofMicros_microsOf {t : Time.Instant} (h : Datable t) : ofMicros (microsOf t) = t := by
  obtain ⟨seconds, nanos⟩ := t
  obtain ⟨hwhole, hsecond, -, -⟩ := h
  simp only at hwhole hsecond
  obtain ⟨m, rfl⟩ : ∃ m, nanos = 1000 * m := ⟨nanos / 1000, by omega⟩
  have hmicros : microsOf ⟨seconds, 1000 * m⟩ = (seconds - millennium) * 1000000 + m := by
    have hproduct : (seconds - millennium) * 1000000000 + ((1000 * m : Nat) : Int) =
        1000 * ((seconds - millennium) * 1000000 + m) := by
      omega
    rw [microsOf, hproduct]
    exact Int.mul_tdiv_cancel_left _ (by decide)
  rw [hmicros]
  simp only [ofMicros, Time.Instant.mk.injEq]
  constructor <;> omega

theorem accepts_saveStatements {o : Order} (h : Storable o) (t : Tables) : Accepts t (saveStatements o) :=
  accepts_of_nulFree ⟨h.date.lower, h.date.upper⟩ h.texts t

/-- Lets so many statements pass and strikes the next one, whatever its text. -/
def faultAfter (count : Nat) (message : String) : List Fault :=
  List.replicate count ⟨"", none⟩ ++ [⟨"", some message⟩]

def Passes (count : Nat) (faults : List Fault) : Prop := ∀ f ∈ faults.take count, f = ⟨"", none⟩

theorem passes_nil (count : Nat) : Passes count [] := fun f h => by simp at h

theorem passes_faultAfter {count n : Nat} (h : n ≤ count) (message : String) :
    Passes n (faultAfter count message) := by
  intro f hf
  rw [faultAfter, List.take_append_of_le_length (by simpa using h)] at hf
  exact List.eq_of_mem_replicate (List.mem_of_mem_take hf)

theorem drop_faultAfter (count : Nat) (message : String) :
    (faultAfter count message).drop count = faultAfter 0 message := by
  simp [faultAfter]

theorem tail_faultAfter (count : Nat) (message : String) :
    (faultAfter (count + 1) message).tail = faultAfter count message := rfl

theorem strikes_any (message : Option String) (st : Statement) : (⟨"", message⟩ : Fault).strikes st = true := rfl

theorem strike_passes {count : Nat} {faults : List Fault} (h : Passes (count + 1) faults) (st : Statement) :
    strike st faults = (none, faults.tail) ∧ Passes count faults.tail := by
  cases faults with
  | nil => exact ⟨rfl, passes_nil count⟩
  | cons f rest =>
    rw [Passes, List.take_succ_cons, List.forall_mem_cons] at h
    obtain ⟨rfl, hrest⟩ := h
    exact ⟨by simp [strike, strikes_any], hrest⟩

namespace Session

variable {s : Server}

theorem refusalOf_accepted {st : Statement} (h : s.strict = true → s.tables.refusal st = none) :
    refusalOf s st = none := by
  unfold refusalOf
  split
  · next hstrict => exact h hstrict
  · rfl

theorem perform_passed {count : Nat} {st : Statement} (hp : Passes (count + 1) s.faults)
    (hr : refusalOf s st = none) :
    perform st s = (.ok (s.tables.read st), { s with log := st :: s.log, faults := s.faults.tail }.effect st) := by
  unfold refusalOf at hr
  simp [perform, Server.execute, (strike_passes hp st).1, hr]

theorem perform_struck {message : String} (st : Statement) (hs : s.faults = faultAfter 0 message) :
    perform st s = (.error (.database (.refused message)), { s with log := st :: s.log, faults := [] }) := by
  simp [perform, Server.execute, hs, faultAfter, strike, strikes_any]

theorem performAll_passed {sts : List Statement} (hp : Passes sts.length s.faults)
    (ht : s.strict = true → Accepts s.tables sts) (hw : ∀ st ∈ sts, Writes st) :
    ∃ log, performAll sts s = (.ok (), { s with
      log, tables := sts.foldl Tables.write s.tables, faults := s.faults.drop sts.length }) := by
  induction sts generalizing s with
  | nil => exact ⟨s.log, rfl⟩
  | cons st rest ih =>
    obtain ⟨hst, hrest⟩ := List.forall_mem_cons.1 hw
    have hfirst := perform_passed hp (refusalOf_accepted fun h => (ht h).1)
    rw [hst] at hfirst
    obtain ⟨log, hrun⟩ := ih (s := { s with
      log := st :: s.log, tables := s.tables.write st, faults := s.faults.tail }) (strike_passes hp st).2
      (fun h => (ht h).2) hrest
    refine ⟨log, (bind_ok hfirst).trans (hrun.trans ?_)⟩
    simp only [List.length_cons, List.foldl_cons, List.drop_tail]

theorem performAll_struck {sts : List Statement} {k : Nat} {message : String} (hk : k < sts.length)
    (hs : s.faults = faultAfter k message) (ht : s.strict = true → Accepts s.tables sts)
    (hw : ∀ st ∈ sts, Writes st) :
    ∃ log tables, performAll sts s =
      (.error (.database (.refused message)), { s with log, tables, faults := [] }) := by
  induction sts generalizing s k with
  | nil => exact absurd hk (Nat.not_lt_zero k)
  | cons st rest ih =>
    cases k with
    | zero => exact ⟨_, _, bind_error (perform_struck st hs)⟩
    | succ k =>
      obtain ⟨hst, hrest⟩ := List.forall_mem_cons.1 hw
      have hpasses : Passes (k + 1) s.faults := hs ▸ passes_faultAfter (Nat.le_refl _) message
      have hfirst := perform_passed hpasses (refusalOf_accepted fun h => (ht h).1)
      rw [hst] at hfirst
      have htail : s.faults.tail = faultAfter k message := hs ▸ tail_faultAfter k message
      obtain ⟨log, tables, hrun⟩ := ih (s := { s with
        log := st :: s.log, tables := s.tables.write st, faults := s.faults.tail }) (Nat.lt_of_succ_lt_succ hk)
        htail (fun h => (ht h).2) hrest
      exact ⟨log, tables, (bind_ok hfirst).trans hrun⟩

theorem save_accepted {o : Order} (ht : s.strict = true → Accepts s.tables (saveStatements o))
    (hs : s.faults = []) :
    ∃ log, save o s =
      (.ok (), { s with log, before := none, tables := (saveStatements o).foldl Tables.write s.tables }) := by
  let u : Server := { s with log := .begin :: s.log, before := some s.tables }
  have hu : u.faults = [] := hs
  obtain ⟨log, hwork⟩ := performAll_passed (s := u) (hu ▸ passes_nil _) ht (writes_saveStatements o)
  rw [hu, List.drop_nil, ← hs] at hwork
  have hcommit := perform_commit
    (s := { u with log, tables := (saveStatements o).foldl Tables.write s.tables }) hs
  exact ⟨.commit :: log, (bind_ok (perform_begin hs)).trans (tryCatch_ok ((bind_ok hwork).trans (bind_ok hcommit)))⟩

theorem save_struck {o : Order} (h : Storable o) {k : Nat} {message : String}
    (hk : k < (saveStatements o).length + 2) (hs : s.faults = faultAfter k message) :
    ∃ log before, save o s =
      (.error (.database (.refused message)), { s with log, before, faults := [] }) := by
  cases k with
  | zero => exact ⟨_, _, bind_error (perform_struck .begin hs)⟩
  | succ k =>
    have hbegin := perform_passed (hs ▸ passes_faultAfter (Nat.le_refl _) message)
      (refusalOf_noParams s .begin rfl rfl)
    rw [hs, tail_faultAfter] at hbegin
    let u : Server := { s with
      log := .begin :: s.log, before := some s.tables, faults := faultAfter k message }
    have haccepts : u.strict = true → Accepts u.tables (saveStatements o) := fun _ => accepts_saveStatements h u.tables
    -- The beginning has passed. What fails is a statement of the work, or the commit behind it.
    rcases Nat.lt_or_ge k (saveStatements o).length with hlt | hge
    · obtain ⟨log, tables, hwork⟩ := performAll_struck (s := u) hlt rfl haccepts (writes_saveStatements o)
      obtain ⟨log, hsave⟩ := transaction_failed hbegin rfl (bind_error hwork) rfl rfl
      exact ⟨log, none, hsave⟩
    · obtain rfl : k = (saveStatements o).length := by
        omega
      obtain ⟨log, hwork⟩ := performAll_passed (s := u) (passes_faultAfter (Nat.le_refl _) message) haccepts
        (writes_saveStatements o)
      rw [drop_faultAfter] at hwork
      have hcommit := bind_error (f := fun _ => pure ()) (perform_struck .commit (s := { u with
        log, tables := (saveStatements o).foldl Tables.write u.tables, faults := faultAfter 0 message }) rfl)
      obtain ⟨log, hsave⟩ := transaction_failed hbegin rfl ((bind_ok hwork).trans hcommit) rfl rfl
      exact ⟨log, none, hsave⟩

end Session

end OrderDepot.Store.Relational
