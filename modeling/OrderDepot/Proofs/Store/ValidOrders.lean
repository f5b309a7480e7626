import OrderDepot.Proofs.Order.RoundTrip
import OrderDepot.Proofs.Order.Rules
import OrderDepot.Proofs.Store.Acceptance
import OrderDepot.Proofs.Store.Interference
import OrderDepot.Order.Sample

/-!
# Valid orders in a strict database

An order that was decoded and breaks no rule has a date that a column can hold, and no statement that saves it binds
too many values. What its texts may contain is not among the rules. So a strict server takes it just if no text has
U+0000, whatever was saved before.
-/

namespace OrderDepot.Store.Relational

def bindLimit : Nat := 65535

theorem length_of_mem_chunks {α : Type} {size : Nat} {as part : List α} (h : part ∈ chunksOfSucc size as) :
    part.length ≤ size + 1 := by
  fun_induction chunksOfSucc size as with
  | case1 => cases h
  | case2 a as ih =>
    rcases List.mem_cons.1 h with rfl | hrest
    · simp only [List.length_cons, List.length_take]
      omega
    · exact ih hrest

theorem length_params_insertItems (uid : OrderUid) (items : List Item) :
    (Statement.insertItems (items.map (itemRow uid))).params.length = 12 * items.length := by
  have hrow : ∀ i, (itemRow uid i).length = 12 := fun _ => rfl
  simp only [Statement.params, List.flatMap_map, List.length_flatMap, List.length_map, hrow]
  simp [Nat.mul_comm]

theorem params_saveStatements (o : Order) : ∀ st ∈ saveStatements o, st.params.length ≤ bindLimit := by
  simp only [saveStatements, itemStatements, List.cons_append, List.nil_append, List.forall_mem_cons,
    List.forall_mem_map]
  refine ⟨by simp [orderRow, Table.columns, bindLimit], by simp [deliveryRow, Table.columns, bindLimit],
    by simp [paymentRow, Table.columns, bindLimit], by simp [Statement.params, bindLimit],
    by simp [Statement.params, bindLimit], fun part hpart => ?_⟩
  have hlength : part.length ≤ 4999 + 1 := length_of_mem_chunks hpart
  rw [length_params_insertItems, bindLimit]
  omega

theorem inSpan_of_seconds {t : Time.Instant} (hfirst : 0 < t.seconds) (hlast : t.seconds ≤ Time.lastSecond)
    (hnanos : t.nanos < 2000000000) : InSpan t := by
  have hlastSecond : Time.lastSecond = 8210266876799 := by decide
  have hmillennium : millennium = 946684800 := rfl
  have hcut := Int.mul_tdiv_add_tmod ((t.seconds - millennium) * 1000000000 + t.nanos) 1000
  have hbelow := Int.tmod_lt_of_pos ((t.seconds - millennium) * 1000000000 + t.nanos) (b := 1000) (by decide)
  have habove := Int.lt_tmod_of_pos ((t.seconds - millennium) * 1000000000 + t.nanos) (b := 1000) (by decide)
  constructor <;>
  · simp only [earliestMicros, latestMicros, microsOf]
    omega

theorem inSpan_of_valid {payload : List UInt8} {now : Time.Instant} {o : Order}
    (hdecode : Order.decode payload = .ok o) (hvalid : o.violations now = []) : InSpan o.dateCreated := by
  obtain ⟨-, hlast, hnanos⟩ := decode_writable hdecode
  have hdated : 0 < o.dateCreated.seconds := by
    refine Int.not_le.1 fun hearly => ?_
    have hbreach := (violations_breaks o now).2 (.undated hearly)
    rw [hvalid] at hbreach
    cases hbreach
  exact inSpan_of_seconds hdated hlast (by omega)

/-- A strict server saves a valid order if none of its texts has U+0000, and else it refuses it and keeps its tables.
The number of values that a statement binds is never the reason. -/
theorem valid_order_saved_iff_nulFree {payload : List UInt8} {now : Time.Instant} {o : Order}
    (hdecode : Order.decode payload = .ok o) (hvalid : o.violations now = []) {s : Server} (hs : s.faults = [])
    (hstrict : s.strict = true) :
    (∀ st ∈ saveStatements o, st.params.length ≤ bindLimit) ∧
      ((∀ x ∈ o.texts, NulFree x) → ∃ log, save o s =
        (.ok (), { s with log, before := none, tables := (saveStatements o).foldl Tables.write s.tables })) ∧
      ((¬ ∀ x ∈ o.texts, NulFree x) → ∃ log, save o s =
        (.error (.database (.refused nulRefusal)), { s with log, before := none })) := by
  have hdate := inSpan_of_valid hdecode hvalid
  exact ⟨params_saveStatements o,
    fun hfree => Session.save_accepted (fun _ => accepts_of_nulFree hdate hfree s.tables) hs,
    fun hnul => Session.save_refused hs hstrict hdate hnul⟩

def sentTo (name : String) : Order :=
  let sample := Order.sample "a" ⟨1700000000, 0⟩
  { sample with delivery := { sample.delivery with name } }

theorem sentTo_decoded (name : String) : Order.decode (Text.bytes (sentTo name).encode) = .ok (sentTo name) := by
  have hdate : (sentTo name).dateCreated.Writable := by
    simp only [sentTo, Order.sample]
    constructor <;> decide
  exact decode_compact hdate

theorem renamed_order_saved :
    (∀ name ∈ ["Test", "Testov", "\x00"], (sentTo name).violations ⟨1700000000, 0⟩ = []) ∧
      ∃ (s s' : Server) (log : List Statement), save (sentTo "Test") .fresh = (.ok (), s) ∧
        save (sentTo "Testov") s = (.ok (), s') ∧
        save (sentTo "\x00") s' = (.error (.database (.refused nulRefusal)), { s' with log, before := none }) := by
  have hvalid : ∀ name ∈ ["Test", "Testov", "\x00"], (sentTo name).violations ⟨1700000000, 0⟩ = [] := by
    decide +kernel
  have hfree : ∀ name ∈ ["Test", "Testov"], ∀ x ∈ (sentTo name).texts, NulFree x := by
    decide +kernel
  have hnul : ¬ ∀ x ∈ (sentTo "\x00").texts, NulFree x := by
    decide +kernel
  have hsaved : ∀ name ∈ ["Test", "Testov"], ∀ s : Server, s.faults = [] → s.strict = true →
      ∃ s' : Server, save (sentTo name) s = (.ok (), s') ∧ s'.faults = [] ∧ s'.strict = true := by
    intro name hname s hs hstrict
    obtain ⟨log, hsave⟩ := (valid_order_saved_iff_nulFree (sentTo_decoded name)
      (hvalid name (List.mem_append_left ["\x00"] hname)) hs hstrict).2.1 (hfree name hname)
    exact ⟨_, hsave, hs, hstrict⟩
  obtain ⟨s, hfirst, hs, hstrict⟩ := hsaved "Test" (by simp) .fresh rfl rfl
  obtain ⟨s', hsecond, hs', hstrict'⟩ := hsaved "Testov" (by simp) s hs hstrict
  obtain ⟨log, hthird⟩ := (valid_order_saved_iff_nulFree (sentTo_decoded "\x00") (hvalid _ (by simp)) hs'
    hstrict').2.2 hnul
  exact ⟨hvalid, s, s', log, hfirst, hsecond, hthird⟩

/-- A valid order is refused by a database that holds nothing yet. -/
theorem valid_order_refused :
    Order.decode (Text.bytes (sentTo "\x00").encode) = .ok (sentTo "\x00") ∧
      (sentTo "\x00").violations ⟨1700000000, 0⟩ = [] ∧
      ∃ log, save (sentTo "\x00") .fresh =
        (.error (.database (.refused nulRefusal)), { Server.fresh with log, before := none }) := by
  have hvalid : (sentTo "\x00").violations ⟨1700000000, 0⟩ = [] := by
    decide +kernel
  have hnul : ¬ ∀ x ∈ (sentTo "\x00").texts, NulFree x := by
    decide +kernel
  exact ⟨sentTo_decoded _, hvalid,
    Session.save_refused rfl rfl (inSpan_of_valid (sentTo_decoded _) hvalid) hnul⟩

end OrderDepot.Store.Relational
