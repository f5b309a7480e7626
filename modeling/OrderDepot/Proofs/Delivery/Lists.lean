import OrderDepot.Proofs.Delivery.Courses
import OrderDepot.Proofs.Json.Lists
import OrderDepot.Proofs.Order.Documents

/-!
# Orders that are written as lists

An order, its delivery, its payment and each of its items are objects or lists of values without names. Anything else
in their places is set aside as no order at all. A list is read as the object that gives its values to the declared
names in their order, so it is an order, and it is stored or its faults are reported.
-/

namespace OrderDepot

open Json (Tree Document Quoted Spelled field? field?_map meaning_inObject meaning_asObject
  list?_mapElements spellable_iff_document space_nil)

variable {t u : Tree} {names : List String} {o : Order} {payload : List UInt8}

/-- The places of records in the tree of an order, each with the names of its fields. -/
inductive Order.Part (t : Tree) : List String → Tree → Prop where
  | order : Order.Part t Order.names t
  | delivery {u : Tree} (given : t.Gives Order.names "delivery" u) : Order.Part t Delivery.names u
  | payment {u : Tree} (given : t.Gives Order.names "payment" u) : Order.Part t Payment.names u
  | item {us : List Tree} {u : Tree} (given : t.Gives Order.names "items" (.array us)) (listed : u ∈ us) :
      Order.Part t Item.names u

theorem Order.names_nodup : Order.names.Nodup := by decide

theorem Order.Part.level (h : Order.Part t names u) {fs : List (String × Tree)}
    (hfs : t.fields? Order.names = some fs) : Order.Level t names u := by
  cases h with
  | order => exact .order
  | delivery given => exact .delivery hfs (given.lookup Order.names_nodup hfs)
  | payment given => exact .payment hfs (given.lookup Order.names_nodup hfs)
  | item given listed => exact .item hfs (given.lookup Order.names_nodup hfs) listed

theorem Order.Part.isRecord (h : Order.Part t names u) (ho : Order.ofTree? t = some o) : u.IsRecord names := by
  obtain ⟨fs, hfs, -⟩ := Option.bind_eq_some_iff.1 ho
  obtain ⟨gs, hgs⟩ := (h.level hfs).fields_given ho
  exact Json.isRecord_of_fields hgs

def Order.inner (name : String) : Tree → Tree :=
  if name = "delivery" then .asObject Delivery.names
  else if name = "payment" then .asObject Payment.names
  else if name = "items" then .mapElements (.asObject Item.names)
  else id

/-- The order with an object in the place of every list that stands for a record. -/
def Order.inObjects (t : Tree) : Tree := t.inObject Order.names Order.inner

theorem Delivery.ofTree?_asObject (t : Tree) : Delivery.ofTree? (t.asObject Delivery.names) = Delivery.ofTree? t :=
  meaning_asObject (by decide) t

theorem Payment.ofTree?_asObject (t : Tree) : Payment.ofTree? (t.asObject Payment.names) = Payment.ofTree? t :=
  meaning_asObject (by decide) t

theorem Item.ofTree?_asObject (t : Tree) : Item.ofTree? (t.asObject Item.names) = Item.ofTree? t :=
  meaning_asObject (by decide) t

theorem Order.inner_of_plain {name : String} (h : name ∉ ["delivery", "payment", "items"]) (t : Tree) :
    Order.inner name t = t := by
  simp only [List.mem_cons, List.not_mem_nil, or_false, not_or] at h
  rw [Order.inner, if_neg h.1, if_neg h.2.1, if_neg h.2.2, id]

theorem Order.ofTree?_inObjects (t : Tree) : Order.ofTree? (Order.inObjects t) = Order.ofTree? t := by
  refine meaning_inObject Order.names_nodup (fun fs => ?_) t
  have hdelivery := @field?_map _ _ Order.inner "delivery" Delivery.ofTree?_asObject fs
  have hpayment := @field?_map _ _ Order.inner "payment" Payment.ofTree?_asObject fs
  have hitems := @field?_map _ _ Order.inner "items" (list?_mapElements Item.ofTree?_asObject) fs
  have hplain : ∀ {α : Type} {name : String} (_ : name ∉ ["delivery", "payment", "items"])
      (meaning : Tree → Option α) (zero : α),
      field? (fs.map fun f => (f.1, Order.inner f.1 f.2)) name meaning zero = field? fs name meaning zero :=
    fun h meaning => field?_map Order.inner (fun u => congrArg meaning (Order.inner_of_plain h u)) fs
  simp (disch := decide) only [Order.ofFields?, hdelivery, hpayment, hitems, hplain]

theorem Order.part_inObjects (hrecords : ∀ names u, Order.Part t names u → u.IsRecord names)
    (h : Order.Part (Order.inObjects t) names u) : ∃ ms, u = .object ms := by
  have horder := hrecords _ _ .order
  have hgives : ∀ {name u}, (Order.inObjects t).Gives Order.names name u →
      ∃ v, t.Gives Order.names name v ∧ Order.inner name v = u := horder.gives_inObject
  cases h with
  | order => exact horder.inObject _
  | delivery given =>
    obtain ⟨v, hv, rfl⟩ := hgives given
    exact (hrecords _ _ (.delivery hv)).inObject fun _ u => u
  | payment given =>
    obtain ⟨v, hv, rfl⟩ := hgives given
    exact (hrecords _ _ (.payment hv)).inObject fun _ u => u
  | item given listed =>
    obtain ⟨v, hv, heq⟩ := hgives given
    cases v with
    | array us =>
      cases heq
      obtain ⟨w, hw, rfl⟩ := List.mem_map.1 listed
      exact (hrecords _ _ (.item hv hw)).inObject fun _ u => u
    | _ => cases heq

def Order.allNames : List String := Order.names ++ Delivery.names ++ Payment.names ++ Item.names

theorem Order.names_quoted (h : names ⊆ Order.allNames) : ∀ name ∈ names, ∃ quoted, Quoted (some name) quoted := by
  have hplain : Order.allNames.all
      (·.toList.all fun c => decide (0x20 ≤ c.toNat) && decide (c ≠ '"') && decide (c ≠ '\\')) = true := by
    decide +kernel
  intro name hname
  have hchars := List.all_eq_true.1 (List.all_eq_true.1 hplain name (h hname))
  simp only [Bool.and_eq_true, decide_eq_true_eq, and_assoc] at hchars
  exact ⟨_, String.ofList_toList ▸ Json.quoted_plain hchars⟩

theorem Order.spellable_inObjects (h : t.Spellable) : (Order.inObjects t).Spellable := by
  have horder := Order.names_quoted fun name (h : name ∈ Order.names) => by simp [Order.allNames, h]
  have hdelivery := Order.names_quoted fun name (h : name ∈ Delivery.names) => by simp [Order.allNames, h]
  have hpayment := Order.names_quoted fun name (h : name ∈ Payment.names) => by simp [Order.allNames, h]
  have hitem := Order.names_quoted fun name (h : name ∈ Item.names) => by simp [Order.allNames, h]
  refine h.inObject horder fun name u hu => ?_
  unfold Order.inner
  split_ifs
  · exact hu.asObject hdelivery
  · exact hu.asObject hpayment
  · exact hu.mapElements fun v hv => hv.asObject hitem
  · exact hu

theorem Order.decode_of_document (h : Document payload t) :
    Order.decode payload = .ok o ↔ Order.ofTree? t = some o := by
  refine (exact_order.readDocument payload o).trans ⟨?_, fun ho => ⟨t, h, ho⟩⟩
  rintro ⟨t', ht', ho⟩
  exact h.unique ht' ▸ ho

theorem Order.Part.undecodable (ht : Document payload t) (h : Order.Part t names u) (hu : ¬ u.IsRecord names) :
    Undecodable payload := by
  cases hdecode : Order.decode payload with
  | error e => exact ⟨e, hdecode⟩
  | ok o => exact absurd (h.isRecord ((Order.decode_of_document ht).1 hdecode)) hu

namespace Delivery

open Surroundings (facilities)

variable {m : Message}

def Message.IsNoOrder (m : Message) : Prop :=
  ∀ (p : Pipeline) (attempt : UInt32) (w : Surroundings), ∃ outcome v,
    p.process facilities.toFacilities m attempt w = some (outcome, v) ∧
      outcome.reason? = some .unmarshalFailed ∧ v.store = w.store

theorem isNoOrder_of_undecodable (h : Undecodable m.payload) : m.IsNoOrder := by
  intro p attempt w
  obtain ⟨outcome, v, hprocess⟩ := Pipeline.process_total p m attempt w
  have hprocessed := Pipeline.processed_of_process hprocess
  refine ⟨outcome, v, hprocess, (hprocessed.reason?_some_iff _).2 h, ?_⟩
  cases hprocessed with
  | stored accepted => exact absurd h accepted.not_undecodable
  | storeFailed accepted => exact absurd h accepted.not_undecodable
  | deadLettered _ _ _ does => exact does.store_eq
  | deadLetterFailed _ _ _ does => exact does.store_eq
  | deadLetterDisabled => rfl

/-- A document with anything but an object or a list that fits in the place of a record is no order, to the pipeline
and to the operators' tool. Otherwise it is read as the document that has objects in all these places, where a list
gives its values to the declared names in their order. -/
theorem lists_read_as_objects (payload : List UInt8) (t : Tree) (ht : Document payload t) :
    (∀ names u, Order.Part t names u → ¬ u.IsRecord names →
      Undecodable payload ∧ (∀ m : Message, m.payload = payload → m.IsNoOrder) ∧
        ∀ now, (CommandLine.validate (.ok payload) now).ReportsDecodeError) ∧
      ((∀ names u, Order.Part t names u → u.IsRecord names) →
        ∃ payload', Document payload' (Order.inObjects t) ∧
          (∀ names u, Order.Part (Order.inObjects t) names u → ∃ ms, u = .object ms) ∧
          ∀ o, Order.decode payload = .ok o ↔ Order.decode payload' = .ok o) := by
  refine ⟨fun names u hpart hu => ?_, fun hrecords => ?_⟩
  · have hundecodable := hpart.undecodable ht hu
    exact ⟨hundecodable, fun m hm => isNoOrder_of_undecodable (hm ▸ hundecodable), fun now =>
      CommandLine.validate_undecodable hundecodable⟩
  · have hspellable := Order.spellable_inObjects (spellable_iff_document.2 ⟨payload, ht⟩)
    obtain ⟨payload', ht'⟩ := spellable_iff_document.1 hspellable
    refine ⟨payload', ht', fun names u => Order.part_inObjects hrecords, fun o => ?_⟩
    rw [Order.decode_of_document ht, Order.decode_of_document ht', Order.ofTree?_inObjects]

theorem number_and_list_for_records :
    Undecodable (Text.bytes "\x7b\"payment\":7\x7d") ∧
      ∃ payload', Document payload' (.object [(some "order_uid", .string (some "a"))]) ∧
        ∀ o, Order.decode (Text.bytes "[\"a\"]") = .ok o ↔ Order.decode payload' = .ok o := by
  have hpayment : Quoted (some "payment") "\"payment\"".toList :=
    @Json.quoted_plain ['p', 'a', 'y', 'm', 'e', 'n', 't'] (by simp)
  have ha : Quoted (some "a") "\"a\"".toList := @Json.quoted_plain ['a'] (by simp)
  have hseven : Spelled (.number false ['7'] [] []) "7".toList :=
    .number false ⟨⟨by simp, by simp⟩, by simp⟩ (.inl rfl) (.inl rfl)
  have hnumber : Document (Text.bytes "\x7b\"payment\":7\x7d") _ :=
    ⟨_, [], _, [], rfl, rfl, space_nil,
      .object (.next true space_nil hpayment space_nil space_nil hseven (.close false space_nil)), space_nil⟩
  have hlist : Document (Text.bytes "[\"a\"]") (.array [.string (some "a")]) :=
    ⟨_, [], _, [], rfl, rfl, space_nil, .array (.next true space_nil (.string ha) (.close false space_nil)), space_nil⟩
  have hrecords : ∀ names u, Order.Part (.array [.string (some "a")]) names u → u.IsRecord names := by
    intro names u hpart
    cases hpart with
    | order => exact (by decide : 1 ≤ Order.names.length)
    | delivery given => simp [Json.Tree.Gives, Order.names] at given
    | payment given => simp [Json.Tree.Gives, Order.names] at given
    | item given => simp [Json.Tree.Gives, Order.names] at given
  obtain ⟨payload', ht', -, hdecode⟩ := (lists_read_as_objects _ _ hlist).2 hrecords
  refine ⟨((lists_read_as_objects _ _ hnumber).1 _ _ (.payment (List.mem_singleton.2 rfl)) id).1, payload', ht', hdecode⟩

def namelessOrder : String :=
  "[\"a\",\"t\",\"e\",[\"n\",\"+97200000000\",\"\",\"c\",\"a\",\"r\",\"\"]," ++
    "[\"t\",\"\",\"RUB\",\"p\",0,1,\"\",0,0,0],[[1,\"\",0,\"\",\"n\",0,\"\",0,0,\"\",0]]," ++
    "\"l\",\"\",\"c\",\"d\",\"s\",0,\"2020-01-01T00:00:00Z\",\"o\"]"

def Message.holding (payload : List UInt8) : Message := { Message.blank 0 with payload }

/-- The list without values is an order that breaks rules, and a list of lists is an order that is stored. -/
theorem lists_are_orders :
    let empty := Text.bytes "[]"
    let nameless := Text.bytes namelessOrder
    let now : Time.Instant := ⟨1700000000, 0⟩
    (Document empty (.array []) ∧ Order.decode empty = .ok {} ∧
      (∃ v, ({} : Pipeline).process facilities.toFacilities (.holding empty) 1 .calm =
        some (.deadLettered .validationFailed, v)) ∧
      ∃ report, (CommandLine.validate (.ok empty) now).ReportsViolations report) ∧
    (∃ ts, Document nameless (.array ts)) ∧
      (∃ v, ({} : Pipeline).process facilities.toFacilities (.holding nameless) 1 .calm = some (.stored, v)) ∧
      (CommandLine.validate (.ok nameless) now).Succeeds := by
  intro empty nameless now
  have hempty : Document empty (.array []) :=
    ⟨_, [], _, [], rfl, rfl, space_nil, .array (.close true space_nil), space_nil⟩
  have hdecode : Order.decode empty = .ok {} := rfl
  have hfaulty : ({} : Order).violations now ≠ [] := by decide +kernel
  have hsucceeds : (CommandLine.validate (.ok nameless) now).Succeeds := ⟨by decide +kernel, by decide +kernel⟩
  obtain ⟨o, haccepted⟩ := CommandLine.validate_succeeds_iff.1 hsucceeds
  obtain ⟨t, ht, -⟩ := (exact_order.readDocument _ _).1 haccepted.decoded
  have hbracket : Document (0x5B :: nameless.tail) t := ht
  obtain ⟨ts, rfl⟩ := hbracket.array_of_bracket
  have hrejected : Reason.AppliesTo .validationFailed (Message.holding empty).payload now := ⟨_, hdecode, hfaulty⟩
  have hreported : ∃ v, ({} : Pipeline).process facilities.toFacilities (.holding empty) 1 .calm =
      some (.deadLettered .validationFailed, v) :=
    ⟨_, (Pipeline.process_rejected hrejected).trans (Pipeline.setAside_published rfl rfl)⟩
  have hstored : ∃ v, ({} : Pipeline).process facilities.toFacilities (.holding nameless) 1 .calm =
      some (.stored, v) := ⟨_, Pipeline.process_accepted haccepted rfl⟩
  exact ⟨⟨hempty, hdecode, hreported, _, CommandLine.validate_faulty hdecode hfaulty⟩, ⟨ts, ht⟩, hstored, hsucceeds⟩

end Delivery

end OrderDepot
