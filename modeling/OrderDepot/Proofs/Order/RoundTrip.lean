import OrderDepot.CommandLine.Outcome
import OrderDepot.Order.Sample
import OrderDepot.Proofs.Json.Reader
import OrderDepot.Proofs.Time.InstantText

/-!
Decoding undoes encoding, in both layouts. Texts and integers may be any; the date has to be one that reading
gives, since others have no text, and every decoded order has such a date.
-/

namespace OrderDepot

open Json (Reads Fills)

theorem reads_ident {named : Named} (i : Ident named) : Reads identReader i (.text i.text) :=
  (Json.reads_text i.text).map Ident.mk

theorem reads_instant {t : Time.Instant} (h : t.Writable) : Reads instantReader t (.text t.text) := by
  refine Json.reads_textAs ?_
  rw [h.read_text]

theorem reads_delivery (d : Delivery) : Reads (Json.record Delivery.shape) d d.toJson := by
  refine .record (by decide) ?_
  exact .of (Json.reads_text _) <| .of (Json.reads_text _) <| .of (Json.reads_text _) <| .of (Json.reads_text _) <|
    .of (Json.reads_text _) <| .of (Json.reads_text _) <| .of (Json.reads_text _) <| .nil d

theorem reads_payment (p : Payment) : Reads (Json.record Payment.shape) p p.toJson := by
  refine .record (by decide) ?_
  exact .of (reads_ident _) <| .of (Json.reads_text _) <| .of (Json.reads_text _) <| .of (Json.reads_text _) <|
    .of (Json.reads_int64 _) <| .of (Json.reads_int64 _) <| .of (Json.reads_text _) <|
    .of (Json.reads_int64 _) <| .of (Json.reads_int64 _) <| .of (Json.reads_int64 _) <| .nil p

theorem reads_item (i : Item) : Reads (Json.record Item.shape) i i.toJson := by
  refine .record (by decide) ?_
  exact .of (Json.reads_int64 _) <| .of (Json.reads_text _) <| .of (Json.reads_int64 _) <|
    .of (Json.reads_text _) <| .of (Json.reads_text _) <| .of (Json.reads_int64 _) <| .of (Json.reads_text _) <|
    .of (Json.reads_int64 _) <| .of (Json.reads_int64 _) <| .of (Json.reads_text _) <|
    .of (Json.reads_int64 _) <| .nil i

theorem reads_items (items : List Item) :
    Reads (Json.listOf (Json.record Item.shape)) items (.list (items.map Item.toJson)) := by
  apply Reads.listOf
  induction items with
  | nil => exact .nil
  | cons i items ih => exact .cons (reads_item i) ih

theorem reads_order {o : Order} (h : o.dateCreated.Writable) : Reads (Json.record Order.shape) o o.toJson := by
  refine .record (by decide) ?_
  exact .of (reads_ident _) <| .of (Json.reads_text _) <| .of (Json.reads_text _) <| .of (reads_delivery _) <|
    .of (reads_payment _) <| .of (reads_items _) <| .of (Json.reads_text _) <| .of (Json.reads_text _) <|
    .of (Json.reads_text _) <| .of (Json.reads_text _) <| .of (Json.reads_text _) <| .of (Json.reads_int64 _) <|
    .of (reads_instant h) <| .of (Json.reads_text _) <| .nil o

/-- A date of creation that some payload leads to. -/
def Decoded (t : Time.Instant) : Prop :=
  ∃ payload o, Order.decode payload = .ok o ∧ o.dateCreated = t

theorem writable_of_instantReader {s rest : List UInt8} {t : Time.Instant}
    (h : instantReader s = .ok (t, rest)) : t.Writable := by
  unfold instantReader Json.textAs at h
  split at h
  · obtain ⟨⟨text, s⟩, -, h⟩ := bind_eq_ok h
    simp only at h
    cases hread : Time.Instant.read text with
    | error e => simp only [hread] at h; cases h
    | ok u =>
      simp only [hread] at h
      cases h
      exact Time.writable_of_read hread
  · cases h

theorem fields_keep_writable : ∀ f ∈ Order.shape.fields, f.Keeps fun o => o.dateCreated.Writable := by
  simp only [Order.shape, List.forall_mem_cons, List.not_mem_nil, false_imp_iff, implies_true, and_true]
  refine ⟨?_, ?_, ?_, ?_, ?_, ?_, ?_, ?_, ?_, ?_, ?_, ?_, ?_, ?_⟩
  case refine_13 => exact Json.Field.keeps_of fun _ _ _ _ hread _ => writable_of_instantReader hread
  all_goals exact Json.Field.keeps_of fun _ _ _ _ _ ho => ho

theorem decode_writable {payload : List UInt8} {o : Order} (h : Order.decode payload = .ok o) :
    o.dateCreated.Writable := by
  simp only [Order.decode, Json.readDocument] at h
  split at h
  · cases h
  · next b rest hread =>
    split at h
    · cases h
      exact Json.record_keeps (P := fun o : Order => o.dateCreated.Writable) Time.epoch_writable
        fields_keep_writable hread
    · cases h

theorem decode_written {o : Order} (hdate : o.dateCreated.Writable) {cs : List Char} {w : List UInt8}
    (hcs : Json.Written o.toJson (Json.utf8 cs)) (hw : Json.Blanks w) :
    Order.decode (Text.bytes (String.ofList cs) ++ w) = .ok o := by
  rw [Json.bytes_eq_utf8]
  exact Json.readDocument_written (reads_order hdate) hcs hw

theorem decode_compact {o : Order} (hdate : o.dateCreated.Writable) :
    Order.decode (Text.bytes o.encode) = .ok o := by
  have h := decode_written hdate o.toJson.written_compact Json.blanks_nil
  rwa [List.append_nil] at h

theorem decoded_iff_writable (t : Time.Instant) : Decoded t ↔ t.Writable := by
  constructor
  · rintro ⟨payload, o, hdecode, rfl⟩
    exact decode_writable hdecode
  · intro h
    exact ⟨_, { dateCreated := t }, decode_compact h, rfl⟩

theorem decode_pretty {o : Order} (hdate : o.dateCreated.Writable) :
    Order.decode (Text.bytes o.toJson.pretty) = .ok o := by
  have h := decode_written hdate (o.toJson.written_pretty 0) Json.blanks_nil
  rwa [List.append_nil] at h

theorem decode_pretty_line {o : Order} (hdate : o.dateCreated.Writable) :
    Order.decode (Text.bytes (o.toJson.pretty ++ "\n")) = .ok o := by
  have hline : Json.Blanks (Text.bytes "\n") := by
    rw [Text.bytes_eq]
    exact Json.blanks_newLine 0
  rw [Text.bytes_append]
  exact decode_written hdate (o.toJson.written_pretty 0) hline

theorem lookUp_stdout {url uid : String} {link : Store.Relational.Link} {connection : Store.Relational.Connection}
    {o : Order} (hurl : Settings.checkDatabaseUrl url = .ok ()) (hlink : Store.Relational.connect link = .ok connection)
    (hget : (connection.call (Store.Relational.get ⟨uid⟩)).1 = .ok o) :
    (CommandLine.lookUp (some url) link uid).stdout = o.toJson.pretty ++ "\n" := by
  simp only [CommandLine.lookUp, hurl, hlink, hget]
  rfl

open Store.Relational in
/-- Every order with a date that decoding gives comes back from both of its layouts. -/
theorem decode_of_written_order :
    (∀ o : Order, Decoded o.dateCreated →
      Order.decode (Text.bytes o.encode) = .ok o ∧ Order.decode (Text.bytes o.toJson.pretty) = .ok o ∧
      ∀ url uid link connection, Settings.checkDatabaseUrl url = .ok () → connect link = .ok connection →
        (connection.call (get ⟨uid⟩)).1 = .ok o →
          Order.decode (Text.bytes (CommandLine.lookUp (some url) link uid).stdout) = .ok o) ∧
    (∀ o o' : Order, Decoded o.dateCreated → Decoded o'.dateCreated → o ≠ o' → o.encode ≠ o'.encode) ∧
    ∀ payload o, Order.decode payload = .ok o → Order.decode (Text.bytes o.encode) = .ok o := by
  refine ⟨?_, ?_, ?_⟩
  · intro o hdecoded
    have hdate := (decoded_iff_writable _).1 hdecoded
    refine ⟨decode_compact hdate, decode_pretty hdate, ?_⟩
    intro url uid link connection hurl hlink hget
    rw [lookUp_stdout hurl hlink hget]
    exact decode_pretty_line hdate
  · intro o o' hdecoded hdecoded' hne hencode
    have hread := decode_compact ((decoded_iff_writable _).1 hdecoded)
    have hread' := decode_compact ((decoded_iff_writable _).1 hdecoded')
    rw [hencode, hread'] at hread
    exact hne (Except.ok.inj hread).symm
  · intro payload o hdecode
    exact decode_compact (decode_writable hdecode)

def leapSample : Order :=
  { Order.sample "leap" .epoch with dateCreated := ⟨1483228799, 1500000000⟩ }

open Store.Relational in
theorem leapSample_comes_back :
    (Decoded leapSample.dateCreated ∧ Order.decode (Text.bytes leapSample.encode) = .ok leapSample ∧
      Order.decode (Text.bytes leapSample.toJson.pretty) = .ok leapSample) ∧
    (leapSample ≠ {} ∧ leapSample.encode ≠ Order.encode {}) ∧
    ∃ link connection, Settings.checkDatabaseUrl "postgres://localhost/orders" = .ok () ∧
      connect link = .ok connection ∧ (connection.call (get ⟨""⟩)).1 = .ok {} ∧
      Order.decode (Text.bytes (CommandLine.lookUp (some "postgres://localhost/orders") link "").stdout) = .ok {} := by
  obtain ⟨hlayouts, hdistinct, hagain⟩ := decode_of_written_order
  have hleap : Decoded leapSample.dateCreated := by
    rw [decoded_iff_writable]
    constructor <;> decide
  have hempty : Decoded ({} : Order).dateCreated := (decoded_iff_writable _).2 Time.epoch_writable
  have hne : leapSample ≠ {} := by decide
  have hcompact := (hlayouts leapSample hleap).1
  refine ⟨⟨hleap, hagain _ _ hcompact, (hlayouts leapSample hleap).2.1⟩,
    ⟨hne, hdistinct _ _ hleap hempty hne⟩, ?_⟩
  have hget : ((Connection.mk ((save {}).run.run { strict := true }).2 false).call (get ⟨""⟩)).1 = .ok {} := by
    decide +kernel
  have hurl : Settings.checkDatabaseUrl "postgres://localhost/orders" = .ok () := by
    decide +kernel
  exact ⟨.up _, _, hurl, rfl, hget, (hlayouts {} hempty).2.2 _ _ _ _ hurl rfl hget⟩

end OrderDepot
