import OrderDepot.Delivery.DeadLetter
import OrderDepot.Proofs.Order.RoundTrip
import OrderDepot.Proofs.Text.Base64

/-!
# What a dead letter keeps

The envelope of a dead letter is read back field by field, with the payload in base64 in between. So nothing of
the message is lost but the bytes of its key that are no text.
-/

namespace OrderDepot.Delivery

open Json (Reads Fills)

theorem reads_reason (r : Reason) : Reads reasonReader r (.text r.code) :=
  Json.reads_variant (by cases r <;> rfl)

theorem reads_payload (bs : List UInt8) :
    Reads payloadField.read (fun e => .ok { e with payload := bs }) (.text (Text.Base64.encode bs)) := by
  intro ds w rest hds hw hrest
  simp only [payloadField, Json.Reader.map, Json.reads_text _ hds hw hrest, bind, Except.bind,
    Text.Base64.decode_encode]
  rfl

theorem reads_envelope {e : Envelope} (h : e.timestamp.Writable) :
    Reads (Json.record Envelope.shape) e e.toJson := by
  refine .record (by decide) ?_
  exact .of (Json.reads_text _) <| .of (Json.reads_int32 _) <| .of (Json.reads_int64 _) <|
    .of (Json.reads_text _) <| .of (reads_reason _) <| .of (Json.reads_uint32 _) <|
    .cons (f := payloadField) (reads_payload _) rfl <| .of (reads_instant h) <| .nil e

theorem decode_encode_envelope {e : Envelope} (h : e.timestamp.Writable) :
    Envelope.decode (Text.bytes e.encode) = .ok e := by
  have hread := Json.readDocument_written (reads_envelope h) e.toJson.written_compact Json.blanks_nil
  rwa [List.append_nil, ← Json.bytes_eq_utf8] at hread

/-- The payload of a dead letter gives back the message, the reason, the attempt and the time, and of the key
its text. -/
theorem dead_letter_recovered (m : Message) (reason : Reason) (attempt : UInt32) {now : Time.Instant}
    (hnow : now.Counted) (hfirst : 0 ≤ now.year) (hlast : now.year ≤ 9999) :
    ∃ e, Envelope.decode (deadLetter m reason attempt now).payload = .ok e ∧
      e = .capture m reason attempt now ∧
      (e.topic = m.topic ∧ e.partition = m.partition ∧ e.offset = m.offset ∧ e.reason = reason ∧
        e.attempt = attempt ∧ e.timestamp = now ∧ e.payload = m.payload) ∧
      (∀ key, Text.text? m.key = some key → e.key = key ∧ Text.bytes e.key = m.key) ∧
      (deadLetter m reason attempt now).key = Text.bytes m.position.text ∧
      (deadLetter m reason attempt now).headers =
        [(reasonHeader, Text.bytes reason.code), (topicHeader, Text.bytes m.topic)] := by
  have hwritable : (Envelope.capture m reason attempt now).timestamp.Writable := hnow.writable hfirst hlast
  refine ⟨_, decode_encode_envelope hwritable, rfl, ⟨rfl, rfl, rfl, rfl, rfl, rfl, rfl⟩, ?_, rfl, rfl⟩
  intro key hkey
  have htext : (Envelope.capture m reason attempt now).key = key := Text.lossyText_of_text? hkey
  exact ⟨htext, by rw [htext, Text.eq_bytes_of_text? hkey]⟩

def Message.extreme : Message where
  topic := "orders: \"\u0000\""
  partition := Int32.minValue
  offset := Int64.minValue
  key := [0xFF, 0x61]
  payload := [0x00, 0xFF, 0x22, 0x5C]

def leapInstant : Time.Instant := ⟨1483228799, 1500000000⟩

theorem extreme_dead_letter_recovered :
    leapInstant.Counted ∧ 0 ≤ leapInstant.year ∧ leapInstant.year ≤ 9999 ∧
      ∃ e, Envelope.decode (deadLetter .extreme .unmarshalFailed 4294967295 leapInstant).payload = .ok e ∧
        e.offset = Int64.minValue ∧ e.attempt = 4294967295 ∧ e.timestamp = leapInstant ∧
        e.payload = [0x00, 0xFF, 0x22, 0x5C] ∧ e.key = "\uFFFDa" := by
  have hnow : leapInstant.Counted := .inr (by decide)
  have hfirst : 0 ≤ leapInstant.year := by decide
  have hlast : leapInstant.year ≤ 9999 := by decide
  obtain ⟨e, hdecode, heq, ⟨-, -, hoffset, -, hattempt, htime, hpayload⟩, -⟩ :=
    dead_letter_recovered .extreme .unmarshalFailed 4294967295 hnow hfirst hlast
  have hkey : e.key = "\uFFFDa" := by
    rw [heq]
    decide
  exact ⟨hnow, hfirst, hlast, e, hdecode, hoffset, hattempt, htime, hpayload, hkey⟩

end OrderDepot.Delivery
