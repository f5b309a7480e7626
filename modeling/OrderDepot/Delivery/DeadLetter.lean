import OrderDepot.Delivery.Message
import OrderDepot.Json.Reader
import OrderDepot.Json.Value
import OrderDepot.Order.Reader
import OrderDepot.Text.Base64
import OrderDepot.Time.Duration

/-!
Dead letters: messages that can never be stored, set aside on a topic of their own. An envelope keeps the
place of the message, the reason and the payload, byte for byte. The key of the record is the place of the
message, so that two records of one message have one key.
-/

namespace OrderDepot.Delivery

open Json (Reader Shape)

inductive Reason where
  | unmarshalFailed
  | validationFailed
  deriving DecidableEq, Repr

def Reason.code : Reason → String
  | .unmarshalFailed => "unmarshal_failed"
  | .validationFailed => "validation_failed"

structure Envelope where
  topic : String
  partition : Int32
  offset : Int64
  key : String
  reason : Reason
  attempt : UInt32
  payload : List UInt8
  timestamp : Time.Instant
  deriving DecidableEq, Repr

def Envelope.capture (m : Message) (reason : Reason) (attempt : UInt32) (now : Time.Instant) : Envelope where
  topic := m.topic
  partition := m.partition
  offset := m.offset
  key := m.keyText
  reason := reason
  attempt := attempt
  payload := m.payload
  timestamp := now

def Envelope.toJson (e : Envelope) : Json.Value :=
  .object
    [("original_topic", .text e.topic), ("original_partition", .integer e.partition.toInt),
     ("original_offset", .integer e.offset.toInt), ("key", .text e.key),
     ("reason", .text e.reason.code), ("attempt", .integer e.attempt.toNat),
     ("payload", .text (Text.Base64.encode e.payload)), ("timestamp", .text e.timestamp.text)]

def Envelope.encode (e : Envelope) : String :=
  e.toJson.compact

def reasonReader : Reader Reason :=
  Json.variant
    [(Reason.unmarshalFailed.code, .unmarshalFailed), (Reason.validationFailed.code, .validationFailed)]

/-- A text is taken in first, and what it encodes is judged only when it is put into the envelope. -/
def payloadField : Json.Field Envelope where
  name := "payload"
  read := Json.text.map fun t e =>
    match Text.Base64.decode (Text.bytes t) with
    | .ok bytes => .ok { e with payload := bytes }
    | .error err => .error (.refused err.message)

def Envelope.shape : Shape Envelope where
  title := "struct Envelope"
  fields :=
    [.of "original_topic" Json.text fun v e => { e with topic := v },
     .of "original_partition" Json.int32 fun v e => { e with partition := v },
     .of "original_offset" Json.int64 fun v e => { e with offset := v },
     .of "key" Json.text fun v e => { e with key := v },
     .of "reason" reasonReader fun v e => { e with reason := v },
     .of "attempt" Json.uint32 fun v e => { e with attempt := v },
     payloadField,
     .of "timestamp" instantReader fun v e => { e with timestamp := v }]
  start := ⟨"", 0, 0, "", .unmarshalFailed, 0, [], .epoch⟩
  closed := false
  full := true

def Envelope.decode (document : List UInt8) : Except Json.Error Envelope :=
  Json.readDocument (Json.record Envelope.shape) document

def reasonHeader : String := "x-dlq-reason"

def topicHeader : String := "x-original-topic"

structure OutgoingRecord where
  key : List UInt8
  payload : List UInt8
  headers : List (String × List UInt8)
  deriving DecidableEq, Repr

def OutgoingRecord.header? (r : OutgoingRecord) (name : String) : Option (List UInt8) :=
  r.headers.lookup name

def deadLetter (m : Message) (reason : Reason) (attempt : UInt32) (now : Time.Instant) : OutgoingRecord where
  key := Text.bytes m.position.text
  payload := Text.bytes (Envelope.capture m reason attempt now).encode
  headers := [(reasonHeader, Text.bytes reason.code), (topicHeader, Text.bytes m.topic)]

inductive PublishError where
  | publish (text : String)
  | late (limit : Time.Duration)
  deriving DecidableEq, Repr

def PublishError.message : PublishError → String
  | .publish t => "dead-letter publish failed: " ++ t
  | .late d => "dead-letter publish timed out after " ++ d.describe

end OrderDepot.Delivery
