import OrderDepot.Text.Utf8
import OrderDepot.Time.Instant

/-!
Messages of a partitioned log. A message has its place in the log, a key and a payload of bytes.
-/

namespace OrderDepot.Delivery

structure Position where
  topic : String
  partition : Int32
  offset : Int64
  deriving DecidableEq, Repr, Inhabited

def Position.text (p : Position) : String :=
  s!"{p.topic}:{p.partition.toInt}:{p.offset.toInt}"

def Position.compare (a b : Position) : Ordering :=
  (compareOfLessAndEq a.topic b.topic).then
    ((compareOfLessAndEq a.partition b.partition).then (compareOfLessAndEq a.offset b.offset))

structure Message where
  topic : String
  partition : Int32
  offset : Int64
  key : List UInt8 := []
  payload : List UInt8 := []
  timestamp : Option Time.Instant := none
  headers : List (String × List UInt8) := []
  deriving DecidableEq, Repr, Inhabited

def Message.position (m : Message) : Position :=
  ⟨m.topic, m.partition, m.offset⟩

def Message.keyText (m : Message) : String :=
  Text.lossyText m.key

inductive SourceError where
  | unavailable (text : String)
  | commit (text : String)
  | seek (text : String)
  deriving DecidableEq, Repr

def SourceError.message : SourceError → String
  | .unavailable t => "broker unavailable: " ++ t
  | .commit t => "offset commit failed: " ++ t
  | .seek t => "seek failed: " ++ t

end OrderDepot.Delivery
