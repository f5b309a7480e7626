import Mathlib.Data.List.Dedup
import Mathlib.Data.List.Induction
import OrderDepot.Delivery.DeadLetter
import OrderDepot.Keyed
import OrderDepot.Proofs.Json.Number
import OrderDepot.Proofs.Text.Numeral
import OrderDepot.Proofs.Text.Utf8

/-!
# Dead letters by key

The key of a dead letter is the place of its message, written without quotes. A topic may contain colons and a number
does not, so the two numbers can be taken off the end. Hence a topic for dead letters that keeps the last record of
each key keeps the last letter of each message, and loses no message to another one.
-/

namespace OrderDepot.Delivery

open Json (integerChars)
open Text (notMem_toDigits)

theorem colon_notMem_integerChars (n : Int) : ':' ∉ integerChars n := by
  cases n with
  | ofNat n =>
    rw [Json.integerChars_ofNat]
    exact notMem_toDigits rfl n
  | negSucc n =>
    rw [Json.integerChars_negSucc, List.mem_cons, not_or]
    exact ⟨by decide, notMem_toDigits rfl (n + 1)⟩

theorem toDigits_inj {m n : Nat} (h : Nat.toDigits 10 m = Nat.toDigits 10 n) : m = n := by
  rw [← Nat.ofDigitChars_ten_toDigits (n := m), h, Nat.ofDigitChars_ten_toDigits]

theorem integerChars_inj {a b : Int} (h : integerChars a = integerChars b) : a = b := by
  cases a with
  | ofNat m =>
    cases b with
    | ofNat n =>
      rw [Json.integerChars_ofNat, Json.integerChars_ofNat] at h
      rw [toDigits_inj h]
    | negSucc n =>
      rw [Json.integerChars_ofNat, Json.integerChars_negSucc] at h
      exact absurd (h ▸ List.mem_cons_self) (notMem_toDigits rfl m)
  | negSucc m =>
    cases b with
    | ofNat n =>
      rw [Json.integerChars_ofNat, Json.integerChars_negSucc] at h
      exact absurd (h ▸ List.mem_cons_self) (notMem_toDigits rfl n)
    | negSucc n =>
      rw [Json.integerChars_negSucc, Json.integerChars_negSucc] at h
      rw [Nat.succ.inj (toDigits_inj (List.cons.inj h).2)]

theorem append_colon_inj {before before' after after' : List Char} (hafter : ':' ∉ after) (hafter' : ':' ∉ after')
    (h : before ++ ':' :: after = before' ++ ':' :: after') : before = before' ∧ after = after' := by
  rcases List.append_eq_append_iff.1 h with ⟨more, rfl, hrest⟩ | ⟨more, rfl, hrest⟩
  · cases more with
    | nil => exact ⟨(List.append_nil before).symm, (List.cons.inj hrest).2⟩
    | cons c more =>
      rw [(List.cons.inj hrest).2] at hafter
      exact absurd (by simp) hafter
  · cases more with
    | nil => exact ⟨List.append_nil before', (List.cons.inj hrest).2.symm⟩
    | cons c more =>
      rw [(List.cons.inj hrest).2] at hafter'
      exact absurd (by simp) hafter'

namespace Position

theorem toList_text (p : Position) :
    p.text.toList =
      (p.topic.toList ++ ':' :: integerChars p.partition.toInt) ++ ':' :: integerChars p.offset.toInt := by
  simp [text, integerChars, String.toList_append, toString]

theorem text_inj {p q : Position} (h : p.text = q.text) : p = q := by
  have hchars := congrArg String.toList h
  rw [toList_text, toList_text] at hchars
  obtain ⟨hfront, hoffset⟩ := append_colon_inj (colon_notMem_integerChars _) (colon_notMem_integerChars _) hchars
  obtain ⟨htopic, hpartition⟩ := append_colon_inj (colon_notMem_integerChars _) (colon_notMem_integerChars _) hfront
  obtain ⟨topic, partition, offset⟩ := p
  obtain ⟨topic', partition', offset'⟩ := q
  obtain rfl : topic = topic' := String.toList_inj.1 htopic
  obtain rfl : partition = partition' := Int32.toInt_inj.1 (integerChars_inj hpartition)
  obtain rfl : offset = offset' := Int64.toInt_inj.1 (integerChars_inj hoffset)
  rfl

def key (p : Position) : List UInt8 := Text.bytes p.text

theorem key_inj {p q : Position} : p.key = q.key ↔ p = q :=
  ⟨fun h => text_inj (Text.bytes_inj h), congrArg key⟩

end Position

structure Letter where
  message : Message
  reason : Reason
  attempt : UInt32
  time : Time.Instant

def Letter.record (l : Letter) : OutgoingRecord :=
  deadLetter l.message l.reason l.attempt l.time

theorem Letter.key_record (l : Letter) : l.record.key = l.message.position.key := rfl

/-- Of the records of a topic the last one with each key. -/
def collapse (records : List OutgoingRecord) : Keyed (List UInt8) OutgoingRecord :=
  records.foldl (fun t r => t.put r.key r) .empty

theorem collapse_concat (records : List OutgoingRecord) (r : OutgoingRecord) :
    collapse (records ++ [r]) = (collapse records).put r.key r := by
  simp [collapse]

variable (letters : List Letter)

/-- The letter that was published last of the message at a place. -/
def lastLetter? (p : Position) : Option Letter :=
  letters.reverse.find? fun l => l.message.position = p

theorem lastLetter?_concat (l : Letter) (p : Position) :
    lastLetter? (letters ++ [l]) p = if l.message.position = p then some l else lastLetter? letters p := by
  by_cases hp : l.message.position = p <;> simp [lastLetter?, hp]

theorem find?_collapse (p : Position) :
    (collapse (letters.map Letter.record)).find? p.key = (lastLetter? letters p).map Letter.record := by
  induction letters using List.reverseRecOn with
  | nil => rfl
  | append_singleton letters l ih =>
    rw [List.map_append, List.map_singleton, collapse_concat, Keyed.find?_put, lastLetter?_concat, ih]
    simp only [Letter.key_record, Position.key_inj, eq_comm (a := p), apply_ite (Option.map Letter.record),
      Option.map_some]

theorem mem_keys_collapse (k : List UInt8) :
    k ∈ (collapse (letters.map Letter.record)).keys ↔ ∃ l ∈ letters, l.message.position.key = k := by
  induction letters using List.reverseRecOn with
  | nil => simp [collapse, Keyed.keys, Keyed.empty]
  | append_singleton letters l ih =>
    rw [List.map_append, List.map_singleton, collapse_concat, Keyed.mem_keys_put, ih, Letter.key_record]
    simp [or_and_right, exists_or, or_comm, eq_comm]

theorem nodup_keys_collapse (records : List OutgoingRecord) : (collapse records).keys.Nodup := by
  induction records using List.reverseRecOn with
  | nil => exact List.nodup_nil
  | append_singleton records r ih =>
    rw [collapse_concat]
    exact Keyed.nodup_keys_put ih _ _

theorem size_collapse :
    (collapse (letters.map Letter.record)).size = (letters.map (·.message.position)).dedup.length := by
  have hperm : (collapse (letters.map Letter.record)).keys.Perm
      ((letters.map (·.message.position)).dedup.map Position.key) := by
    refine (List.perm_ext_iff_of_nodup (nodup_keys_collapse _) ?_).2 fun k => ?_
    · exact (List.nodup_dedup _).map fun _ _ => Position.key_inj.1
    · rw [mem_keys_collapse]
      simp
  rw [← Keyed.length_keys, hperm.length_eq, List.length_map]

/-- Dead letters have the same key just if their messages have the same topic, partition and offset. So a topic that
is collapsed by key has one record for each message that was set aside, which is the last one of that message. -/
theorem same_key_iff_same_message :
    (∀ l l' : Letter, l.record.key = l'.record.key ↔
      l.message.topic = l'.message.topic ∧ l.message.partition = l'.message.partition ∧
        l.message.offset = l'.message.offset) ∧
      ∀ letters : List Letter,
        (∀ p, (collapse (letters.map Letter.record)).find? p.key = (lastLetter? letters p).map Letter.record) ∧
        (∀ k, k ∈ (collapse (letters.map Letter.record)).keys ↔ ∃ l ∈ letters, l.record.key = k) ∧
        (collapse (letters.map Letter.record)).size = (letters.map (·.message.position)).dedup.length := by
  refine ⟨fun l l' => ?_, fun letters => ⟨find?_collapse letters, mem_keys_collapse letters, size_collapse letters⟩⟩
  rw [Letter.key_record, Letter.key_record, Position.key_inj, Message.position, Message.position,
    Position.mk.injEq]

end OrderDepot.Delivery
