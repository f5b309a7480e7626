import Mathlib.Data.List.TakeWhile
import OrderDepot.Web.Request

/-!
The path of an order. Percent-encoding is undone by decoding, and what it gives has no byte that would end the
segment, so the path names the order's resource with just that segment.
-/

namespace OrderDepot.Web

namespace Percent

theorem hexValue?_digit : ∀ n < 16, Text.hexValue? (digit n).toNat = some n := by decide

theorem byte?_digits (b : UInt8) : byte? (digit (b.toNat / 16)) (digit (b.toNat % 16)) = some b := by
  have hb := b.toNat_lt_size
  simp only [UInt8.size] at hb
  have hsum : b.toNat / 16 * 16 + b.toNat % 16 = b.toNat := by omega
  simp only [byte?, hexValue?_digit _ (show b.toNat / 16 < 16 by omega),
    hexValue?_digit _ (show b.toNat % 16 < 16 by omega), bind, Option.bind, hsum, UInt8.ofNat_toNat]
  rfl

theorem decode_encode (bs : List UInt8) : decode (encode bs) = bs := by
  induction bs with
  | nil => rfl
  | cons b bs ih =>
    have hcons : encode (b :: bs) = sign :: digit (b.toNat / 16) :: digit (b.toNat % 16) :: encode bs := rfl
    rw [hcons, decode]
    simp only [if_true, byte?_digits, ih]

theorem digit_not_reserved : ∀ n < 16, digit n ≠ 0x2F ∧ digit n ≠ 0x3F ∧ digit n ≠ 0x23 := by decide

end Percent

def IsSegment (segment : List UInt8) : Prop :=
  ∀ b ∈ segment, b ≠ 0x2F ∧ b ≠ 0x3F ∧ b ≠ 0x23

theorem isSegment_encode (bs : List UInt8) : IsSegment (Percent.encode bs) := by
  intro b hb
  obtain ⟨c, -, hb⟩ := List.mem_flatMap.1 hb
  have hc := c.toNat_lt_size
  simp only [UInt8.size] at hc
  simp only [List.mem_cons, List.not_mem_nil, or_false] at hb
  rcases hb with rfl | rfl | rfl
  · decide
  · exact Percent.digit_not_reserved _ (by omega)
  · exact Percent.digit_not_reserved _ (by omega)

def orderPath (segment : List UInt8) : List UInt8 :=
  Text.bytes "/order/" ++ segment

theorem behind?_append (start path : List UInt8) : behind? start (start ++ path) = some path := by
  induction start with
  | nil => rfl
  | cons b start ih => simp only [List.cons_append, behind?, if_true, ih]

theorem resource_orderPath {segment : List UInt8} (hsegment : IsSegment segment) (hne : segment ≠ [])
    {r : Request} (hpath : r.path = orderPath segment) :
    Resource.of? r.resourcePath = some (.order segment) := by
  have hwhole : r.resourcePath = orderPath segment := by
    rw [Request.resourcePath, hpath, orderPath, List.takeWhile_eq_self_iff]
    intro b hb
    have hprefix : ∀ b ∈ Text.bytes "/order/", decide (b ≠ 0x3F ∧ b ≠ 0x23) = true :=
      List.all_eq_true.1 (by decide)
    rcases List.mem_append.1 hb with hb | hb
    · exact hprefix b hb
    · simpa using (hsegment b hb).2
  have hhealth : orderPath segment ≠ Text.bytes "/healthz" := by
    intro h
    exact absurd (List.cons.inj (List.cons.inj h).2).1 (by decide)
  have hready : orderPath segment ≠ Text.bytes "/health/ready" := by
    intro h
    exact absurd (List.cons.inj (List.cons.inj h).2).1 (by decide)
  have hslash : segment.contains 0x2F = false := by
    simpa using fun h => (hsegment _ h).1 rfl
  cases segment with
  | nil => exact absurd rfl hne
  | cons b segment =>
    rw [hwhole, Resource.of?, if_neg hhealth, if_neg hready, orderPath, behind?_append]
    simp only [hslash, Bool.false_eq_true, if_false]

end OrderDepot.Web
