import OrderDepot.Proofs.Json.Truncation
import OrderDepot.Proofs.Order.RoundTrip

/-!
# Payloads that are cut short

Part of an accepted payload is never taken for an order, nor for a broken document: as long as something else than
white space is missing at its end, decoding says that it is cut short.
-/

namespace OrderDepot

open Json (Firm Steady)

theorem firm_ident (named : Named) : Firm (@identReader named) :=
  Json.firm_text.map Ident.mk

theorem firm_instant : Firm instantReader :=
  Json.firm_textAs _ _

theorem firm_delivery : Firm (Json.record Delivery.shape) := by
  refine Json.Shape.firm rfl ?_
  simp only [Delivery.shape, List.forall_mem_cons, List.not_mem_nil, false_imp_iff, implies_true, and_true]
  refine ⟨?_, ?_, ?_, ?_, ?_, ?_, ?_⟩
  all_goals exact Json.firm_text.field _ _

theorem firm_payment : Firm (Json.record Payment.shape) := by
  refine Json.Shape.firm rfl ?_
  simp only [Payment.shape, List.forall_mem_cons, List.not_mem_nil, false_imp_iff, implies_true, and_true]
  exact ⟨(firm_ident _).field _ _, Json.firm_text.field _ _, Json.firm_text.field _ _, Json.firm_text.field _ _,
    Json.steady_int64.field _ _, Json.steady_int64.field _ _, Json.firm_text.field _ _,
    Json.steady_int64.field _ _, Json.steady_int64.field _ _, Json.steady_int64.field _ _⟩

theorem firm_item : Firm (Json.record Item.shape) := by
  refine Json.Shape.firm rfl ?_
  simp only [Item.shape, List.forall_mem_cons, List.not_mem_nil, false_imp_iff, implies_true, and_true]
  exact ⟨Json.steady_int64.field _ _, Json.firm_text.field _ _, Json.steady_int64.field _ _, Json.firm_text.field _ _,
    Json.firm_text.field _ _, Json.steady_int64.field _ _, Json.firm_text.field _ _, Json.steady_int64.field _ _,
    Json.steady_int64.field _ _, Json.firm_text.field _ _, Json.steady_int64.field _ _⟩

theorem firm_order : Firm (Json.record Order.shape) := by
  refine Json.Shape.firm rfl ?_
  simp only [Order.shape, List.forall_mem_cons, List.not_mem_nil, false_imp_iff, implies_true, and_true]
  exact ⟨(firm_ident _).field _ _, Json.firm_text.field _ _, Json.firm_text.field _ _, firm_delivery.field _ _,
    firm_payment.field _ _, firm_item.steady.listOf.field _ _, Json.firm_text.field _ _, Json.firm_text.field _ _,
    Json.firm_text.field _ _, Json.firm_text.field _ _, Json.firm_text.field _ _, Json.steady_int64.field _ _,
    firm_instant.field _ _, Json.firm_text.field _ _⟩

theorem decode_cut {p t : List UInt8} {o : Order} (h : Order.decode (p ++ t) = .ok o) (ht : ¬ Json.Blanks t) :
    ∃ e, Order.decode p = .error e ∧ e.cause.category = .truncated :=
  Json.readDocument_cut firm_order h ht

theorem object_closed (ms : List (String × Json.Value)) :
    ∃ init, Text.bytes (Json.Value.object ms).compact = init ++ [0x7D] := by
  refine ⟨Json.utf8 ('\x7b' :: Json.compactMembers true ms), ?_⟩
  rw [Json.Value.compact, Json.bytes_eq_utf8, Json.Value.compactChars, Json.utf8_append]
  rfl

/-- What is left of the text of an order, if it is not all of it, is told to be cut short. -/
theorem cut_order_told_as_truncated (o : Order) (hdate : Decoded o.dateCreated) (p : List UInt8)
    (hcut : p <+: Text.bytes o.encode) (hproper : p ≠ Text.bytes o.encode) :
    ∃ e, Order.decode p = .error e ∧ e.cause.category = .truncated := by
  obtain ⟨t, ht⟩ := hcut
  obtain ⟨init, hclosed⟩ : ∃ init, Text.bytes o.encode = init ++ [0x7D] := object_closed _
  have hread := decode_compact ((decoded_iff_writable _).1 hdate)
  rw [← ht] at hread
  refine decode_cut hread fun hblank => ?_
  have hne : t ≠ [] := by
    rintro rfl
    rw [List.append_nil] at ht
    exact hproper ht
  have hlast : 0x7D ∈ t := by
    have hend := congrArg List.getLast? (ht.trans hclosed)
    rw [List.getLast?_append_of_ne_nil _ hne, List.getLast?_concat] at hend
    exact List.mem_of_getLast? hend
  exact absurd (hblank _ hlast) (by decide)

theorem half_character_told_as_truncated :
    Text.bytes "\x7b\"order_uid\":\"\",\"track_number\":\"" ++ [0xC3] <+:
        Text.bytes (Order.encode { trackNumber := "\u00e9" }) ∧
      ∃ e, Order.decode (Text.bytes "\x7b\"order_uid\":\"\",\"track_number\":\"" ++ [0xC3]) = .error e ∧
        e.cause.category = .truncated := by
  have hdate : Decoded ({ trackNumber := "\u00e9" } : Order).dateCreated :=
    (decoded_iff_writable _).2 Time.epoch_writable
  have hcut : Text.bytes "\x7b\"order_uid\":\"\",\"track_number\":\"" ++ [0xC3] <+:
      Text.bytes (Order.encode { trackNumber := "\u00e9" }) := by
    decide +kernel
  exact ⟨hcut, cut_order_told_as_truncated _ hdate _ hcut (by decide +kernel)⟩

end OrderDepot
