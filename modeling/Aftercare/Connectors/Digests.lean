import Aftercare.Connectors.Commerce
import Aftercare.Text.JsonRoundTrip

/-!
# What a digest of an export determines

The canonical JSON of an export determines it: two exports with the same canonical text are the same. So,
as far as digests do not collide, two answers have the same content only if they were taken from the same
export, since the body of an answer holds the digest of the export.
-/

namespace Aftercare.Connectors

open Relational Text

/-! ## Records -/

theorem value_of_field {v w : Json} (h : (some v).map Json.sorted = (some w).map Json.sorted) : v.sorted = w.sorted :=
  Option.some.inj h

theorem text_of_field {s t : String}
    (h : (some (Json.string s)).map Json.sorted = (some (Json.string t)).map Json.sorted) : s = t :=
  Json.string.inj (Option.some.inj h)

theorem UtcDatetime.isoText_inj {zone : String} {a b : UtcDatetime}
    (h : isoText zone a.val = isoText zone b.val) : a = b := by
  have hdays : ∀ n : ℤ, -62135596800000000 ≤ n ∧ n ≤ 253402300799999999 →
      -719162 ≤ n / dayLength ∧ n / dayLength ≤ 2932896 := by
    intro n hn
    unfold dayLength
    omega
  obtain ⟨ha0, ha⟩ := hdays a.val a.valid
  obtain ⟨hb0, hb⟩ := hdays b.val b.valid
  exact UtcDatetime.ext (Text.isoText_inj ha0 ha hb0 hb h)

theorem UtcDatetime.dump_inj {a b : UtcDatetime} (h : a.dump.sorted = b.dump.sorted) : a = b :=
  UtcDatetime.isoText_inj (Json.string.inj h)

theorem Money.dump_inj {a b : Money} (h : a.dump.sorted = b.dump.sorted) : a = b := by
  have hfield := sorted_field (by simp) (by simp) h
  exact Money.ext (text_of_field (hfield "amount_minor")) (text_of_field (hfield "currency"))

theorem positiveInt_inj {a b : PositiveInt} (h : a.val = b.val) : a = b := by
  obtain ⟨m, _, _⟩ := a
  obtain ⟨n, _, _⟩ := b
  rw [PositiveInt.mk.injEq]
  exact h

theorem LineItem.dump_inj {a b : LineItem} (h : a.dump.sorted = b.dump.sorted) : a = b := by
  have hfield := sorted_field (by simp) (by simp) h
  have hquantity : (a.quantity.val : ℤ) = b.quantity.val := Json.int.inj (value_of_field (hfield "quantity"))
  exact LineItem.ext (Identifier.ext (text_of_field (hfield "sku")))
    (BoundedText.ext (text_of_field (hfield "title"))) (positiveInt_inj (Int.ofNat.inj hquantity))
    (Money.dump_inj (value_of_field (hfield "unit_price")))

theorem PaymentStatus.value_inj {a b : PaymentStatus} (h : a.value = b.value) : a = b := by
  cases a <;> cases b <;> first | rfl | exact absurd h (by decide)

theorem Payment.dump_inj {a b : Payment} (h : a.dump.sorted = b.dump.sorted) : a = b := by
  have hfield := sorted_field (by simp) (by simp) h
  exact Payment.ext (Identifier.ext (text_of_field (hfield "payment_id")))
    (Identifier.ext (text_of_field (hfield "method")))
    (Money.dump_inj (value_of_field (hfield "amount")))
    (PaymentStatus.value_inj (text_of_field (hfield "status")))
    (UtcDatetime.dump_inj (value_of_field (hfield "captured_at")))

theorem TrackingEvent.dump_inj {a b : TrackingEvent} (h : a.dump.sorted = b.dump.sorted) : a = b := by
  have hfield := sorted_field (by simp) (by simp) h
  exact TrackingEvent.ext (UtcDatetime.dump_inj (value_of_field (hfield "at")))
    (Identifier.ext (text_of_field (hfield "code")))
    (BoundedText.ext (text_of_field (hfield "location")))
    (BoundedText.ext (text_of_field (hfield "description")))

theorem UtcDatetime.dump_option_inj {a b : Option UtcDatetime}
    (h : (a.elim Json.null UtcDatetime.dump).sorted = (b.elim Json.null UtcDatetime.dump).sorted) : a = b := by
  match a, b with
  | none, none => rfl
  | some s, some t => rw [UtcDatetime.dump_inj h]
  | none, some t => simp [UtcDatetime.dump, Json.sorted] at h
  | some s, none => simp [UtcDatetime.dump, Json.sorted] at h

theorem Shipment.dump_inj {a b : Shipment} (h : a.dump.sorted = b.dump.sorted) : a = b := by
  have hfield := sorted_field (by simp) (by simp) h
  exact Shipment.ext (Identifier.ext (text_of_field (hfield "shipment_id")))
    (Identifier.ext (text_of_field (hfield "carrier")))
    (Identifier.ext (text_of_field (hfield "tracking_number")))
    (UtcDatetime.dump_inj (value_of_field (hfield "dispatched_at")))
    (UtcDatetime.dump_option_inj (value_of_field (hfield "delivered_at")))
    (map_of_sorted_array (fun _ _ => TrackingEvent.dump_inj) (value_of_field (hfield "events")))

theorem assertionValue_inj {a b : Investigation.BuyerAssertion} (h : assertionValue a = assertionValue b) : a = b := by
  cases a <;> cases b <;> first | rfl | exact absurd h (by decide)

theorem BuyerMessage.dump_inj {a b : BuyerMessage} (h : a.dump.sorted = b.dump.sorted) : a = b := by
  have hfield := sorted_field (by simp) (by simp) h
  exact BuyerMessage.ext (Identifier.ext (text_of_field (hfield "message_id")))
    (Identifier.ext (text_of_field (hfield "channel")))
    (UtcDatetime.dump_inj (value_of_field (hfield "received_at")))
    (assertionValue_inj (text_of_field (hfield "assertion")))
    (BoundedText.ext (text_of_field (hfield "text")))

theorem OrderStatus.value_inj {a b : OrderStatus} (h : a.value = b.value) : a = b := by
  cases a <;> cases b <;> first | rfl | exact absurd h (by decide)

theorem Order.dump_inj {a b : Order} (h : a.dump.sorted = b.dump.sorted) : a = b := by
  have hfield := sorted_field (by simp) (by simp) h
  exact Order.ext (Identifier.ext (text_of_field (hfield "order_id")))
    (Identifier.ext (text_of_field (hfield "buyer_id")))
    (UtcDatetime.dump_inj (value_of_field (hfield "placed_at")))
    (OrderStatus.value_inj (text_of_field (hfield "status")))
    (map_of_sorted_array (fun _ _ => LineItem.dump_inj) (value_of_field (hfield "items")))
    (Payment.dump_inj (value_of_field (hfield "payment")))
    (map_of_sorted_array (fun _ _ => Shipment.dump_inj) (value_of_field (hfield "shipments")))
    (map_of_sorted_array (fun _ _ => BuyerMessage.dump_inj) (value_of_field (hfield "messages")))

theorem CommerceDataset.dump_inj {a b : CommerceDataset} (h : a.dump.sorted = b.dump.sorted) : a = b := by
  have hfield := sorted_field (by simp) (by simp) h
  exact CommerceDataset.ext (Identifier.ext (text_of_field (hfield "tenant_id")))
    (BoundedText.ext (text_of_field (hfield "source")))
    (map_of_sorted_array (fun _ _ => Order.dump_inj) (value_of_field (hfield "orders")))

/-! ## Digests -/

theorem Shipment.whole_dump (shipment : Shipment) : shipment.dump.whole = true := by
  have hevents : (Json.array (shipment.events.map TrackingEvent.dump)).whole = true :=
    whole_array TrackingEvent.dump _ fun _ => rfl
  have hdelivered : (shipment.delivered_at.elim Json.null UtcDatetime.dump).whole = true := by
    cases shipment.delivered_at with
    | none => rfl
    | some t => rfl
  simp only [Shipment.dump, UtcDatetime.dump, Json.whole, wholePairs, Bool.and_true,
    Bool.true_and] at hevents hdelivered ⊢
  rw [hdelivered, hevents, Bool.and_self]

theorem Order.whole_dump (order : Order) : order.dump.whole = true := by
  have hitems := whole_array LineItem.dump order.items fun _ => rfl
  have hshipments := whole_array Shipment.dump order.shipments Shipment.whole_dump
  have hmessages := whole_array BuyerMessage.dump order.messages fun _ => rfl
  have hpayment : order.payment.dump.whole = true := rfl
  rw [Order.dump, Json.whole]
  simp only [wholePairs, UtcDatetime.dump, hitems, hshipments, hmessages, hpayment, Bool.and_true]
  rfl

theorem CommerceDataset.whole_dump (dataset : CommerceDataset) : dataset.dump.whole = true := by
  have horders := whole_array Order.dump dataset.orders Order.whole_dump
  rw [CommerceDataset.dump, Json.whole]
  simp only [wholePairs, horders, Bool.and_true]
  rfl

theorem CommerceDataset.canonical_inj {a b : CommerceDataset} (h : a.canonical = b.canonical) : a = b :=
  CommerceDataset.dump_inj (sorted_of_dumps_eq a.whole_dump b.whole_dump h)

end Aftercare.Connectors
