import Aftercare.Domain.Events
import Aftercare.Domain.Investigation
import Aftercare.Text.Calendar
import Aftercare.Text.Json
import Mathlib.Data.Prod.Lex

/-!
# An imported commerce export

The records of `connectors/dataset.py`: one tenant's export, with the orders, payments, shipments and
buyer messages it was imported with. The validators of the models are fields of the structures, so every
`CommerceDataset` is one that passed them. Its digest is the digest of its JSON, `model_dump(mode="json")`
with sorted keys.
-/

namespace Aftercare.Connectors

open Relational Text
open Investigation (BuyerAssertion)

/-! ## Fields -/

/-- `UtcDatetime`: a `datetime` in UTC. -/
@[ext]
structure UtcDatetime where
  val : Time
  valid : minDatetime ≤ val ∧ val ≤ maxDatetime
deriving DecidableEq, Repr

/-- A text of 1 to `n` characters: `ShortText` and `LongText`. -/
@[ext]
structure BoundedText (n : ℕ) where
  val : String
  valid : 1 ≤ val.length ∧ val.length ≤ n
deriving DecidableEq, Repr

abbrev ShortText := BoundedText 200

abbrev LongText := BoundedText 2000

/-- The pattern of `MinorAmount`: digits without a leading zero. -/
def minorAmountValid (s : String) : Bool :=
  s.toList.all Char.isDigit && (s == "0" || s.toList.head?.any (· != '0'))

/-- The pattern of `Currency`: three upper-case letters. -/
def currencyValid (s : String) : Bool :=
  s.toList.length == 3 && s.toList.all fun c => 'A' ≤ c && c ≤ 'Z'

/-! ## Records -/

/-- `Money`: minor units of a currency. -/
@[ext]
structure Money where
  (amount_minor currency : String)
  amount_valid : minorAmountValid amount_minor = true
  currency_valid : currencyValid currency = true
deriving DecidableEq, Repr

@[ext]
structure LineItem where
  sku : Identifier
  title : ShortText
  quantity : PositiveInt
  unit_price : Money
deriving DecidableEq, Repr

inductive PaymentStatus
  | captured
  | refunded
  | partiallyRefunded
  | pending
deriving DecidableEq, Repr

def PaymentStatus.value : PaymentStatus → String
  | .captured => "captured"
  | .refunded => "refunded"
  | .partiallyRefunded => "partially_refunded"
  | .pending => "pending"

@[ext]
structure Payment where
  (payment_id method : Identifier)
  amount : Money
  status : PaymentStatus
  captured_at : UtcDatetime
deriving DecidableEq, Repr

@[ext]
structure TrackingEvent where
  «at» : UtcDatetime
  code : Identifier
  (location description : ShortText)
deriving DecidableEq, Repr

/-- `Shipment`, with its `chronological` validator. -/
@[ext]
structure Shipment where
  (shipment_id carrier tracking_number : Identifier)
  dispatched_at : UtcDatetime
  delivered_at : Option UtcDatetime
  events : List TrackingEvent
  events_length : 1 ≤ events.length ∧ events.length ≤ 64
  chronological : (dispatched_at.val :: events.map fun event => event.at.val).Pairwise (· ≤ ·)
  delivered_last : ∀ t ∈ delivered_at, ∀ event ∈ events.getLast?, event.at.val ≤ t.val
deriving DecidableEq, Repr

@[ext]
structure BuyerMessage where
  (message_id channel : Identifier)
  received_at : UtcDatetime
  assertion : BuyerAssertion
  text : LongText
deriving DecidableEq, Repr

inductive OrderStatus
  | placed
  | shipped
  | delivered
  | cancelled
  | refunded
deriving DecidableEq, Repr

def OrderStatus.value : OrderStatus → String
  | .placed => "placed"
  | .shipped => "shipped"
  | .delivered => "delivered"
  | .cancelled => "cancelled"
  | .refunded => "refunded"

/-- `Order`, with its `consistent` validator. -/
@[ext]
structure Order where
  (order_id buyer_id : Identifier)
  placed_at : UtcDatetime
  status : OrderStatus
  items : List LineItem
  payment : Payment
  shipments : List Shipment
  messages : List BuyerMessage
  items_length : 1 ≤ items.length ∧ items.length ≤ 64
  shipments_length : shipments.length ≤ 16
  messages_length : messages.length ≤ 64
  unique_skus : (items.map LineItem.sku).Nodup
  unique_shipments : (shipments.map Shipment.shipment_id).Nodup
  unique_messages : (messages.map BuyerMessage.message_id).Nodup
  payment_after : placed_at.val ≤ payment.captured_at.val
  dispatch_after : ∀ shipment ∈ shipments, placed_at.val ≤ shipment.dispatched_at.val
  one_currency : ∀ item ∈ items, item.unit_price.currency = payment.amount.currency
deriving DecidableEq, Repr

/-- `CommerceDataset`, with its `unique_orders` validator. -/
@[ext]
structure CommerceDataset where
  tenant_id : Identifier
  source : ShortText
  orders : List Order
  orders_length : 1 ≤ orders.length ∧ orders.length ≤ 10000
  unique_orders : (orders.map Order.order_id).Nodup
deriving DecidableEq, Repr

/-! ## The digest of an export -/

/-- `BuyerAssertion.value`. -/
def assertionValue : BuyerAssertion → String
  | .notReceived => "not_received"
  | .received => "received"
  | .unclear => "unclear"

/-- A `datetime` of `model_dump(mode="json")`. -/
def UtcDatetime.dump (t : UtcDatetime) : Json := .string (isoText "Z" t.val)

def Money.dump (m : Money) : Json :=
  .object [("amount_minor", .string m.amount_minor), ("currency", .string m.currency)]

def LineItem.dump (item : LineItem) : Json :=
  .object [("sku", .string item.sku.val), ("title", .string item.title.val),
    ("quantity", .int item.quantity.val), ("unit_price", item.unit_price.dump)]

def Payment.dump (payment : Payment) : Json :=
  .object [("payment_id", .string payment.payment_id.val), ("method", .string payment.method.val),
    ("amount", payment.amount.dump), ("status", .string payment.status.value),
    ("captured_at", payment.captured_at.dump)]

def TrackingEvent.dump (event : TrackingEvent) : Json :=
  .object [("at", event.at.dump), ("code", .string event.code.val),
    ("location", .string event.location.val), ("description", .string event.description.val)]

def Shipment.dump (shipment : Shipment) : Json :=
  .object [("shipment_id", .string shipment.shipment_id.val), ("carrier", .string shipment.carrier.val),
    ("tracking_number", .string shipment.tracking_number.val),
    ("dispatched_at", shipment.dispatched_at.dump),
    ("delivered_at", shipment.delivered_at.elim .null UtcDatetime.dump),
    ("events", .array (shipment.events.map TrackingEvent.dump))]

def BuyerMessage.dump (message : BuyerMessage) : Json :=
  .object [("message_id", .string message.message_id.val), ("channel", .string message.channel.val),
    ("received_at", message.received_at.dump), ("assertion", .string (assertionValue message.assertion)),
    ("text", .string message.text.val)]

def Order.dump (order : Order) : Json :=
  .object [("order_id", .string order.order_id.val), ("buyer_id", .string order.buyer_id.val),
    ("placed_at", order.placed_at.dump), ("status", .string order.status.value),
    ("items", .array (order.items.map LineItem.dump)), ("payment", order.payment.dump),
    ("shipments", .array (order.shipments.map Shipment.dump)),
    ("messages", .array (order.messages.map BuyerMessage.dump))]

/-- `CommerceDataset.model_dump(mode="json")`. -/
def CommerceDataset.dump (dataset : CommerceDataset) : Json :=
  .object [("schema_version", .int 1), ("tenant_id", .string dataset.tenant_id.val),
    ("source", .string dataset.source.val), ("orders", .array (dataset.orders.map Order.dump))]

/-- The canonical text that `CommerceDataset.digest` hashes. -/
def CommerceDataset.canonical (dataset : CommerceDataset) : String := dataset.dump.dumps

def CommerceDataset.digest [Hashing] (dataset : CommerceDataset) : Sha256 :=
  Hashing.sha256 dataset.canonical

/-! ## Lookups -/

def CommerceDataset.find (dataset : CommerceDataset) (order_id : Identifier) : Option Order :=
  dataset.orders.find? fun order => order.order_id = order_id

def CommerceDataset.requireOrder (dataset : CommerceDataset) (order_id tenant_id : Identifier) :
    Result Order := do
  require (tenant_id = dataset.tenant_id) (.contract .forbidden "dataset belongs to another tenant")
  match dataset.find order_id with
  | none => .error (.contract .invalidInput "order is not in this tenant export")
  | some order => pure order

theorem CommerceDataset.requireOrder_eq_ok {dataset : CommerceDataset} {order_id tenant_id : Identifier}
    {order : Order} (h : dataset.requireOrder order_id tenant_id = .ok order) :
    tenant_id = dataset.tenant_id ∧ order ∈ dataset.orders ∧ order.order_id = order_id := by
  simp only [CommerceDataset.requireOrder, ok_iff] at h
  obtain ⟨htenant, h⟩ := h
  split at h
  · simp at h
  · next found hfind =>
    rw [pure_eq_ok] at h
    rw [← h]
    have hid := List.find?_some hfind
    exact ⟨htenant, List.mem_of_find?_eq_some hfind, by simpa using hid⟩

end Aftercare.Connectors
