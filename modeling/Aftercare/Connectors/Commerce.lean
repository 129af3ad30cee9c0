import Aftercare.Connectors.Dataset

/-!
# Lookups over an export

The connector of `connectors/commerce.py`. An answer is a JSON object with the digest of the export it was
taken from, and it names the source event it is about: a prefix, and sixteen digits of the digest of a part
of the record. Nothing of an answer depends on the time of asking.
-/

namespace Aftercare.Connectors

open Relational Text

/-! ## Answers -/

structure CommerceSources where
  (order_ledger carrier buyer_channel : Identifier)
deriving DecidableEq, Repr

inductive Tool
  | lookupOrder
  | lookupTracking
  | lookupBuyerMessage
deriving DecidableEq, Repr

structure ConnectorAnswer where
  tool : Tool
  source_id : Identifier
  source_event_id : String
  observed_at : Time
  body : List (String × Json)

/-- The text whose bytes are `ConnectorAnswer.content`. -/
def ConnectorAnswer.content (answer : ConnectorAnswer) : String := (Json.object answer.body).dumps

def ConnectorAnswer.digest [Hashing] (answer : ConnectorAnswer) : Sha256 :=
  Hashing.sha256 answer.content

structure BuyerMessagePage where
  items : List ConnectorAnswer
  (last_message_id next_cursor : Option Identifier)

def orderFactsSchema : String := "aftercare.commerce.order.v1"
def trackingFactsSchema : String := "aftercare.commerce.tracking.v1"
def buyerFactsSchema : String := "aftercare.commerce.buyer.v1"
def maxTrackingEvents : ℕ := 10
def maxBuyerMessagePageSize : ℕ := 16

def iso (value : Time) : Json := .string (isoText "+00:00" value)

def money (value : Money) : Json :=
  .object [("amount_minor", .string value.amount_minor), ("currency", .string value.currency)]

def eventId [Hashing] (label : String) (payload : Json) : String :=
  label ++ ":" ++ String.ofList ((Hashing.sha256 payload.dumps).val.toList.take 16)

def eventPayload (event : TrackingEvent) : Json :=
  .object [("at", iso event.at.val), ("code", .string event.code.val),
    ("location", .string event.location.val), ("description", .string event.description.val)]

def Shipment.lastEvent (shipment : Shipment) : TrackingEvent :=
  shipment.events.getLast (List.ne_nil_of_length_pos shipment.events_length.1)

def shipmentSection (shipment : Shipment) : Json :=
  let tail := shipment.events.drop (shipment.events.length - maxTrackingEvents)
  .object [("shipment_id", .string shipment.shipment_id.val), ("carrier", .string shipment.carrier.val),
    ("tracking_number", .string shipment.tracking_number.val),
    ("dispatched_at", iso shipment.dispatched_at.val),
    ("delivered_at", shipment.delivered_at.elim .null fun t => iso t.val),
    ("latest_event", eventPayload shipment.lastEvent),
    ("events", .array (tail.map eventPayload)),
    ("truncated_event_count", .int (shipment.events.length - tail.length : ℕ))]

/-! ## Buyer messages in order -/

/-- `(item.received_at, item.message_id)`. -/
def BuyerMessage.key (message : BuyerMessage) : Time ×ₗ String :=
  toLex (message.received_at.val, message.message_id.val)

/-- `max(messages, key=..., default=None)`: the first with the largest key. -/
def newestMessage (messages : List BuyerMessage) : Option BuyerMessage :=
  messages.foldl (fun newest message =>
    match newest with
    | none => some message
    | some best => if best.key < message.key then some message else some best) none

/-- `sorted(messages, key=...)`. -/
def sortMessages (messages : List BuyerMessage) : List BuyerMessage :=
  messages.insertionSort fun a b => a.key ≤ b.key

def messageSection (message : BuyerMessage) : Json :=
  .object [("message_id", .string message.message_id.val), ("channel", .string message.channel.val),
    ("received_at", iso message.received_at.val),
    ("assertion", .string (assertionValue message.assertion)), ("text", .string message.text.val)]

/-! ## The connector -/

structure CommerceConnector where
  dataset : CommerceDataset
  sources : CommerceSources

def CommerceConnector.registeredSources (connector : CommerceConnector) : Tool → Identifier
  | .lookupOrder => connector.sources.order_ledger
  | .lookupTracking => connector.sources.carrier
  | .lookupBuyerMessage => connector.sources.buyer_channel

namespace CommerceConnector

variable [Hashing] (connector : CommerceConnector)

/-- The body of `lookup_order`. -/
def orderBody (order : Order) : List (String × Json) :=
  [("schema", .string orderFactsSchema), ("dataset_digest", .string connector.dataset.digest.val),
    ("order_id", .string order.order_id.val), ("buyer_id", .string order.buyer_id.val),
    ("placed_at", iso order.placed_at.val), ("status", .string order.status.value),
    ("items", .array (order.items.map fun item =>
      .object [("sku", .string item.sku.val), ("title", .string item.title.val),
        ("quantity", .int item.quantity.val), ("unit_price", money item.unit_price)])),
    ("payment", .object [("payment_id", .string order.payment.payment_id.val),
      ("method", .string order.payment.method.val), ("status", .string order.payment.status.value),
      ("amount", money order.payment.amount), ("captured_at", iso order.payment.captured_at.val)]),
    ("shipment_count", .int order.shipments.length), ("message_count", .int order.messages.length)]

/-- `lookup_order`, after the order was found. -/
def orderAnswer (order : Order) : ConnectorAnswer where
  tool := .lookupOrder
  source_id := connector.sources.order_ledger
  source_event_id := eventId "order" (.object [("order_id", .string order.order_id.val),
    ("status", .string order.status.value), ("placed_at", iso order.placed_at.val),
    ("payment_status", .string order.payment.status.value),
    ("captured_at", iso order.payment.captured_at.val)])
  observed_at := max order.placed_at.val order.payment.captured_at.val
  body := connector.orderBody order

def lookupOrder (tenant_id order_id : Identifier) : Result ConnectorAnswer := do
  let order ← connector.dataset.requireOrder order_id tenant_id
  pure (connector.orderAnswer order)

/-- The body of `lookup_tracking`. -/
def trackingBody (order : Order) (shipment : Option Shipment) : List (String × Json) :=
  [("schema", .string trackingFactsSchema), ("dataset_digest", .string connector.dataset.digest.val),
    ("order_id", .string order.order_id.val),
    ("carrier", shipment.elim .null fun s => .string s.carrier.val),
    ("tracking_number", shipment.elim .null fun s => .string s.tracking_number.val),
    ("shipment", shipment.elim .null shipmentSection),
    ("order_status", .string order.status.value)]

/-- `lookup_tracking`, after the order was found. -/
def trackingAnswer (order : Order) : ConnectorAnswer :=
  let body := connector.trackingBody order order.shipments.getLast?
  match order.shipments.getLast? with
  | none =>
    { tool := .lookupTracking
      source_id := connector.sources.carrier
      source_event_id := eventId "shipment:none" (.object body)
      observed_at := order.placed_at.val
      body := body }
  | some shipment =>
    { tool := .lookupTracking
      source_id := connector.sources.carrier
      source_event_id := eventId "shipment" (shipmentSection shipment)
      observed_at := shipment.delivered_at.elim shipment.lastEvent.at.val fun t =>
        max t.val shipment.lastEvent.at.val
      body := body }

def lookupTracking (tenant_id order_id : Identifier) : Result ConnectorAnswer := do
  let order ← connector.dataset.requireOrder order_id tenant_id
  pure (connector.trackingAnswer order)

def buyerBody (order_id : Identifier) (message : Json) : List (String × Json) :=
  [("schema", .string buyerFactsSchema), ("dataset_digest", .string connector.dataset.digest.val),
    ("order_id", .string order_id.val), ("message", message)]

def buyerAnswer (order_id : Identifier) (message : BuyerMessage) : ConnectorAnswer where
  tool := .lookupBuyerMessage
  source_id := connector.sources.buyer_channel
  source_event_id := eventId "buyer-message" (messageSection message)
  observed_at := message.received_at.val
  body := connector.buyerBody order_id (messageSection message)

/-- `lookup_buyer_message`, after the order was found. -/
def newestAnswer (order : Order) : ConnectorAnswer :=
  match newestMessage order.messages with
  | some message => connector.buyerAnswer order.order_id message
  | none =>
    { tool := .lookupBuyerMessage
      source_id := connector.sources.buyer_channel
      source_event_id :=
        eventId "buyer-message:none" (.object (connector.buyerBody order.order_id .null))
      observed_at := order.placed_at.val
      body := connector.buyerBody order.order_id .null }

def lookupBuyerMessage (tenant_id order_id : Identifier) : Result ConnectorAnswer := do
  let order ← connector.dataset.requireOrder order_id tenant_id
  pure (connector.newestAnswer order)

/-- Where a page starts: after the message of its cursor. -/
def pageStart (messages : List BuyerMessage) : Option Identifier → Result ℕ
  | none => pure 0
  | some after_message_id => do
    require (after_message_id ∈ messages.map BuyerMessage.message_id)
      (.contract .invalidInput "buyer message cursor is unknown")
    pure (messages.findIdx (fun message => message.message_id = after_message_id) + 1)

def lookupBuyerMessages (tenant_id order_id : Identifier) (after_message_id : Option Identifier)
    (limit : ℕ) : Result BuyerMessagePage := do
  require (1 ≤ limit ∧ limit ≤ maxBuyerMessagePageSize)
    (.contract .invalidInput "buyer message page limit is out of range")
  let order ← connector.dataset.requireOrder order_id tenant_id
  let messages := sortMessages order.messages
  let start ← pageStart messages after_message_id
  let selected := (messages.drop start).take limit
  let last_message_id := selected.getLast?.map BuyerMessage.message_id
  pure
    { items := selected.map (connector.buyerAnswer order.order_id)
      last_message_id := last_message_id
      next_cursor := if start + selected.length < messages.length then last_message_id else none }

end CommerceConnector

end Aftercare.Connectors
