import Aftercare.Investigation.Bridge

/-!
# Recorded evidence in the input of a model

The extract of an answer is the text of its facts, cut to 512 characters. While the facts fit, the rendering reads
it back; once they do not, it refuses the whole context. How long the facts are is `excerptLength`.
-/

namespace Aftercare.Investigation

open Relational Text Connectors

/-! ## Reading an extract back -/

def Readable (evidence : InvestigationEvidence) : Prop := ∃ item, contextItem evidence = .ok item

/-- The failure of a context with an extract that is not JSON. -/
def notStructured : Failure :=
  .contract .evidenceRejected "evidence context excerpt is not structured JSON"

theorem contextItem_of_excerpt {evidence : InvestigationEvidence} {facts : List (String × Json)}
    (hwhole : (Json.object facts).whole)
    (hexcerpt : evidence.original.excerpt = String.ofList ((Json.object facts).dumps.toList.take maxExcerpt)) :
    Readable evidence ∧ (Json.object facts).size ≤ maxExcerpt ∨
      contextItem evidence = .error notStructured ∧ maxExcerpt < (Json.object facts).size := by
  rw [← length_dumps]
  by_cases hfits : (Json.object facts).dumps.length ≤ maxExcerpt
  · refine .inl ⟨?_, hfits⟩
    rw [List.take_of_length_le (by rwa [String.length_toList]), String.ofList_toList] at hexcerpt
    have hloads := loads_dumps hwhole
    rw [← hexcerpt] at hloads
    rw [Readable, contextItem, hloads]
    exact ⟨_, rfl⟩
  · have hcut := loads_take_error hwhole (not_le.mp hfits)
    rw [← hexcerpt] at hcut
    refine .inr ⟨?_, not_le.mp hfits⟩
    rw [contextItem, hcut, notStructured]

theorem contextItems_ok_iff {scope : InvestigationScope} {expected_scope : Option InvestigationScope}
    {observations : List InvestigationEvidence} (hexpected : ∀ s ∈ expected_scope, s = scope)
    (hscope : ∀ evidence ∈ observations, evidence.toInvestigationScope = scope) :
    (∃ items, contextItems expected_scope observations = .ok items) ↔ ∀ evidence ∈ observations, Readable evidence := by
  induction observations generalizing expected_scope with
  | nil => exact ⟨fun _ evidence h => absurd h List.not_mem_nil, fun _ => ⟨[], rfl⟩⟩
  | cons evidence rest ih =>
    rw [List.forall_mem_cons] at hscope
    have hshared : expected_scope.getD evidence.toInvestigationScope = scope := by
      match expected_scope with
      | none => exact hscope.1
      | some s => exact hexpected s rfl
    have hrest := @ih (some scope) (by simp) hscope.2
    rw [List.forall_mem_cons, ← hrest, contextItems, hshared]
    simp only [ok_iff, hscope.1, true_and, Readable]
    constructor
    · intro ⟨_, item, hitem, items, hitems, _⟩
      exact ⟨⟨item, hitem⟩, items, hitems⟩
    · intro ⟨⟨item, hitem⟩, items, hitems⟩
      exact ⟨_, item, hitem, items, hitems, rfl⟩

/-- The failure of a context that takes too many bytes. -/
def tooLarge : Failure := .contract .budgetExhausted "evidence context is too large"

theorem contextItems_not_tooLarge (expected_scope : Option InvestigationScope)
    (observations : List InvestigationEvidence) :
    ¬Relational.Raises (· = tooLarge) (contextItems expected_scope observations) := by
  induction observations generalizing expected_scope with
  | nil => exact raises_pure
  | cons evidence rest ih =>
    have hitem : ¬Relational.Raises (· = tooLarge) (contextItem evidence) := by
      unfold contextItem
      split
      all_goals simp [tooLarge]
    simp only [contextItems, raises_bind, raises_require, raises_pure, hitem, ih, and_false, exists_false, or_false]
    simp [tooLarge]

/-- A context is rendered, or too long, when every observation is readable. -/
theorem renderEvidenceContext_iff {scope : InvestigationScope} {observations : List InvestigationEvidence}
    {max_items max_bytes : ℕ} (hscope : ∀ evidence ∈ observations, evidence.toInvestigationScope = scope)
    (hone : 1 ≤ max_items) (hitems : observations.length ≤ max_items) (hbytes : 1 ≤ max_bytes) :
    ((∃ text, renderEvidenceContext observations max_items max_bytes = .ok text) ∨
        renderEvidenceContext observations max_items max_bytes = .error tooLarge) ↔
      ∀ evidence ∈ observations, Readable evidence := by
  have hsorted : ∀ evidence ∈ sortById observations, evidence.toInvestigationScope = scope :=
    fun evidence h => hscope evidence ((List.mem_insertionSort _).mp h)
  have hlength : (sortById observations).length ≤ max_items := by
    rwa [sortById, List.length_insertionSort]
  have hread := @contextItems_ok_iff scope none _ (by simp) hsorted
  have hmem : (∀ evidence ∈ sortById observations, Readable evidence) ↔
      ∀ evidence ∈ observations, Readable evidence := by
    simp only [sortById, List.mem_insertionSort]
  have hnot := contextItems_not_tooLarge none (sortById observations)
  rw [← hmem, ← hread]
  simp only [renderEvidenceContext, require, hone, hbytes, hlength, if_true, ok_bind]
  cases hcontext : contextItems none (sortById observations) with
  | error e =>
    rw [hcontext, raises_error] at hnot
    constructor
    · intro h
      obtain ⟨text, h⟩ | h := h
      · simp [bind, Except.bind] at h
      · exact absurd (Except.error.inj h) hnot
    · intro h
      obtain ⟨items, h⟩ := h
      simp at h
  | ok items =>
    refine ⟨fun _ => ⟨items, rfl⟩, fun _ => ?_⟩
    rw [ok_bind]
    split_ifs with hsize
    · exact .inl ⟨_, rfl⟩
    · exact .inr rfl

theorem renderEvidenceContext_error {evidence : InvestigationEvidence} {failure : Failure}
    (h : contextItem evidence = .error failure) {max_items max_bytes : ℕ} (hitems : 1 ≤ max_items)
    (hbytes : 1 ≤ max_bytes) : renderEvidenceContext [evidence] max_items max_bytes = .error failure := by
  have hsort : sortById [evidence] = [evidence] := rfl
  simp only [renderEvidenceContext, require, hitems, hbytes, hsort, List.length_singleton, if_true,
    contextItems, Option.getD_none, h, ok_bind]
  rfl

/-! ## The length of the facts -/

/-- A question about an order: its newest message, or one of a page. -/
inductive Inquiry
  | order
  | tracking
  | message (message : BuyerMessage)

def isoLength (t : Time) : ℕ := 25 + if t % 1000000 = 0 then 0 else 7

def escapedLength (s : String) : ℕ := (s.toList.map escapeWidth).sum

def excerptLength (order : Order) : Inquiry → ℕ
  | .order =>
    115 + order.order_id.val.length + order.buyer_id.val.length + order.status.value.length +
      order.payment.status.value.length + order.payment.amount.amount_minor.length
  | .tracking =>
    match order.shipments.getLast? with
    | none => 93 + order.order_id.val.length
    | some shipment =>
      131 + order.order_id.val.length + shipment.carrier.val.length +
        shipment.tracking_number.val.length +
        (shipment.delivered_at.elim 4 fun t => 2 + isoLength t.val) +
        isoLength shipment.lastEvent.at.val + shipment.lastEvent.code.val.length +
        escapedLength shipment.lastEvent.location.val +
        escapedLength shipment.lastEvent.description.val
  | .message message =>
    86 + order.order_id.val.length + message.message_id.val.length + message.channel.val.length +
      isoLength message.received_at.val + (assertionValue message.assertion).length +
      escapedLength message.text.val

theorem plain_of_range {c lo hi : Char} (hlo : 35 ≤ lo.toNat) (hhi : hi.toNat < 92 ∨ 92 < lo.toNat)
    (h : lo ≤ c ∧ c ≤ hi) : plainChar c = true := by
  have hrange : lo.toNat ≤ c.toNat ∧ c.toNat ≤ hi.toNat := h
  have hquote : c ≠ '"' := by
    rintro rfl
    have h34 : '"'.toNat = 34 := rfl
    omega
  have hslash : c ≠ '\\' := by
    rintro rfl
    have h92 : '\\'.toNat = 92 := rfl
    omega
  have hlow : 32 ≤ c.toNat := by omega
  simp [plainChar, hquote, hslash, hlow]

theorem plain_of_isDigit {c : Char} (h : c.isDigit = true) : plainChar c = true := by
  simp only [Char.isDigit, Bool.and_eq_true, decide_eq_true_eq] at h
  exact @plain_of_range c '0' '9' (by decide) (by decide) h

theorem plain_of_upper {c : Char} (h : 'A' ≤ c ∧ c ≤ 'Z') : plainChar c = true :=
  plain_of_range (by decide) (by decide) h

theorem plain_of_identifierChar {c : Char} (h : identifierChar c = true) : plainChar c = true := by
  simp only [identifierChar, alphanumeric, Bool.or_eq_true, Bool.and_eq_true, decide_eq_true_eq, beq_iff_eq] at h
  obtain ((((((hupper | hlower) | hdigit) | rfl) | rfl) | rfl) | rfl) | rfl := h
  · exact plain_of_upper hupper
  · exact plain_of_range (by decide) (by decide) hlower
  · exact plain_of_range (by decide) (by decide) hdigit
  all_goals decide

theorem quotedLength_identifier (i : Identifier) : quotedLength i.val = 2 + i.val.length :=
  quotedLength_of_plain (List.all_eq_true.mpr fun c hc => plain_of_identifierChar (List.all_eq_true.mp i.text c hc))

theorem size_iso (t : Time) : (iso t).size = 2 + isoLength t := by
  have hplain : (isoText "+00:00" t).toList.all plainChar = true := all_isoText (by decide) (by decide) (by decide) t
  have hzone : "+00:00".length = 6 := by decide
  rw [iso, Json.size, quotedLength_of_plain hplain, length_isoText, hzone, isoLength]
  omega

theorem size_money (m : Money) : (money m).size = 36 + m.amount_minor.length := by
  have hamount : quotedLength m.amount_minor = 2 + m.amount_minor.length := by
    refine quotedLength_of_plain (List.all_eq_true.mpr fun c hc => plain_of_isDigit ?_)
    have hvalid := m.amount_valid
    rw [minorAmountValid, Bool.and_eq_true] at hvalid
    exact List.all_eq_true.mp hvalid.1 c hc
  have hvalid := m.currency_valid
  rw [currencyValid, Bool.and_eq_true, beq_iff_eq, String.length_toList] at hvalid
  have hcurrency : quotedLength m.currency = 2 + m.currency.length := by
    refine quotedLength_of_plain (List.all_eq_true.mpr fun c hc => plain_of_upper ?_)
    simpa using List.all_eq_true.mp hvalid.2 c hc
  have hkeys : quotedLength "amount_minor" = 14 ∧ quotedLength "currency" = 10 := by decide
  simp only [money, Json.size, pairsSize, List.isEmpty_cons, hamount, hcurrency, hvalid.1, hkeys.1, hkeys.2]
  rw [if_neg (by decide)]
  omega

theorem quotedLength_orderStatus (status : OrderStatus) : quotedLength status.value = 2 + status.value.length := by
  cases status
  all_goals decide

theorem quotedLength_paymentStatus (status : PaymentStatus) : quotedLength status.value = 2 + status.value.length := by
  cases status
  all_goals decide

theorem quotedLength_assertion (assertion : BuyerAssertion) :
    quotedLength (assertionValue assertion) = 2 + (assertionValue assertion).length := by
  cases assertion
  all_goals decide

def inquiryFacts (order : Order) : Inquiry → List (String × Json)
  | .order =>
    [("order_id", .string order.order_id.val), ("status", .string order.status.value),
      ("buyer_id", .string order.buyer_id.val), ("payment_status", .string order.payment.status.value),
      ("payment_amount", money order.payment.amount)]
  | .tracking =>
    let shipment := order.shipments.getLast?
    [("order_id", .string order.order_id.val), ("carrier", shipment.elim .null fun s => .string s.carrier.val),
      ("tracking_number", shipment.elim .null fun s => .string s.tracking_number.val),
      ("delivered_at", (shipment.bind Shipment.delivered_at).elim .null fun t => iso t.val),
      ("latest_event", shipment.elim .null fun s => eventPayload s.lastEvent)]
  | .message message =>
    [("order_id", .string order.order_id.val), ("message_id", .string message.message_id.val),
      ("channel", .string message.channel.val), ("received_at", iso message.received_at.val),
      ("assertion", .string (assertionValue message.assertion)), ("text", .string message.text.val)]

theorem quotedLength_text (s : String) : quotedLength s = 2 + escapedLength s := rfl

theorem size_eventPayload (event : TrackingEvent) : (eventPayload event).size =
    50 + isoLength event.at.val + event.code.val.length + escapedLength event.location.val +
      escapedLength event.description.val := by
  have hat : quotedLength "at" = 4 := by decide
  have hcode : quotedLength "code" = 6 := by decide
  have hlocation : quotedLength "location" = 10 := by decide
  have hdescription : quotedLength "description" = 13 := by decide
  simp only [eventPayload, Json.size, pairsSize, List.isEmpty_cons, hat, hcode, hlocation, hdescription,
    size_iso, quotedLength_identifier, quotedLength_text event.location.val,
    quotedLength_text event.description.val]
  rw [if_neg (by decide)]
  omega

theorem size_inquiryFacts (order : Order) (inquiry : Inquiry) :
    (Json.object (inquiryFacts order inquiry)).size = excerptLength order inquiry := by
  have horder : quotedLength "order_id" = 10 := by decide
  match inquiry with
  | .order =>
    have hstatus : quotedLength "status" = 8 := by decide
    have hbuyer : quotedLength "buyer_id" = 10 := by decide
    have hpayment : quotedLength "payment_status" = 16 := by decide
    have hamount : quotedLength "payment_amount" = 16 := by decide
    simp only [inquiryFacts, Json.size, pairsSize, List.isEmpty_cons, quotedLength_identifier,
      quotedLength_orderStatus, quotedLength_paymentStatus, size_money, excerptLength, horder, hstatus,
      hbuyer, hpayment, hamount]
    rw [if_neg (by decide)]
    omega
  | .tracking =>
    have hcarrier : quotedLength "carrier" = 9 := by decide
    have hnumber : quotedLength "tracking_number" = 17 := by decide
    have hdelivered : quotedLength "delivered_at" = 14 := by decide
    have hevent : quotedLength "latest_event" = 14 := by decide
    cases hlast : order.shipments.getLast? with
    | none =>
      simp only [inquiryFacts, hlast, Option.elim_none, Option.bind_none, Json.size, pairsSize,
        List.isEmpty_cons, quotedLength_identifier, excerptLength, horder, hcarrier, hnumber, hdelivered,
        hevent]
      rw [if_neg (by decide)]
      omega
    | some shipment =>
      have hat : (shipment.delivered_at.elim Json.null fun t => iso t.val).size =
          shipment.delivered_at.elim 4 fun t => 2 + isoLength t.val := by
        cases shipment.delivered_at with
        | none => rfl
        | some t => exact size_iso t.val
      simp only [inquiryFacts, hlast, Option.elim_some, Option.bind_some, Json.size, pairsSize,
        List.isEmpty_cons, quotedLength_identifier, excerptLength, horder, hcarrier, hnumber, hdelivered,
        hevent, hat, size_eventPayload]
      rw [if_neg (by decide)]
      omega
  | .message message =>
    have hmessage : quotedLength "message_id" = 12 := by decide
    have hchannel : quotedLength "channel" = 9 := by decide
    have hreceived : quotedLength "received_at" = 13 := by decide
    have hassertion : quotedLength "assertion" = 11 := by decide
    have htext : quotedLength "text" = 6 := by decide
    simp only [inquiryFacts, Json.size, pairsSize, List.isEmpty_cons, quotedLength_identifier,
      quotedLength_assertion, size_iso, quotedLength_text message.text.val, excerptLength, horder,
      hmessage, hchannel, hreceived, hassertion, htext]
    rw [if_neg (by decide)]
    omega

theorem whole_inquiryFacts (order : Order) (inquiry : Inquiry) :
    (Json.object (inquiryFacts order inquiry)).whole = true := by
  match inquiry with
  | .order => rfl
  | .tracking =>
    cases hlast : order.shipments.getLast? with
    | none => simp [inquiryFacts, hlast, Json.whole, wholePairs]
    | some shipment =>
      cases hdelivered : shipment.delivered_at with
      | none | some t => simp [inquiryFacts, hlast, Json.whole, wholePairs, hdelivered, eventPayload, iso]
  | .message message => rfl

/-! ## Answers of a connector -/

/-- A lookup; of a page, one item. -/
inductive Lookup
  | order
  | tracking
  | buyerMessage
  | buyerMessages (after_message_id : Option Identifier) (limit index : ℕ)

def ask [Hashing] (connector : CommerceConnector) (tenant_id order_id : Identifier) :
    Lookup → Result (Option ConnectorAnswer)
  | .order => do pure (some (← connector.lookupOrder tenant_id order_id))
  | .tracking => do pure (some (← connector.lookupTracking tenant_id order_id))
  | .buyerMessage => do pure (some (← connector.lookupBuyerMessage tenant_id order_id))
  | .buyerMessages after_message_id limit index => do
    let page ← connector.lookupBuyerMessages tenant_id order_id after_message_id limit
    pure page.items[index]?

/-- The newest message, and an item of a page, need not exist. -/
def Lookup.inquiry (order : Order) : Lookup → Option Inquiry
  | .order => some .order
  | .tracking => some .tracking
  | .buyerMessage => (newestMessage order.messages).map .message
  | .buyerMessages after_message_id limit index =>
    let messages := sortMessages order.messages
    match CommerceConnector.pageStart messages after_message_id with
    | .error _ => none
    | .ok start => (((messages.drop start).take limit)[index]?).map .message

section

variable [Hashing] {connector : CommerceConnector} {order : Order} {scope : InvestigationScope}

def Inquiry.answer (connector : CommerceConnector) (order : Order) : Inquiry → ConnectorAnswer
  | .order => connector.orderAnswer order
  | .tracking => connector.trackingAnswer order
  | .message m => connector.buyerAnswer order.order_id m

def Inquiry.schema : Inquiry → String
  | .order => orderFactsSchema
  | .tracking => trackingFactsSchema
  | .message _ => buyerFactsSchema

theorem schema_answer (connector : CommerceConnector) (order : Order) (inquiry : Inquiry) :
    textOf (bodyGet (inquiry.answer connector order).body "schema") = some inquiry.schema := by
  match inquiry with
  | .order => rfl
  | .tracking =>
    rw [Inquiry.answer, CommerceConnector.trackingAnswer]
    split
    all_goals rfl
  | .message message => rfl

theorem excerptFacts_answer (connector : CommerceConnector) (order : Order) (inquiry : Inquiry) :
    excerptFacts inquiry.schema (inquiry.answer connector order).body = inquiryFacts order inquiry := by
  match inquiry with
  | .order => rfl
  | .tracking =>
    rw [Inquiry.answer, CommerceConnector.trackingAnswer, inquiryFacts]
    split
    · next hlast =>
      rw [hlast]
      rfl
    · next shipment hlast =>
      rw [hlast]
      rfl
  | .message message => rfl

theorem not_derived_without_message (connector : CommerceConnector) (order_id : Identifier)
    {answer : ConnectorAnswer} {artifact : ArtifactReference} {evidence : InvestigationEvidence}
    (hbody : answer.body = connector.buyerBody order_id .null) : ¬Derived answer scope artifact evidence := by
  intro h
  obtain ⟨kind, hkind, hdetails⟩ := h.known
  rw [hbody] at hkind hdetails
  have hbuyer : some SourceKind.buyerChannel = some kind := hkind
  have hrefused : answerDetails (connector.buyerBody order_id .null) .buyerChannel =
    .error (.contract .evidenceRejected "buyer answer has no assertion") := rfl
  rw [← Option.some.inj hbuyer, hrefused] at hdetails
  simp at hdetails

theorem ask_inquiry {tenant_id order_id : Identifier} {lookup : Lookup} {answer : ConnectorAnswer}
    {artifact : ArtifactReference} {evidence : InvestigationEvidence}
    (hfound : connector.dataset.requireOrder order_id tenant_id = .ok order)
    (hasked : ask connector tenant_id order_id lookup = .ok (some answer))
    (hderived : Derived answer scope artifact evidence) :
    ∃ inquiry, lookup.inquiry order = some inquiry ∧ answer = inquiry.answer connector order := by
  match lookup with
  | .order =>
    have hanswer : ask connector tenant_id order_id .order = .ok (some (connector.orderAnswer order)) := by
      rw [ask, CommerceConnector.lookupOrder, hfound]
      rfl
    rw [hanswer] at hasked
    exact ⟨.order, rfl, (Option.some.inj (Except.ok.inj hasked)).symm⟩
  | .tracking =>
    have hanswer : ask connector tenant_id order_id .tracking = .ok (some (connector.trackingAnswer order)) := by
      rw [ask, CommerceConnector.lookupTracking, hfound]
      rfl
    rw [hanswer] at hasked
    exact ⟨.tracking, rfl, (Option.some.inj (Except.ok.inj hasked)).symm⟩
  | .buyerMessage =>
    have hanswer : ask connector tenant_id order_id .buyerMessage = .ok (some (connector.newestAnswer order)) := by
      rw [ask, CommerceConnector.lookupBuyerMessage, hfound]
      rfl
    rw [hanswer] at hasked
    have heq : connector.newestAnswer order = answer := Option.some.inj (Except.ok.inj hasked)
    rw [CommerceConnector.newestAnswer] at heq
    split at heq
    · next message hnewest =>
      refine ⟨.message message, ?_, heq.symm⟩
      rw [Lookup.inquiry, hnewest, Option.map_some]
    · refine absurd hderived (not_derived_without_message connector order.order_id ?_)
      rw [← heq]
  | .buyerMessages after_message_id limit index =>
    simp only [ask, CommerceConnector.lookupBuyerMessages, hfound, ok_bind, ok_iff] at hasked
    obtain ⟨page, ⟨hlimit, start, hstart, hpage⟩, hitem⟩ := hasked
    rw [← hpage, List.getElem?_map, Option.map_eq_some_iff] at hitem
    obtain ⟨message, hmessage, heq⟩ := hitem
    refine ⟨.message message, ?_, heq.symm⟩
    simp only [Lookup.inquiry, hstart, hmessage, Option.map_some]

/-- An answer about the order of a scope, and its evidence. -/
structure RecordedAnswer (scope : InvestigationScope) where
  connector : CommerceConnector
  order : Order
  lookup : Lookup
  answer : ConnectorAnswer
  artifact : ArtifactReference
  registered_sources : Identifier → Option SourceKind
  evidence : InvestigationEvidence
  found : connector.dataset.requireOrder scope.order_id scope.tenant_id = .ok order
  asked : ask connector scope.tenant_id scope.order_id lookup = .ok (some answer)
  accepted : evidenceFromAnswer answer scope artifact registered_sources = .ok evidence

/-- Evidence is readable if all of its facts fit into the extract. -/
theorem RecordedAnswer.contextItem_cases (r : RecordedAnswer scope) :
    ∃ inquiry, r.lookup.inquiry r.order = some inquiry ∧
      (Readable r.evidence ∧ excerptLength r.order inquiry ≤ maxExcerpt ∨
        contextItem r.evidence = .error notStructured ∧ maxExcerpt < excerptLength r.order inquiry) := by
  have hderived := evidenceFromAnswer_derived r.accepted
  obtain ⟨inquiry, hinquiry, hanswer⟩ := ask_inquiry r.found r.asked hderived
  have hexcerpt := hderived.excerpt
  rw [hanswer, schema_answer, Option.getD_some, excerptOf, excerptFacts_answer] at hexcerpt
  have hcases := contextItem_of_excerpt (whole_inquiryFacts r.order inquiry) hexcerpt
  rw [size_inquiryFacts] at hcases
  exact ⟨inquiry, hinquiry, hcases⟩

theorem RecordedAnswer.readable_iff (r : RecordedAnswer scope) : Readable r.evidence ↔
    ∀ inquiry ∈ r.lookup.inquiry r.order, excerptLength r.order inquiry ≤ maxExcerpt := by
  obtain ⟨inquiry, hinquiry, ⟨hread, hfits⟩ | ⟨herror, hcut⟩⟩ := r.contextItem_cases
  all_goals simp only [hinquiry, Option.mem_def, Option.some.injEq, forall_eq']
  · exact ⟨fun _ => hfits, fun _ => hread⟩
  · constructor
    · intro ⟨item, hitem⟩
      rw [herror] at hitem
      simp at hitem
    · intro hfits
      omega

/-- Recorded evidence is rendered exactly when the facts of every answer fit. -/
theorem recorded_evidence_renders (records : List (RecordedAnswer scope)) {max_items max_bytes : ℕ}
    (hone : 1 ≤ max_items) (hitems : records.length ≤ max_items) (hbytes : 1 ≤ max_bytes) :
    ((∃ text, renderEvidenceContext (records.map fun r => r.evidence) max_items max_bytes = .ok text) ∨
        renderEvidenceContext (records.map fun r => r.evidence) max_items max_bytes =
          .error tooLarge) ↔
      ∀ r ∈ records, ∀ inquiry ∈ r.lookup.inquiry r.order,
        excerptLength r.order inquiry ≤ maxExcerpt := by
  have hscope : ∀ evidence ∈ records.map fun r => r.evidence,
      evidence.toInvestigationScope = scope := by
    rw [List.forall_mem_map]
    exact fun r _ => (evidenceFromAnswer_derived r.accepted).scope_eq
  rw [renderEvidenceContext_iff hscope hone (by rwa [List.length_map]) hbytes, List.forall_mem_map]
  exact forall₂_congr fun r _ => r.readable_iff

theorem exists_buyerRecord {message : BuyerMessage}
    (hfound : connector.dataset.requireOrder scope.order_id scope.tenant_id = .ok order)
    (hnewest : newestMessage order.messages = some message)
    (hdigest : identifierValid (connector.buyerAnswer scope.order_id message).digest.val = true)
    (hevent : identifierValid (eventId "buyer-message" (messageSection message)) = true)
    (hid : identifierValid (connector.sources.buyer_channel.val ++ ":" ++
      eventId "buyer-message" (messageSection message)) = true) :
    ∃ r : RecordedAnswer scope, r.connector = connector ∧ r.order = order ∧
      r.lookup = .buyerMessage ∧ r.answer = connector.buyerAnswer scope.order_id message := by
  let answer := connector.buyerAnswer scope.order_id message
  let artifact : ArtifactReference :=
    ⟨⟨scope.tenant_id, scope.case_id⟩, message.message_id, answer.digest⟩
  have horder := (CommerceDataset.requireOrder_eq_ok hfound).2.2
  have hasked : ask connector scope.tenant_id scope.order_id .buyerMessage = .ok (some answer) := by
    rw [ask, CommerceConnector.lookupBuyerMessage, hfound, ok_bind, CommerceConnector.newestAnswer, hnewest, horder]
    rfl
  obtain ⟨evidence, haccepted⟩ := @evidenceFromAnswer_buyerAnswer _ connector message scope artifact
    rfl rfl hdigest hevent hid
  exact ⟨⟨connector, order, .buyerMessage, answer, artifact, _, evidence, hfound, hasked, haccepted⟩,
    rfl, rfl, rfl, rfl⟩

end

/-! ## An order with one message -/

def sampleTime : UtcDatetime := ⟨1700000000000000, by decide⟩

def sampleMoney : Money := ⟨"1299", "EUR", by decide, by decide⟩

theorem five_fits : 1 ≤ 5 ∧ 5 ≤ 2000 := by decide

/-- A message of `n` characters. -/
def sampleMessage (n : ℕ) (h : 1 ≤ n ∧ n ≤ 2000) : BuyerMessage where
  message_id := ⟨"message-1", Eq.refl true⟩
  channel := ⟨"mail", Eq.refl true⟩
  received_at := sampleTime
  assertion := .notReceived
  text := ⟨String.ofList (List.replicate n 'a'), by simpa using h⟩

def sampleOrder (messages : List BuyerMessage) (hlength : messages.length ≤ 64)
    (hunique : (messages.map BuyerMessage.message_id).Nodup) : Order where
  order_id := ⟨"order-1", Eq.refl true⟩
  buyer_id := ⟨"buyer-1", Eq.refl true⟩
  placed_at := sampleTime
  status := .shipped
  items := [⟨⟨"sku-1", Eq.refl true⟩, ⟨"Lamp", by decide⟩, .one, sampleMoney⟩]
  payment := ⟨⟨"payment-1", Eq.refl true⟩, ⟨"card", Eq.refl true⟩, sampleMoney, .captured, sampleTime⟩
  shipments := []
  messages := messages
  items_length := by decide
  shipments_length := by decide
  messages_length := hlength
  unique_skus := by decide
  unique_shipments := by decide
  unique_messages := hunique
  payment_after := le_rfl
  dispatch_after := by simp
  one_currency := by simp

def sampleDataset (order : Order) : CommerceDataset where
  tenant_id := ⟨"tenant-1", Eq.refl true⟩
  source := ⟨"shop", by decide⟩
  orders := [order]
  orders_length := by simp
  unique_orders := by simp

def sampleSources : CommerceSources :=
  ⟨⟨"ledger", Eq.refl true⟩, ⟨"carrier", Eq.refl true⟩, ⟨"mailbox", Eq.refl true⟩⟩

def orderScope : InvestigationScope :=
  ⟨⟨"tenant-1", Eq.refl true⟩, ⟨"case-1", Eq.refl true⟩, ⟨"order-1", Eq.refl true⟩⟩

/-- An order with one message of `n` characters. -/
def messageOrder (n : ℕ) (h : 1 ≤ n ∧ n ≤ 2000) : Order :=
  sampleOrder [sampleMessage n h] (by simp) (by simp)

def messageConnector (n : ℕ) (h : 1 ≤ n ∧ n ≤ 2000) : CommerceConnector :=
  ⟨sampleDataset (messageOrder n h), sampleSources⟩

/-- The digest of everything, in the fixed examples. -/
def zeroDigest : Sha256 :=
  ⟨"0000000000000000000000000000000000000000000000000000000000000000", Eq.refl true⟩

@[reducible]
def zeroHashing : Hashing where
  snapshotSha256 _ := zeroDigest
  decisionPayloadSha256 _ _ _ _ := zeroDigest
  admissionDigest _ _ := zeroDigest
  sha256 _ := zeroDigest

theorem exists_messageRecord (n : ℕ) (h : 1 ≤ n ∧ n ≤ 2000) : letI := zeroHashing
    ∃ r : RecordedAnswer orderScope, r.order = messageOrder n h ∧ r.lookup = .buyerMessage := by
  have hdigest : identifierValid zeroDigest.val = true := by decide
  have hname : identifierValid ("buyer-message" ++ ":" ++ String.ofList (zeroDigest.val.toList.take 16)) = true := by
    decide
  have hid : identifierValid ("mailbox" ++ ":" ++
      ("buyer-message" ++ ":" ++ String.ofList (zeroDigest.val.toList.take 16))) = true := by decide
  obtain ⟨r, -, horder, hlookup, -⟩ := @exists_buyerRecord zeroHashing (messageConnector n h)
    (messageOrder n h) orderScope (sampleMessage n h) rfl rfl hdigest hname hid
  exact ⟨r, horder, hlookup⟩

theorem escapedLength_replicate (n : ℕ) : escapedLength (String.ofList (List.replicate n 'a')) = n := by
  have ha : escapeWidth 'a' = 1 := by decide
  rw [escapedLength, String.toList_ofList, List.map_replicate, ha, List.sum_replicate_nat, Nat.mul_one]

theorem excerptLength_message (n : ℕ) (h : 1 ≤ n ∧ n ≤ 2000) :
    excerptLength (messageOrder n h) (.message (sampleMessage n h)) = 143 + n := by
  have htext : escapedLength (sampleMessage n h).text.val = n := escapedLength_replicate n
  simp only [excerptLength, htext]
  change 86 + "order-1".length + "message-1".length + "mail".length + isoLength 1700000000000000 +
    "not_received".length + n = _
  have hfixed : 86 + "order-1".length + "message-1".length + "mail".length +
    isoLength 1700000000000000 + "not_received".length = 143 := by decide
  rw [hfixed]

/-- A message of five characters is rendered. -/
theorem recorded_evidence_renders_short : letI := zeroHashing
    ∃ r : RecordedAnswer orderScope, r.order = messageOrder 5 (by decide) ∧
      ((∃ text, renderEvidenceContext [r.evidence] 64 65536 = .ok text) ∨
        renderEvidenceContext [r.evidence] 64 65536 = .error tooLarge) := by
  obtain ⟨r, horder, hlookup⟩ := exists_messageRecord 5 (by decide)
  refine ⟨r, horder, (@recorded_evidence_renders zeroHashing orderScope [r] 64 65536 (by decide)
    (by simp) (by decide)).mpr ?_⟩
  have hfits : ∀ inquiry ∈ Lookup.inquiry (messageOrder 5 (by decide)) .buyerMessage,
      excerptLength (messageOrder 5 (by decide)) inquiry ≤ maxExcerpt := by
    intro inquiry hinquiry
    rw [← Option.some.inj hinquiry, excerptLength_message]
    decide
  rw [List.forall_mem_singleton, hlookup, horder]
  exact hfits

/-- A message of 500 characters blocks the input of a model. -/
theorem recorded_evidence_unreadable : letI := zeroHashing
    ∃ r : RecordedAnswer orderScope, r.order = messageOrder 500 (by decide) ∧
      renderEvidenceContext [r.evidence] maxEvidenceContextItems maxEvidenceContextBytes =
        .error (.contract .evidenceRejected "evidence context excerpt is not structured JSON") := by
  obtain ⟨r, horder, hlookup⟩ := exists_messageRecord 500 (by decide)
  obtain ⟨inquiry, hinquiry, ⟨-, hfits⟩ | ⟨herror, -⟩⟩ := @RecordedAnswer.contextItem_cases zeroHashing _ r
  · rw [horder, hlookup] at hinquiry
    rw [horder, ← Option.some.inj hinquiry, excerptLength_message] at hfits
    exact absurd hfits (by decide)
  · exact ⟨r, horder, renderEvidenceContext_error herror (by decide) (by decide)⟩

end Aftercare.Investigation
