import Aftercare.Connectors.Commerce
import Aftercare.Text.JsonRoundTrip

/-!
# From a connector answer to evidence

The pure part of `investigation/connector_bridge.py`: an answer becomes evidence with a bounded extract of
its facts, `evidenceFromAnswer`, and recorded evidence is rendered for the input of a model,
`renderEvidenceContext`. The extract is the text of the facts cut to 512 characters, and the rendering
reads it back as JSON.
-/

namespace Aftercare.Investigation

open Relational Text Connectors

variable {artifact : ArtifactReference} {answer : ConnectorAnswer}
  {registered_sources : Identifier → Option SourceKind} {evidence : InvestigationEvidence}

def maxExcerpt : ℕ := 512
def maxEvidenceContextItems : ℕ := 64
def maxEvidenceContextBytes : ℕ := 65536

def schemaKinds : List (String × SourceKind) :=
  [(orderFactsSchema, .orderLedger), (trackingFactsSchema, .carrier), (buyerFactsSchema, .buyerChannel)]

/-- `registered_source_kinds`: the last tool of a source decides its kind. -/
def registeredSourceKinds (sources : CommerceSources) (source_id : Identifier) : Option SourceKind :=
  [(sources.buyer_channel, .buyerChannel), (sources.carrier, .carrier),
    (sources.order_ledger, .orderLedger)].lookup source_id

/-! ## Reading a body -/

/-- `body.get(key)`. -/
def bodyGet (body : List (String × Json)) (key : String) : Json := (body.lookup key).getD .null

/-- `_section`. -/
def bodySection (body : List (String × Json)) (key : String) : List (String × Json) :=
  match body.lookup key with
  | some (.object pairs) => pairs
  | _ => []

def textOf : Json → Option String
  | .string s => some s
  | _ => none

/-- A value that is `None`. -/
def isNull : Json → Bool
  | .null => true
  | _ => false

/-- The facts of `_excerpt`. -/
def excerptFacts (schema : String) (body : List (String × Json)) : List (String × Json) :=
  if schema = orderFactsSchema then
    let payment := bodySection body "payment"
    [("order_id", bodyGet body "order_id"), ("status", bodyGet body "status"),
      ("buyer_id", bodyGet body "buyer_id"), ("payment_status", bodyGet payment "status"),
      ("payment_amount", bodyGet payment "amount")]
  else if schema = trackingFactsSchema then
    let shipment := bodySection body "shipment"
    [("order_id", bodyGet body "order_id"), ("carrier", bodyGet body "carrier"),
      ("tracking_number", bodyGet body "tracking_number"),
      ("delivered_at", bodyGet shipment "delivered_at"),
      ("latest_event", bodyGet shipment "latest_event")]
  else
    let message := bodySection body "message"
    [("order_id", bodyGet body "order_id"), ("message_id", bodyGet message "message_id"),
      ("channel", bodyGet message "channel"), ("received_at", bodyGet message "received_at"),
      ("assertion", bodyGet message "assertion"), ("text", bodyGet message "text")]

/-- `_excerpt`. -/
def excerptOf (schema : String) (body : List (String × Json)) : String :=
  String.ofList ((Json.object (excerptFacts schema body)).dumps.toList.take maxExcerpt)

def deliveryStatus (body : List (String × Json)) : DeliveryStatus :=
  let shipment := bodySection body "shipment"
  if shipment.isEmpty then .unknown
  else if !isNull (bodyGet shipment "delivered_at") then .delivered
  else .inTransit

/-- `BuyerAssertion(raw)`. -/
def buyerAssertion (raw : String) : Option BuyerAssertion :=
  [BuyerAssertion.notReceived, .received, .unclear].find? fun a => assertionValue a = raw

/-! ## Evidence -/

/-- A text that is short in bytes is short, and its bytes are quicker to count. -/
local instance decidableBounds (s : String) (n : ℕ) : Decidable (1 ≤ s.length ∧ s.length ≤ n) :=
  if h : 1 ≤ s.utf8ByteSize ∧ s.utf8ByteSize ≤ n then
    .isTrue ⟨Nat.pos_of_ne_zero fun hzero => by
      rw [String.length_eq_zero_iff] at hzero
      simp [hzero] at h, (length_le_utf8ByteSize s).trans h.2⟩
  else instDecidableAnd

/-- `OriginalReference(...)` of an artifact, with the extract. -/
def originalReference (artifact : ArtifactReference) (excerpt : String) : Result OriginalReference := do
  let artifact_id ← identifier "OriginalReference" artifact.sha256.val
  if h : 1 ≤ excerpt.length ∧ excerpt.length ≤ 4096 then
    pure ⟨artifact_id, artifact.sha256, excerpt, h⟩
  else .error (.validation "OriginalReference")

def modelName : SourceKind → String
  | .orderLedger => "OrderSnapshot"
  | .carrier => "LogisticsObservation"
  | .buyerChannel => "BuyerStatement"

/-- The export is the receipt: it is received when it was observed. -/
def observe (model : String) (answer : ConnectorAnswer) (scope : InvestigationScope)
    (original : OriginalReference) (details : EvidenceDetails) : Result InvestigationEvidence := do
  let evidence_id ← identifier model (answer.source_id.val ++ ":" ++ answer.source_event_id)
  let source_event_id ← identifier model answer.source_event_id
  pure
    { scope with
      evidence_id := evidence_id
      source_id := answer.source_id
      source_event_id := source_event_id
      observed_at := answer.observed_at
      received_at := answer.observed_at
      original := original
      revoked_at := none
      chronological := ⟨le_rfl, by simp⟩
      details := details }

def answerDetails (body : List (String × Json)) : SourceKind → Result EvidenceDetails
  | .orderLedger => pure .orderSnapshot
  | .carrier => pure (.logisticsObservation (deliveryStatus body))
  | .buyerChannel =>
    let message := bodySection body "message"
    match textOf (bodyGet message "assertion") with
    | none => .error (.contract .evidenceRejected "buyer answer has no assertion")
    | some raw =>
      match buyerAssertion raw with
      | none => .error (.contract .evidenceRejected "buyer answer has no supported assertion")
      | some assertion => do
        require (¬isNull (bodyGet message "message_id") ∧ ¬isNull (bodyGet message "received_at"))
          (.contract .evidenceRejected "buyer answer has no message")
        pure (.buyerStatement assertion)

def evidenceFromAnswer [Hashing] (answer : ConnectorAnswer) (scope : InvestigationScope)
    (artifact : ArtifactReference) (registered_sources : Identifier → Option SourceKind) :
    Result InvestigationEvidence := do
  require ((artifact.tenant_id, artifact.case_id) = (scope.tenant_id, scope.case_id))
    (.contract .forbidden "artifact does not belong to this case")
  require (answer.digest = artifact.sha256)
    (.contract .conflict "stored answer is not the connector's bytes")
  let schema := (textOf (bodyGet answer.body "schema")).getD ""
  match schemaKinds.lookup schema with
  | none => .error (.contract .evidenceRejected "answer schema is not evidence")
  | some kind => do
    require (registered_sources answer.source_id = some kind)
      (.contract .forbidden "source has no registered capability")
    require (textOf (bodyGet answer.body "order_id") = some scope.order_id.val)
      (.contract .forbidden "answer is about another order")
    let original ← originalReference artifact (excerptOf schema answer.body)
    let details ← answerDetails answer.body kind
    observe (modelName kind) answer scope original details

/-- What `evidence_from_answer` made of an answer. -/
structure Derived [Hashing] (answer : ConnectorAnswer) (scope : InvestigationScope)
    (artifact : ArtifactReference) (evidence : InvestigationEvidence) : Prop where
  artifact_case : (artifact.tenant_id, artifact.case_id) = (scope.tenant_id, scope.case_id)
  stored : answer.digest = artifact.sha256
  scope_eq : evidence.toInvestigationScope = scope
  order_eq : textOf (bodyGet answer.body "order_id") = some scope.order_id.val
  evidence_id : evidence.evidence_id.val = answer.source_id.val ++ ":" ++ answer.source_event_id
  source_id : evidence.source_id = answer.source_id
  source_event_id : evidence.source_event_id.val = answer.source_event_id
  observed_at : evidence.observed_at = answer.observed_at
  received_at : evidence.received_at = answer.observed_at
  revoked_at : evidence.revoked_at = none
  artifact_id : evidence.original.artifact_id.val = artifact.sha256.val
  sha256 : evidence.original.sha256 = artifact.sha256
  excerpt : evidence.original.excerpt =
    excerptOf ((textOf (bodyGet answer.body "schema")).getD "") answer.body
  known : ∃ kind, schemaKinds.lookup ((textOf (bodyGet answer.body "schema")).getD "") = some kind ∧
    answerDetails answer.body kind = .ok evidence.details

theorem originalReference_eq_ok {excerpt : String} {original : OriginalReference}
    (h : originalReference artifact excerpt = .ok original) :
    original.artifact_id.val = artifact.sha256.val ∧ original.sha256 = artifact.sha256 ∧
      original.excerpt = excerpt := by
  simp only [originalReference, bind_eq_ok, identifier_eq_ok] at h
  obtain ⟨artifact_id, hid, h⟩ := h
  split_ifs at h with hlength
  rw [pure_eq_ok] at h
  rw [← h]
  exact ⟨hid, rfl, rfl⟩

variable {scope : InvestigationScope}

theorem evidenceFromAnswer_derived [Hashing]
    (h : evidenceFromAnswer answer scope artifact registered_sources = .ok evidence) :
    Derived answer scope artifact evidence := by
  simp only [evidenceFromAnswer, bind_eq_ok, exists_unit, require_eq_ok] at h
  obtain ⟨hcase, hdigest, h⟩ := h
  split at h
  · simp at h
  · next kind hkind =>
    simp only [bind_eq_ok, exists_unit, require_eq_ok, observe, identifier_eq_ok, pure_eq_ok] at h
    obtain ⟨-, horder, original, horiginal, details, hdetails, evidence_id, hid, event, hevent, h⟩ := h
    obtain ⟨hartifact, hsha, hexcerpt⟩ := originalReference_eq_ok horiginal
    rw [← h]
    exact
      { artifact_case := hcase
        stored := hdigest
        scope_eq := rfl
        order_eq := horder
        evidence_id := hid
        source_id := rfl
        source_event_id := hevent
        observed_at := rfl
        received_at := rfl
        revoked_at := rfl
        artifact_id := hartifact
        sha256 := hsha
        excerpt := hexcerpt
        known := ⟨kind, hkind, hdetails⟩ }

theorem evidenceFromAnswer_registered [Hashing]
    (h : evidenceFromAnswer answer scope artifact registered_sources = .ok evidence) :
    registered_sources evidence.source_id = some (sourceKind evidence) := by
  have hkinds : ∀ {body kind details}, answerDetails body kind = .ok details → kind = details.kind := by
    intro body kind details hdetails
    cases kind with
    | orderLedger | carrier =>
      rw [answerDetails, pure_eq_ok] at hdetails
      rw [← hdetails]
      rfl
    | buyerChannel =>
      rw [answerDetails] at hdetails
      split at hdetails
      · simp at hdetails
      · split at hdetails
        · simp at hdetails
        · simp only [ok_iff] at hdetails
          obtain ⟨-, -, rfl⟩ := hdetails
          rfl
  simp only [evidenceFromAnswer, ok_iff] at h
  obtain ⟨-, -, h⟩ := h
  split at h
  · simp at h
  · simp only [ok_iff, observe] at h
    obtain ⟨hregistered, -, -, -, details, hdetails, -, -, -, -, rfl⟩ := h
    rw [hkinds hdetails] at hregistered
    exact hregistered

theorem Derived.unique [Hashing] {artifact' : ArtifactReference} {evidence' : InvestigationEvidence}
    (h : Derived answer scope artifact evidence) (h' : Derived answer scope artifact' evidence') :
    evidence = evidence' := by
  have hsha : artifact.sha256 = artifact'.sha256 := h.stored.symm.trans h'.stored
  have hscope := h.scope_eq.trans h'.scope_eq.symm
  have hid := Identifier.ext (h.evidence_id.trans h'.evidence_id.symm)
  have hsource := h.source_id.trans h'.source_id.symm
  have hevent := Identifier.ext (h.source_event_id.trans h'.source_event_id.symm)
  have hobserved := h.observed_at.trans h'.observed_at.symm
  have hreceived := h.received_at.trans h'.received_at.symm
  have hrevoked := h.revoked_at.trans h'.revoked_at.symm
  have hartifact := Identifier.ext ((h.artifact_id.trans (congrArg Sha256.val hsha)).trans h'.artifact_id.symm)
  have hdigest := (h.sha256.trans hsha).trans h'.sha256.symm
  have hexcerpt := h.excerpt.trans h'.excerpt.symm
  obtain ⟨kind, hkind, hdetails⟩ := h.known
  obtain ⟨kind', hkind', hdetails'⟩ := h'.known
  rw [hkind, Option.some.injEq] at hkind'
  rw [← hkind', hdetails] at hdetails'
  have hdetails := Except.ok.inj hdetails'
  clear hsha hkind hkind' hdetails' h h'
  match evidence, evidence' with
  | ⟨⟨_, _, _, _, _, _, ⟨_, _, _, _⟩, _, _⟩, _⟩, ⟨⟨_, _, _, _, _, _, ⟨_, _, _, _⟩, _, _⟩, _⟩ =>
    simp only at hscope hid hsource hevent hobserved hreceived hrevoked hartifact hdigest hexcerpt hdetails
    subst hscope hid hsource hevent hobserved hreceived hrevoked hartifact hdigest hexcerpt hdetails
    rfl

theorem length_excerptOf (schema : String) (body : List (String × Json)) :
    1 ≤ (excerptOf schema body).length ∧ (excerptOf schema body).length ≤ 4096 := by
  have hhead := head_dumps_object (excerptFacts schema body)
  have hpos : 0 < (Json.object (excerptFacts schema body)).dumps.toList.length := by
    match hlist : (Json.object (excerptFacts schema body)).dumps.toList with
    | [] => simp [hlist] at hhead
    | c :: rest => exact Nat.succ_pos _
  rw [excerptOf, String.length_ofList, List.length_take, maxExcerpt]
  omega

/-- An answer about a message is accepted if the names that it gets are valid. -/
theorem evidenceFromAnswer_buyerAnswer [Hashing] {connector : CommerceConnector}
    {message : BuyerMessage} {scope : InvestigationScope} {artifact : ArtifactReference}
    (hcase : (artifact.tenant_id, artifact.case_id) = (scope.tenant_id, scope.case_id))
    (hstored : (connector.buyerAnswer scope.order_id message).digest = artifact.sha256)
    (hdigest : identifierValid artifact.sha256.val = true)
    (hevent : identifierValid (eventId "buyer-message" (messageSection message)) = true)
    (hid : identifierValid (connector.sources.buyer_channel.val ++ ":" ++
      eventId "buyer-message" (messageSection message)) = true) :
    ∃ evidence, evidenceFromAnswer (connector.buyerAnswer scope.order_id message) scope artifact
      (registeredSourceKinds connector.sources) = .ok evidence := by
  let answer := connector.buyerAnswer scope.order_id message
  have hkind : schemaKinds.lookup ((textOf (bodyGet answer.body "schema")).getD "") = some .buyerChannel := rfl
  have hregistered : registeredSourceKinds connector.sources answer.source_id = some .buyerChannel := by
    rw [registeredSourceKinds, List.lookup_cons, show answer.source_id = connector.sources.buyer_channel from rfl,
      beq_self_eq_true]
  have horder : textOf (bodyGet answer.body "order_id") = some scope.order_id.val := rfl
  have hdetails : answerDetails answer.body .buyerChannel = .ok (.buyerStatement message.assertion) := by
    obtain ⟨message_id, channel, received_at, assertion, text⟩ := message
    cases assertion
    all_goals rfl
  have hlength := length_excerptOf ((textOf (bodyGet answer.body "schema")).getD "") answer.body
  have hname : identifierValid (answer.source_id.val ++ ":" ++ answer.source_event_id) = true := hid
  have hsource : identifierValid answer.source_event_id = true := hevent
  have haccepted : ∃ evidence, evidenceFromAnswer answer scope artifact (registeredSourceKinds connector.sources) =
      .ok evidence := by
    simp only [evidenceFromAnswer, require, hcase, show answer.digest =
      artifact.sha256 from hstored, hkind, hregistered,
      horder, hdetails, originalReference, observe, identifier, hdigest, hname, hsource, hlength, if_true, dite_true,
      ok_bind]
    exact ⟨_, rfl⟩
  exact haccepted

/-! ## The context of a model -/

/-- `evidence.kind`. -/
def kindText : EvidenceDetails → String
  | .orderSnapshot => "order_snapshot"
  | .logisticsObservation _ => "logistics_observation"
  | .buyerStatement _ => "buyer_statement"

/-- The facts that a model may see, sorted, without the text of a buyer. -/
def allowedFacts : EvidenceDetails → List String
  | .orderSnapshot => ["buyer_id", "order_id", "payment_amount", "payment_status", "status"]
  | .logisticsObservation _ =>
    ["carrier", "delivered_at", "latest_event", "order_id", "tracking_number"]
  | .buyerStatement _ => ["assertion", "channel", "message_id", "order_id", "received_at"]

/-- `DeliveryStatus.value`. -/
def deliveryValue : DeliveryStatus → String
  | .inTransit => "in_transit"
  | .delivered => "delivered"
  | .unknown => "unknown"

def detailFields : EvidenceDetails → List (String × Json)
  | .orderSnapshot => []
  | .logisticsObservation delivery_status =>
    [("delivery_status", .string (deliveryValue delivery_status))]
  | .buyerStatement assertion => [("assertion", .string (assertionValue assertion))]

/-- The item of one observation, with the extract it was read as. -/
def itemOf (evidence : InvestigationEvidence) (excerpt : List (String × Json)) : Json :=
  .object ([("evidence_id", .string evidence.evidence_id.val),
    ("kind", .string (kindText evidence.details)), ("source_id", .string evidence.source_id.val),
    ("observed_at", iso evidence.observed_at), ("received_at", iso evidence.received_at),
    ("revoked_at", evidence.revoked_at.elim .null iso),
    ("facts", .object ((allowedFacts evidence.details).filterMap fun key =>
      (excerpt.lookup key).map fun value => (key, value)))] ++ detailFields evidence.details)

/-- Read the extract of an observation, for its item. -/
def contextItem (evidence : InvestigationEvidence) : Result Json :=
  match loads evidence.original.excerpt with
  | .error .recursion => .error .recursion
  | .error _ =>
    .error (.contract .evidenceRejected "evidence context excerpt is not structured JSON")
  | .ok (.object excerpt) => pure (itemOf evidence excerpt)
  | .ok _ => .error (.contract .evidenceRejected "evidence context excerpt is not an object")

/-- The loop over the observations, with their common scope. -/
def contextItems : Option InvestigationScope → List InvestigationEvidence → Result (List Json)
  | _, [] => pure []
  | expected_scope, evidence :: rest => do
    let scope := expected_scope.getD evidence.toInvestigationScope
    require (evidence.toInvestigationScope = scope)
      (.contract .forbidden "evidence context mixes cases or orders")
    let item ← contextItem evidence
    let items ← contextItems (some scope) rest
    pure (item :: items)

/-- The context of a model: the items, with the scope they share. -/
def contextPayload (scope : Option InvestigationScope) (items : List Json) : Json :=
  .object [("schema", .string "aftercare.investigation-evidence-context.v1"),
    ("scope", scope.elim .null fun scope =>
      .object [("case_id", .string scope.case_id.val), ("order_id", .string scope.order_id.val)]),
    ("observations", .array items)]

def renderEvidenceContext (observations : List InvestigationEvidence) (max_items max_bytes : ℕ) :
    Result String := do
  require (1 ≤ max_items) (.contract .invalidInput "evidence context item limit is invalid")
  require (1 ≤ max_bytes) (.contract .invalidInput "evidence context byte limit is invalid")
  let ordered := sortById observations
  require (ordered.length ≤ max_items)
    (.contract .budgetExhausted "evidence context has too many items")
  let items ← contextItems none ordered
  let rendered :=
    (contextPayload (ordered.head?.map fun evidence => evidence.toInvestigationScope) items).dumps
  require (rendered.utf8ByteSize ≤ max_bytes)
    (.contract .budgetExhausted "evidence context is too large")
  pure rendered

end Aftercare.Investigation
