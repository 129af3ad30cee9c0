import Aftercare.Connectors.Digests
import Aftercare.Investigation.Rendering
import Aftercare.Persistence.Investigations

/-!
# One source event in two exports

The event id of an answer is the digest of a part of the record, and its evidence refers to the digest of the
whole answer, export included. So a source event that two exports agree on is refused as a conflict the second
time, unless nothing else of the exports differs.
-/

namespace Aftercare.Investigation

open Relational Text Connectors

/-! ## The content of an answer -/

theorem whole_shipmentSection (shipment : Shipment) : (shipmentSection shipment).whole = true := by
  have hdelivered : (shipment.delivered_at.elim Json.null fun t => iso t.val).whole = true := by
    cases shipment.delivered_at with
    | none => rfl
    | some t => rfl
  have hevents := whole_array eventPayload
    (shipment.events.drop (shipment.events.length - maxTrackingEvents)) fun _ => rfl
  have hlast : (eventPayload shipment.lastEvent).whole = true := rfl
  rw [shipmentSection, Json.whole, wholePairs_iff]
  simp only [List.forall_mem_cons]
  exact ⟨rfl, rfl, rfl, rfl, hdelivered, hlast, hevents, rfl, by simp⟩

section

variable [Hashing] (connector : CommerceConnector) (order : Order) (inquiry : Inquiry)

theorem whole_answer : (Json.object (inquiry.answer connector order).body).whole = true := by
  match inquiry with
  | .order =>
    have hitems := whole_array (fun item : LineItem => Json.object
      [("sku", .string item.sku.val), ("title", .string item.title.val),
        ("quantity", .int item.quantity.val), ("unit_price", money item.unit_price)])
      order.items fun _ => rfl
    rw [Inquiry.answer, CommerceConnector.orderAnswer, CommerceConnector.orderBody, Json.whole, wholePairs_iff]
    simp only [List.forall_mem_cons]
    exact ⟨rfl, rfl, rfl, rfl, rfl, rfl, hitems, rfl, rfl, rfl, by simp⟩
  | .tracking =>
    rw [Inquiry.answer, CommerceConnector.trackingAnswer]
    cases order.shipments.getLast? with
    | none => rfl
    | some shipment =>
      have hsection := whole_shipmentSection shipment
      rw [CommerceConnector.trackingBody, Json.whole, wholePairs_iff]
      simp only [List.forall_mem_cons]
      exact ⟨rfl, rfl, rfl, rfl, rfl, hsection, rfl, by simp⟩
  | .message message => rfl

theorem keys_answer : ((inquiry.answer connector order).body.map Prod.fst).Nodup := by
  match inquiry with
  | .order => simp [Inquiry.answer, CommerceConnector.orderAnswer, CommerceConnector.orderBody]
  | .tracking =>
    rw [Inquiry.answer, CommerceConnector.trackingAnswer]
    cases order.shipments.getLast? with
    | none => simp [CommerceConnector.trackingBody]
    | some shipment => simp [CommerceConnector.trackingBody]
  | .message message =>
    simp [Inquiry.answer, CommerceConnector.buyerAnswer, CommerceConnector.buyerBody]

def Inquiry.tool : Inquiry → Tool
  | .order => .lookupOrder
  | .tracking => .lookupTracking
  | .message _ => .lookupBuyerMessage

theorem answer_origin : (inquiry.answer connector order).body.lookup "dataset_digest" =
      some (.string connector.dataset.digest.val) ∧ (inquiry.answer connector order).tool = inquiry.tool ∧
    (inquiry.answer connector order).source_id = connector.registeredSources inquiry.tool := by
  match inquiry with
  | .order => exact ⟨rfl, rfl, rfl⟩
  | .tracking =>
    rw [Inquiry.answer, CommerceConnector.trackingAnswer]
    cases order.shipments.getLast? with
    | none => exact ⟨rfl, rfl, rfl⟩
    | some shipment => exact ⟨rfl, rfl, rfl⟩
  | .message message => exact ⟨rfl, rfl, rfl⟩

end

section

variable [Hashing] {scope : InvestigationScope}

theorem digest_of_content {connector connector' : CommerceConnector} {order order' : Order} {inquiry inquiry' : Inquiry}
    (h : (inquiry.answer connector order).content = (inquiry'.answer connector' order').content) :
    connector.dataset.digest = connector'.dataset.digest := by
  have hsorted := sorted_of_dumps_eq (whole_answer connector order inquiry) (whole_answer connector' order' inquiry') h
  have hfield := sorted_field (keys_answer connector order inquiry)
    (keys_answer connector' order' inquiry') hsorted "dataset_digest"
  rw [(answer_origin ..).1, (answer_origin ..).1] at hfield
  rw [Sha256.mk.injEq]
  exact text_of_field hfield

omit [Hashing] in
theorem messageSection_inj {m m' : BuyerMessage}
    (h : (messageSection m).dumps = (messageSection m').dumps) : m = m' := by
  have hfield := sorted_field (by simp) (by simp) (sorted_of_dumps_eq (by rfl) (by rfl) h)
  exact BuyerMessage.ext (Identifier.ext (text_of_field (hfield "message_id")))
    (Identifier.ext (text_of_field (hfield "channel")))
    (UtcDatetime.isoText_inj (text_of_field (hfield "received_at")))
    (assertionValue_inj (text_of_field (hfield "assertion")))
    (BoundedText.ext (text_of_field (hfield "text")))

/-! ## Two recordings of one event -/

/-- The digests of two recorded answers do not collide. -/
structure NoCollision (r r' : RecordedAnswer scope) : Prop where
  exports : r.connector.dataset.digest = r'.connector.dataset.digest →
    r.connector.dataset.canonical = r'.connector.dataset.canonical
  answers : r.answer.digest = r'.answer.digest → r.answer.content = r'.answer.content
  events : r.answer.source_event_id = r'.answer.source_event_id →
    (bodyGet r.answer.body "message").dumps = (bodyGet r'.answer.body "message").dumps

theorem RecordedAnswer.exists_inquiry (r : RecordedAnswer scope) :
    ∃ inquiry : Inquiry, r.answer = inquiry.answer r.connector r.order := by
  obtain ⟨inquiry, -, hanswer⟩ := ask_inquiry r.found r.asked (evidenceFromAnswer_derived r.accepted)
  exact ⟨inquiry, hanswer⟩

variable {r r' : RecordedAnswer scope}

theorem RecordedAnswer.source_id_eq (hsources : r.connector.sources = r'.connector.sources)
    (htool : r.answer.tool = r'.answer.tool) : r.answer.source_id = r'.answer.source_id := by
  obtain ⟨inquiry, hanswer⟩ := r.exists_inquiry
  obtain ⟨inquiry', hanswer'⟩ := r'.exists_inquiry
  rw [hanswer, hanswer', (answer_origin ..).2.1, (answer_origin ..).2.1] at htool
  rw [hanswer, hanswer', (answer_origin ..).2.2, (answer_origin ..).2.2, htool]
  unfold CommerceConnector.registeredSources
  rw [hsources]

theorem RecordedAnswer.answer_eq (hsources : r.connector.sources = r'.connector.sources)
    (hdataset : r.connector.dataset = r'.connector.dataset) (htool : r.answer.tool = r'.answer.tool)
    (hevent : r.answer.source_event_id = r'.answer.source_event_id) (hapart : NoCollision r r') :
    r.answer = r'.answer := by
  have hconnector : r.connector = r'.connector := by
    rw [CommerceConnector.mk.injEq]
    exact ⟨hdataset, hsources⟩
  have horder : r.order = r'.order := by
    have hfound := r.found
    rw [hconnector, r'.found] at hfound
    exact (Except.ok.inj hfound).symm
  have hpayload := hapart.events hevent
  obtain ⟨inquiry, hanswer⟩ := r.exists_inquiry
  obtain ⟨inquiry', hanswer'⟩ := r'.exists_inquiry
  rw [hanswer, hanswer', (answer_origin ..).2.1, (answer_origin ..).2.1] at htool
  rw [hanswer, hanswer'] at hpayload ⊢
  rw [hconnector, horder]
  match inquiry, inquiry' with
  | .order, .order | .tracking, .tracking => rfl
  | .message m, .message m' => rw [messageSection_inj hpayload]
  | .order, .tracking | .order, .message _ | .tracking, .order | .tracking, .message _
  | .message _, .order | .message _, .tracking => simp [Inquiry.tool] at htool

theorem RecordedAnswer.dataset_eq (hapart : NoCollision r r') (h : r.evidence = r'.evidence) :
    r.connector.dataset = r'.connector.dataset := by
  have hfirst := evidenceFromAnswer_derived r.accepted
  have hsecond := evidenceFromAnswer_derived r'.accepted
  have hdigest : r.answer.digest = r'.answer.digest := by
    rw [hfirst.stored, hsecond.stored, ← hfirst.sha256, ← hsecond.sha256, h]
  have hcontent := hapart.answers hdigest
  obtain ⟨inquiry, hanswer⟩ := r.exists_inquiry
  obtain ⟨inquiry', hanswer'⟩ := r'.exists_inquiry
  rw [hanswer, hanswer'] at hcontent
  exact CommerceDataset.canonical_inj (hapart.exports (digest_of_content hcontent))

/-- Another answer of its source event is accepted only as the same evidence. -/
theorem RecordedAnswer.put_after {ledger ledger' : Ledger} {accepted : InvestigationEvidence}
    (hsources : r.connector.sources = r'.connector.sources) (htool : r.answer.tool = r'.answer.tool)
    (hevent : r.answer.source_event_id = r'.answer.source_event_id)
    (hput : putObservation ledger r.evidence scope = .ok (ledger', accepted)) :
    putObservation ledger' r'.evidence scope =
      if r.evidence = r'.evidence then .ok (ledger', accepted)
      else .error (.contract .conflict "observation replay conflicts") := by
  have hfirst := evidenceFromAnswer_derived r.accepted
  have hsecond := evidenceFromAnswer_derived r'.accepted
  obtain ⟨haccepted, -, hput⟩ := putObservation_eq_ok hput
  obtain ⟨row, hrow, hpayload⟩ := hput.mem
  have hscope : r.evidence.toInvestigationScope = r'.evidence.toInvestigationScope :=
    hfirst.scope_eq.trans hsecond.scope_eq.symm
  have hsource := RecordedAnswer.source_id_eq hsources htool
  have hsame : SameEvent row r'.evidence :=
    { tenant_id := hpayload ▸ congrArg InvestigationScope.tenant_id hscope
      case_id := hpayload ▸ congrArg InvestigationScope.case_id hscope
      evidence_id := by
        rw [hpayload]
        exact Identifier.ext (by rw [hfirst.evidence_id, hsecond.evidence_id, hsource, hevent])
      source_event := by
        rw [hpayload, InvestigationEvidence.source_event, InvestigationEvidence.source_event,
          hfirst.source_id, hsecond.source_id, hsource]
        exact congrArg _ (Identifier.ext (by rw [hfirst.source_event_id, hsecond.source_event_id, hevent])) }
  have hlock : ledger'.order_ids r'.evidence.caseScope = some r'.evidence.order_id := by
    have horder := hput.order_id
    rw [hscope] at horder
    rw [hput.frame]
    exact horder
  have hreplay := putObservation_replay hrow hsame hsecond.revoked_at hlock
  rw [hsecond.scope_eq, hpayload] at hreplay
  rw [hreplay, haccepted]

/-- One source event becomes one evidence exactly when the exports are the same. -/
theorem one_event_one_evidence (hsources : r.connector.sources = r'.connector.sources)
    (htool : r.answer.tool = r'.answer.tool) (hevent : r.answer.source_event_id = r'.answer.source_event_id)
    (hapart : NoCollision r r') : (r.evidence = r'.evidence ↔ r.connector.dataset = r'.connector.dataset) ∧
      ∀ ledger ledger' accepted, putObservation ledger r.evidence scope = .ok (ledger', accepted) →
        putObservation ledger' r'.evidence scope =
          if r.connector.dataset = r'.connector.dataset then .ok (ledger', accepted)
          else .error (.contract .conflict "observation replay conflicts") := by
  have hfirst := evidenceFromAnswer_derived r.accepted
  have hsecond := evidenceFromAnswer_derived r'.accepted
  have hiff : r.evidence = r'.evidence ↔ r.connector.dataset = r'.connector.dataset := by
    refine ⟨RecordedAnswer.dataset_eq hapart, fun hdataset => ?_⟩
    rw [RecordedAnswer.answer_eq hsources hdataset htool hevent hapart] at hfirst
    exact hfirst.unique hsecond
  refine ⟨hiff, fun ledger ledger' accepted hput => ?_⟩
  rw [RecordedAnswer.put_after hsources htool hevent hput]
  simp only [hiff]

theorem RecordedAnswer.put_opened (r : RecordedAnswer scope) :
    ∃ ledger, putObservation (.opened scope) r.evidence scope = .ok (ledger, r.evidence) := by
  have hderived := evidenceFromAnswer_derived r.accepted
  have hlock : (Ledger.opened scope).order_ids scope.caseScope = some scope.order_id := if_pos rfl
  have hlocked := lockCase_eq_ok (u := ()).mpr hlock
  have hcheck : observationSchema.check ⟨r.evidence, none⟩ = true := by simp [hderived.revoked_at]
  obtain ⟨observations, hinsert⟩ := Table.insert_of_apart (t := (Ledger.opened scope).observations) hcheck
    fun row hrow => absurd hrow List.not_mem_nil
  simp only [putObservation, require, hderived.scope_eq, if_true, ok_bind, hlocked,
    Table.insertOrIgnore_of_insert hinsert, statement]
  exact ⟨_, rfl⟩

end

/-! ## Two exports of one order -/

def oneDigest : Sha256 :=
  ⟨"1000000000000000000000000000000000000000000000000000000000000000", Eq.refl true⟩

/-- Digests that tell the marked texts from all others. -/
@[reducible]
def markHashing (marked : List String) : Hashing where
  snapshotSha256 _ := zeroDigest
  decisionPayloadSha256 _ _ _ _ := zeroDigest
  admissionDigest _ _ := zeroDigest
  sha256 text := if text ∈ marked then oneDigest else zeroDigest

section

variable (connector : CommerceConnector) (order_id : Identifier) (message : BuyerMessage)

/-- The answer about a message, while only the export is marked. -/
def markedContent : String :=
  (@CommerceConnector.buyerAnswer (markHashing [connector.dataset.canonical]) connector order_id message).content

/-- Digests that tell an export and its answer from all other texts. -/
@[reducible]
def exportHashing : Hashing :=
  markHashing [connector.dataset.canonical, markedContent connector order_id message]

end

/-- A message is recorded again from the same export. -/
theorem one_event_one_evidence_again : letI := zeroHashing
    ∃ r : RecordedAnswer orderScope, ∃ ledger,
      putObservation (.opened orderScope) r.evidence orderScope = .ok (ledger, r.evidence) ∧
        putObservation ledger r.evidence orderScope = .ok (ledger, r.evidence) := by
  obtain ⟨r, -⟩ := exists_messageRecord 5 (by decide)
  obtain ⟨ledger, hput⟩ := @RecordedAnswer.put_opened zeroHashing _ r
  have hapart : @NoCollision zeroHashing orderScope r r :=
    @NoCollision.mk zeroHashing orderScope r r (fun _ => rfl) (fun _ => rfl) (fun _ => rfl)
  have hreplay := (@one_event_one_evidence zeroHashing orderScope r r rfl rfl rfl hapart).2 _ _ _ hput
  rw [if_pos rfl] at hreplay
  exact ⟨r, ledger, hput, hreplay⟩

/-- An export of the fixed order that names its source differently. -/
def renamedDataset : CommerceDataset :=
  { sampleDataset (messageOrder 5 five_fits) with source := ⟨"store", by decide⟩ }

/-- Two exports differ in the name of their source only. -/
theorem one_event_two_exports : ∃ _ : Hashing, ∃ r r' : RecordedAnswer orderScope,
    r.connector = messageConnector 5 (by decide) ∧
      r'.connector = ⟨renamedDataset, sampleSources⟩ ∧
      r.answer.tool = r'.answer.tool ∧ r.answer.source_event_id = r'.answer.source_event_id ∧
      NoCollision r r' ∧ r.evidence ≠ r'.evidence ∧
      ∃ ledger, putObservation (.opened orderScope) r.evidence orderScope = .ok (ledger, r.evidence) ∧
        putObservation ledger r'.evidence orderScope =
          .error (.contract .conflict "observation replay conflicts") := by
  let connector := messageConnector 5 (by decide)
  let connector' : CommerceConnector := ⟨renamedDataset, sampleSources⟩
  let message := sampleMessage 5 (by decide)
  let H := exportHashing connector orderScope.order_id message
  have hvalid : identifierValid (connector.buyerAnswer orderScope.order_id message).digest.val = true ∧
      identifierValid (connector'.buyerAnswer orderScope.order_id message).digest.val = true ∧
      identifierValid (eventId "buyer-message" (messageSection message)) = true ∧
      identifierValid (sampleSources.buyer_channel.val ++ ":" ++ eventId "buyer-message" (messageSection message)) =
        true := by decide +kernel
  obtain ⟨hfirst, hother, hevent, hid⟩ := hvalid
  -- Only the texts of the first export are marked.
  have hexport : connector.dataset.digest ≠ connector'.dataset.digest := by decide +kernel
  have hdigest : (connector.buyerAnswer orderScope.order_id message).digest ≠
      (connector'.buyerAnswer orderScope.order_id message).digest := by decide +kernel
  obtain ⟨r, hconnector, -, -, hanswer⟩ :=
    @exists_buyerRecord H connector (messageOrder 5 (by decide)) orderScope message rfl rfl hfirst hevent hid
  obtain ⟨r', hconnector', -, -, hanswer'⟩ :=
    @exists_buyerRecord H connector' (messageOrder 5 (by decide)) orderScope message rfl rfl hother hevent hid
  have htool : r.answer.tool = r'.answer.tool := by
    rw [hanswer, hanswer']
    rfl
  have hevent : r.answer.source_event_id = r'.answer.source_event_id := by
    rw [hanswer, hanswer']
    rfl
  have hpart : ∀ (c : CommerceConnector) (m : BuyerMessage),
      bodyGet (c.buyerAnswer orderScope.order_id m).body "message" = messageSection m := fun _ _ => rfl
  have hapart : NoCollision r r' := by
    refine ⟨?_, ?_, ?_⟩
    · rw [hconnector, hconnector']
      exact fun hsame => absurd hsame hexport
    · rw [hanswer, hanswer']
      exact fun hsame => absurd hsame hdigest
    · rw [hanswer, hanswer', hpart, hpart]
      exact fun _ => rfl
  have hevidence : r.evidence ≠ r'.evidence := by
    intro hsame
    have hfirst := evidenceFromAnswer_derived r.accepted
    have hsecond := evidenceFromAnswer_derived r'.accepted
    refine hdigest ?_
    rw [← hanswer, ← hanswer', hfirst.stored, hsecond.stored, ← hfirst.sha256, ← hsecond.sha256, hsame]
  obtain ⟨ledger, hput⟩ := r.put_opened
  have hsources : r.connector.sources = r'.connector.sources := by
    rw [hconnector, hconnector']
    rfl
  have hsecond := RecordedAnswer.put_after hsources htool hevent hput
  rw [if_neg hevidence] at hsecond
  exact ⟨H, r, r', hconnector, hconnector', htool, hevent, hapart, hevidence, ledger, hput, hsecond⟩

end Aftercare.Investigation
