import Aftercare.Investigation.Rendering

/-!
# Signed source events

`HmacSourceEventVerifier` turns a signed request into an answer of the source that its key stands for.
`signed_requests_bound` says what the signature binds, `verify_closed_iff` where a request is neither accepted nor
refused, and `evidence_identity_iff` when the evidence id identifies the event.
-/

namespace Aftercare.Investigation

open Relational Text Connectors

/-! ## Requests -/

structure SourceIdentity where
  (tenant_id source_id : Identifier)
  tool : Tool

structure SignedSourceRequest where
  (key_id delivery_id : Identifier)
  (issued_at observed_at : UtcDatetime)
  signature : String
  content : List UInt8

/-- `_timestamp`: always six digits of the fraction. -/
def timestamp (t : UtcDatetime) : String :=
  let fraction := t.val % 1000000
  isoText ("." ++ String.ofList (padded 6 fraction.toNat) ++ "Z") (t.val - fraction)

def SignedSourceRequest.signedBytes (request : SignedSourceRequest) : List UInt8 :=
  utf8 ("\n".intercalate ["aftercare-source-v1", request.key_id.val, request.delivery_id.val,
    timestamp request.issued_at, timestamp request.observed_at]) ++ utf8 "\n" ++ request.content

def SignedSourceRequest.Agrees (r r' : SignedSourceRequest) : Prop :=
  r.key_id = r'.key_id ∧ r.delivery_id = r'.delivery_id ∧ r.issued_at = r'.issued_at ∧
    r.observed_at = r'.observed_at ∧ r.content = r'.content

theorem toList_timestamp (t : UtcDatetime) : (timestamp t).toList = (isoText "" (t.val - t.val % 1000000)).toList ++
      '.' :: (padded 6 (Int.toNat (t.val % 1000000)) ++ ['Z']) := by
  simp [timestamp, isoText]

theorem timestamp_inj {s t : UtcDatetime} (h : timestamp s = timestamp t) : s = t := by
  have hlength : ∀ n : ℤ, (isoText "" (n - n % 1000000)).toList.length = 19 := by
    intro n
    have hwhole : (n - n % 1000000) % 1000000 = 0 := by omega
    rw [String.length_toList, length_isoText, if_pos hwhole, String.length_empty]
  have hdays : ∀ n : ℤ, -62135596800000000 ≤ n ∧ n ≤ 253402300799999999 →
      -719162 ≤ (n - n % 1000000) / dayLength ∧ (n - n % 1000000) / dayLength ≤ 2932896 := by
    intro n hn
    unfold dayLength
    omega
  have hparts : ∀ m n : ℤ, m - m % 1000000 = n - n % 1000000 → (m % 1000000).toNat = (n % 1000000).toNat →
      m = n := by omega
  obtain ⟨hs0, hs⟩ := hdays s.val s.valid
  obtain ⟨ht0, ht⟩ := hdays t.val t.valid
  rw [← String.toList_inj, toList_timestamp, toList_timestamp] at h
  obtain ⟨hsecond, h⟩ := List.append_inj h ((hlength s.val).trans (hlength t.val).symm)
  have hwhole := isoText_inj hs0 hs ht0 ht (String.toList_inj.mp hsecond)
  have hlt : ∀ n : ℤ, (n % 1000000).toNat < 10 ^ 6 := by omega
  obtain ⟨hfraction, -⟩ := padded_append_inj (hlt s.val) (hlt t.val) (List.cons.inj h).2
  exact UtcDatetime.ext (hparts _ _ hwhole hfraction)

theorem newline_notMem_identifier (id : Identifier) : '\n' ∉ id.val.toList := by
  intro hmem
  have hchar := List.all_eq_true.mp id.text _ hmem
  exact absurd hchar (by decide)

theorem newline_notMem_timestamp (t : UtcDatetime) : '\n' ∉ (timestamp t).toList := by
  have hdigit : ∀ d < 10, (Nat.digitChar d != '\n') = true := by decide
  have hall : (timestamp t).toList.all (· != '\n') = true := by
    rw [toList_timestamp, List.all_append, List.all_cons, List.all_append,
      all_isoText (p := (· != '\n')) hdigit (by decide) (by decide), all_padded (p := (· != '\n')) hdigit]
    rfl
  intro hmem
  exact absurd (List.all_eq_true.mp hall _ hmem) (by decide)

theorem signedBytes_eq (r : SignedSourceRequest) : r.signedBytes = utf8 "aftercare-source-v1" ++
    10 :: (utf8 r.key_id.val ++ 10 :: (utf8 r.delivery_id.val ++ 10 :: (utf8 (timestamp r.issued_at) ++
      10 :: (utf8 (timestamp r.observed_at) ++ 10 :: r.content)))) := by
  have hnewline : utf8 "\n" = [10] := by decide
  simp only [SignedSourceRequest.signedBytes, String.intercalate_cons_cons, String.intercalate_singleton,
    utf8_append, hnewline, List.append_assoc, List.cons_append, List.nil_append]

/-- A line of the signed bytes ends at the first newline. -/
theorem utf8_line_inj {s t : String} {rest rest' : List UInt8} (hs : '\n' ∉ s.toList)
    (ht : '\n' ∉ t.toList) (h : utf8 s ++ 10 :: rest = utf8 t ++ 10 :: rest') : s = t ∧ rest = rest' :=
  (append_cons_inj (newline_notMem_utf8 hs) (newline_notMem_utf8 ht) h).imp_left utf8_inj

theorem signedBytes_inj {r r' : SignedSourceRequest} (h : r.signedBytes = r'.signedBytes) : r.Agrees r' := by
  rw [signedBytes_eq, signedBytes_eq] at h
  have h := (List.cons.inj (List.append_cancel_left h)).2
  obtain ⟨hkey, h⟩ := utf8_line_inj (newline_notMem_identifier _) (newline_notMem_identifier _) h
  obtain ⟨hdelivery, h⟩ := utf8_line_inj (newline_notMem_identifier _) (newline_notMem_identifier _) h
  obtain ⟨hissued, h⟩ := utf8_line_inj (newline_notMem_timestamp _) (newline_notMem_timestamp _) h
  obtain ⟨hobserved, hcontent⟩ := utf8_line_inj (newline_notMem_timestamp _) (newline_notMem_timestamp _) h
  exact ⟨Identifier.ext hkey, Identifier.ext hdelivery, timestamp_inj hissued, timestamp_inj hobserved, hcontent⟩

/-! ## Verification -/

/-- `HmacSourceEventVerifier`, with the digest of `hmac.new`. -/
structure HmacSourceEventVerifier where
  credentials : List (Identifier × SourceIdentity × List UInt8)
  (max_age clock_skew : ℤ)
  hexdigest : List UInt8 → List UInt8 → String

structure VerifiedSourceEvent where
  key_id : Identifier
  identity : SourceIdentity
  issued_at : UtcDatetime
  answer : ConnectorAnswer

def authorityFields : List String := ["tenant_id", "source_id", "source_event_id", "subject_id", "tool"]

/-- `TOOL_SCHEMAS`. -/
def toolSchema : Tool → String
  | .lookupOrder => orderFactsSchema
  | .lookupTracking => trackingFactsSchema
  | .lookupBuyerMessage => buyerFactsSchema

/-- Why `json.loads` has no value for bytes that a text can carry. -/
inductive DecodingError
  /-- A caught error: the bytes are no text, or no JSON. -/
  | invalid
  /-- The text is nested too deeply. -/
  | recursion
  /-- A value with a surrogate that has no partner. -/
  | surrogate (object : Bool)

/-- `json.loads` of bytes, with `_reject_json_constant`. -/
class SourceDecoding where
  loads : List UInt8 → Except DecodingError Json

/-- `_json_object`, which does not catch a `RecursionError`. -/
def jsonObject [SourceDecoding] (content : List UInt8) : Result (List (String × Json)) :=
  match SourceDecoding.loads content with
  | .error .invalid => .error (.contract .evidenceRejected "source event is not JSON")
  | .error .recursion => .error .recursion
  | .error (.surrogate false) => .error (.contract .evidenceRejected "source event is not an object")
  -- `encode("utf-8")` of the canonical text
  | .error (.surrogate true) => .error .value
  | .ok value => do
    require (value.ambiguous = false) (.contract .evidenceRejected "source event is not JSON")
    match value with
    | .object pairs => do
      require (utf8 (Json.object pairs).dumps = content)
        (.contract .evidenceRejected "source event JSON is not canonical")
      pure pairs
    | _ => .error (.contract .evidenceRejected "source event is not an object")

def HmacSourceEventVerifier.expected (verifier : HmacSourceEventVerifier) (secret : List UInt8)
    (request : SignedSourceRequest) : String :=
  "v1=" ++ verifier.hexdigest secret request.signedBytes

def HmacSourceEventVerifier.verify [SourceDecoding] (verifier : HmacSourceEventVerifier)
    (request : SignedSourceRequest) (now : Time) : Result VerifiedSourceEvent := do
  let (identity, secret) ← fetch (verifier.credentials.lookup request.key_id)
    (.contract .unauthenticated "source key is unknown")
  let earliest ← addDuration now (-verifier.max_age)
  require (earliest ≤ request.issued_at.val)
    (.contract .unauthenticated "source signature is outside its window")
  let latest ← addDuration now verifier.clock_skew
  require (request.issued_at.val ≤ latest)
    (.contract .unauthenticated "source signature is outside its window")
  require (request.signature = verifier.expected secret request)
    (.contract .unauthenticated "source signature is invalid")
  let newest ← addDuration request.issued_at.val verifier.clock_skew
  require (request.observed_at.val ≤ newest) (.contract .evidenceRejected "source event is dated in the future")
  let body ← jsonObject request.content
  require (∀ field ∈ authorityFields, field ∉ body.map Prod.fst)
    (.contract .forbidden "source event body contains authority fields")
  require (textOf (bodyGet body "schema") = some (toolSchema identity.tool))
    (.contract .forbidden "source key cannot publish this schema")
  pure
    { key_id := request.key_id, identity := identity, issued_at := request.issued_at
      answer := ⟨identity.tool, identity.source_id, request.delivery_id.val, request.observed_at.val, body⟩ }

def HmacSourceEventVerifier.Signed (verifier : HmacSourceEventVerifier) (request : SignedSourceRequest)
    (identity : SourceIdentity) : Prop :=
  ∃ secret, verifier.credentials.lookup request.key_id = some (identity, secret) ∧
    request.signature = verifier.expected secret request

structure HmacSourceEventVerifier.Accepted (verifier : HmacSourceEventVerifier) (request : SignedSourceRequest)
    (now : Time) (event : VerifiedSourceEvent) : Prop where
  canonical : request.content = utf8 (Json.object event.answer.body).dumps
  unambiguous : (Json.object event.answer.body).ambiguous = false
  no_authority : ∀ field ∈ authorityFields, field ∉ event.answer.body.map Prod.fst
  schema : textOf (bodyGet event.answer.body "schema") = some (toolSchema event.identity.tool)
  issued : now - verifier.max_age ≤ request.issued_at.val ∧
    request.issued_at.val ≤ now + verifier.clock_skew
  observed : request.observed_at.val ≤ request.issued_at.val + verifier.clock_skew
  signed : verifier.Signed request event.identity
  source : (event.answer.tool, event.answer.source_id) = (event.identity.tool, event.identity.source_id)
  copied : (event.key_id, event.issued_at, event.answer.source_event_id, event.answer.observed_at) =
    (request.key_id, request.issued_at, request.delivery_id.val, request.observed_at.val)

theorem jsonObject_eq_ok [SourceDecoding] {content : List UInt8} {body : List (String × Json)}
    (h : jsonObject content = .ok body) :
    content = utf8 (Json.object body).dumps ∧ (Json.object body).ambiguous = false := by
  unfold jsonObject at h
  split at h
  all_goals try cases h
  simp only [ok_iff] at h
  obtain ⟨hambiguous, h⟩ := h
  split at h
  · simp only [ok_iff] at h
    obtain ⟨hcanonical, rfl⟩ := h
    exact ⟨hcanonical.symm, hambiguous⟩
  · cases h

theorem addDuration_eq_ok {t t' : Time} {duration : ℤ} : addDuration t duration = .ok t' ↔
    (minDatetime ≤ t + duration ∧ t + duration ≤ maxDatetime) ∧ t + duration = t' := by
  simp only [addDuration, ok_iff]

theorem verify_accepted [SourceDecoding] {verifier : HmacSourceEventVerifier} {request : SignedSourceRequest}
    {now : Time} {event : VerifiedSourceEvent} (h : verifier.verify request now = .ok event) :
    verifier.Accepted request now event := by
  simp only [HmacSourceEventVerifier.verify, ok_iff, addDuration_eq_ok, Prod.exists] at h
  obtain ⟨identity, secret, hlookup, _, ⟨-, rfl⟩, hearliest, _, ⟨-, rfl⟩, hlatest, hsignature, _, ⟨-, rfl⟩,
    hobserved, body, hbody, hauthority, hschema, rfl⟩ := h
  obtain ⟨hcanonical, hambiguous⟩ := jsonObject_eq_ok hbody
  exact
    { canonical := hcanonical
      unambiguous := hambiguous
      no_authority := hauthority
      schema := hschema
      issued := ⟨hearliest, hlatest⟩
      observed := hobserved
      signed := ⟨secret, hlookup, hsignature⟩
      source := rfl
      copied := rfl }

def signedBody : List (String × Json) :=
  [("order_id", .string "order-1"), ("schema", .string orderFactsSchema)]

/-- A decoder that reads the body of the fixed events. -/
@[reducible]
def signedDecoding : SourceDecoding := ⟨fun _ => .ok (.object signedBody)⟩

def epoch : UtcDatetime := ⟨0, by decide⟩

/-- A verifier that knows this source under one key. -/
def sourceVerifier (source_id : Identifier) : HmacSourceEventVerifier :=
  ⟨[(⟨"key-1", Eq.refl true⟩, ⟨orderScope.tenant_id, source_id, .lookupOrder⟩, [])], 300, 30, fun _ _ => ""⟩

def sourceRequest (delivery_id : Identifier) (content : List UInt8) : SignedSourceRequest :=
  ⟨⟨"key-1", Eq.refl true⟩, delivery_id, epoch, epoch, "v1=", content⟩

theorem verify_signed (source_id delivery_id : Identifier) : @(sourceVerifier source_id).verify signedDecoding
      (sourceRequest delivery_id (utf8 (Json.object signedBody).dumps)) 0 =
      .ok ⟨⟨"key-1", Eq.refl true⟩, ⟨orderScope.tenant_id, source_id, .lookupOrder⟩, epoch,
        ⟨.lookupOrder, source_id, delivery_id.val, 0, signedBody⟩⟩ := by
  have hbody : @jsonObject signedDecoding (utf8 (Json.object signedBody).dumps) = .ok signedBody := by
    exact bind_eq_ok.mpr ⟨(), rfl, bind_eq_ok.mpr ⟨(), require_eq_ok.mpr rfl, rfl⟩⟩
  simp only [HmacSourceEventVerifier.verify, sourceVerifier, sourceRequest, epoch, hbody, ok_iff,
    addDuration_eq_ok, Prod.exists]
  exact ⟨_, _, rfl, _, ⟨by decide, rfl⟩, rfl, _, ⟨by decide, rfl⟩, rfl, rfl, _, ⟨by decide, rfl⟩, rfl, _, rfl,
    by decide, rfl, rfl⟩

/-- **Signed requests are unambiguous.** The signed bytes determine what was signed, and a verified event is the content
of a request of its window that the key of the event's identity has signed. -/
theorem signed_requests_bound [SourceDecoding] (verifier : HmacSourceEventVerifier)
    (Sent : SignedSourceRequest → Prop) (hunforgeable : ∀ request identity, verifier.Signed request identity →
      ∃ sent, Sent sent ∧ sent.signedBytes = request.signedBytes) :
    (∀ r r' : SignedSourceRequest, r.signedBytes = r'.signedBytes → r.Agrees r') ∧
    ∀ request now event, verifier.verify request now = .ok event →
      verifier.Accepted request now event ∧ ∃ sent, Sent sent ∧ sent.Agrees request := by
  refine ⟨fun r r' => signedBytes_inj, fun request now event h => ?_⟩
  have haccepted := verify_accepted h
  obtain ⟨sent, hsent, hbytes⟩ := hunforgeable request _ haccepted.signed
  exact ⟨haccepted, sent, hsent, signedBytes_inj hbytes⟩

/-- The fixed event is the content of its request. -/
theorem fixed_request_bound :
    let request := sourceRequest ⟨"b", Eq.refl true⟩ (utf8 (Json.object signedBody).dumps)
    ∃ event, @(sourceVerifier ⟨"a", Eq.refl true⟩).verify signedDecoding request 0 = .ok event ∧
      (sourceVerifier ⟨"a", Eq.refl true⟩).Accepted request 0 event :=
  ⟨_, verify_signed _ _, ((@signed_requests_bound signedDecoding _ (fun _ => True)
    (fun request _ _ => ⟨request, trivial, rfl⟩)).2 _ _ _ (verify_signed _ _)).1⟩

/-- No `RecursionError`, and no object with a lone surrogate. -/
def Decodes [SourceDecoding] (content : List UInt8) : Prop :=
  ∀ e, SourceDecoding.loads content = .error e → e ≠ .recursion ∧ e ≠ .surrogate true

/-- No check that is reached leaves the calendar or meets bad content. -/
def HmacSourceEventVerifier.Checkable [SourceDecoding] (verifier : HmacSourceEventVerifier)
    (request : SignedSourceRequest) (now : Time) : Prop :=
  let dated (t : Time) := minDatetime ≤ t ∧ t ≤ maxDatetime
  ∀ identity secret, verifier.credentials.lookup request.key_id = some (identity, secret) →
    dated (now + -verifier.max_age) ∧ (now + -verifier.max_age ≤ request.issued_at.val →
    dated (now + verifier.clock_skew) ∧ (request.issued_at.val ≤ now + verifier.clock_skew →
    request.signature = verifier.expected secret request →
    dated (request.issued_at.val + verifier.clock_skew) ∧
      (request.observed_at.val ≤ request.issued_at.val + verifier.clock_skew → Decodes request.content)))

/-- What it raises, if it raises, is a contract violation. -/
abbrev Closed {α : Type} (x : Result α) : Prop := ¬Relational.Raises Failure.Escapes x

section

variable {α : Type} {t : Time} {duration : ℤ} {p : Prop} [Decidable p] {code : ErrorCode} {message : String}

theorem closed_addDuration {tail : Time → Result α} : Closed (addDuration t duration >>= tail) ↔
    (minDatetime ≤ t + duration ∧ t + duration ≤ maxDatetime) ∧ Closed (tail (t + duration)) := by
  simp only [addDuration, require]
  split_ifs with h
  · simp only [h, true_and]
    rfl
  · exact ⟨fun hclosed => absurd ⟨_, rfl, trivial⟩ hclosed, fun hdated => absurd hdated.1 h⟩

theorem closed_require {tail : Unit → Result α} :
    Closed (require p (.contract code message) >>= tail) ↔ (p → Closed (tail ())) := by
  simp only [Closed, raises_bind, raises_require, Failure.Escapes, and_false, false_or, require_eq_ok,
    exists_unit, not_and]

theorem closed_jsonObject [SourceDecoding] {content : List UInt8} {tail : List (String × Json) → Result α}
    (htail : ∀ body, Closed (tail body)) : Closed (jsonObject content >>= tail) ↔ Decodes content := by
  have hnone : ¬∃ body, jsonObject content = .ok body ∧ Relational.Raises Failure.Escapes (tail body) := by
    rintro ⟨body, -, h⟩
    exact htail body h
  rw [Closed, raises_bind, or_iff_left hnone]
  unfold jsonObject Decodes
  split
  case h_5 value hvalue =>
    simp only [hvalue, closed_require, reduceCtorEq, false_implies, implies_true, iff_true]
    intro _
    split
    · rw [closed_require]
      exact fun _ => raises_pure
    · exact mt raises_error.mp id
  all_goals simp_all [Failure.Escapes]

end

/-! ## Identities -/

/-- The names of the source and of the event of an answer. -/
def sourceNames (answer : ConnectorAnswer) : String × String := (answer.source_id.val, answer.source_event_id)

theorem not_shifted_of_fst {p q : String × String} (h : p.1 = q.1) : ¬Shifted p q := by
  rintro ⟨s, hfirst, -⟩
  have hlength := congrArg String.length hfirst
  rw [h, String.length_append, String.length_append] at hlength
  have hcolon : ":".length = 1 := by decide
  omega

theorem joined_valid_iff (source_id source_event_id : Identifier) :
    identifierValid (source_id.val ++ ":" ++ source_event_id.val) = true ↔
      source_id.val.length + source_event_id.val.length ≤ 159 := by
  have hsource := identifierValid_iff.mp source_id.valid
  have hcolon : ":".length = 1 := by decide
  rw [identifierValid_iff, String.length_append, String.length_append]
  constructor
  · intro h
    have hlength := h.2.2
    omega
  · intro h
    refine ⟨identifierStart_append (identifierStart_append hsource.1), ?_, by omega⟩
    exact identifierText_append.mpr ⟨identifierText_append.mpr ⟨hsource.2.1, by decide⟩, source_event_id.text⟩

/-- **Evidence identity.** One evidence id means one event of one source precisely when the names are not shifted
against each other, and it is an identifier precisely when they have at most 159 characters. -/
theorem evidence_identity_iff [Hashing] {answer answer' : ConnectorAnswer} {scope scope' : InvestigationScope}
    {artifact artifact' : ArtifactReference} {registered registered' : Identifier → Option SourceKind}
    {evidence evidence' : InvestigationEvidence}
    (h : evidenceFromAnswer answer scope artifact registered = .ok evidence)
    (h' : evidenceFromAnswer answer' scope' artifact' registered' = .ok evidence')
    (source_id source_event_id : Identifier) :
    ((evidence.evidence_id = evidence'.evidence_id ↔ (answer.source_id, answer.source_event_id) =
        (answer'.source_id, answer'.source_event_id)) ↔
      ¬Shifted (sourceNames answer) (sourceNames answer') ∧
        ¬Shifted (sourceNames answer') (sourceNames answer)) ∧
    (identifierValid (source_id.val ++ ":" ++ source_event_id.val) = true ↔
      source_id.val.length + source_event_id.val.length ≤ 159) := by
  refine ⟨?_, joined_valid_iff source_id source_event_id⟩
  have hid := (evidenceFromAnswer_derived h).evidence_id
  have hid' := (evidenceFromAnswer_derived h').evidence_id
  have hnames : (answer.source_id, answer.source_event_id) = (answer'.source_id, answer'.source_event_id) ↔
      sourceNames answer = sourceNames answer' := by
    simp only [sourceNames, Prod.mk.injEq, Identifier.ext_iff]
  rw [Identifier.ext_iff, hid, hid', hnames]
  change (((sourceNames answer).1 ++ ":" ++ (sourceNames answer).2 =
    (sourceNames answer').1 ++ ":" ++ (sourceNames answer').2) ↔ _) ↔ _
  rw [joined_eq_iff]
  by_cases hsame : sourceNames answer = sourceNames answer'
  · rw [hsame]
    simp [not_shifted_of_fst]
  · simp [hsame]

/-- The evidence in the fixed Case of an event with this name. -/
def signedEvidence (source_id delivery_id : Identifier) : Result InvestigationEvidence := do
  let event ← @(sourceVerifier source_id).verify signedDecoding
    (sourceRequest delivery_id (utf8 (Json.object signedBody).dumps)) 0
  @evidenceFromAnswer zeroHashing event.answer orderScope
    ⟨⟨orderScope.tenant_id, orderScope.case_id⟩, ⟨"artifact-1", Eq.refl true⟩, zeroDigest⟩
    fun _ => some .orderLedger

theorem signedEvidence_eq_ok {source_id delivery_id : Identifier} {evidence : InvestigationEvidence}
    (h : signedEvidence source_id delivery_id = .ok evidence) :
    ∃ answer artifact registered, @evidenceFromAnswer zeroHashing answer orderScope artifact registered =
      .ok evidence ∧ answer.source_id = source_id ∧ answer.source_event_id = delivery_id.val := by
  rw [signedEvidence, verify_signed, ok_bind] at h
  exact ⟨_, _, _, h, rfl, rfl⟩

/-- Two events of one source are told apart. -/
theorem evidence_identity_apart :
    let event (name : Identifier) := signedEvidence ⟨"a", Eq.refl true⟩ name
    ((event ⟨"b", Eq.refl true⟩).isOk && (event ⟨"c", Eq.refl true⟩).isOk) = true ∧
    ∀ evidence evidence', event ⟨"b", Eq.refl true⟩ = .ok evidence →
      event ⟨"c", Eq.refl true⟩ = .ok evidence' → evidence.evidence_id ≠ evidence'.evidence_id := by
  refine ⟨Bool.and_eq_true_iff.mpr ⟨by decide +kernel, by decide +kernel⟩,
    fun evidence evidence' hevidence hevidence' hsame => ?_⟩
  obtain ⟨answer, artifact, registered, h, hsource, hevent⟩ := signedEvidence_eq_ok hevidence
  obtain ⟨answer', artifact', registered', h', hsource', hevent'⟩ := signedEvidence_eq_ok hevidence'
  have hfirst : (sourceNames answer).1 = (sourceNames answer').1 := by
    rw [sourceNames, sourceNames, hsource, hsource']
  have hpair := ((@evidence_identity_iff zeroHashing _ _ _ _ _ _ _ _ _ _ h h' answer.source_id
    answer.source_id).1.mpr ⟨not_shifted_of_fst hfirst, not_shifted_of_fst hfirst.symm⟩).mp hsame
  rw [hevent, hevent', Prod.mk.injEq] at hpair
  exact absurd hpair.2 (by decide)

/-- The event `c` of `a:b` and the event `b:c` of `a` have one evidence id. -/
theorem evidence_identity_shared :
    (signedEvidence ⟨"a:b", Eq.refl true⟩ ⟨"c", Eq.refl true⟩).toOption.map (·.evidence_id.val) = some "a:b:c" ∧
    (signedEvidence ⟨"a", Eq.refl true⟩ ⟨"b:c", Eq.refl true⟩).toOption.map (·.evidence_id.val) = some "a:b:c" ∧
    (signedEvidence ⟨String.ofList (List.replicate 80 'a'), Eq.refl true⟩
      ⟨String.ofList (List.replicate 80 'a'), Eq.refl true⟩).toOption.isNone := by
  refine ⟨?_, ?_, ?_⟩
  · decide +kernel
  · decide +kernel
  · decide +kernel

end Aftercare.Investigation
