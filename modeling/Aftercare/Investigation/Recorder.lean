import Aftercare.Domain.EvidenceGate
import Aftercare.Investigation.Histories

/-!
# The evidence recorder

`ConnectorEvidenceRecorder.__call__` records an answer in one transaction, and then drives its projection into the
evidence application with further transactions and calls. Others may come between, so it is a machine with a step
for each; what the application answers is an input of the step.
-/

namespace Aftercare.Investigation

open Relational Text Connectors

/-! ## Validation -/

structure SourceGrant extends InvestigationScope where
  (subject_id source_id : Identifier)
deriving DecidableEq, Repr

def ingestObservation (expected : InvestigationScope) (grant : SourceGrant)
    (registered_sources : Identifier → Option SourceKind) (evidence : InvestigationEvidence) (now : Time)
    (existing : Option InvestigationEvidence) : Result InvestigationEvidence := do
  requireOrder expected grant.toInvestigationScope
  requireOrder expected evidence.toInvestigationScope
  require (grant.source_id = evidence.source_id) (.contract .forbidden "source not granted to caller")
  requireRegistered evidence registered_sources
  require (evidence.received_at ≤ now ∧ ∀ t ∈ evidence.revoked_at, t ≤ now)
    (.contract .evidenceRejected "future evidence timestamp")
  match existing with
  | none => pure evidence
  | some existing => do
    requireOrder expected existing.toInvestigationScope
    require (existing = evidence) (.contract .conflict "replay must preserve original evidence")
    pure existing

theorem ingestObservation_eq_ok {expected : InvestigationScope} {grant : SourceGrant}
    {registered_sources : Identifier → Option SourceKind} {evidence accepted : InvestigationEvidence}
    {now : Time} : ingestObservation expected grant registered_sources evidence now none = .ok accepted ↔
      evidence = accepted ∧ grant.toInvestigationScope = expected ∧
        evidence.toInvestigationScope = expected ∧ grant.source_id = evidence.source_id ∧
        registered_sources evidence.source_id = some (sourceKind evidence) ∧
        evidence.received_at ≤ now ∧ ∀ t ∈ evidence.revoked_at, t ≤ now := by
  simp only [ingestObservation, ok_iff, requireOrder_eq_ok, requireRegistered]
  tauto

/-- The application is bound if it has a fingerprint. -/
structure ConnectorEvidenceRecorder where
  scope : InvestigationScope
  registered_sources : Identifier → Option SourceKind
  subject : String
  fingerprint : Option String
  grants : Identifier → Option SourceGrant
  granted : ∃ source_id, (grants source_id).isSome = true
  filed : ∀ source_id grant, grants source_id = some grant →
    grant.source_id = source_id ∧ grant.toInvestigationScope = scope

/-- `RunScopedEvidenceRecorder._build`, without an application. -/
def unboundRecorder (scope : InvestigationScope) (subject : Identifier) (sources : CommerceSources) :
    ConnectorEvidenceRecorder where
  scope := scope
  registered_sources := registeredSourceKinds sources
  subject := subject.val
  fingerprint := none
  grants source_id := (registeredSourceKinds sources source_id).map fun _ => ⟨scope, subject, source_id⟩
  granted := ⟨sources.buyer_channel, by simp [registeredSourceKinds]⟩
  filed source_id grant h := by
    rw [Option.map_eq_some_iff] at h
    obtain ⟨kind, -, rfl⟩ := h
    exact ⟨rfl, rfl⟩

/-- The scope of the Run, the answer, and where its bytes are stored. -/
structure RecordCall where
  scope : CaseScope
  answer : ConnectorAnswer
  artifact : ArtifactReference

/-! ## The answers of the application -/

/-- The end of a call of the application, with its well-typed fields. -/
inductive EgmReply
  | error (code text : String)
  | envelope (operation_id : Option String) (revision : Option ℤ) (result_id : Option String)
  | other
deriving DecidableEq, Repr

def projectionError (code text : String) : Failure :=
  let mapped : ErrorCode :=
    if code = "busy" then .retryable
    else if code = "conflict" then .conflict
    else if code = "forbidden" then .forbidden
    else if code = "invalid" then .evidenceRejected
    else if code = "not_found" then .conflict
    else .retryable
  .contract mapped ("EGM projection failed: " ++ text)

/-- The node that `create_node` made. -/
def nodeId : EgmReply → Result String
  | .error code text => .error (projectionError code text)
  | .envelope _ _ (some node_id) => do
    require (node_id ≠ "") (.contract .conflict "EGM node creation returned no node id")
    pure node_id
  | .envelope _ _ none => .error (.contract .conflict "EGM node creation returned no node id")
  | .other => .error (.contract .conflict "EGM node creation returned no envelope")

def egmCaseRevision : EgmReply → Result ℤ
  | .error code text => .error (projectionError code text)
  | .envelope _ (some revision) _ => pure revision
  | _ => .error (.contract .conflict "EGM case info has no revision")

def egmProjectionResult (operation_id : String) (expected_revision : ℤ) : EgmReply → Result (ℤ × String)
  | .error code text => .error (projectionError code text)
  | .envelope reply_id (some revision) result_id => do
    require (reply_id = some operation_id ∧ expected_revision < revision)
      (.contract .conflict "EGM projection returned an invalid receipt")
    let egm_evidence_id ← fetch (result_id.filter (· ≠ ""))
      (.contract .conflict "EGM projection returned no evidence id")
    pure (revision, egm_evidence_id)
  | .envelope _ none _ => .error (.contract .conflict "EGM projection returned an invalid receipt")
  | .other => .error (.contract .conflict "EGM projection returned no envelope")

def projectionOperation [Hashing] (evidence_id : Identifier) : String :=
  "aftercare-investigation-evidence-" ++
    String.ofList ((Hashing.sha256 evidence_id.val).val.toList.take 32)

/-! ## The machine -/

/-- What a recording carries once the observation is in the ledger. -/
structure Projecting where
  accepted : InvestigationEvidence
  grant : SourceGrant
  fingerprint : String

/-- What a recording does next, with the values it has. -/
inductive Recording
  /-- Put the observation into the ledger. -/
  | persisting
  /-- Read the binding of the Case. -/
  | binding (work : Projecting)
  /-- Call `create_node`. -/
  | creating (work : Projecting)
  /-- Write the binding. -/
  | putting (work : Projecting) (node_id : String)
  /-- Read the projection. -/
  | projecting (work : Projecting) (node_id : String)
  /-- Call `case_info`. -/
  | revising (work : Projecting) (node_id : String)
  /-- Reserve the projection. -/
  | reserving (work : Projecting) (node_id : String) (revision : ℤ)
  /-- Call `ingest`. -/
  | ingesting (work : Projecting) (node_id : String) (projection : InvestigationEgmProjection)
      (attempt : ℕ)
  /-- Call `case_info` after a conflict. -/
  | rebasing (work : Projecting) (node_id : String) (projection : InvestigationEgmProjection)
  /-- Rebase the projection. -/
  | rewriting (work : Projecting) (node_id : String) (projection : InvestigationEgmProjection)
      (revision : ℤ)
  /-- Complete the projection. -/
  | completing (work : Projecting) (projection : InvestigationEgmProjection) (completed_revision : ℤ)
      (egm_evidence_id : String)
  | returned (accepted : InvestigationEvidence)
  | raised (failure : Failure)

/-- Go on with a value, or end with what was raised. -/
def orRaise {α : Type} (ledger : Ledger) (x : Result α) (next : α → Ledger × Recording) : Ledger × Recording :=
  match x with
  | .error failure => (ledger, .raised failure)
  | .ok a => next a

theorem orRaise_cases {α : Type} {ledger : Ledger} {x : Result α} {next : α → Ledger × Recording}
    {P : Ledger × Recording → Prop} (hraise : ∀ failure, P (ledger, .raised failure))
    (hnext : ∀ a, x = .ok a → P (next a)) : P (orRaise ledger x next) := by
  match x with
  | .error failure => exact hraise failure
  | .ok a => exact hnext a rfl

/-- A completed projection ends the recording, any other one is sent. -/
def Projecting.goOn (work : Projecting) (node_id : String) (projection : InvestigationEgmProjection)
    (attempt : ℕ) : Recording :=
  if projection.completed_revision ≠ none then .returned work.accepted
  else .ingesting work node_id projection attempt

namespace ConnectorEvidenceRecorder

variable [Hashing] (recorder : ConnectorEvidenceRecorder) (call : RecordCall)

/-- `__call__` up to the end of its transaction. -/
def persist (ledger : Ledger) (now : Time) : Result (Ledger × InvestigationEvidence × SourceGrant) := do
  require (call.scope = recorder.scope.caseScope)
    (.contract .forbidden "answer belongs to another case")
  let grant ← fetch (recorder.grants call.answer.source_id)
    (.contract .forbidden "answer source is not granted")
  let evidence ← evidenceFromAnswer call.answer recorder.scope call.artifact recorder.registered_sources
  let accepted ← ingestObservation recorder.scope grant recorder.registered_sources evidence now none
  let (ledger, accepted) ← putObservation ledger accepted recorder.scope
  pure (ledger, accepted, grant)

/-- The checks of `InvestigationEvidenceAdapter.ingest` before its call. -/
def ingestChecks (work : Projecting) : Result InvestigationEvidence := do
  require (work.grant.subject_id.val = recorder.subject) .value
  ingestObservation recorder.scope work.grant recorder.registered_sources work.accepted
    work.accepted.received_at none

/-- The answer of the application to an `ingest`. -/
def ingested (work : Projecting) (node_id : String) (projection : InvestigationEgmProjection)
    (attempt : ℕ) (ledger : Ledger) : EgmReply → Ledger × Recording
  | .error code text =>
    if code ≠ "conflict" ∨ attempt = 1 then (ledger, .raised (projectionError code text))
    else (ledger, .rebasing work node_id projection)
  | reply =>
    orRaise ledger (egmProjectionResult (projectionOperation work.accepted.evidence_id)
      projection.expected_revision reply) fun (revision, egm_evidence_id) =>
        (ledger, .completing work projection revision egm_evidence_id)

def step (now : Time) (reply : EgmReply) (ledger : Ledger) : Recording → Ledger × Recording
  | .persisting =>
    orRaise ledger (recorder.persist call ledger now) fun (ledger, accepted, grant) =>
      match recorder.fingerprint with
      | none => (ledger, .returned accepted)
      | some fingerprint => (ledger, .binding ⟨accepted, grant, fingerprint⟩)
  | .binding work =>
    orRaise ledger (getBinding ledger recorder.scope) fun
      | none => (ledger, .creating work)
      | some existing =>
        if existing.schema_fingerprint = work.fingerprint then
          (ledger, .projecting work existing.node_id)
        else (ledger, .raised (.contract .conflict "EGM schema fingerprint changed"))
  | .creating work => orRaise ledger (nodeId reply) fun node_id => (ledger, .putting work node_id)
  | .putting work node_id =>
    orRaise ledger (putBinding ledger
        { recorder.scope with node_id := node_id, schema_fingerprint := work.fingerprint })
      fun (ledger, existing) => (ledger, .projecting work existing.node_id)
  | .projecting work node_id =>
    orRaise ledger (getProjection ledger recorder.scope work.accepted.evidence_id) fun
      | none => (ledger, .revising work node_id)
      | some projection => (ledger, work.goOn node_id projection 0)
  | .revising work node_id =>
    orRaise ledger (egmCaseRevision reply) fun revision => (ledger, .reserving work node_id revision)
  | .reserving work node_id revision =>
    orRaise ledger (reserveProjection ledger recorder.scope work.accepted.evidence_id
        (projectionOperation work.accepted.evidence_id) revision)
      fun (ledger, projection) => (ledger, work.goOn node_id projection 0)
  | .ingesting work node_id projection attempt =>
    orRaise ledger (recorder.ingestChecks work) fun _ =>
      ingested work node_id projection attempt ledger reply
  | .rebasing work node_id projection =>
    orRaise ledger (egmCaseRevision reply) fun revision =>
      (ledger, .rewriting work node_id projection revision)
  | .rewriting work node_id projection revision =>
    orRaise ledger (rebaseProjection ledger recorder.scope work.accepted.evidence_id
        (projectionOperation work.accepted.evidence_id) projection.expected_revision revision)
      fun (ledger, projection) => (ledger, work.goOn node_id projection 1)
  | .completing work projection completed_revision egm_evidence_id =>
    orRaise ledger (completeProjection ledger recorder.scope work.accepted.evidence_id
        (projectionOperation work.accepted.evidence_id) projection.expected_revision completed_revision
        egm_evidence_id)
      fun (ledger, _) => (ledger, .returned work.accepted)
  | .returned accepted => (ledger, .returned accepted)
  | .raised failure => (ledger, .raised failure)

/-- A recording that is not overtaken, with its answers. -/
def run (now : Time) : List EgmReply → Ledger → Recording → Ledger × Recording
  | [], ledger, recording => (ledger, recording)
  | reply :: replies, ledger, recording =>
    let (ledger, recording) := recorder.step call now reply ledger recording
    run now replies ledger recording

variable {recorder call}

theorem persist_eq {ledger : Ledger} {now : Time} {grant : SourceGrant} {evidence : InvestigationEvidence}
    (hcase : call.scope = recorder.scope.caseScope) (hgrant : recorder.grants call.answer.source_id = some grant)
    (hderived : evidenceFromAnswer call.answer recorder.scope call.artifact recorder.registered_sources =
      .ok evidence) (hreceived : evidence.received_at ≤ now) :
    recorder.persist call ledger now = (do
      let (ledger, accepted) ← putObservation ledger evidence recorder.scope
      pure (ledger, accepted, grant)) := by
  have hfacts := evidenceFromAnswer_derived hderived
  obtain ⟨hsource, hscope⟩ := recorder.filed _ grant hgrant
  have hchecked : ingestObservation recorder.scope grant recorder.registered_sources evidence now none =
      .ok evidence := by
    refine ingestObservation_eq_ok.mpr ⟨rfl, hscope, hfacts.scope_eq, ?_,
      evidenceFromAnswer_registered hderived, hreceived, by simp [hfacts.revoked_at]⟩
    rw [hsource, hfacts.source_id]
  simp only [persist, require, hcase, if_true, ok_bind, fetch, hgrant, hderived, hchecked]

theorem persist_put {ledger ledger' : Ledger} {now : Time} {accepted : InvestigationEvidence}
    {grant : SourceGrant} (h : recorder.persist call ledger now = .ok (ledger', accepted, grant)) :
    call.scope = recorder.scope.caseScope ∧ recorder.grants call.answer.source_id = some grant ∧
      evidenceFromAnswer call.answer recorder.scope call.artifact recorder.registered_sources =
        .ok accepted ∧ accepted.received_at ≤ now ∧ Put ledger accepted ledger' := by
  simp only [persist, ok_iff, ingestObservation_eq_ok, Prod.exists] at h
  obtain ⟨hcase, granted, hgrant, evidence, hderived, checked,
    ⟨rfl, -, -, -, -, hreceived, -⟩, written, stored, hput, rfl, rfl, rfl⟩ := h
  obtain ⟨rfl, -, hput⟩ := putObservation_eq_ok hput
  exact ⟨hcase, hgrant, hderived, hreceived, hput⟩

end ConnectorEvidenceRecorder

end Aftercare.Investigation
