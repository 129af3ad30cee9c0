import Aftercare.Domain.Approvals
import Aftercare.Domain.Grants
import Aftercare.Domain.Reviews
import Aftercare.Domain.Protocol

/-!
# Case events

The contracts of `domain/events.py`. A draft carries the proof of its `coherent_draft` validator, and
an event is a draft with its position in the case. A gate event also has a `Snapshot`, the record that
was true at the transition; equal snapshots stand for equal JSON documents. `Hashing` names the digests
that the program computes.
-/

namespace Aftercare

open Relational

inductive EventType
  | caseOpened
  | inputReceived
  | runStateChanged
  | waitResolved
  | investigationProposed
  | approvalRequested
  | approvalDecided
  | approvalExpired
  | reviewRequested
  | reviewDecided
  | reviewStrategyMigrated
  | caseGrantGranted
  | caseGrantRevoked
deriving DecidableEq, Repr

def EventType.needsRun : EventType → Bool
  | .runStateChanged | .waitResolved | .investigationProposed | .reviewRequested
  | .reviewDecided | .reviewStrategyMigrated => true
  | _ => false

/-- `DomainEventDraft`, with its `coherent_draft` validator. -/
structure DomainEventDraft extends CaseScope where
  event_id : Identifier
  event_type : EventType
  payload : ArtifactReference
  run_id : Option Identifier
  correlation_id : Identifier
  causation_id : Option Identifier
  recorded_at : Time
  coherent_draft : payload.toCaseScope = toCaseScope ∧ (event_type.needsRun → run_id.isSome)
deriving DecidableEq

structure DomainEvent extends DomainEventDraft where
  case_seq : PositiveInt
deriving DecidableEq

def DomainEvent.key (e : DomainEvent) : Identifier × Identifier := (e.tenant_id, e.event_id)

structure ProjectionPosition extends CaseScope where
  consumer_id : Identifier
  last_case_seq : ℕ
deriving DecidableEq, Repr

inductive ProjectionDecision
  | apply
  | bufferGap
  | replay
deriving DecidableEq, Repr

def projectionDecision (position : ProjectionPosition) (incoming : DomainEvent)
    (applied_at_sequence : Option DomainEvent) : Result ProjectionDecision := do
  require ((position.tenant_id, position.case_id) = (incoming.tenant_id, incoming.case_id))
    (.contract .forbidden "case scope mismatch")
  if incoming.case_seq.val ≤ position.last_case_seq then do
    require (applied_at_sequence = some incoming)
      (.contract .conflict "sequence occupied by a different event")
    pure .replay
  else do
    require (applied_at_sequence = none)
      (.contract .conflict "projection position and applied index disagree")
    if incoming.case_seq.val ≠ position.last_case_seq + 1 then pure .bufferGap else pure .apply

inductive Snapshot
  | approval (record : ApprovalRecord)
  | review (record : ReviewRecord) (override : Option ReviewOverrideRecord)
  | migration (record : StrategyMigrationRecord)
  | grant (record : CaseGrantRecord)
  /-- Any other document, as its canonical text. -/
  | document (text : String)
deriving DecidableEq, Repr

/-- The digests of `hashlib.sha256` that the program computes. -/
class Hashing where
  /-- `EventRepository._snapshot_sha256`. -/
  snapshotSha256 : Snapshot → Sha256
  /-- `_decision_payload_sha256` of an approval. -/
  decisionPayloadSha256 :
    Identifier → ApprovalDecision → Identifier → Option String → Sha256
  /-- `admission_digest`. -/
  admissionDigest : AdmissionKey → OpenCaseInput → Sha256
  /-- The digest of a text. -/
  sha256 : String → Sha256

end Aftercare
