import Mathlib.Data.List.Sort
import Mathlib.Data.Rat.Defs
import Mathlib.Data.String.Basic
import Aftercare.Domain.Common

/-!
# Investigation contracts and the deterministic evidence gate

The records and gates of `domain/investigation.py`. `assessInvestigation` scans the whole ledger in the order of
the evidence ids (`scan`), decides each proposed claim (`decideClaim`), and derives the missing material, the
conflicts and the disposition. The dictionaries of the scan are association lists in insertion order.
-/

namespace Aftercare.Investigation

open Relational

instance : LE Identifier := ⟨fun a b => a.val ≤ b.val⟩

instance (a b : Identifier) : Decidable (a ≤ b) := inferInstanceAs (Decidable (a.val ≤ b.val))

/-! ## Records -/

structure InvestigationScope where
  (tenant_id case_id order_id : Identifier)
deriving DecidableEq, Repr

inductive SourceKind
  | orderLedger
  | carrier
  | buyerChannel
deriving DecidableEq, Repr

structure OriginalReference where
  artifact_id : Identifier
  sha256 : Sha256
  excerpt : String
  excerpt_length : 1 ≤ excerpt.length ∧ excerpt.length ≤ 4096
deriving DecidableEq, Repr

/-- `Observation`, with its `chronological` validator. -/
structure Observation extends InvestigationScope where
  (evidence_id source_id source_event_id : Identifier)
  (observed_at received_at : Time)
  original : OriginalReference
  revoked_at : Option Time
  chronological : observed_at ≤ received_at ∧ ∀ t ∈ revoked_at, received_at ≤ t
deriving DecidableEq, Repr

inductive DeliveryStatus
  | inTransit
  | delivered
  | unknown
deriving DecidableEq, Repr

inductive BuyerAssertion
  | notReceived
  | received
  | unclear
deriving DecidableEq, Repr

/-- The field that each kind of observation adds. -/
inductive EvidenceDetails
  | orderSnapshot
  | logisticsObservation (delivery_status : DeliveryStatus)
  | buyerStatement (assertion : BuyerAssertion)
deriving DecidableEq, Repr

/-- The union of the three kinds of observation. -/
structure InvestigationEvidence extends Observation where
  details : EvidenceDetails
deriving DecidableEq, Repr

def InvestigationEvidence.source_event (evidence : InvestigationEvidence) : Identifier × Identifier :=
  (evidence.source_id, evidence.source_event_id)

structure FreshnessPolicy where
  policy_id : Identifier
  (policy_version order_max_age_seconds carrier_max_age_seconds buyer_max_age_seconds : PositiveInt)
deriving DecidableEq, Repr

def FreshnessPolicy.maxAge (policy : FreshnessPolicy) : SourceKind → ℕ
  | .orderLedger => policy.order_max_age_seconds.val
  | .carrier => policy.carrier_max_age_seconds.val
  | .buyerChannel => policy.buyer_max_age_seconds.val

inductive InvestigationClaim
  | orderRecorded
  | carrierReportedDelivered
  | carrierReportedInTransit
  | buyerReportedNotReceived
  | buyerReportedReceived
deriving DecidableEq, Repr

/-- `ClaimProposal`, with its `unique_references` validator. -/
structure ClaimProposal where
  claim : InvestigationClaim
  evidence_refs : List Identifier
  refs_length : 1 ≤ evidence_refs.length ∧ evidence_refs.length ≤ 32
  unique_references : evidence_refs.Nodup
deriving DecidableEq, Repr

/-- `InvestigationProposal`, with its `unique_claims` validator. -/
structure InvestigationProposal where
  claims : List ClaimProposal
  claims_length : 1 ≤ claims.length ∧ claims.length ≤ 16
  unique_claims : (claims.map ClaimProposal.claim).Nodup
deriving DecidableEq, Repr

inductive EvidenceIssue
  | future
  | stale
  | revoked
  | unknownReference
  | claimNotSupported
deriving DecidableEq, Repr

structure RejectedReference where
  evidence_id : Identifier
  reason : EvidenceIssue
deriving DecidableEq, Repr

structure Citation where
  (evidence_id source_id : Identifier)
  (observed_at received_at : Time)
  original : OriginalReference
deriving DecidableEq, Repr

structure ClaimDecision where
  claim : InvestigationClaim
  accepted : Bool
  citations : List Citation
  rejected : List RejectedReference
deriving DecidableEq, Repr

inductive MissingMaterial
  | orderSnapshot
  | carrierObservation
  | buyerStatement
  | clearCarrierStatus
  | clearBuyerStatement
deriving DecidableEq, Repr

inductive ConflictKind
  | carrierBuyerDisagreement
  | buyerStatementsDisagree
deriving DecidableEq, Repr

structure EvidenceConflict where
  kind : ConflictKind
  evidence_refs : List Identifier
deriving DecidableEq, Repr

inductive InvestigationDisposition
  | needsMaterial
  | humanReview
  | recommendationReady
deriving DecidableEq, Repr

/-- `InvestigationAssessment`, whose flags of authority are always `False`. -/
structure InvestigationAssessment extends InvestigationScope where
  policy_id : Identifier
  policy_version : PositiveInt
  evaluated_at : Time
  disposition : InvestigationDisposition
  decisions : List ClaimDecision
  missing : List MissingMaterial
  conflicts : List EvidenceConflict
  unavailable : List RejectedReference
deriving DecidableEq, Repr

/-! ## Gates on one observation -/

def sourceKind (evidence : InvestigationEvidence) : SourceKind :=
  match evidence.details with
  | .orderSnapshot => .orderLedger
  | .logisticsObservation _ => .carrier
  | .buyerStatement _ => .buyerChannel

/-- The kind of the source of these details. -/
def EvidenceDetails.kind : EvidenceDetails → SourceKind
  | .orderSnapshot => .orderLedger
  | .logisticsObservation _ => .carrier
  | .buyerStatement _ => .buyerChannel

/-- `_require_order`, over `require_same_case`. -/
def requireOrder (expected actual : InvestigationScope) : Result Unit := do
  require ((expected.tenant_id, expected.case_id) = (actual.tenant_id, actual.case_id))
    (.contract .forbidden "case scope mismatch")
  require (expected.order_id = actual.order_id) (.contract .forbidden "order scope mismatch")

def requireRegistered (evidence : InvestigationEvidence)
    (registered_sources : Identifier → Option SourceKind) : Result Unit :=
  require (registered_sources evidence.source_id = some (sourceKind evidence))
    (.contract .forbidden "source has no registered capability")

/-- The double nearest to `n / 10^6`, ties to even. -/
def nearestSeconds (n : ℕ) : ℚ :=
  -- `m - 20` is the binary logarithm of the quotient, at least `2^-20` when `n` is not zero.
  let m := Nat.log2 (n * 2 ^ 20 / 10 ^ 6)
  let k := 72 - m
  let q : ℕ := n * 2 ^ k / 10 ^ 6
  let r : ℕ := n * 2 ^ k % 10 ^ 6
  let rounded : ℕ := if 10 ^ 6 < 2 * r ∨ (2 * r = 10 ^ 6 ∧ q % 2 = 1) then q + 1 else q
  (rounded : ℚ) / ((2 ^ k : ℕ) : ℚ)

/-- `timedelta.total_seconds()` of microseconds, rounded to a double. -/
def totalSeconds (duration : ℤ) : ℚ :=
  if duration < 0 then -nearestSeconds duration.natAbs else nearestSeconds duration.natAbs

def evidenceIssue (evidence : InvestigationEvidence) (policy : FreshnessPolicy) (now : Time) :
    Option EvidenceIssue :=
  if evidence.received_at > now ∨ ∃ t ∈ evidence.revoked_at, t > now then some .future
  else if evidence.revoked_at.isSome then some .revoked
  else if totalSeconds (now - evidence.observed_at) > policy.maxAge (sourceKind evidence) then
    some .stale
  else none

def supportedClaim (evidence : InvestigationEvidence) : Option InvestigationClaim :=
  match evidence.details with
  | .orderSnapshot => some .orderRecorded
  | .logisticsObservation .delivered => some .carrierReportedDelivered
  | .logisticsObservation .inTransit => some .carrierReportedInTransit
  | .logisticsObservation .unknown => none
  | .buyerStatement .notReceived => some .buyerReportedNotReceived
  | .buyerStatement .received => some .buyerReportedReceived
  | .buyerStatement .unclear => none

/-! ## The scan of the ledger -/

structure Scan where
  evidence_by_id : List (Identifier × InvestigationEvidence)
  source_events : List (Identifier × Identifier)
  unavailable : List (Identifier × EvidenceIssue)
  claims : InvestigationClaim → List Identifier
  available_kinds : List SourceKind

def Scan.init : Scan := ⟨[], [], [], fun _ => [], []⟩

/-- `claims.setdefault(claim, []).append(evidence_id)`. -/
def addClaim (claims : InvestigationClaim → List Identifier) (claim : Option InvestigationClaim)
    (evidence_id : Identifier) : InvestigationClaim → List Identifier :=
  fun c => if claim = some c then claims c ++ [evidence_id] else claims c

/-- One iteration of the scan. -/
def Scan.add (s : Scan) (evidence : InvestigationEvidence) (policy : FreshnessPolicy) (now : Time) : Scan :=
  let recorded := { s with
    source_events := s.source_events ++ [evidence.source_event]
    evidence_by_id := s.evidence_by_id ++ [(evidence.evidence_id, evidence)] }
  match evidenceIssue evidence policy now with
  | some issue =>
    { recorded with unavailable := s.unavailable ++ [(evidence.evidence_id, issue)] }
  | none =>
    { recorded with
      available_kinds := sourceKind evidence :: s.available_kinds
      claims := addClaim s.claims (supportedClaim evidence) evidence.evidence_id }

def scan (expected : InvestigationScope) (registered_sources : Identifier → Option SourceKind)
    (policy : FreshnessPolicy) (now : Time) : Scan → List InvestigationEvidence → Result Scan
  | s, [] => pure s
  | s, evidence :: rest => do
    requireOrder expected evidence.toInvestigationScope
    requireRegistered evidence registered_sources
    require (s.evidence_by_id.lookup evidence.evidence_id = none)
      (.contract .conflict "duplicate ledger evidence ID")
    require (evidence.source_event ∉ s.source_events)
      (.contract .conflict "source event has multiple evidence IDs")
    scan expected registered_sources policy now (s.add evidence policy now) rest

/-- `sorted(observations, key=lambda item: item.evidence_id)`. -/
def sortById (observations : List InvestigationEvidence) : List InvestigationEvidence :=
  observations.insertionSort fun a b => a.evidence_id ≤ b.evidence_id

/-! ## The decisions on a proposal -/

/-- Why a cited reference fails for a claim, if it does. -/
def referenceReason (s : Scan) (claim : InvestigationClaim) (ref : Identifier) : Option EvidenceIssue :=
  match s.evidence_by_id.lookup ref with
  | none => some .unknownReference
  | some observed =>
    match s.unavailable.lookup ref with
    | some reason => some reason
    | none => if supportedClaim observed ≠ some claim then some .claimNotSupported else none

def cite (ref : Identifier) (observed : InvestigationEvidence) : Citation where
  evidence_id := ref
  source_id := observed.source_id
  observed_at := observed.observed_at
  received_at := observed.received_at
  original := observed.original

def decideClaim (s : Scan) (selected : ClaimProposal) : ClaimDecision :=
  let refs := selected.evidence_refs.insertionSort (· ≤ ·)
  let rejected := refs.filterMap fun ref =>
    (referenceReason s selected.claim ref).map fun reason => ⟨ref, reason⟩
  let citations := refs.filterMap fun ref =>
    match referenceReason s selected.claim ref with
    | some _ => none
    | none => (s.evidence_by_id.lookup ref).map (cite ref)
  ⟨selected.claim, rejected.isEmpty, citations, rejected⟩

/-! ## The assessment -/

/-- The missing material, from the available kinds and claims. -/
def missingMaterial (s : Scan) : List MissingMaterial :=
  let kinds := [(SourceKind.orderLedger, MissingMaterial.orderSnapshot),
    (.carrier, .carrierObservation), (.buyerChannel, .buyerStatement)].filterMap
      fun (kind, material) => if kind ∉ s.available_kinds then some material else none
  let carrier := if SourceKind.carrier ∈ s.available_kinds ∧
      ¬(s.claims .carrierReportedDelivered ≠ [] ∨ s.claims .carrierReportedInTransit ≠ []) then
    [MissingMaterial.clearCarrierStatus] else []
  let buyer := if SourceKind.buyerChannel ∈ s.available_kinds ∧
      ¬(s.claims .buyerReportedNotReceived ≠ [] ∨ s.claims .buyerReportedReceived ≠ []) then
    [MissingMaterial.clearBuyerStatement] else []
  kinds ++ carrier ++ buyer

def conflictPairs : List (InvestigationClaim × InvestigationClaim × ConflictKind) :=
  [(.carrierReportedDelivered, .buyerReportedNotReceived, .carrierBuyerDisagreement),
    (.buyerReportedReceived, .buyerReportedNotReceived, .buyerStatementsDisagree)]

def evidenceConflicts (s : Scan) : List EvidenceConflict :=
  conflictPairs.filterMap fun (left, right, kind) =>
    if s.claims left ≠ [] ∧ s.claims right ≠ [] then
      some ⟨kind, (s.claims left ++ s.claims right).insertionSort (· ≤ ·)⟩
    else none

/-- Missing material, overridden by a conflict or a refused claim. -/
def dispositionOf (missing : List MissingMaterial) (conflicts : List EvidenceConflict)
    (decisions : List ClaimDecision) : InvestigationDisposition :=
  if conflicts ≠ [] ∨ decisions.any (fun decision => !decision.accepted) then .humanReview
  else if missing ≠ [] then .needsMaterial
  else .recommendationReady

/-- `assess_investigation` after its scan. -/
def conclude (expected : InvestigationScope) (proposal : InvestigationProposal)
    (policy : FreshnessPolicy) (now : Time) (s : Scan) : InvestigationAssessment :=
  let decisions := proposal.claims.map (decideClaim s)
  { expected with
    policy_id := policy.policy_id
    policy_version := policy.policy_version
    evaluated_at := now
    disposition := dispositionOf (missingMaterial s) (evidenceConflicts s) decisions
    decisions := decisions
    missing := missingMaterial s
    conflicts := evidenceConflicts s
    unavailable := s.unavailable.map fun (ref, reason) => ⟨ref, reason⟩ }

def assessInvestigation (expected : InvestigationScope) (proposal : InvestigationProposal)
    (observations : List InvestigationEvidence) (registered_sources : Identifier → Option SourceKind)
    (policy : FreshnessPolicy) (now : Time) : Result InvestigationAssessment := do
  let s ← scan expected registered_sources policy now .init (sortById observations)
  pure (conclude expected proposal policy now s)

end Aftercare.Investigation
