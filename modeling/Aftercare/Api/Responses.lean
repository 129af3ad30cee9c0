import Aftercare.Persistence.Grants
import Aftercare.Persistence.Reads

/-!
# Requests and responses of the API

The bodies that the case-scoped routes of `api/app.py` accept, each with the bounds that its model
validates, and the projections in which they show records. The tenant, the hashes and the bindings of a
record stay inside the program.
-/

namespace Aftercare

open Relational

/-! ## Bodies -/

/-- `ReviewOverrideInput`, with its `has_effect` validator. -/
structure ReviewOverrideInput where
  (checkpoint_version model_calls_add tool_calls_add cost_microusd_add deadline_extension_seconds : ℕ)
  reason : Reason
  version_pos : 1 ≤ checkpoint_version
  extension_le : deadline_extension_seconds ≤ maxOverrideDeadlineExtensionSeconds
  has_effect : 0 < model_calls_add ∨ 0 < tool_calls_add ∨ 0 < cost_microusd_add ∨
    0 < deadline_extension_seconds

/-- The `ReviewOverrideRequest` of an input, with its upper bounds. -/
def ReviewOverrideInput.request (input : ReviewOverrideInput) : Result ReviewOverrideRequest := do
  let checkpoint_version ← positiveInt "ReviewOverrideRequest" input.checkpoint_version
  if h : input.model_calls_add ≤ maxInt ∧ input.tool_calls_add ≤ maxInt ∧
      input.cost_microusd_add ≤ maxInt then
    pure
      { checkpoint_version := checkpoint_version, model_calls_add := input.model_calls_add
        tool_calls_add := input.tool_calls_add, cost_microusd_add := input.cost_microusd_add
        deadline_extension_seconds := input.deadline_extension_seconds, reason := input.reason
        adds_le := h, extension_le := input.extension_le, has_effect := input.has_effect }
  else .error (.validation "ReviewOverrideRequest")

structure ReviewDecisionInput where
  decision : ReviewDecision
  decision_reason : Option String
  override : Option ReviewOverrideInput
  reason_le : maxLength 2000 decision_reason = true

structure StrategyMigrationInput where
  checkpoint_version : ℕ
  (old_strategy_id old_model_config_version old_policy_version old_tool_schema_version : Identifier)
  (new_strategy_id new_model_config_version new_policy_version new_tool_schema_version : Identifier)
  reason : Reason
  version_pos : 1 ≤ checkpoint_version

/-- The `StrategyMigrationRequest` of an input. -/
def StrategyMigrationInput.request (input : StrategyMigrationInput) (scope : RunScope)
    (idempotency_key : Identifier) : Result StrategyMigrationRequest := do
  let checkpoint_version ← positiveInt "StrategyMigrationRequest" input.checkpoint_version
  pure
    { toRunScope := scope, checkpoint_version := checkpoint_version
      old_strategy_id := input.old_strategy_id
      old_model_config_version := input.old_model_config_version
      old_policy_version := input.old_policy_version
      old_tool_schema_version := input.old_tool_schema_version
      new_strategy_id := input.new_strategy_id
      new_model_config_version := input.new_model_config_version
      new_policy_version := input.new_policy_version
      new_tool_schema_version := input.new_tool_schema_version
      reason := input.reason, idempotency_key := idempotency_key }

structure ApprovalDecisionInput where
  decision : ApprovalVerdict
  decision_reason : Option String
  reason_le : maxLength 2000 decision_reason = true

structure CaseGrantInput where
  subject_id : Identifier
  permissions : List Identifier
  expires_at : Option Datetime
  expected_revision : Option ℕ
  count : 1 ≤ permissions.length ∧ permissions.length ≤ 16
  revision_pos : ∀ revision ∈ expected_revision, 1 ≤ revision

structure CaseGrantRevokeInput where
  expected_revision : ℕ
  revision_pos : 1 ≤ expected_revision

def maxPageSize : ℕ := 200

/-- A `limit` of a list. -/
abbrev PageSize := { n : ℕ // 1 ≤ n ∧ n ≤ maxPageSize }

/-- The query of an event stream; an infinite wait is `none`. -/
structure StreamInput where
  after : ℤ
  last_event_id : Option (Option ℤ)
  limit : ℤ
  follow : Bool
  wait_seconds : Option Rat

/-! ## Projections -/

structure ReviewOperatorResponse where
  (review_id case_id run_id reason_code : Identifier)
  decision : Option ReviewDecision
  actor : Option Identifier
  decision_reason : Option String
  created_at : Time
  decided_at : Option Time
  updated_at : Time
deriving DecidableEq, Repr

def reviewProjection (record : ReviewRecord) : ReviewOperatorResponse :=
  { record with actor := record.reviewer }

structure StrategyMigrationResponse where
  (migration_id case_id run_id : Identifier)
  (checkpoint_version_before checkpoint_version_after : PositiveInt)
  (old_strategy_id old_model_config_version old_policy_version old_tool_schema_version : Identifier)
  (new_strategy_id new_model_config_version new_policy_version new_tool_schema_version : Identifier)
  reason : Reason
  (migrated_by idempotency_key : Identifier)
  created_at : Time
deriving DecidableEq, Repr

def strategyMigrationProjection (record : StrategyMigrationRecord) : StrategyMigrationResponse :=
  { record with }

structure ApprovalOperatorResponse where
  (approval_id case_id : Identifier)
  run_id : Option Identifier
  action_id : Identifier
  decision : ApprovalDecision
  actor : Option Identifier
  decision_reason : Option String
  (expires_at created_at : Time)
  decided_at : Option Time
  updated_at : Time
deriving DecidableEq, Repr

def approvalProjection (record : ApprovalRecord) : ApprovalOperatorResponse :=
  { record with run_id := record.binding.map (·.run_id), actor := record.approver }

structure CaseGrantResponse where
  (case_id subject_id : Identifier)
  permissions : List Identifier
  revision : ℕ
  granted_by : Identifier
  granted_at : Time
  (expires_at revoked_at : Option Time)
  revoked_by : Option Identifier
  updated_at : Time
deriving DecidableEq, Repr

def grantProjection (record : CaseGrantRecord) : CaseGrantResponse :=
  { record with permissions := sortedSet record.permissions }

structure CaseGrantListResponse where
  grants : List CaseGrantResponse
  delegable : List Identifier
  can_administer : Bool
deriving DecidableEq, Repr

structure RunSummaryResponse where
  run_id : Identifier
  state : RunState
  input_version : PositiveInt
  wait_id : Option Identifier
  wait_generation : Option ℕ
  (available_at lease_until : Option Time)
  route_reason : Option RouteReason
deriving DecidableEq, Repr

def runSummary (run : RunRecord) (checkpoint : Option Checkpoint) : RunSummaryResponse :=
  { run with
    route_reason := do
      let c ← checkpoint
      if c.run_id = run.run_id ∧ (run.state = .review ∨ run.state = .retryAt) then c.route_reason
      else none }

/-- `CaseDetailResponse`, without the time of creation. -/
structure CaseDetailResponse where
  (case_id order_id : Identifier)
  status : CaseStatus
  version : ℕ
  permissions : List Identifier
  runs : List RunSummaryResponse
deriving DecidableEq, Repr

structure CaseResponse where
  (case_id session_id run_id : Identifier)
  replayed : Bool
deriving DecidableEq, Repr

inductive Response
  | opened (response : CaseResponse)
  | run (response : RunSummaryResponse)
  | case (response : CaseDetailResponse)
  | reviews (responses : List ReviewOperatorResponse)
  | review (response : ReviewOperatorResponse)
  | approvals (responses : List ApprovalOperatorResponse)
  | approval (response : ApprovalOperatorResponse)
  | migration (response : StrategyMigrationResponse)
  | grants (response : CaseGrantListResponse)
  | grant (response : CaseGrantResponse)
  /-- A `StreamingResponse` that has the given events to offer. -/
  | stream (events : List DomainEvent)
  /-- One event of a stream. -/
  | event (event : DomainEvent)

/-- The `HTTPException` of a failure: a status, and a code as its detail. -/
structure HttpError where
  status_code : ℕ
  detail : Option ErrorCode
deriving DecidableEq, Repr

/-- `_error`; a failure that is no contract violation is a server error. -/
def Failure.http : Failure → HttpError
  | .contract code _ =>
    { status_code :=
        match code with
        | .unauthenticated => 401
        | .forbidden => 403
        | .conflict => 409
        | .retryable => 503
        | _ => 400
      detail := some code }
  | _ => ⟨500, none⟩

end Aftercare
