import Aftercare.Domain.Runtime

/-!
# Review decisions and strategy migrations

The contracts of `domain/reviews.py` and `domain/strategy_migrations.py`.
-/

namespace Aftercare

open Relational

inductive ReviewDecision
  | continue
  | cancel
deriving DecidableEq, Repr

structure ReviewRequest extends RunScope where
  (review_id reason_code : Identifier)
  evidence_sha256 : Sha256
  (policy_version requested_by : Identifier)
  input_version : PositiveInt
deriving DecidableEq, Repr

def maxOverrideDeadlineExtensionSeconds : ℕ := 7 * 24 * 60 * 60

structure Reason where
  val : String
  valid : 1 ≤ val.length ∧ val.length ≤ 2000
deriving DecidableEq, Repr

/-- `ReviewOverrideRequest`, with its `has_effect` validator. -/
structure ReviewOverrideRequest where
  checkpoint_version : PositiveInt
  (model_calls_add tool_calls_add cost_microusd_add deadline_extension_seconds : ℕ)
  reason : Reason
  adds_le : model_calls_add ≤ maxInt ∧ tool_calls_add ≤ maxInt ∧ cost_microusd_add ≤ maxInt
  extension_le : deadline_extension_seconds ≤ maxOverrideDeadlineExtensionSeconds
  has_effect : 0 < model_calls_add ∨ 0 < tool_calls_add ∨ 0 < cost_microusd_add ∨
    0 < deadline_extension_seconds
deriving DecidableEq

/-- A row of `aftercare_review_overrides`. -/
structure ReviewOverrideRecord extends RunScope where
  (review_id override_id : Identifier)
  checkpoint_version : PositiveInt
  (model_calls_add tool_calls_add cost_microusd_add deadline_extension_seconds : ℕ)
  reason : Reason
  (created_by idempotency_key : Identifier)
  created_at : Time
deriving DecidableEq, Repr

/-- `ReviewRecord`, and a row of `aftercare_reviews`. -/
structure ReviewRecord extends ReviewRequest where
  decision : Option ReviewDecision
  (reviewer decision_idempotency_key : Option Identifier)
  decision_reason : Option String
  created_at : Time
  decided_at : Option Time
  updated_at : Time
deriving DecidableEq, Repr

def ReviewRecord.check (r : ReviewRecord) : Bool :=
  ((r.decision.isNone && r.reviewer.isNone && r.decision_idempotency_key.isNone && r.decided_at.isNone) ||
    (r.decision.isSome && r.reviewer.isSome && r.decision_idempotency_key.isSome && r.decided_at.isSome)) &&
    (r.decision.isSome || r.decision_reason.isNone)

/-- `_record` of the review repository. -/
def ReviewRecord.record (r : ReviewRecord) : Result ReviewRecord := do
  require (r.check = true ∧ maxLength 2000 r.decision_reason = true) (.validation "ReviewRecord")
  pure r

structure StrategyMigrationRequest extends RunScope where
  checkpoint_version : PositiveInt
  (old_strategy_id old_model_config_version old_policy_version old_tool_schema_version : Identifier)
  (new_strategy_id new_model_config_version new_policy_version new_tool_schema_version : Identifier)
  reason : Reason
  idempotency_key : Identifier
deriving DecidableEq, Repr

/-- A row of `aftercare_strategy_migrations`. -/
structure StrategyMigrationRecord extends RunScope where
  migration_id : Identifier
  (checkpoint_version_before checkpoint_version_after : PositiveInt)
  (old_strategy_id old_model_config_version old_policy_version old_tool_schema_version : Identifier)
  (new_strategy_id new_model_config_version new_policy_version new_tool_schema_version : Identifier)
  reason : Reason
  (migrated_by idempotency_key : Identifier)
  created_at : Time
deriving DecidableEq, Repr

/-- The constraints of migration 022 on a strategy migration. -/
def StrategyMigrationRecord.check (m : StrategyMigrationRecord) : Bool :=
  decide (m.checkpoint_version_before.val < m.checkpoint_version_after.val) &&
    (m.old_strategy_id != m.new_strategy_id || m.old_model_config_version != m.new_model_config_version ||
      m.old_policy_version != m.new_policy_version ||
      m.old_tool_schema_version != m.new_tool_schema_version)

end Aftercare
