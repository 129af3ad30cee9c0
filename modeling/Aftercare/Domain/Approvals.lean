import Aftercare.Domain.Runtime

/-!
# Approval decisions

The contracts of `domain/approvals.py`. The optional binding of a request to a wait is given whole or
not at all (`coherent_wait_binding`), so it is one optional field.
-/

namespace Aftercare

open Relational

structure WaitBinding where
  (run_id wait_id : Identifier)
  wait_generation : PositiveInt
deriving DecidableEq, Repr

structure ApprovalRequest extends CaseScope where
  (approval_id action_id : Identifier)
  action_parameters_sha256 : Sha256
  (policy_version requested_by : Identifier)
  expires_at : Time
  binding : Option WaitBinding
deriving DecidableEq, Repr

inductive ApprovalDecision
  | pending
  | approved
  | rejected
  | expired
  | cancelled
deriving DecidableEq, Repr

/-- The decisions that `decide` takes. -/
inductive ApprovalVerdict
  | approved
  | rejected
deriving DecidableEq, Repr

def ApprovalVerdict.decision : ApprovalVerdict → ApprovalDecision
  | .approved => .approved
  | .rejected => .rejected

/-- `ApprovalRecord`, and a row of `aftercare_approvals`. -/
structure ApprovalRecord extends ApprovalRequest where
  decision : ApprovalDecision
  (approver decision_idempotency_key : Option Identifier)
  decision_reason : Option String
  created_at : Time
  decided_at : Option Time
  updated_at : Time
deriving DecidableEq, Repr

/-- The constraints of migrations 010 and 011 on an approval. -/
def ApprovalRecord.check (a : ApprovalRecord) : Bool :=
  decide (a.created_at < a.expires_at) &&
    (a.decision == .pending) ==
      (a.approver.isNone && a.decision_idempotency_key.isNone && a.decided_at.isNone) &&
    (a.decision != .pending || a.decision_reason.isNone)

/-- `ApprovalRecord.coherent_decision`, with the length of the reason. -/
def ApprovalRecord.coherentDecision (a : ApprovalRecord) : Bool :=
  (a.decision != .pending) == a.decided_at.isSome &&
    (a.decision != .pending) == a.approver.isSome &&
    (a.decision != .pending) == a.decision_idempotency_key.isSome &&
    maxLength 2000 a.decision_reason

/-- `_record` of the approval repository. -/
def ApprovalRecord.record (a : ApprovalRecord) : Result ApprovalRecord := do
  require (a.coherentDecision = true) (.validation "ApprovalRecord")
  pure a

theorem ApprovalRecord.record_eq_ok {a b : ApprovalRecord} : a.record = .ok b ↔ a.coherentDecision = true ∧ a = b := by
  simp only [ApprovalRecord.record, ok_iff]

def assertApprovalUsable (approval : ApprovalRecord) (tenant_id case_id action_id : Identifier)
    (action_parameters_sha256 : Sha256) (policy_version : Identifier) (db_now : Time) : Result Unit := do
  require ((approval.tenant_id, approval.case_id, approval.action_id) =
    (tenant_id, case_id, action_id)) (.contract .forbidden "approval scope does not match action")
  require (approval.action_parameters_sha256 = action_parameters_sha256)
    (.contract .conflict "approval parameters changed")
  require (approval.policy_version = policy_version)
    (.contract .conflict "approval policy version changed")
  require (approval.decision = .approved) (.contract .forbidden "action is not approved")
  require (db_now < approval.expires_at) (.contract .forbidden "approval has expired")

end Aftercare
