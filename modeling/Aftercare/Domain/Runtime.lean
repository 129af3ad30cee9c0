import Aftercare.Domain.Common

/-!
# Runtime records and pure guards

The records of `domain/runtime.py`. A `RunRow` has the columns of a Run as they are stored, and a `RunRecord` is
a row that passes the validator, `RunRow.coherentState`. The constraints of the database are weaker
(`RunRow.check`), so a row that is read back is validated again.
-/

namespace Aftercare

open Relational

structure CaseScope where
  (tenant_id case_id : Identifier)
deriving DecidableEq, Repr

structure RunScope extends CaseScope where
  run_id : Identifier
deriving DecidableEq, Repr

/-- The primary key of a Run. -/
abbrev RunKey := Identifier × Identifier

def RunScope.key (scope : RunScope) : RunKey := (scope.tenant_id, scope.run_id)

/-! ## Cases and sessions -/

/-- `CaseRecord.status`. -/
inductive CaseStatus
  | open
  | inReview
  | closed
deriving DecidableEq, Repr

/-- `CaseRecord`, and a row of `aftercare_cases`. -/
structure CaseRecord extends CaseScope where
  order_id : Identifier
  version : ℕ
  status : CaseStatus
deriving DecidableEq, Repr

inductive Channel
  | buyer
  | support
  | synthetic
deriving DecidableEq, Repr

/-- `SessionRecord`, and a row of `aftercare_sessions`. -/
structure SessionRecord extends CaseScope where
  session_id : Identifier
  channel : Channel
deriving DecidableEq, Repr

structure OpenCaseInput where
  order_id : Identifier
  channel : Channel
  message_ref : Identifier
  message_sha256 : Sha256
deriving DecidableEq, Repr

/-- `AdmissionKey`, at its one entrypoint `case.open.v1`. -/
structure AdmissionKey where
  (tenant_id idempotency_key : Identifier)
deriving DecidableEq, Repr

/-! ## Runs -/

inductive RunState
  | ready
  | running
  | waitingInput
  | waitingApproval
  | retryAt
  | review
  | completed
  | cancelled
deriving DecidableEq, Repr

/-- The states of a Run that waits for an input or an approval. -/
def RunState.waiting : RunState → Bool
  | .waitingInput | .waitingApproval => true
  | _ => false

def RunState.transitions : RunState → List RunState
  | .ready => [.running, .cancelled]
  | .running =>
    [.ready, .waitingInput, .waitingApproval, .retryAt, .review, .completed, .cancelled]
  | .waitingInput => [.ready, .cancelled]
  | .waitingApproval => [.ready, .cancelled]
  | .retryAt => [.ready, .cancelled]
  | .review => [.ready, .cancelled]
  | .completed => []
  | .cancelled => []

def validateTransition (previous target : RunState) : Result Unit :=
  require (target ∈ previous.transitions) (.contract .conflict "illegal run transition")

structure RunRow extends RunScope where
  (session_id predecessor_run_id : Option Identifier)
  definition_version : Identifier
  input_version : PositiveInt
  state : RunState
  fencing_token : ℕ
  lease_owner : Option Identifier
  lease_until : Option Time
  wait_id : Option Identifier
  wait_generation : Option ℕ
  available_at : Option Time
deriving DecidableEq, Repr

/-- The constraints on a row of `aftercare_runs`. -/
def RunRow.check (r : RunRow) : Bool :=
  (r.state == .running) ==
      (r.lease_owner.isSome && r.lease_until.isSome && decide (0 < r.fencing_token)) &&
    r.state.waiting == (r.wait_id.isSome && r.wait_generation.isSome) &&
    (r.state == .retryAt) == r.available_at.isSome &&
    decide (r.fencing_token ≤ maxInt) && r.wait_generation.all (· ≤ maxInt)

/-- `RunRecord.coherent_state`, with the ranges of the fields. -/
def RunRow.coherentState (r : RunRow) : Bool :=
  r.predecessor_run_id != some r.run_id &&
    (if r.state = .running then
      r.lease_owner.isSome && r.lease_until.isSome && decide (1 ≤ r.fencing_token)
    else r.lease_owner.isNone && r.lease_until.isNone) &&
    (if r.state.waiting then r.wait_id.isSome && r.wait_generation.isSome
    else r.wait_id.isNone && r.wait_generation.isNone) &&
    (r.state == .retryAt) == r.available_at.isSome &&
    decide (r.fencing_token ≤ maxInt) && r.wait_generation.all fun g => 1 ≤ g ∧ g ≤ maxInt

structure RunRecord extends RunRow where
  coherent : toRunRow.coherentState = true
deriving DecidableEq

/-- `_run`: validate a row that was read back. -/
def RunRow.record (r : RunRow) : Result RunRecord :=
  if h : r.coherentState = true then .ok ⟨r, h⟩ else .error (.validation "RunRecord")

theorem RunRow.record_eq_ok {r : RunRow} {record : RunRecord} : r.record = .ok record ↔ record.toRunRow = r := by
  unfold RunRow.record
  split_ifs with h
  · constructor
    · intro hr; cases hr; rfl
    · intro hr; cases record; subst hr; rfl
  · constructor
    · intro hr; cases hr
    · intro hr; exact absurd (hr ▸ record.coherent) h

structure ExecutionClaim extends RunScope where
  owner : Identifier
  fencing_token : PositiveInt
deriving DecidableEq, Repr

/-- The Run runs under the claim, whose lease has not ended. -/
def ExecutionClaim.validOn (claim : ExecutionClaim) (r : RunRow) (t : Time) : Bool :=
  r.toRunScope == claim.toRunScope && r.state == .running && r.lease_owner == some claim.owner &&
    r.fencing_token == claim.fencing_token.val && r.lease_until.any (t < ·)

/-! ## Steps and attempts -/

/-- `StepRecord.kind`. -/
inductive StepKind
  | model
  | tool
  | evaluate
deriving DecidableEq, Repr

/-- `StepRecord`, and a row of `aftercare_steps`. -/
structure StepRecord extends RunScope where
  step_id : Identifier
  kind : StepKind
  input_version : PositiveInt
deriving DecidableEq, Repr

/-- `AttemptRecord.status`. -/
inductive AttemptStatus
  | started
  | succeeded
  | failed
  | unknown
deriving DecidableEq, Repr

/-- `AttemptRecord`, and a row of `aftercare_attempts`. -/
structure AttemptRecord extends RunScope where
  (step_id attempt_id : Identifier)
  (attempt_number fencing_token : PositiveInt)
  status : AttemptStatus
deriving DecidableEq, Repr

end Aftercare
