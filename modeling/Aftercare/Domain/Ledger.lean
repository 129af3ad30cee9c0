import Aftercare.Domain.Runtime

/-!
# The action ledger

The contracts of `actions/ledger.py`. An amount in minor units is a positive number of at most 38
digits: the canonical decimal text and the `numeric(38,0)` column are two spellings of it.
-/

namespace Aftercare

open Relational

inductive ActionState
  | reserved
  | requested
  | unknown
  | confirmed
  | failed
deriving DecidableEq, Repr

/-- `_TRANSITIONS` of the action repository. -/
def ActionState.transitions : ActionState → List ActionState
  | .reserved => [.requested, .failed]
  | .requested => [.unknown, .confirmed, .failed]
  | .unknown => [.confirmed, .failed]
  | .confirmed => []
  | .failed => []

/-- `_RESULT_STATE`. -/
def ActionState.isResult : ActionState → Bool
  | .unknown | .confirmed | .failed => true
  | .reserved | .requested => false

structure AmountMinor where
  val : ℕ
  pos : 0 < val
  digits : val < 10 ^ 38
deriving DecidableEq, Repr

/-- `Currency`: three capital letters. -/
structure Currency where
  val : String
  valid : (val.toList.length == 3 && val.toList.all fun c => 'A' ≤ c && c ≤ 'Z') = true
deriving DecidableEq, Repr

structure ActionIntent extends CaseScope where
  (order_id action_id action_type business_key idempotency_key : Identifier)
  parameters_sha256 : Sha256
  amount_minor : AmountMinor
  currency : Currency
  provider_idempotency_key : Option Identifier
  approval_required : Bool
deriving DecidableEq, Repr

/-- `ActionRecord`, and a row of `aftercare_actions`. -/
structure ActionRecord extends ActionIntent where
  state : ActionState
  provider_reference : Option Identifier
  result_sha256 : Option Sha256
  failure_code : Option Identifier
  fencing_token : Option PositiveInt
  (created_at updated_at : Time)
deriving DecidableEq, Repr

/-- The constraints of migration 006 on the outcome. -/
def ActionRecord.check (a : ActionRecord) : Bool :=
  (a.state == .confirmed) == (a.provider_reference.isSome && a.result_sha256.isSome) &&
    (a.state != .failed || a.failure_code.isSome) &&
    (!(a.state == .reserved || a.state == .requested || a.state == .unknown) || a.failure_code.isNone)

/-- `ProviderReceipt`, with its `validate_outcome` validator. -/
structure ProviderReceipt where
  action_id : Identifier
  provider_idempotency_key : Option Identifier
  state : ActionState
  provider_reference : Option Identifier
  result_sha256 : Option Sha256
  failure_code : Option Identifier
  is_result : state.isResult = true
  validate_outcome :
    (if state = .confirmed then
      provider_reference.isSome && result_sha256.isSome && failure_code.isNone
    else result_sha256.isNone) = true ∧ (state = .failed → failure_code.isSome)
deriving DecidableEq

def validateProviderReceipt (action : ActionRecord) (receipt : ProviderReceipt) : Result Unit := do
  require (receipt.action_id = action.action_id)
    (.contract .forbidden "provider receipt belongs to another action")
  require (receipt.provider_idempotency_key = action.provider_idempotency_key)
    (.contract .conflict "provider receipt idempotency key differs")

end Aftercare
