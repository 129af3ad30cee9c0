import Aftercare.System.Calls

/-!
# The dispatcher of a refund

`approve_and_confirm_refund` as its three transactions: the approval is decided, the action is requested, and, after
the provider has answered, its receipt is recorded. A transaction that ends with an error is rolled back, also where
the error is how the dispatcher reports the receipt.
-/

namespace Aftercare

open Relational

/-- What `approve_and_confirm_refund` reads of a `SyntheticCase`. -/
structure SyntheticCase where
  (tenant_id approval_run_id approval_wait_id approval_id action_id : Identifier)
deriving DecidableEq, Repr

/-- What it reads of an `ApprovalSlice`. -/
structure ApprovalSlice where
  (run_id action_id approval_id wait_id : Identifier)
deriving DecidableEq, Repr

def syntheticOps : Identifier := ⟨"synthetic-ops", Eq.refl true⟩

def syntheticProviderWorker : Identifier := ⟨"synthetic-provider-worker", Eq.refl true⟩

def refundPolicy : Identifier := ⟨"refund-v1", Eq.refl true⟩

def TransitionArgs.none : TransitionArgs := ⟨.none, .none, .none, .none, .none⟩

/-- The first transaction, with the reference of a confirmed action. -/
def approveRefund [Hashing] (db : Database) (clk : Clock Time) (now : Time) (case : SyntheticCase)
    (approval : ApprovalSlice) (decision_key : Identifier) : Result (Database × Option Identifier) := do
  require (approval.run_id = case.approval_run_id ∧ approval.action_id = case.action_id ∧
      approval.approval_id = case.approval_id ∧ approval.wait_id = case.approval_wait_id)
    (.contract .forbidden "approval slice scope mismatch")
  let (db, decided) ← decideApproval db clk now case.tenant_id approval.approval_id syntheticOps
    .approved decision_key (some "synthetic policy matched")
  require (decided.decision = .approved) .assertion
  match (db.actions.get (case.tenant_id, approval.action_id)).filter (·.state == .confirmed) with
  | some existing => do
    let reference ← fetch existing.provider_reference .assertion
    pure (db, some reference)
  | none => pure (db, none)

/-- The second transaction: the action to send, and the claim. -/
def requestRefund (db : Database) (clk : Clock Time) (case : SyntheticCase)
    (approval : ApprovalSlice) : Result (Database × ExecutionClaim × ActionRecord) := do
  let (db, claim) ← claim db clk case.tenant_id approval.run_id syntheticProviderWorker 30000000
  let (db, _) ← markRequested db (clk.drop 4) approval.action_id claim (some approval.approval_id)
    (some refundPolicy)
  let action ← fetch (db.actions.get (case.tenant_id, approval.action_id)) .assertion
  pure (db, claim, action)

/-- The third transaction: the receipt, and the Run completed or parked. -/
def recordRefund (db : Database) (clk : Clock Time) (claim : ExecutionClaim)
    (receipt : ProviderReceipt) : Result (Database × ActionRecord) := do
  let (db, result) ← markReceipt db clk receipt claim
  if result.state ≠ .confirmed then do
    let _ ← transition db (clk.drop 3) claim .review .none
    .error (.contract .retryable "provider outcome is unknown and needs reconciliation")
  else do
    let (db, _) ← transition db (clk.drop 3) claim .completed .none
    pure (db, result)

/-! ## Dispatchers among other calls -/

/-- A transaction of a dispatcher, or a call of a repository. -/
inductive DispatchCall
  | approve (now : Time) (case : SyntheticCase) (approval : ApprovalSlice)
      (decision_key : Identifier)
  | request (case : SyntheticCase) (approval : ApprovalSlice)
  | record (claim : ExecutionClaim) (receipt : ProviderReceipt)
  | other (call : Call)

inductive DispatchOutput
  | approved (reference : Option Identifier)
  | requested (claim : ExecutionClaim) (action : ActionRecord)
  | recorded (result : ActionRecord)
  | other (output : Output)

def dispatch [Hashing] : Engine Database Time DispatchCall DispatchOutput Failure := fun db clk c =>
  match c with
  | .approve now case approval decision_key => do
    let (db, reference) ← approveRefund db clk now case approval decision_key
    return (db, .approved reference)
  | .request case approval => do
    let (db, claim, action) ← requestRefund db clk case approval
    return (db, .requested claim action)
  | .record claim receipt => do
    let (db, result) ← recordRefund db clk claim receipt
    return (db, .recorded result)
  | .other call => do
    let (db, output) ← exec db clk call
    return (db, .other output)

/-- A history of dispatchers and other calls. -/
abbrev DispatchHistory [Hashing] (h : List (Transaction Database Time DispatchCall DispatchOutput Failure))
    (t₀ : Time) (db : Database) (t : Time) : Prop := Runs dispatch Database.empty t₀ h db t

/-- After this transaction a dispatcher sends an action. -/
def Sends (τ : Transaction Database Time DispatchCall DispatchOutput Failure)
    (claim : ExecutionClaim) (action : ActionRecord) : Prop :=
  ∃ case approval db', τ.call = .request case approval ∧
    τ.outcome = .ok (db', .requested claim action)

end Aftercare
