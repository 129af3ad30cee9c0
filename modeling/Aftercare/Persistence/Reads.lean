import Aftercare.Persistence.Approvals
import Aftercare.Persistence.Reviews

/-!
# Reads for the operator

The methods of the repositories that the read routes call. None of them grants authority: a caller has
authorized the case before. A stored row or payload that does not validate fails the whole read.
-/

namespace Aftercare

open Relational

/-- `CaseRepository.get_case`, without the time of creation. -/
def getCase (db : Database) (tenant_id case_id : Identifier) : Option CaseRecord :=
  db.cases.get ⟨tenant_id, case_id⟩

/-- `RunRepository.get`, whose id is any text. -/
def getRun (db : Database) (tenant : Identifier) (run_id : String) : Result (Option RunRecord) :=
  match db.runs.runs.rows.find? fun r => r.tenant_id == tenant && r.run_id.val == run_id with
  | none => pure none
  | some row => do
    let run ← row.record
    pure (some run)

/-- `RunRepository.list_for_case`. -/
def listRuns (db : Database) (scope : CaseScope) : Result (List RunRecord) :=
  ((db.runs.runs.select fun r => r.toCaseScope == scope).insertionSort
    fun a b => a.run_id.val ≤ b.run_id.val).mapM RunRow.record

/-- The latest checkpoint of each Run of a case. -/
def latestForCase (db : Database) (scope : CaseScope) : Result (List Checkpoint) :=
  let stored := db.checkpoints.select fun c => c.toCaseScope == scope
  let latest (run_id : Identifier) : Option Checkpoint :=
    ((stored.filter fun c => c.run_id == run_id).insertionSort
      fun a b => b.checkpoint_version ≤ a.checkpoint_version).head?
  ((stored.map (·.run_id)).dedup.filterMap latest).mapM Checkpoint.decode

/-- `ReviewRepository.get`. -/
def getReview (db : Database) (tenant_id review_id : Identifier) : Result (Option ReviewRecord) :=
  match db.reviews.get (tenant_id, review_id) with
  | none => pure none
  | some row => do
    let review ← row.record
    pure (some review)

/-- Newest first, and by id among those of one time. -/
def newestFirst (a b : Time × Identifier) : Bool :=
  decide (b.1 < a.1) || (decide (a.1 = b.1) && decide (b.2.val ≤ a.2.val))

/-- `ReviewRepository.list_for_case`. -/
def listReviews (db : Database) (scope : CaseScope) (limit : ℕ) : Result (List ReviewRecord) :=
  (((db.reviews.select fun r => r.toCaseScope == scope).insertionSort
    fun a b => newestFirst (a.created_at, a.review_id) (b.created_at, b.review_id)).take limit).mapM
      ReviewRecord.record

/-- `ApprovalRepository.list_for_case`. -/
def listApprovals (db : Database) (scope : CaseScope) (limit : ℕ) : Result (List ApprovalRecord) :=
  (((db.approvals.select fun a => a.toCaseScope == scope).insertionSort
    fun a b => newestFirst (a.created_at, a.approval_id) (b.created_at, b.approval_id)).take
      limit).mapM ApprovalRecord.record

def listCaseEvents (db : Database) (scope : CaseScope) (after_case_seq limit : ℤ) :
    Result (List DomainEvent) := do
  require (0 ≤ after_case_seq) (.contract .invalidInput "after_case_seq must be non-negative")
  require (1 ≤ limit ∧ limit ≤ 500)
    (.contract .invalidInput "event limit must be between 1 and 500")
  pure (((((db.events.caseRows scope).map (·.payload)).filter
    fun e => decide (after_case_seq < e.case_seq.val)).insertionSort
      fun a b => a.case_seq.val ≤ b.case_seq.val).take limit.toNat)

end Aftercare
