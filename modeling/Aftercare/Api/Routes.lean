import Aftercare.Api.Responses
import Aftercare.Persistence.Admission

/-!
# Routes of the API

The handlers of `api/app.py` that open a case or work on one, each one transaction of a verified identity.
`_authorized_case` resolves the grant of the caller; `_administered_case`, of the three routes that administer
grants, asks only for a scope of the tenant. A stream authorizes its reader again for each event.
-/

namespace Aftercare.Routes

open Relational

/-! ## Authorization -/

def authorizedCase (store : ApiStore) (clk : Clock Time) (identity : AuthContext) (case_id : String)
    (permission : Identifier) : Result (Identifier × AuthContext) := do
  let case_id ← requestIdentifier "case_id" case_id
  if identity.synthetic then do
    identity.requireCase case_id permission
    pure (case_id, identity)
  else do
    let grant ← fetch (resolveGrant store clk ⟨identity.tenant_id, case_id⟩ identity.subject_id)
      (.contract .forbidden "case access denied")
    let bound ← identity.bindCaseGrant grant
    bound.requireCase case_id permission
    pure (case_id, bound)

def authorizedCaseRow (store : ApiStore) (clk : Clock Time) (identity : AuthContext)
    (case_id : String) (permission : Identifier) : Result (CaseRecord × AuthContext) := do
  let (case_id, bound) ← authorizedCase store clk identity case_id permission
  let entry ← fetch (getCase store.toDatabase identity.tenant_id case_id)
    (.contract .forbidden "case access denied")
  pure (entry, bound)

def administeredCase (store : ApiStore) (identity : AuthContext) (case_id : String)
    (permission : Identifier) : Result Identifier := do
  let case_id ← requestIdentifier "case_id" case_id
  identity.require permission
  require ((getCase store.toDatabase identity.tenant_id case_id).isSome = true)
    (.contract .forbidden "case access denied")
  pure case_id

def requiredIdempotencyKey (value : Option String) : Result Identifier := do
  let key ← fetch value (.contract .invalidInput "Idempotency-Key is required")
  requestIdentifier "Idempotency-Key" key

/-! ## Opening a case -/

/-- The ids that `open_case` draws from `uuid4`. -/
structure FreshIds where
  (case_id session_id run_id : Identifier)

/-- The `RunRecord` of a new case. -/
def firstRun (scope : RunScope) (session_id : Identifier) : RunRecord where
  toRunScope := scope
  session_id := some session_id
  predecessor_run_id := none
  definition_version := ⟨"v1", Eq.refl true⟩
  input_version := .one
  state := .ready
  fencing_token := 0
  lease_owner := none
  lease_until := none
  wait_id := none
  wait_generation := none
  available_at := none
  coherent := by simp [RunRow.coherentState, RunState.waiting]

def openCase [Hashing] (store : ApiStore) (clk : Clock Time) (now : Time) (identity : AuthContext)
    (ids : FreshIds) (body : OpenCaseInput) (idempotency_key : Option String) :
    Result (ApiStore × Response) := do
  identity.require Permission.caseCreate
  let key ← fetch idempotency_key (.contract .invalidInput "Idempotency-Key is required")
  let scope : CaseScope := ⟨identity.tenant_id, ids.case_id⟩
  let key ← identifier "AdmissionKey" key
  let (db, result) ← Aftercare.openCase store.toDatabase clk ⟨identity.tenant_id, key⟩ body
    { scope with order_id := body.order_id, version := 1, status := .open }
    { scope with session_id := ids.session_id, channel := body.channel }
    (firstRun ⟨scope, ids.run_id⟩ ids.session_id)
  let store := { store with toDatabase := db }
  let scope : CaseScope := ⟨identity.tenant_id, result.case.case_id⟩
  let response := Response.opened
    ⟨result.case.case_id, result.session.session_id, result.run.run_id, result.replayed⟩
  if result.replayed then do
    -- A replay must not disclose the case to a subject that has no grant on it.
    let _ ← fetch (resolveGrant store (clk.drop 2) scope identity.subject_id)
      (.contract .forbidden "case access denied")
    pure (store, response)
  else do
    let (store, _) ← grantCase store (clk.drop 2) now scope identity.subject_id
      [Permission.caseRead] identity.subject_id none none
    pure (store, response)

/-! ## Reads -/

def getRun (store : ApiStore) (clk : Clock Time) (identity : AuthContext) (case_id run_id : String) :
    Result Response := do
  let (case_id, _) ← authorizedCase store clk identity case_id Permission.caseRead
  let found ← Aftercare.getRun store.toDatabase identity.tenant_id run_id
  let run ← fetch (found.filter fun r => r.case_id == case_id)
    (.contract .forbidden "case access denied")
  let checkpoint ← getLatest store.toDatabase identity.tenant_id run.run_id
  pure (.run (runSummary run checkpoint))

def getCase (store : ApiStore) (clk : Clock Time) (identity : AuthContext) (case_id : String) :
    Result Response := do
  let (entry, bound) ← authorizedCaseRow store clk identity case_id Permission.caseRead
  let runs ← listRuns store.toDatabase ⟨identity.tenant_id, entry.case_id⟩
  let checkpoints ← latestForCase store.toDatabase ⟨identity.tenant_id, entry.case_id⟩
  pure (.case
    { entry with
      permissions := sortedSet bound.permissions
      runs := runs.map fun run => runSummary run (checkpoints.find? (·.run_id == run.run_id)) })

def listReviews (store : ApiStore) (clk : Clock Time) (identity : AuthContext) (case_id : String)
    (limit : PageSize) : Result Response := do
  let (entry, _) ← authorizedCaseRow store clk identity case_id Permission.reviewRead
  let records ← Aftercare.listReviews store.toDatabase ⟨identity.tenant_id, entry.case_id⟩ limit
  pure (.reviews (records.map reviewProjection))

def listApprovals (store : ApiStore) (clk : Clock Time) (identity : AuthContext)
    (case_id : String) (limit : PageSize) : Result Response := do
  let (entry, _) ← authorizedCaseRow store clk identity case_id Permission.approvalRead
  let records ← Aftercare.listApprovals store.toDatabase ⟨identity.tenant_id, entry.case_id⟩ limit
  pure (.approvals (records.map approvalProjection))

def getReview (store : ApiStore) (clk : Clock Time) (identity : AuthContext)
    (case_id review_id : String) : Result Response := do
  let review_id ← requestIdentifier "review_id" review_id
  let (case_id, _) ← authorizedCase store clk identity case_id Permission.reviewRead
  let found ← Aftercare.getReview store.toDatabase identity.tenant_id review_id
  let review ← fetch (found.filter fun r => r.case_id == case_id)
    (.contract .forbidden "review access denied")
  pure (.review (reviewProjection review))

def getApproval (store : ApiStore) (clk : Clock Time) (identity : AuthContext)
    (case_id approval_id : String) : Result Response := do
  let approval_id ← requestIdentifier "approval_id" approval_id
  let (case_id, _) ← authorizedCase store clk identity case_id Permission.approvalRead
  let found ← Aftercare.getApproval store.toDatabase identity.tenant_id approval_id
  let approval ← fetch (found.filter fun a => a.case_id == case_id)
    (.contract .forbidden "approval access denied")
  pure (.approval (approvalProjection approval))

/-! ## Decisions and migrations -/

/-- The part of `decide_review` that takes an override. -/
def operatorOverride (bound : AuthContext) : Option ReviewOverrideInput → Result (Option ReviewOverrideRequest)
  | none => pure none
  | some input => do
    bound.require Permission.reviewOverride
    let request ← input.request
    pure (some request)

def decideReview [Hashing] (store : ApiStore) (clk : Clock Time) (now : Time)
    (identity : AuthContext) (case_id review_id : String) (body : ReviewDecisionInput)
    (idempotency_key : Option String) : Result (ApiStore × Response) := do
  let review_id ← requestIdentifier "review_id" review_id
  let key ← requiredIdempotencyKey idempotency_key
  let (case_id, bound) ← authorizedCase store clk identity case_id Permission.reviewDecide
  let found ← Aftercare.getReview store.toDatabase identity.tenant_id review_id
  let _ ← fetch (found.filter fun r => r.case_id == case_id)
    (.contract .forbidden "review access denied")
  let override ← operatorOverride bound body.override
  let (db, result) ← Aftercare.decideReview store.toDatabase (clk.drop 1) now identity.tenant_id
    review_id identity.subject_id body.decision key body.decision_reason override
  pure ({ store with toDatabase := db }, .review (reviewProjection result))

def migrateStrategy [Hashing] (store : ApiStore) (clk : Clock Time) (now : Time)
    (identity : AuthContext) (case_id run_id : String) (body : StrategyMigrationInput)
    (idempotency_key : Option String) : Result (ApiStore × Response) := do
  let run_id ← requestIdentifier "run_id" run_id
  let key ← requiredIdempotencyKey idempotency_key
  let (case_id, bound) ← authorizedCase store clk identity case_id Permission.strategyMigrate
  bound.require Permission.strategyMigrate
  let request ← body.request ⟨⟨identity.tenant_id, case_id⟩, run_id⟩ key
  let (db, result, _) ← migrate store.toDatabase (clk.drop 1) now request identity.subject_id
  pure ({ store with toDatabase := db }, .migration (strategyMigrationProjection result))

def decideApproval [Hashing] (store : ApiStore) (clk : Clock Time) (now : Time)
    (identity : AuthContext) (case_id approval_id : String) (body : ApprovalDecisionInput)
    (idempotency_key : Option String) : Result (ApiStore × Response) := do
  let approval_id ← requestIdentifier "approval_id" approval_id
  let key ← requiredIdempotencyKey idempotency_key
  let (case_id, _) ← authorizedCase store clk identity case_id Permission.approvalDecide
  let found ← Aftercare.getApproval store.toDatabase identity.tenant_id approval_id
  let _ ← fetch (found.filter fun a => a.case_id == case_id)
    (.contract .forbidden "approval access denied")
  let (db, result) ← Aftercare.decideApproval store.toDatabase (clk.drop 1) now identity.tenant_id
    approval_id identity.subject_id body.decision key body.decision_reason
  pure ({ store with toDatabase := db }, .approval (approvalProjection result))

/-! ## Administration of grants -/

def listCaseGrants (store : ApiStore) (identity : AuthContext) (case_id : String)
    (limit : PageSize) : Result Response := do
  let case_id ← administeredCase store identity case_id Permission.grantRead
  let records := listGrants store ⟨identity.tenant_id, case_id⟩ limit
  pure (.grants
    { grants := records.map grantProjection
      delegable := sortedSet (identity.permissions.filter (· ∈ grantableCasePermissions))
      can_administer := decide (Permission.grantAdmin ∈ identity.permissions) })

/-- `put_case_grant` checks the expiry by the clock of the database. -/
def futureExpiry (clk : Clock Time) : Option Datetime → Result Unit
  | none => pure ()
  | some (.naive _) => .error (.contract .invalidInput "expires_at must be timezone-aware")
  | some (.aware instant) =>
    require (clk.read 0 < instant) (.contract .invalidInput "expires_at must be in the future")

def putCaseGrant [Hashing] (store : ApiStore) (clk : Clock Time) (now : Time) (identity : AuthContext)
    (case_id : String) (body : CaseGrantInput) : Result (ApiStore × Response) := do
  let case_id ← administeredCase store identity case_id Permission.grantAdmin
  futureExpiry clk body.expires_at
  let granted ← authorizeCaseGrant identity.permissions body.permissions
  let (store, record) ← grantCase store (clk.drop 1) now ⟨identity.tenant_id, case_id⟩
    body.subject_id (sortedSet granted) identity.subject_id body.expires_at body.expected_revision
  pure (store, .grant (grantProjection record))

def revokeCaseGrant [Hashing] (store : ApiStore) (clk : Clock Time) (now : Time) (identity : AuthContext)
    (case_id subject_id : String) (body : CaseGrantRevokeInput) : Result (ApiStore × Response) := do
  let subject_id ← requestIdentifier "subject_id" subject_id
  let case_id ← administeredCase store identity case_id Permission.grantAdmin
  let (store, record) ← revokeCase store clk now ⟨identity.tenant_id, case_id⟩ subject_id
    identity.subject_id body.expected_revision
  pure (store, .grant (grantProjection record))

/-! ## Streams -/

/-- The later of the query and the `Last-Event-ID`. -/
def streamCursor (input : StreamInput) : Result ℤ :=
  match input.last_event_id with
  | none => pure input.after
  | some none => .error (.contract .invalidInput "Last-Event-ID must be an integer")
  | some (some header) => pure (max input.after header)

/-- `PostgresEventTail.validate`, at the fixed interval of its polls. -/
def validateTail (after_case_seq limit : ℤ) (wait_seconds : Option Rat) : Result Unit := do
  require (0 ≤ after_case_seq) (.contract .invalidInput "after_case_seq must be non-negative")
  require (1 ≤ limit ∧ limit ≤ 500)
    (.contract .invalidInput "event limit must be between 1 and 500")
  require (wait_seconds.any (fun s => decide (0 ≤ s) && decide (s ≤ 60)) = true)
    (.contract .invalidInput "wait_seconds must be between 0 and 60")

/-- `case_events`, up to the response that opens the stream. -/
def caseEvents (store : ApiStore) (clk : Clock Time) (identity : AuthContext) (case_id : String)
    (input : StreamInput) : Result Response := do
  let case_id ← requestIdentifier "case_id" case_id
  let cursor ← streamCursor input
  if input.follow then do
    validateTail cursor input.limit input.wait_seconds
    let _ ← authorizedCase store clk identity case_id.val Permission.caseRead
    pure (.stream [])
  else do
    let _ ← authorizedCase store clk identity case_id.val Permission.caseRead
    let events ← listCaseEvents store.toDatabase ⟨identity.tenant_id, case_id⟩ cursor input.limit
    pure (.stream events)

/-- One round of the loop of a stream, which releases an event. -/
def streamEvent (store : ApiStore) (clk : Clock Time) (identity : AuthContext) (case_id : String)
    (event : DomainEvent) : Result Response :=
  if identity.synthetic then pure (.event event)
  else do
    -- `_authorize_stream_event`.
    let _ ← authorizedCase store clk identity case_id Permission.caseRead
    pure (.event event)

end Aftercare.Routes

namespace Aftercare

open Relational

/-! ## Operations on a case -/

/-- A request under `/v1/cases/{case_id}`, or the next event of a stream. -/
inductive CaseOperation
  | getRun (run_id : String)
  | getCase
  | listReviews (limit : PageSize)
  | listApprovals (limit : PageSize)
  | getReview (review_id : String)
  | getApproval (approval_id : String)
  | decideReview (review_id : String) (body : ReviewDecisionInput) (idempotency_key : Option String)
  | migrateStrategy (run_id : String) (body : StrategyMigrationInput)
      (idempotency_key : Option String)
  | decideApproval (approval_id : String) (body : ApprovalDecisionInput)
      (idempotency_key : Option String)
  | listCaseGrants (limit : PageSize)
  | putCaseGrant (body : CaseGrantInput)
  | revokeCaseGrant (subject_id : String) (body : CaseGrantRevokeInput)
  | caseEvents (input : StreamInput)
  | streamEvent (event : DomainEvent)

def CaseOperation.handle [Hashing] (store : ApiStore) (clk : Clock Time) (now : Time)
    (identity : AuthContext) (case_id : String) : CaseOperation → Result (ApiStore × Response)
  | .getRun run_id => return (store, ← Routes.getRun store clk identity case_id run_id)
  | .getCase => return (store, ← Routes.getCase store clk identity case_id)
  | .listReviews limit => return (store, ← Routes.listReviews store clk identity case_id limit)
  | .listApprovals limit => return (store, ← Routes.listApprovals store clk identity case_id limit)
  | .getReview review_id => return (store, ← Routes.getReview store clk identity case_id review_id)
  | .getApproval approval_id =>
    return (store, ← Routes.getApproval store clk identity case_id approval_id)
  | .decideReview review_id body key =>
    Routes.decideReview store clk now identity case_id review_id body key
  | .migrateStrategy run_id body key =>
    Routes.migrateStrategy store clk now identity case_id run_id body key
  | .decideApproval approval_id body key =>
    Routes.decideApproval store clk now identity case_id approval_id body key
  | .listCaseGrants limit => return (store, ← Routes.listCaseGrants store identity case_id limit)
  | .putCaseGrant body => Routes.putCaseGrant store clk now identity case_id body
  | .revokeCaseGrant subject_id body =>
    Routes.revokeCaseGrant store clk now identity case_id subject_id body
  | .caseEvents input => return (store, ← Routes.caseEvents store clk identity case_id input)
  | .streamEvent event => return (store, ← Routes.streamEvent store clk identity case_id event)

end Aftercare
