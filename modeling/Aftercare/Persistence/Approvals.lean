import Aftercare.Persistence.Waits

/-!
# The approval repository

The methods of `ApprovalRepository`. An approval is requested once, and then decided once or expired;
a decision on an approval that is bound to a wait also settles that wait. `lockForDispatch` is the
check that an action must pass before it is requested from its provider.
-/

namespace Aftercare

open Relational

variable {db db' : Database} {tenant_id approval_id : Identifier} {wait : WaitRecord}
  {result approval : ApprovalRecord} {clk : Clock Time} {now stop : Time} {reason : Option String}

/-! ## Locks -/

/-- `ApprovalRepository.get`. -/
def getApproval (db : Database) (tenant_id approval_id : Identifier) : Result (Option ApprovalRecord) :=
  match db.approvals.get (tenant_id, approval_id) with
  | none => pure none
  | some row => do
    let approval ← row.record
    pure (some approval)

/-- `ApprovalRepository.get`, where a missing approval is refused. -/
def findApproval (db : Database) (tenant_id approval_id : Identifier) : Result ApprovalRecord := do
  let row ← fetch (db.approvals.get (tenant_id, approval_id))
    (.contract .forbidden "approval not found")
  row.record

def lockAction (db : Database) (tenant_id action_id : Identifier) : Result ActionRecord :=
  fetch (db.actions.get (tenant_id, action_id)) (.contract .forbidden "action not found")

def lockRunWait (db : Database) (scope : CaseScope) (binding : WaitBinding) (approval_id : Identifier)
    (action_parameters_sha256 : Sha256) : Result (WaitRecord × RunRow) := do
  let run ← fetch (db.run ⟨scope, binding.run_id⟩) (.contract .forbidden "run not found")
  require (run.state = .waitingApproval ∧ (run.wait_id, run.wait_generation) =
      (some binding.wait_id, some binding.wait_generation.val))
    (.contract .conflict "run is not waiting for this approval")
  let wait ← fetch (db.waits.get (scope.tenant_id, scope.case_id, binding.run_id, binding.wait_id,
    binding.wait_generation.val)) (.contract .forbidden "approval wait not found")
  require (wait.kind = .approval ∧ (wait.state = .pending ∨ wait.state = .active))
    (.contract .conflict "approval wait is no longer active")
  require (wait.correlation_key = approval_id ∧ wait.condition_version.val = action_parameters_sha256.val)
    (.contract .conflict "approval wait binding changed")
  pure (wait, run)

def lockPendingBinding (db : Database) (approval : ApprovalRecord) : Result (Option (WaitRecord × RunRow)) :=
  match approval.binding with
  | none => pure none
  | some binding =>
    if approval.decision = .pending then do
      let locked ← lockRunWait db approval.toCaseScope binding approval.approval_id
        approval.action_parameters_sha256
      pure (some locked)
    else pure none

def lockForDispatch (db : Database) (clk : Clock Time) (action : ActionRecord)
    (approval_id policy_version : Identifier) : Result ApprovalRecord := do
  let approval ← findApproval db action.tenant_id approval_id
  assertApprovalUsable approval action.tenant_id action.case_id action.action_id
    action.parameters_sha256 policy_version (clk.read 0)
  pure approval

theorem findApproval_eq_ok {a : ApprovalRecord} (h : findApproval db tenant_id approval_id = .ok a) :
    db.approvals.get (tenant_id, approval_id) = some a := by
  simp only [findApproval, ok_iff, ApprovalRecord.record_eq_ok] at h
  obtain ⟨row, hrow, -, rfl⟩ := h
  exact hrow

theorem lockRunWait_eq_ok {scope : CaseScope} {binding : WaitBinding} {digest : Sha256}
    {run : RunRow} (h : lockRunWait db scope binding approval_id digest = .ok (wait, run)) :
    db.waits.get wait.key = some wait ∧ db.run wait.toRunScope = some run ∧
      run.waitsFor wait.wait_id wait.generation.val = true ∧ wait.state.settled = false := by
  simp only [lockRunWait, ok_iff] at h
  obtain ⟨run', hrun, ⟨hstate, hid, hgen⟩, wait', hwait, ⟨-, hopen⟩, -, rfl, rfl⟩ := h
  have hkey : wait'.key = _ := Table.key_of_get hwait
  rw [← hkey] at hwait
  simp only [WaitRecord.key, Prod.mk.injEq] at hkey
  obtain ⟨htenant, hcase, hrun_id, hwait_id, hgeneration⟩ := hkey
  have hscope : wait'.toRunScope = ⟨scope, binding.run_id⟩ := by
    rw [RunScope.mk.injEq, CaseScope.mk.injEq]
    exact ⟨⟨htenant, hcase⟩, hrun_id⟩
  refine ⟨hwait, by rw [hscope]; exact hrun, ?_, ?_⟩
  · simp [RunRow.waitsFor, hstate, hid, hgen, hwait_id, hgeneration, RunState.waiting]
  · rcases hopen with hopen | hopen <;> rw [hopen] <;> rfl

theorem lockPendingBinding_eq_ok {run : RunRow} (h : lockPendingBinding db approval = .ok (some (wait, run))) :
    db.waits.get wait.key = some wait ∧ db.run wait.toRunScope = some run ∧
      run.waitsFor wait.wait_id wait.generation.val = true ∧ wait.state.settled = false := by
  unfold lockPendingBinding at h
  split at h
  · cases h
  · split_ifs at h
    · simp only [ok_iff, Option.some.injEq] at h
      obtain ⟨locked, hlocked, rfl⟩ := h
      exact lockRunWait_eq_ok hlocked
    · cases h

/-- An approval of this very action that has not expired. -/
theorem lockForDispatch_eq_ok {action : ActionRecord} {policy_version : Identifier}
    (h : lockForDispatch db clk action approval_id policy_version = .ok approval) :
    db.approvals.get (action.tenant_id, approval_id) = some approval ∧
      approval.toCaseScope = action.toCaseScope ∧ approval.action_id = action.action_id ∧
      approval.action_parameters_sha256 = action.parameters_sha256 ∧
      approval.decision = .approved ∧ clk.read 0 < approval.expires_at := by
  simp only [lockForDispatch, assertApprovalUsable, ok_iff] at h
  obtain ⟨found, hfound, ⟨⟨htenant, hcase, haction⟩, hdigest, -, happroved, hexpiry⟩, rfl⟩ := h
  refine ⟨findApproval_eq_ok hfound, ?_, haction, hdigest, happroved, hexpiry⟩
  rw [CaseScope.mk.injEq]
  exact ⟨htenant, hcase⟩

/-! ## Requests -/

section

variable [Hashing]

def appendApprovalRequested (store : EventStore) (clk : Clock Time) (now : Time)
    (record : ApprovalRecord) : Result EventStore :=
  recordEvent store clk now record.toCaseScope (record.binding.map (·.run_id)) (.approval record)
    .approvalRequested ("approval:" ++ record.case_id.val ++ ":" ++ record.approval_id.val ++
      ":requested") record.approval_id

/-- The row that a request inserts, with the defaults of the table. -/
def ApprovalRequest.row (request : ApprovalRequest) (clk : Clock Time) : ApprovalRecord :=
  { request with
    decision := .pending, approver := none, decision_idempotency_key := none
    decision_reason := none, created_at := clk.read 0, decided_at := none, updated_at := clk.read 1 }

/-- The wait that a new request is bound to, if any, is still open. -/
def lockBinding (db : Database) (request : ApprovalRequest) : Result Unit :=
  match request.binding with
  | none => pure ()
  | some binding => do
    let _ ← lockRunWait db request.toCaseScope binding request.approval_id
      request.action_parameters_sha256
    pure ()

def requireAction (action : ActionRecord) (request : ApprovalRequest) : Result Unit := do
  require (action.case_id = request.case_id)
    (.contract .forbidden "approval case does not match action")
  require (action.parameters_sha256 = request.action_parameters_sha256)
    (.contract .conflict "approval parameters do not match action")

/-- The row in the way of a request is of the same action. -/
def requestConflict (db : Database) (request : ApprovalRequest) : Result (Database × ApprovalRecord × Bool) := do
  let rows := db.approvals.select fun a => a.tenant_id == request.tenant_id &&
    (a.approval_id == request.approval_id || a.action_id == request.action_id)
  require (rows ≠ []) (.contract .retryable "approval request outcome is unknown")
  .error (.contract .conflict "action already has another approval")

/-- `ApprovalRepository.request`. -/
def requestApproval (db : Database) (clk : Clock Time) (now : Time) (request : ApprovalRequest) :
    Result (Database × ApprovalRecord × Bool) := do
  lockCase db request.toCaseScope
  let existing ← getApproval db request.tenant_id request.approval_id
  match existing with
  | some existing => do
    let action ← lockAction db request.tenant_id request.action_id
    requireAction action request
    require (existing.toApprovalRequest = request) (.contract .conflict "approval replay changed")
    pure (db, existing, true)
  | none => do
    lockBinding db request
    let action ← lockAction db request.tenant_id request.action_id
    requireAction action request
    require (action.approval_required = true) (.contract .conflict "action does not require approval")
    require (clk.read 0 < request.expires_at)
      (.contract .invalidInput "approval expiry must be in the future")
    let (approvals, inserted) ← statement "aftercare_approvals" <|
      db.approvals.insertOrIgnore (request.row (clk.drop 1))
    if inserted then do
      let result ← (request.row (clk.drop 1)).record
      let events ← appendApprovalRequested db.events (clk.drop 3) now result
      pure ({ db with approvals := approvals, events := events }, result, false)
    else requestConflict db request

/-! ## Decisions -/

def appendApprovalDecided (store : EventStore) (clk : Clock Time) (now : Time)
    (record : ApprovalRecord) : Result EventStore := do
  let key ← fetch record.decision_idempotency_key .assertion
  recordEvent store clk now record.toCaseScope (record.binding.map (·.run_id)) (.approval record)
    (if record.decision = .expired then .approvalExpired else .approvalDecided)
    ("approval:" ++ record.case_id.val ++ ":" ++ record.approval_id.val ++ ":decision:" ++ key.val)
    record.approval_id

def ApprovalRecord.decided (approver : Identifier) (verdict : ApprovalVerdict) (key : Identifier)
    (reason : Option String) (clk : Clock Time) (a : ApprovalRecord) : ApprovalRecord :=
  { a with
    decision := verdict.decision, approver := some approver
    decision_idempotency_key := some key, decision_reason := reason
    decided_at := some (clk.read 0), updated_at := clk.read 1 }

def decisionSignal (result : ApprovalRecord) (binding : WaitBinding) (wait : WaitRecord)
    (key : Identifier) (reason : Option String) (received_at : Time) : Result InboxSignal := do
  let name := result.approval_id.val ++ ":" ++ key.val
  let event_id ← identifier "InboxSignal" ("approval:" ++ name)
  let source_id ← identifier "InboxSignal" "approval-service"
  let source_event_id ← identifier "InboxSignal" name
  let reference_id ← identifier "ArtifactReference" ("approval-decision:" ++ name)
  pure
    { toCaseScope := result.toCaseScope, run_id := binding.run_id
      event_id := event_id, source_id := source_id, source_event_id := source_event_id
      wait_id := binding.wait_id, generation := binding.wait_generation, kind := .approval
      correlation_key := wait.correlation_key, condition_version := wait.condition_version
      received_at := received_at
      payload := ⟨result.toCaseScope, reference_id,
        Hashing.decisionPayloadSha256 result.approval_id result.decision key reason⟩
      payload_scope := rfl }

/-- The part of `decide` that settles the wait of the approval. -/
def resolveDecision (db : Database) (clk : Clock Time) (result : ApprovalRecord)
    (locked : Option (WaitRecord × RunRow)) (key : Identifier) (reason : Option String) : Result Database :=
  match locked with
  | none => pure db
  | some (wait, _) => do
    let binding ← fetch result.binding .assertion
    let signal ← decisionSignal result binding wait key reason (clk.read 0)
    let (db, _) ← resolveLocked db (clk.drop 1) wait signal
    pure db

/-- The part of `decide` on a pending approval. -/
def recordDecision (db : Database) (clk : Clock Time) (now : Time) (current : ApprovalRecord)
    (locked : Option (WaitRecord × RunRow)) (approver : Identifier) (verdict : ApprovalVerdict)
    (key : Identifier) (reason : Option String) : Result (Database × ApprovalRecord) := do
  require (current.requested_by ≠ approver)
    (.contract .forbidden "requester cannot approve its own action")
  require (clk.read 0 < current.expires_at) (.contract .forbidden "approval has expired")
  let approvals ← statement "aftercare_approvals" <|
    db.approvals.update (current.tenant_id, current.approval_id)
      (ApprovalRecord.decided approver verdict key reason (clk.drop 1))
  let result ← (current.decided approver verdict key reason (clk.drop 1)).record
  let db ← resolveDecision { db with approvals := approvals } (clk.drop 3) result locked key reason
  let events ← appendApprovalDecided db.events (clk.drop 8) now result
  pure ({ db with events := events }, result)

/-- `ApprovalRepository.decide`. -/
def decideApproval (db : Database) (clk : Clock Time) (now : Time)
    (tenant_id approval_id approver : Identifier) (verdict : ApprovalVerdict)
    (key : Identifier) (reason : Option String) : Result (Database × ApprovalRecord) := do
  let initial ← findApproval db tenant_id approval_id
  lockCase db ⟨tenant_id, initial.case_id⟩
  let locked ← lockPendingBinding db initial
  let action ← lockAction db tenant_id initial.action_id
  let current ← findApproval db tenant_id approval_id
  require (current.case_id = action.case_id ∧ current.action_parameters_sha256 = action.parameters_sha256)
    (.contract .conflict "approval action binding changed")
  if current.decision ≠ .pending then do
    require (current.decision = verdict.decision ∧ current.approver = some approver ∧
        current.decision_idempotency_key = some key ∧ current.decision_reason = reason)
      (.contract .conflict "approval decision replay changed")
    pure (db, current)
  else recordDecision db clk now current locked approver verdict key reason

def ApprovalRecord.expired (approver key : Identifier) (clk : Clock Time) (a : ApprovalRecord) :
    ApprovalRecord :=
  { a with
    decision := .expired, approver := some approver, decision_idempotency_key := some key
    decided_at := some (clk.read 0), updated_at := clk.read 1 }

/-- `ApprovalRepository.expire`. -/
def expireApproval (db : Database) (clk : Clock Time) (now : Time)
    (tenant_id approval_id : Identifier) : Result (Database × ApprovalRecord) := do
  let initial ← findApproval db tenant_id approval_id
  lockCase db ⟨tenant_id, initial.case_id⟩
  let _ ← lockAction db tenant_id initial.action_id
  let current ← findApproval db tenant_id approval_id
  if current.decision ≠ .pending ∨ clk.read 0 < current.expires_at then pure (db, current)
  else do
    let approver ← identifier "ApprovalRecord" "approval-expiry-reconciler"
    let key ← identifier "ApprovalRecord" ("expiry:" ++ approval_id.val)
    let approvals ← statement "aftercare_approvals" <|
      db.approvals.update (tenant_id, approval_id) (ApprovalRecord.expired approver key (clk.drop 1))
    let result ← (current.expired approver key (clk.drop 1)).record
    let events ← appendApprovalDecided db.events (clk.drop 3) now result
    pure ({ db with approvals := approvals, events := events }, result)


/-! ## What the methods do -/

variable {start : Time}

theorem requestApproval_writes {request : ApprovalRequest} {replayed : Bool}
    (h : requestApproval db clk now request = .ok (db', result, replayed)) :
    Writes .requestApproval start stop db db' := by
  simp only [requestApproval, lockCase, ok_iff] at h
  obtain ⟨hcase, existing, -, h⟩ := h
  cases existing with
  | some existing =>
    simp only [ok_iff] at h
    obtain ⟨action, -, -, -, rfl, -⟩ := h
    exact .refl
  | none =>
    simp only [ok_iff, statement_eq_ok, lockAction] at h
    obtain ⟨-, action, haction, -, -, -, ⟨approvals, inserted⟩, hinsert, h⟩ := h
    have hexists : (db.actions.get (request.tenant_id, request.action_id)).isSome = true := by
      rw [haction]
      rfl
    rcases Table.insertOrIgnore_eq_ok hinsert with ⟨rfl, hnew⟩ | ⟨rfl, -⟩
    · simp only [if_true, ok_iff] at h
      obtain ⟨record, -, events, hevents, rfl, -⟩ := h
      exact Relation.ReflTransGen.tail (.single (.requestApproval rfl _ rfl hcase hexists hnew))
        (.append (recordEvent_appends hevents))
    · simp only [Bool.false_eq_true, if_false, requestConflict, ok_iff] at h
      cases h.2

theorem expireApproval_writes (h : expireApproval db clk now tenant_id approval_id = .ok (db', result)) :
    Writes .expireApproval start stop db db' := by
  simp only [expireApproval, lockCase, ok_iff] at h
  obtain ⟨initial, -, -, action, -, current, hcurrent, h⟩ := h
  split_ifs at h with hdone
  · cases h
    exact .refl
  · simp only [ok_iff, statement_eq_ok] at h
    obtain ⟨approver, -, key, -, approvals, hupdate, record, -, events, hevents, rfl, -⟩ := h
    rw [not_or, not_not] at hdone
    simp only [appendApprovalDecided, ok_iff] at hevents
    obtain ⟨key', -, hevents⟩ := hevents
    refine Relation.ReflTransGen.tail (.single (.decideApproval (.inr ⟨rfl, rfl⟩)
      (findApproval_eq_ok hcurrent) hdone.1 rfl ?_ hupdate)) (.append (recordEvent_appends hevents))
    intro happroved
    cases happroved

theorem resolveDecision_resolves {gate : Gate} {mid : Database} {locked : Option (WaitRecord × RunRow)}
    {key : Identifier} (hlocked : lockPendingBinding db approval = .ok locked) (hclk : Within start stop clk)
    (hprepare : Writes gate start stop db mid) (hruns : mid.runs = db.runs) (hwaits : mid.waits = db.waits)
    (h : resolveDecision mid clk result locked key reason = .ok db') : Resolves gate start stop db db' := by
  rcases locked with _ | ⟨wait, run⟩
  · cases h
    exact .writes hprepare
  · obtain ⟨hget, hrun, hwaiting, -⟩ := lockPendingBinding_eq_ok hlocked
    simp only [resolveDecision, resolveLocked, ok_iff] at h
    obtain ⟨binding, -, signal, -, ⟨db'', settled⟩, ⟨-, ⟨received, inserted⟩, hreceive, hsettle⟩, rfl⟩ := h
    obtain ⟨hreceived, hruns', hwaits'⟩ := receiveInbox_writes hreceive
    have hmid : received.waits.get wait.key = some wait := by rw [hwaits', hwaits]; exact hget
    exact .of_settleIfReady hsettle (hclk.drop 1) (hprepare.trans hreceived)
      (hruns'.trans hruns) hget WaitRecord.open_of_active hmid hrun hwaiting

theorem decideApproval_resolves {approver key : Identifier} {verdict : ApprovalVerdict}
    (h : decideApproval db clk now tenant_id approval_id approver verdict key reason = .ok (db', result)) :
    Resolves .decideApproval (clk.read 0) clk.stop db db' := by
  simp only [decideApproval, lockCase, ok_iff] at h
  obtain ⟨initial, -, -, locked, hlocked, action, -, current, hcurrent, -, h⟩ := h
  split_ifs at h with hdone
  · simp only [ok_iff] at h
    obtain ⟨-, rfl, -⟩ := h
    exact .writes .refl
  · simp only [recordDecision, ok_iff, statement_eq_ok] at h
    obtain ⟨hother, -, approvals, hupdate, record, -, resolved, hresolve, events, hevents, rfl, -⟩ := h
    have hget := findApproval_eq_ok hcurrent
    have hkey : (current.tenant_id, current.approval_id) = _ := Table.key_of_get hget
    rw [hkey] at hupdate
    have hdecide : Write .decideApproval (clk.read 0) clk.stop db { db with approvals := approvals } :=
      .decideApproval (f := ApprovalRecord.decided approver verdict key reason (clk.drop 1)) (.inl rfl) hget
        (not_not.mp hdone) rfl (fun _ => ⟨approver, rfl, Ne.symm hother⟩) hupdate
    simp only [appendApprovalDecided, ok_iff] at hevents
    obtain ⟨key', -, hevents⟩ := hevents
    exact (resolveDecision_resolves hlocked ((Within.refl clk).drop 3) (.single hdecide) rfl rfl
      hresolve).append (recordEvent_appends hevents)

end

end Aftercare
