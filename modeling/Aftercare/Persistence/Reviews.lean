import Aftercare.Persistence.Waits

/-!
# The review and strategy migration repositories

A review is requested while its Run is in `REVIEW`, and its one decision continues or cancels the Run in the same
transaction. An override and a migration write a checkpoint by `model_copy`, which does not validate:
`Checkpoint.overridden` and `Checkpoint.migrated`.
-/

namespace Aftercare

open Relational

variable {db db' : Database} {c updated : Checkpoint} {override : Option ReviewOverrideRequest}
  {request : StrategyMigrationRequest} {now stop : Time} {clk : Clock Time} {result : ReviewRecord}
  {decision : ReviewDecision} {reviewer : Identifier}

/-! ## Checkpoints -/

/-- `_latest_checkpoint`, with a message of its own for a bad payload. -/
def latestScopedCheckpoint (db : Database) (scope : RunScope) (message : String) : Result (Option Checkpoint) :=
  match ((db.checkpoints.select fun c => c.toRunScope == scope).insertionSort
      fun a b => b.checkpoint_version ≤ a.checkpoint_version).head? with
  | none => pure none
  | some c => do
    require (c.valid = true) (.contract .retryable message)
    pure (some c)

/-- `_NON_RESUMABLE_CONTINUE_REASONS`, and what an override answers each with. -/
def exhaustion (override : ReviewOverrideRequest) : RouteReason → Option (ℕ × String)
  | .modelBudgetExhausted => some (override.model_calls_add, "model_budget")
  | .toolBudgetExhausted => some (override.tool_calls_add, "tool_budget")
  | .costBudgetExhausted => some (override.cost_microusd_add, "cost_budget")
  | .deadlinePassed => some (override.deadline_extension_seconds, "deadline_passed")
  | _ => none

/-- A decision to continue has to answer it with an override. -/
def RouteReason.exhausted : RouteReason → Bool
  | .modelBudgetExhausted | .toolBudgetExhausted | .costBudgetExhausted | .deadlinePassed => true
  | _ => false

def RemainingBudget.extended (budget : RemainingBudget) (override : ReviewOverrideRequest) :
    RemainingBudget where
  model_calls := budget.model_calls + override.model_calls_add
  tool_calls := budget.tool_calls + override.tool_calls_add
  cost_microusd := budget.cost_microusd + override.cost_microusd_add
  deadline := budget.deadline + override.deadline_extension_seconds * 1000000

/-- The `model_copy` of an override. -/
def Checkpoint.overridden (c : Checkpoint) (override : ReviewOverrideRequest) : Checkpoint :=
  { c with
    checkpoint_version := c.checkpoint_version + 1
    remaining_budget := c.remaining_budget.extended override
    next_step := .model, route_reason := none, available_at := none, pending_tool := none
    pending_proposal_json := none, wait_id := none, wait_generation := none
    resume_next_step := none }

/-- The `model_copy` of a strategy migration. -/
def Checkpoint.migrated (c : Checkpoint) (request : StrategyMigrationRequest) : Checkpoint :=
  { c with
    checkpoint_version := c.checkpoint_version + 1
    strategy_id := request.new_strategy_id
    model_config_version := request.new_model_config_version
    policy_version := request.new_policy_version
    tool_schema_version := request.new_tool_schema_version
    route_reason := some .strategyMigrationReady, next_step := .review, available_at := none }

/-- What an override has to satisfy, and the checkpoint it leaves. -/
def overrideCheckpoint (checkpoint : Checkpoint) (reason : RouteReason)
    (override : ReviewOverrideRequest) : Result Checkpoint := do
  require ((override.checkpoint_version.val : ℤ) = checkpoint.checkpoint_version)
    (.contract .conflict "review checkpoint version changed")
  let (added, name) ← fetch (exhaustion override reason) .assertion
  require (0 < added)
    (.contract .invalidInput ("override must increase the exhausted " ++ name ++ " budget"))
  let budget := checkpoint.remaining_budget.extended override
  require (budget.model_calls ≤ maxInt ∧ budget.tool_calls ≤ maxInt ∧ budget.cost_microusd ≤ maxInt)
    (.contract .invalidInput "review override exceeds budget limits")
  require (budget.deadline ≤ maxDatetime)
    (.contract .invalidInput "review deadline is out of range")
  pure (checkpoint.overridden override)

/-- What a migration has to find, and the checkpoint it leaves. -/
def migrateCheckpoint (db : Database) (request : StrategyMigrationRequest) : Result Checkpoint := do
  let latest ← latestScopedCheckpoint db request.toRunScope "latest strategy checkpoint is invalid"
  let checkpoint ← fetch latest (.contract .conflict "strategy migration needs a checkpoint")
  require (checkpoint.route_reason = some .modelStrategyChanged)
    (.contract .conflict "strategy migration requires strategy-changed route")
  require (checkpoint.checkpoint_version = (request.checkpoint_version.val : ℤ))
    (.contract .conflict "strategy checkpoint version changed")
  require ((checkpoint.strategy_id, checkpoint.model_config_version, checkpoint.policy_version,
      checkpoint.tool_schema_version) = (request.old_strategy_id, request.old_model_config_version,
      request.old_policy_version, request.old_tool_schema_version))
    (.contract .conflict "strategy checkpoint identity changed")
  pure (checkpoint.migrated request)

theorem latestScopedCheckpoint_valid {scope : RunScope} {message : String}
    (h : latestScopedCheckpoint db scope message = .ok (some c)) : c.valid = true := by
  unfold latestScopedCheckpoint at h
  split at h
  · cases h
  · simp only [ok_iff, Option.some.injEq] at h
    obtain ⟨hvalid, rfl⟩ := h
    exact hvalid

theorem overrideCheckpoint_sound {reason : RouteReason} {override : ReviewOverrideRequest}
    (hc : c.Kept) (h : overrideCheckpoint c reason override = .ok updated) : updated.Sound := by
  simp only [overrideCheckpoint, ok_iff] at h
  obtain ⟨-, ⟨added, name⟩, -, -, ⟨hmodel, htool, hcost⟩, -, rfl⟩ := h
  have hbudget : (c.remaining_budget.extended override).InRange :=
    ⟨⟨Int.add_nonneg hc.budget.model_calls.1 (Int.natCast_nonneg _), hmodel⟩,
      ⟨Int.add_nonneg hc.budget.tool_calls.1 (Int.natCast_nonneg _), htool⟩,
      ⟨Int.add_nonneg hc.budget.cost_microusd.1 (Int.natCast_nonneg _), hcost⟩⟩
  exact
    { attempt := hc.attempt, refs := hc.refs, unique := hc.unique, budget := hbudget
      wait := by simp [Checkpoint.overridden]
      retry := by simp [Checkpoint.overridden]
      route := by simp [Checkpoint.overridden]
      tool := by simp [Checkpoint.overridden]
      fresh := by simp [Checkpoint.overridden]
      proposal := by simp [Checkpoint.overridden] }

/-- A migration leaves a sound checkpoint. -/
theorem migrateCheckpoint_sound (h : migrateCheckpoint db request = .ok updated) : updated.Sound := by
  simp only [migrateCheckpoint, ok_iff] at h
  obtain ⟨latest, hlatest, c, rfl, hreason, -, -, rfl⟩ := h
  have hc := (Checkpoint.valid_iff.mp (latestScopedCheckpoint_valid hlatest)).2
  have hrouted : c.next_step = .review ∨ c.next_step = .retry := hc.route.mpr (by rw [hreason]; rfl)
  have hphase : c.next_step ≠ .wait ∧ c.next_step ≠ .tool ∧ c.next_step ≠ .evaluate := by
    rcases hrouted with h | h <;> rw [h] <;> decide
  have hwait := hc.wait
  rw [if_neg hphase.1] at hwait
  exact
    { attempt := hc.attempt, refs := hc.refs, unique := hc.unique, budget := hc.budget
      wait := by simpa [Checkpoint.migrated] using hwait
      retry := by simp [Checkpoint.migrated]
      route := by simp [Checkpoint.migrated]
      tool := by simpa [Checkpoint.migrated, hwait.1, hphase.2.1] using hc.tool
      fresh := hc.fresh
      proposal := by simpa [Checkpoint.migrated, hwait.1, hphase.2.2] using hc.proposal }

theorem Checkpoint.Sound.valid_of_insert {checkpoints checkpoints' : Table checkpointSchema}
    (hc : c.Sound) (h : checkpoints.insert c = .ok checkpoints') : c.valid = true := by
  have hcheck : 0 < c.checkpoint_version ∧ c.checkpoint_version ≤ maxInt := of_decide_eq_true (Table.insert_eq_ok h).1
  exact Checkpoint.valid_iff.mpr ⟨⟨by omega, hcheck.2⟩, hc⟩

/-! ## Requests -/

variable [Hashing]

def appendReviewRequested (store : EventStore) (clk : Clock Time) (now : Time)
    (record : ReviewRecord) : Result EventStore :=
  recordEvent store clk now record.toCaseScope (some record.run_id) (.review record none)
    .reviewRequested ("review:" ++ record.case_id.val ++ ":" ++ record.review_id.val ++ ":requested")
    record.review_id

def lockRun (db : Database) (scope : RunScope) : Result RunRow :=
  fetch (db.run scope) (.contract .forbidden "run not found")

/-- The row that a request inserts, with the defaults of the table. -/
def ReviewRequest.row (request : ReviewRequest) (clk : Clock Time) : ReviewRecord :=
  { request with
    decision := none, reviewer := none, decision_idempotency_key := none, decision_reason := none
    created_at := clk.read 0, decided_at := none, updated_at := clk.read 1 }

/-- `ReviewRepository.request`. -/
def requestReview (db : Database) (clk : Clock Time) (now : Time) (request : ReviewRequest) :
    Result (Database × ReviewRecord × Bool) := do
  lockCase db request.toCaseScope
  let run ← lockRun db request.toRunScope
  match db.reviews.get (request.tenant_id, request.review_id) with
  | some row => do
    let current ← row.record
    require (current.toReviewRequest = request)
      (.contract .conflict "review request replay changed")
    pure (db, current, true)
  | none => do
    require (run.state = .review) (.contract .conflict "review request requires REVIEW run")
    require (run.input_version = request.input_version)
      (.contract .conflict "review input version changed")
    let (reviews, inserted) ← statement "aftercare_reviews" (db.reviews.insertOrIgnore (request.row clk))
    -- No row has this id, so a row that stands in the way is another pending review of the Run.
    require (inserted = true) (.contract .retryable "review request outcome is unknown")
    let result ← (request.row clk).record
    let events ← appendReviewRequested db.events (clk.drop 2) now result
    pure ({ db with reviews := reviews, events := events }, result, false)

/-! ## Decisions -/

def appendReviewDecided (store : EventStore) (clk : Clock Time) (now : Time)
    (record : ReviewRecord) (override : Option ReviewOverrideRecord) : Result EventStore := do
  let key ← fetch record.decision_idempotency_key .assertion
  recordEvent store clk now record.toCaseScope (some record.run_id) (.review record override)
    .reviewDecided ("review:" ++ record.case_id.val ++ ":" ++ record.review_id.val ++
      ":decision:" ++ key.val) record.review_id

/-- `_get_override_by_key`. -/
def overrideByKey (db : Database) (tenant_id key : Identifier) : Option ReviewOverrideRecord :=
  db.overrides.rows.find? fun o => o.tenant_id == tenant_id && o.idempotency_key == key

def sameOverride : Option ReviewOverrideRecord → Option ReviewOverrideRequest → Bool
  | none, none => true
  | some current, some requested =>
    current.checkpoint_version == requested.checkpoint_version &&
      current.model_calls_add == requested.model_calls_add &&
      current.tool_calls_add == requested.tool_calls_add &&
      current.cost_microusd_add == requested.cost_microusd_add &&
      current.deadline_extension_seconds == requested.deadline_extension_seconds &&
      current.reason == requested.reason
  | _, _ => false

/-- `_assert_resume_budget` writes the new checkpoint and the override. -/
def stageOverride (db : Database) (clk : Clock Time) (review : ReviewRecord)
    (updated : Checkpoint) (override : ReviewOverrideRequest) (reviewer key : Identifier) :
    Result (Database × Option ReviewOverrideRecord) := do
  let checkpoints ← statement "aftercare_checkpoints" (db.checkpoints.insert updated)
  let override_id ← identifier "ReviewOverrideRecord" ("review-override-" ++ (Hashing.sha256
    (review.tenant_id.val ++ ":" ++ review.review_id.val ++ ":" ++ key.val)).val)
  let record : ReviewOverrideRecord :=
    { toRunScope := review.toRunScope, review_id := review.review_id, override_id := override_id
      checkpoint_version := override.checkpoint_version
      model_calls_add := override.model_calls_add, tool_calls_add := override.tool_calls_add
      cost_microusd_add := override.cost_microusd_add
      deadline_extension_seconds := override.deadline_extension_seconds
      reason := override.reason, created_by := reviewer, idempotency_key := key
      created_at := clk.read 0 }
  let overrides ← statement "aftercare_review_overrides" (db.overrides.insert record)
  pure ({ db with checkpoints := checkpoints, overrides := overrides }, some record)

def assertResumeBudget (db : Database) (clk : Clock Time) (review : ReviewRecord)
    (override : Option ReviewOverrideRequest) (reviewer key : Identifier) :
    Result (Database × Option ReviewOverrideRecord) := do
  let checkpoint ← latestScopedCheckpoint db review.toRunScope "latest review checkpoint is invalid"
  let reason := checkpoint.bind (·.route_reason)
  require (reason ≠ some .modelStrategyChanged) (.contract .conflict
    "model strategy changed; deploy an explicit strategy migration before continuing")
  match checkpoint, reason.filter (·.exhausted), override with
  | some checkpoint, some reason, some override => do
    let updated ← overrideCheckpoint checkpoint reason override
    stageOverride db clk review updated override reviewer key
  | some _, some reason, none =>
    .error (.contract (if reason = .deadlinePassed then .conflict else .budgetExhausted)
      "review needs an explicit budget or deadline override")
  | _, _, some _ =>
    .error (.contract .conflict "review override requires an exhausted budget or deadline")
  | _, _, none => pure (db, none)

/-- The gate in front of a decision, and the override it applies. -/
def applyOverride (db : Database) (clk : Clock Time) (review : ReviewRecord)
    (decision : ReviewDecision) (override : Option ReviewOverrideRequest)
    (reviewer key : Identifier) : Result (Database × Option ReviewOverrideRecord) :=
  match decision with
  | .continue => assertResumeBudget db clk review override reviewer key
  | .cancel => do
    require (override = none) (.contract .invalidInput "override requires CONTINUE")
    pure (db, none)

def ReviewDecision.target : ReviewDecision → RunState
  | .continue => .ready
  | .cancel => .cancelled

def ReviewRecord.decided (reviewer : Identifier) (decision : ReviewDecision) (key : Identifier)
    (reason : Option String) (clk : Clock Time) (r : ReviewRecord) : ReviewRecord :=
  { r with
    decision := some decision, reviewer := some reviewer, decision_idempotency_key := some key
    decision_reason := reason, decided_at := some (clk.read 0), updated_at := clk.read 1 }

/-- `ReviewRepository.decide`; `_resolve_locked` resolves the Run. -/
def decideReview (db : Database) (clk : Clock Time) (now : Time) (tenant_id review_id : Identifier)
    (reviewer : Identifier) (decision : ReviewDecision) (key : Identifier) (reason : Option String)
    (override : Option ReviewOverrideRequest) : Result (Database × ReviewRecord) := do
  let row ← fetch (db.reviews.get (tenant_id, review_id)) (.contract .forbidden "review not found")
  let current ← row.record
  lockCase db current.toCaseScope
  let run ← lockRun db current.toRunScope
  if current.decision.isSome then do
    require (current.decision = some decision ∧ current.reviewer = some reviewer ∧
        current.decision_idempotency_key = some key ∧ current.decision_reason = reason ∧
        sameOverride (overrideByKey db tenant_id key) override = true)
      (.contract .conflict "review decision replay changed")
    pure (db, current)
  else do
    require (run.state = .review) (.contract .conflict "review run is no longer in REVIEW")
    require (run.input_version = current.input_version)
      (.contract .conflict "review input version changed")
    require (reviewer ≠ current.requested_by)
      (.contract .forbidden "requester cannot review its own run")
    let (db, applied) ← applyOverride db clk current decision override reviewer key
    let reviews ← statement "aftercare_reviews" <| db.reviews.update (tenant_id, review_id)
      (ReviewRecord.decided reviewer decision key reason (clk.drop 1))
    let result ← (current.decided reviewer decision key reason (clk.drop 1)).record
    let runs ← db.runs.update current.toRunScope.key
      (RunRow.moved decision.target none none none) (clk.drop 3)
    let events ← appendReviewDecided db.events (clk.drop 5) now result applied
    pure ({ db with reviews := reviews, runs := runs, events := events }, result)

def resolveReview (db : Database) (tenant_id review_id : Identifier) : Result ReviewRecord := do
  let row ← fetch (db.reviews.get (tenant_id, review_id)) (.contract .forbidden "review not found")
  let current ← row.record
  lockCase db current.toCaseScope
  let _ ← lockRun db current.toRunScope
  require (current.decision.isSome = true) (.contract .conflict "review decision is still pending")
  pure current

/-! ## Strategy migrations -/

def appendStrategyMigrated (store : EventStore) (clk : Clock Time) (now : Time)
    (record : StrategyMigrationRecord) : Result EventStore :=
  recordEvent store clk now record.toCaseScope (some record.run_id) (.migration record)
    .reviewStrategyMigrated ("review:" ++ record.case_id.val ++ ":strategy-migration:" ++
      record.migration_id.val) record.migration_id

/-- `StrategyMigrationRepository._same_request`. -/
def sameMigration (m : StrategyMigrationRecord) (request : StrategyMigrationRequest) : Bool :=
  m.toRunScope == request.toRunScope && m.checkpoint_version_before == request.checkpoint_version &&
    m.old_strategy_id == request.old_strategy_id &&
    m.old_model_config_version == request.old_model_config_version &&
    m.old_policy_version == request.old_policy_version &&
    m.old_tool_schema_version == request.old_tool_schema_version &&
    m.new_strategy_id == request.new_strategy_id &&
    m.new_model_config_version == request.new_model_config_version &&
    m.new_policy_version == request.new_policy_version &&
    m.new_tool_schema_version == request.new_tool_schema_version &&
    m.reason == request.reason && m.idempotency_key == request.idempotency_key

/-- `StrategyMigrationRepository.get_by_key`. -/
def migrationByKey (db : Database) (tenant_id key : Identifier) : Option StrategyMigrationRecord :=
  db.migrations.rows.find? fun m => m.tenant_id == tenant_id && m.idempotency_key == key

def migrationRow (request : StrategyMigrationRequest) (migrated_by : Identifier) (created_at : Time) :
    Result StrategyMigrationRecord := do
  let migration_id ← identifier "StrategyMigrationRecord" ("strategy-migration-" ++ (Hashing.sha256
    (request.tenant_id.val ++ ":" ++ request.case_id.val ++ ":" ++ request.run_id.val ++ ":" ++
      request.idempotency_key.val)).val)
  let after ← positiveInt "StrategyMigrationRecord" (request.checkpoint_version.val + 1)
  pure
    { toRunScope := request.toRunScope, migration_id := migration_id
      checkpoint_version_before := request.checkpoint_version, checkpoint_version_after := after
      old_strategy_id := request.old_strategy_id
      old_model_config_version := request.old_model_config_version
      old_policy_version := request.old_policy_version
      old_tool_schema_version := request.old_tool_schema_version
      new_strategy_id := request.new_strategy_id
      new_model_config_version := request.new_model_config_version
      new_policy_version := request.new_policy_version
      new_tool_schema_version := request.new_tool_schema_version
      reason := request.reason, migrated_by := migrated_by
      idempotency_key := request.idempotency_key, created_at := created_at }

/-- `StrategyMigrationRepository.migrate`. -/
def migrate (db : Database) (clk : Clock Time) (now : Time) (request : StrategyMigrationRequest)
    (migrated_by : Identifier) : Result (Database × StrategyMigrationRecord × Bool) :=
  match migrationByKey db request.tenant_id request.idempotency_key with
  | some existing => do
    require (sameMigration existing request = true)
      (.contract .conflict "strategy migration replay changed")
    pure (db, existing, true)
  | none => do
    lockCase db request.toCaseScope
    let run ← lockRun db request.toRunScope
    require (run.state = .review) (.contract .conflict "strategy migration requires REVIEW run")
    require ((db.reviews.select fun r => r.toRunScope == request.toRunScope && r.decision.isNone) ≠ [])
      (.contract .conflict "strategy migration requires pending review")
    let updated ← migrateCheckpoint db request
    let checkpoints ← statement "aftercare_checkpoints" (db.checkpoints.insert updated)
    let result ← migrationRow request migrated_by (clk.read 0)
    let migrations ← statement "aftercare_strategy_migrations" (db.migrations.insert result)
    let events ← appendStrategyMigrated db.events (clk.drop 1) now result
    pure ({ db with checkpoints := checkpoints, migrations := migrations, events := events },
      result, false)

/-! ## What the methods do -/

variable {start : Time}

theorem requestReview_writes {request : ReviewRequest} {replayed : Bool}
    (h : requestReview db clk now request = .ok (db', result, replayed)) : Writes .review start stop db db' := by
  simp only [requestReview, lockCase, lockRun, ok_iff] at h
  obtain ⟨-, run, -, h⟩ := h
  split at h
  · simp only [ok_iff] at h
    obtain ⟨current, -, -, rfl, -⟩ := h
    exact .refl
  · simp only [ok_iff, statement_eq_ok] at h
    obtain ⟨-, -, ⟨reviews, inserted⟩, -, -, record, -, events, hevents, rfl, -⟩ := h
    have hreviews : Write .review start stop db { db with reviews := reviews } := .review rfl
    exact Relation.ReflTransGen.tail (.single hreviews) (.append (recordEvent_appends hevents))

theorem applyOverride_writes {review : ReviewRecord} {key : Identifier} {applied : Option ReviewOverrideRecord}
    (h : applyOverride db clk review decision override reviewer key = .ok (db', applied)) :
    Writes .review start stop db db' ∧ db'.runs = db.runs ∧ db'.events = db.events := by
  cases decision with
  | cancel =>
    simp only [applyOverride, ok_iff] at h
    obtain ⟨-, rfl, -⟩ := h
    exact ⟨.refl, rfl, rfl⟩
  | «continue» =>
    simp only [applyOverride, assertResumeBudget, ok_iff] at h
    obtain ⟨latest, hlatest, -, h⟩ := h
    split at h
    · simp only [stageOverride, ok_iff, statement_eq_ok] at h
      obtain ⟨updated, hupdated, checkpoints, hinsert, id, -, overrides, -, rfl, -⟩ := h
      have hkept := (Checkpoint.valid_iff.mp (latestScopedCheckpoint_valid hlatest)).2.toKept
      have hvalid := (overrideCheckpoint_sound hkept hupdated).valid_of_insert hinsert
      exact ⟨Relation.ReflTransGen.tail (.single (.checkpoint rfl updated hvalid hinsert)) (.review rfl), rfl, rfl⟩
    · cases h
    · cases h
    · cases h
      exact ⟨.refl, rfl, rfl⟩

theorem decideReview_writes {tenant_id review_id key : Identifier} {reason : Option String}
    (h : decideReview db clk now tenant_id review_id reviewer decision key reason override = .ok (db', result)) :
    Writes .review (clk.read 0) clk.stop db db' := by
  simp only [decideReview, lockCase, lockRun, ok_iff] at h
  obtain ⟨row, -, current, -, -, run, hrun, h⟩ := h
  split_ifs at h with hdecided
  · simp only [ok_iff] at h
    obtain ⟨-, rfl, -⟩ := h
    exact .refl
  · simp only [ok_iff, statement_eq_ok] at h
    obtain ⟨hstate, -, -, ⟨staged, applied⟩, happly, reviews, -, record, -, runs, hupdate, events, hevents, rfl, -⟩ := h
    obtain ⟨hstaged, hruns, -⟩ := applyOverride_writes happly
    simp only [appendReviewDecided, ok_iff] at hevents
    obtain ⟨key', -, hevents⟩ := hevents
    have hreviews : Write .review (clk.read 0) clk.stop staged { staged with reviews := reviews } := .review rfl
    have hget : staged.runs.runs.get current.toRunScope.key = some run := by
      rw [hruns]
      exact (Database.run_eq_some.mp hrun).1
    have htarget : decision.target = .ready ∨ decision.target = .cancelled := by
      cases decision
      · exact .inl rfl
      · exact .inr rfl
    have hmove : Write .review (clk.read 0) clk.stop { staged with reviews := reviews }
        { staged with reviews := reviews, runs := runs } :=
      .moveRun ((Within.refl clk).drop 3) ⟨le_rfl, clk.start_le_stop⟩ hget
        (.review decision.target hstate htarget) hupdate
    exact ((hstaged.tail hreviews).tail hmove).tail (.append (recordEvent_appends hevents))

theorem migrate_writes {migrated_by : Identifier} {result : StrategyMigrationRecord} {replayed : Bool}
    (h : migrate db clk now request migrated_by = .ok (db', result, replayed)) :
    Writes .review start stop db db' := by
  unfold migrate at h
  split at h
  · simp only [ok_iff] at h
    obtain ⟨-, rfl, -⟩ := h
    exact .refl
  · simp only [ok_iff, statement_eq_ok] at h
    obtain ⟨-, run, -, -, -, updated, hupdated, checkpoints, hinsert, record, -, migrations, -,
      events, hevents, rfl, -⟩ := h
    have hvalid := (migrateCheckpoint_sound hupdated).valid_of_insert hinsert
    have hsaved : Write .review start stop db { db with checkpoints := checkpoints } :=
      .checkpoint rfl updated hvalid hinsert
    have hstaged : Write .review start stop { db with checkpoints := checkpoints }
        { db with checkpoints := checkpoints, migrations := migrations } := .review rfl
    exact (Relation.ReflTransGen.tail (.single hsaved) hstaged).tail (.append (recordEvent_appends hevents))

end Aftercare
