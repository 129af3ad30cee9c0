import Mathlib.Data.String.Basic
import Aftercare.Persistence.RunStore

/-!
# The Run repository

The methods of `RunRepository`, `StepRepository`, `AttemptRepository` and `CheckpointRepository`. A method takes
the database and the clock of its transaction, and each statement that evaluates `clock_timestamp()` reads the
clock at its own index. The lease check of the fenced writes is `requireLease`.
-/

namespace Aftercare

open Relational

/-! ## The lease check -/

/-- Lock the Run of a claim and check its lease at `t`. -/
def requireLease (db : Database) (claim : ExecutionClaim) (t : Time) : Result Unit := do
  let run ← fetch (db.run claim.toRunScope) (.contract .leaseLost "execution lease lost")
  require (run.state = .running ∧ run.lease_owner = some claim.owner ∧
    run.fencing_token = claim.fencing_token.val) (.contract .leaseLost "execution lease lost")
  require (run.lease_until.any (t < ·) = true) (.contract .leaseLost "execution lease lost")

theorem Database.run_eq_some {db : Database} {scope : RunScope} {r : RunRow} :
    db.run scope = some r ↔ db.runs.runs.get scope.key = some r ∧ r.toRunScope = scope := by
  unfold Database.run
  rw [Option.filter_eq_some_iff]
  constructor
  · rintro ⟨hget, hcase⟩
    have hkey : scope.key = r.toRunScope.key := (Table.key_of_get hget).symm
    refine ⟨hget, ?_⟩
    have hscope := RunScope.eq_of_key hkey
    rw [beq_iff_eq.mp hcase] at hscope
    exact hscope.symm
  · rintro ⟨hget, hscope⟩
    exact ⟨hget, by simp [hscope]⟩

theorem requireLease_eq_ok {db : Database} {claim : ExecutionClaim} {t : Time} : requireLease db claim t = .ok () ↔
      ∃ r, db.run claim.toRunScope = some r ∧ claim.validOn r t = true := by
  simp only [requireLease, ok_iff]
  constructor
  · rintro ⟨r, hr, ⟨hstate, howner, htoken⟩, hlease⟩
    have hscope := (Database.run_eq_some.mp hr).2
    exact ⟨r, hr, by simp [ExecutionClaim.validOn, hscope, hstate, howner, htoken, hlease]⟩
  · rintro ⟨r, hr, hvalid⟩
    simp only [ExecutionClaim.validOn, Bool.and_eq_true, beq_iff_eq] at hvalid
    obtain ⟨⟨⟨⟨-, hstate⟩, howner⟩, htoken⟩, hlease⟩ := hvalid
    exact ⟨r, hr, ⟨hstate, howner, htoken⟩, hlease⟩

/-! ## Cases -/

def createCase (db : Database) (case : CaseRecord) : Result Database := do
  let cases ← statement "aftercare_cases" (db.cases.insert case)
  pure { db with cases := cases }

def updateVersion (db : Database) (scope : CaseScope) (expected_version : ℕ)
    (status : Option CaseStatus) : Result (Database × ℕ) := do
  let current ← fetch ((db.cases.get scope).filter fun c => c.version == expected_version)
    (.contract .conflict "case version changed or case missing")
  let cases ← statement "aftercare_cases" <| db.cases.update scope fun c =>
    { c with version := c.version + 1, status := status.getD c.status }
  pure ({ db with cases := cases }, current.version + 1)

/-! ## Runs -/

/-- The row that creates a Run, without lease, wait or time. -/
def RunRecord.initialRow (run : RunRecord) : RunRow :=
  { run.toRunRow with
    lease_owner := none, lease_until := none, wait_id := none, wait_generation := none
    available_at := none }

def createRun (db : Database) (clk : Clock Time) (run : RunRecord) : Result Database := do
  foreignKey "aftercare_runs case" (db.cases.get run.toCaseScope)
  let runs ← db.runs.insert run.initialRow clk
  pure { db with runs := runs }

/-- It is ready, or it runs under a lease that has ended. -/
def RunRow.claimable (r : RunRow) (t : Time) : Bool :=
  r.state == .ready || (r.state == .running && r.lease_until.any (· ≤ t))

def RunRow.claimed (owner : Identifier) (leaseUntil : Time) (token : ℕ) (r : RunRow) : RunRow :=
  { r with
    state := .running, lease_owner := some owner, lease_until := some leaseUntil
    fencing_token := token }

/-- The claim that a taken Run's row is returned as. -/
def RunRow.executionClaim (r : RunRow) (owner : Identifier) : Result ExecutionClaim := do
  let token ← positiveInt "ExecutionClaim" r.fencing_token
  pure ⟨r.toRunScope, owner, token⟩

def claim (db : Database) (clk : Clock Time) (tenant run_id owner : Identifier) (lease : ℤ) :
    Result (Database × ExecutionClaim) := do
  let row ← fetch ((db.runs.runs.get (tenant, run_id)).filter (·.claimable (clk.read 0)))
    (.contract .conflict "run is not claimable")
  let runs ← db.runs.update (tenant, run_id)
    (RunRow.claimed owner (clk.read 1 + lease) (row.fencing_token + 1)) (clk.drop 2)
  let updated ← fetch (runs.runs.get (tenant, run_id)) .assertion
  let claim ← updated.executionClaim owner
  pure ({ db with runs := runs }, claim)

def renew (db : Database) (clk : Clock Time) (claim : ExecutionClaim) (lease : ℤ) : Result Database := do
  requireLease db claim (clk.read 0)
  let runs ← db.runs.extend claim.key (clk.read 1 + lease)
  pure { db with runs := runs }

/-! ## Transitions -/

/-- The binding that a waiting target needs and any other refuses. -/
def requireBinding (target : RunState) (wait_id : Option Identifier) (wait_generation : Option ℕ) :
    Result Unit :=
  if target.waiting then
    require (wait_id.isSome ∧ wait_generation.any (1 ≤ ·) = true)
      (.contract .invalidInput "waiting transition needs wait binding")
  else
    require (wait_id = none ∧ wait_generation = none)
      (.contract .invalidInput "wait binding is only valid for waiting")

/-- The time that a retry needs and any other target refuses. -/
def requireAvailability (target : RunState) (available_at : Option Time) : Result Unit :=
  if target = .retryAt then
    require (available_at.isSome = true)
      (.contract .invalidInput "retry transition needs available_at")
  else require (available_at = none) (.contract .invalidInput "available_at is only valid for retry")

/-- The lease that a transition out of `RUNNING` must hold. -/
def requireLeaseIfRunning (db : Database) (previous : RunRow) (claim : ExecutionClaim) (t : Time) :
    Result Unit :=
  if previous.state = .running then requireLease db claim t else pure ()

def RunRow.moved (target : RunState) (wait_id : Option Identifier) (wait_generation : Option ℕ)
    (available_at : Option Time) (r : RunRow) : RunRow :=
  { r with
    state := target, lease_owner := none, lease_until := none
    wait_id := if target.waiting then wait_id else none
    wait_generation := if target.waiting then wait_generation else none
    available_at := if target = .retryAt then available_at else none }

structure TransitionArgs where
  (case_version expected_case_version : Option ℤ)
  wait_id : Option Identifier
  wait_generation : Option ℕ
  available_at : Option Time
deriving DecidableEq, Repr

/-- The two spellings of the expected version do not disagree. -/
def TransitionArgs.versionsAgree (args : TransitionArgs) : Bool :=
  args.case_version.isNone || args.expected_case_version.isNone ||
    args.case_version == args.expected_case_version

/-- The version that the caller expects, if it gives one. -/
def TransitionArgs.expected (args : TransitionArgs) : Option ℤ :=
  args.case_version.or args.expected_case_version

def transition (db : Database) (clk : Clock Time) (claim : ExecutionClaim) (target : RunState)
    (args : TransitionArgs) : Result (Database × RunRecord) := do
  require (args.versionsAgree = true) (.contract .conflict "case version changed")
  require (target ≠ .running) (.contract .conflict "use claim() to enter RUNNING")
  let case ← fetch (db.cases.get claim.toCaseScope) (.contract .forbidden "case not found")
  require (args.expected.all (fun version => version = (case.version : ℤ)) = true)
    (.contract .conflict "case version changed")
  let row ← fetch (db.run claim.toRunScope) (.contract .forbidden "run not found")
  let previous ← row.record
  validateTransition previous.state target
  requireLeaseIfRunning db previous.toRunRow claim (clk.read 0)
  requireBinding target args.wait_id args.wait_generation
  requireAvailability target args.available_at
  let runs ← db.runs.update claim.key
    (RunRow.moved target args.wait_id args.wait_generation args.available_at) (clk.drop 1)
  let updated ← fetch (runs.runs.get claim.key) .assertion
  let record ← updated.record
  pure ({ db with runs := runs }, record)

/-! ## The durable queue -/

/-- What `claim_next` selects by, with five readings of the clock. -/
def runnable (q : QueueRow) (r : RunRow) (t : ℕ → Time) : Bool :=
  ((q.state == .ready && decide (q.available_at ≤ t 0)) ||
      (q.state == .inFlight && r.state == .running && r.lease_until.any (· ≤ t 1))) &&
    (r.state == .ready || (r.state == .retryAt && r.available_at.any (· ≤ t 2)) ||
      (r.state == .running && r.lease_until.any (· ≤ t 3)))

/-- A limit on the tenant, or on all tenants, has no slot left. -/
def saturated (db : Database) (q : QueueRow) (t : Time) : Bool :=
  db.limits.rows.any fun l =>
    (l.scope == .global || l.scope == .tenant q.tenant_id) &&
      decide (l.max_active_slots ≤ (db.slots.select fun s =>
        decide (t < s.lease_until) && (l.scope == .global || s.tenant_id == q.tenant_id)).length)

/-- The `WHERE` clause of `claim_next`. -/
def selectable (db : Database) (tenant : Option Identifier) (t : ℕ → Time) (q : QueueRow) (r : RunRow) : Bool :=
  runnable q r t && !saturated db q (t 4) && tenant.all (· == q.tenant_id)

/-- The `ORDER BY` clause of `claim_next`. -/
def dispatchBefore (db : Database) (a b : QueueRow) : Bool :=
  let seq (q : QueueRow) := ((db.fairness.get q.tenant_id).map (·.last_dispatch_seq)).getD 0
  ((compare (seq a) (seq b)).then ((compare b.priority a.priority).then
    ((compare a.available_at b.available_at).then ((compare a.queue_seq b.queue_seq).then
      (compare a.tenant_id.val b.tenant_id.val))))).isLE

/-- The rows of the join that `claim_next` selects and can lock. -/
def candidates (db : Database) (tenant : Option Identifier) (readings : RunKey → ℕ → Time)
    (locked : RunKey → Bool) : List (QueueRow × RunRow) :=
  db.runs.queue.rows.filterMap fun q =>
    match db.run q.toRunScope with
    | some r =>
      if selectable db tenant (readings q.key) q r && !locked q.key then some (q, r) else none
    | none => none

/-- What one row of a scan may read from the clock. -/
def between (lo hi t : Time) : Time := max lo (min hi t)

/-- `claim_next` makes a Run ready whose time to retry has come. -/
def wakeRetry (db : Database) (clk : Clock Time) (row : RunRow) : Result RunStore :=
  if row.state = .retryAt then
    db.runs.update row.key (fun r => { r with state := .ready, available_at := none }) clk
  else pure db.runs

/-- The dispatch to a tenant. A tenant with a row draws twice from the sequence. -/
def recordDispatch (db : Database) (tenant : Identifier) : Result Database :=
  match db.fairness.get tenant with
  | none => do
    let fairness ← statement "aftercare_tenant_fairness"
      (db.fairness.insert ⟨tenant, db.dispatch_seq, 1⟩)
    pure { db with fairness := fairness, dispatch_seq := db.dispatch_seq + 1 }
  | some _ => do
    let fairness ← statement "aftercare_tenant_fairness" <| db.fairness.update tenant fun f =>
      { f with last_dispatch_seq := db.dispatch_seq + 1, dispatch_count := f.dispatch_count + 1 }
    pure { db with fairness := fairness, dispatch_seq := db.dispatch_seq + 2 }

/-- The row of the join that `claim_next` takes. -/
def nextCandidate (db : Database) (tenant : Option Identifier) (readings : RunKey → ℕ → Time)
    (locked : RunKey → Bool) : Option RunRow :=
  (((candidates db tenant readings locked).insertionSort
    fun a b => dispatchBefore db a.1 b.1 = true).head?).map Prod.snd

/-- `RunRepository.claim_next`, which reads the clock for each row. -/
def claimNext (db : Database) (clk : Clock Time) (readings : RunKey → ℕ → Time) (locked : RunKey → Bool)
    (tenant : Option Identifier) (owner : Identifier) (lease : ℤ) : Result (Database × Option ExecutionClaim) :=
  match nextCandidate db tenant (fun k i => between (clk.read 0) (clk.read 1) (readings k i))
      locked with
  | none => pure (db, none)
  | some row => do
    let woken ← wakeRetry db (clk.drop 2) row
    let _ ← fetch ((woken.runs.get row.key).filter (·.claimable (clk.read 4))) .assertion
    let runs ← woken.update row.key
      (RunRow.claimed owner (clk.read 5 + lease) (row.fencing_token + 1)) (clk.drop 6)
    let db ← recordDispatch { db with runs := runs } row.tenant_id
    let updated ← fetch (runs.runs.get row.key) .assertion
    let claim ← updated.executionClaim owner
    pure (db, some claim)

/-! ## Steps and attempts -/

/-- `StepRepository.create`. -/
def createStep (db : Database) (step : StepRecord) : Result Database := do
  foreignKey "aftercare_steps run" (db.run step.toRunScope)
  let steps ← statement "aftercare_steps" (db.steps.insert step)
  pure { db with steps := steps }

/-- `AttemptRepository.create`. -/
def createAttempt (db : Database) (attempt : AttemptRecord) : Result Database := do
  foreignKey "aftercare_attempts step"
    ((db.steps.get (attempt.tenant_id, attempt.run_id, attempt.step_id)).filter
      fun s => s.case_id == attempt.case_id)
  let attempts ← statement "aftercare_attempts" (db.attempts.insert attempt)
  pure { db with attempts := attempts }

def setStatus (db : Database) (clk : Clock Time) (attempt : AttemptRecord) (status : AttemptStatus)
    (claim : ExecutionClaim) : Result (Database × AttemptRecord) := do
  require (attempt.toRunScope = claim.toRunScope ∧ attempt.fencing_token = claim.fencing_token)
    (.contract .leaseLost "attempt fence is stale")
  require (status ≠ .started) (.contract .invalidInput "invalid attempt status")
  requireLease db claim (clk.read 0)
  let key := (attempt.tenant_id, attempt.run_id, attempt.attempt_id)
  let current ← fetch ((db.attempts.get key).filter
      fun a => a.case_id == attempt.case_id && a.step_id == attempt.step_id)
    (.contract .forbidden "attempt not found")
  require (current.status = .started) (.contract .conflict "attempt is already terminal")
  let attempts ← statement "aftercare_attempts" <|
    db.attempts.update key fun a => { a with status := status }
  pure ({ db with attempts := attempts }, { current with status := status })

/-! ## Checkpoints -/

/-- `CheckpointRepository.save`. -/
def saveCheckpoint (db : Database) (clk : Clock Time) (checkpoint : Checkpoint)
    (claim : ExecutionClaim) : Result Database := do
  requireLease db claim (clk.read 0)
  require (checkpoint.toRunScope = claim.toRunScope)
    (.contract .leaseLost "execution lease lost")
  require (checkpoint.saved_fencing_token = claim.fencing_token)
    (.contract .leaseLost "checkpoint fence is stale")
  let checkpoints ← statement "aftercare_checkpoints" (db.checkpoints.insert checkpoint)
  pure { db with checkpoints := checkpoints }

/-- The stored checkpoint of a Run with the highest version. -/
def latestCheckpoint (db : Database) (tenant run_id : Identifier) : Option Checkpoint :=
  ((db.checkpoints.select fun c => c.tenant_id == tenant && c.run_id == run_id).insertionSort
    fun a b => b.checkpoint_version ≤ a.checkpoint_version).head?

def Checkpoint.decode (c : Checkpoint) : Result Checkpoint := do
  require (c.valid = true) (.validation "Checkpoint")
  pure c

def getLatest (db : Database) (tenant run_id : Identifier) : Result (Option Checkpoint) :=
  match latestCheckpoint db tenant run_id with
  | none => pure none
  | some c => do
    let checkpoint ← c.decode
    pure (some checkpoint)

end Aftercare
