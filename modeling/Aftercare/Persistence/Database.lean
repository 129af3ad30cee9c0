import Mathlib.Tactic.Simps.Basic
import Aftercare.Domain.Events
import Aftercare.Domain.Ledger
import Aftercare.Domain.Waits

/-!
# The database

The tables of the migrations, with their keys, unique constraints and checks; columns that no modelled statement
reads are left out. The Runs and the queue are one store, because a trigger aligns them: `RunStore.insert` and
`RunStore.update` fire it, `RunStore.extend` does not.
-/

namespace Aftercare

open Relational

def foreignKey {α : Type} (constraint : String) (row : Option α) : Result Unit :=
  require (row.isSome = true) (.database constraint)

/-! ## Cases, sessions and admissions -/

/-- `aftercare_cases`. -/
@[simps]
def caseSchema : Schema CaseRecord CaseScope where
  key := CaseRecord.toCaseScope
  clash _ _ := false
  check c := decide (0 < c.version ∧ c.version ≤ maxInt)

/-- `aftercare_sessions`. -/
@[simps]
def sessionSchema : Schema SessionRecord (Identifier × Identifier) where
  key s := (s.tenant_id, s.session_id)
  clash _ _ := false
  check _ := true

/-- A row of `aftercare_admissions`. -/
structure AdmissionRow extends AdmissionKey where
  payload_digest : Sha256
  (case_id session_id run_id : Identifier)
deriving DecidableEq, Repr

/-- `aftercare_admissions`. -/
@[simps]
def admissionSchema : Schema AdmissionRow AdmissionKey where
  key := AdmissionRow.toAdmissionKey
  clash _ _ := false
  check _ := true

/-! ## Runs and their queue -/

/-- `aftercare_runs`. -/
@[simps]
def runSchema : Schema RunRow RunKey where
  key r := r.key
  clash _ _ := false
  check := RunRow.check

inductive QueueState
  | ready
  | inFlight
deriving DecidableEq, Repr

/-- A row of `aftercare_execution_queue`. -/
structure QueueRow extends RunScope where
  queue_seq : ℕ
  priority : ℤ
  available_at : Time
  state : QueueState
  claim_owner : Option Identifier
  claim_token : Option ℕ
  claimed_at : Option Time
deriving DecidableEq, Repr

/-- The constraints of migration 007 on a queue row. -/
def QueueRow.check (q : QueueRow) : Bool :=
  (q.state == .inFlight) ==
      (q.claim_owner.isSome && q.claim_token.isSome && q.claimed_at.isSome) &&
    (q.state != .ready || (q.claim_owner.isNone && q.claim_token.isNone && q.claimed_at.isNone))

/-- `aftercare_execution_queue`. -/
@[simps]
def queueSchema : Schema QueueRow RunKey where
  key q := q.key
  clash _ _ := false
  check := QueueRow.check

/-- The Runs, their queue, and the next value of its sequence. -/
structure RunStore where
  runs : Table runSchema
  queue : Table queueSchema
  queue_seq : ℕ

/-- `INSERT ... ON CONFLICT (tenant_id, run_id) DO UPDATE`. -/
def RunStore.upsertQueue (store : RunStore) (row : QueueRow) (onConflict : QueueRow → QueueRow) :
    Result RunStore := do
  let queue ← statement "aftercare_execution_queue" <|
    match store.queue.get row.key with
    | none => store.queue.insert row
    | some _ => store.queue.update row.key onConflict
  -- The default of `queue_seq` draws from the sequence whether or not the row is then inserted.
  pure { store with queue := queue, queue_seq := store.queue_seq + 1 }

/-- The trigger `aftercare_sync_execution_queue`. -/
def RunStore.sync (store : RunStore) (new : RunRow) (clk : Clock Time) : Result RunStore :=
  match new.state with
  | .running =>
    store.upsertQueue
      { new.toRunScope with
        queue_seq := store.queue_seq, priority := 0
        available_at := clk.read 0, state := .inFlight
        claim_owner := new.lease_owner, claim_token := some new.fencing_token
        claimed_at := some (clk.read 1) }
      fun q => { q with
        case_id := new.case_id, state := .inFlight
        claim_owner := new.lease_owner, claim_token := some new.fencing_token
        claimed_at := some (clk.read 1) }
  | .ready | .retryAt =>
    store.upsertQueue
      { new.toRunScope with
        queue_seq := store.queue_seq, priority := 0
        available_at := new.available_at.getD (clk.read 0), state := .ready
        claim_owner := none, claim_token := none, claimed_at := none }
      fun q => { q with
        case_id := new.case_id, available_at := new.available_at.getD (clk.read 0)
        state := .ready, claim_owner := none, claim_token := none, claimed_at := none }
  | .waitingInput | .waitingApproval | .review | .completed | .cancelled =>
    pure { store with queue := store.queue.deleteWhere fun q => q.key = new.key }

/-- `INSERT INTO aftercare_runs`, with the trigger. -/
def RunStore.insert (store : RunStore) (row : RunRow) (clk : Clock Time) : Result RunStore := do
  let runs ← statement "aftercare_runs" (store.runs.insert row)
  RunStore.sync { store with runs := runs } row clk

/-- `UPDATE aftercare_runs` on columns that the trigger watches. -/
def RunStore.update (store : RunStore) (k : RunKey) (f : RunRow → RunRow) (clk : Clock Time) :
    Result RunStore := do
  let runs ← statement "aftercare_runs" (store.runs.update k f)
  match runs.get k with
  | none => pure { store with runs := runs }
  | some new => RunStore.sync { store with runs := runs } new clk

/-- `SET lease_until`, which the trigger does not watch. -/
def RunStore.extend (store : RunStore) (k : RunKey) (leaseUntil : Time) : Result RunStore := do
  let runs ← statement "aftercare_runs"
    (store.runs.update k fun r => { r with lease_until := some leaseUntil })
  pure { store with runs := runs }

/-! ## Steps, attempts and checkpoints -/

/-- `aftercare_steps`. -/
@[simps]
def stepSchema : Schema StepRecord (Identifier × Identifier × Identifier) where
  key s := (s.tenant_id, s.run_id, s.step_id)
  clash _ _ := false
  check _ := true

/-- `aftercare_attempts`. -/
@[simps]
def attemptSchema : Schema AttemptRecord (Identifier × Identifier × Identifier) where
  key a := (a.tenant_id, a.run_id, a.attempt_id)
  clash _ _ := false
  check _ := true

/-- `aftercare_checkpoints`: the columns are fields of the payload. -/
@[simps]
def checkpointSchema : Schema Checkpoint (Identifier × Identifier × ℤ) where
  key c := (c.tenant_id, c.run_id, c.checkpoint_version)
  clash _ _ := false
  check c := decide (0 < c.checkpoint_version ∧ c.checkpoint_version ≤ maxInt)

/-! ## Waits -/

/-- `aftercare_waits`. -/
@[simps]
def waitSchema : Schema WaitRecord WaitKey where
  key := WaitRecord.key
  clash _ _ := false
  check := WaitRecord.coherent

inductive WakeupOutcome
  | reply
  | timeout
deriving DecidableEq, Repr

/-- A row of `aftercare_wait_wakeups`. -/
structure WakeupRow where
  key : WaitKey
  winner_event_id : Option Identifier
  outcome : WakeupOutcome
deriving DecidableEq, Repr

/-- `aftercare_wait_wakeups`. -/
@[simps]
def wakeupSchema : Schema WakeupRow WaitKey where
  key := WakeupRow.key
  clash _ _ := false
  check w := (w.outcome == .reply) == w.winner_event_id.isSome

/-- `aftercare_inbox`. -/
@[simps]
def inboxSchema : Schema InboxSignal (Identifier × Identifier × Identifier) where
  key s := (s.tenant_id, s.source_id, s.source_event_id)
  clash a b := a.toCaseScope == b.toCaseScope && a.event_id == b.event_id
  check _ := true

/-! ## Events -/

inductive DeliveryState
  | pending
  | claimed
  | acked
deriving DecidableEq, Repr

/-- A row of `aftercare_outbox`. -/
structure OutboxRow where
  payload : DomainEvent
  recorded_at : Time
  delivery_state : DeliveryState
  delivery_owner : Option String
  delivery_lease_until : Option Time
  delivery_attempts : ℕ
  next_attempt_at : Time
  last_error : Option String
  delivered_at : Option Time
deriving DecidableEq

/-- The constraints of migration 004 on the outbox. -/
def OutboxRow.check (r : OutboxRow) : Bool :=
  (match r.delivery_state with
    | .pending => r.delivery_owner.isNone && r.delivery_lease_until.isNone && r.delivered_at.isNone
    | .claimed => r.delivery_owner.isSome && r.delivery_lease_until.isSome && r.delivered_at.isNone
    | .acked => r.delivery_owner.isNone && r.delivery_lease_until.isNone && r.delivered_at.isSome) &&
    decide (r.delivery_attempts < 2 ^ 31)

/-- `aftercare_outbox`. -/
@[simps]
def outboxSchema : Schema OutboxRow (Identifier × Identifier) where
  key r := r.payload.key
  clash a b :=
    a.payload.toCaseScope == b.payload.toCaseScope && a.payload.case_seq == b.payload.case_seq
  check := OutboxRow.check

/-- A row of `aftercare_case_event_sequences`. -/
structure SequenceRow extends CaseScope where
  last_case_seq : ℕ
deriving DecidableEq, Repr

/-- `aftercare_case_event_sequences`. -/
@[simps]
def sequenceSchema : Schema SequenceRow CaseScope where
  key := SequenceRow.toCaseScope
  clash _ _ := false
  check s := decide (s.last_case_seq ≤ maxInt)

/-- A row of `aftercare_event_payloads`. -/
structure PayloadRow extends CaseScope where
  reference_id : Identifier
  sha256 : Sha256
  payload : Snapshot
deriving DecidableEq, Repr

/-- `aftercare_event_payloads`. -/
@[simps]
def payloadSchema : Schema PayloadRow (CaseScope × Identifier) where
  key p := (p.toCaseScope, p.reference_id)
  clash _ _ := false
  check _ := true

/-- The tables of the events, of migrations 002, 004 and 014. -/
structure EventStore where
  outbox : Table outboxSchema
  sequences : Table sequenceSchema
  payloads : Table payloadSchema

/-! ## Gates -/

/-- Two values of a unique column clash when present and equal. -/
def sameKey (a b : Option Identifier) : Bool := a.isSome && a == b

/-- `aftercare_actions`. -/
@[simps]
def actionSchema : Schema ActionRecord (Identifier × Identifier) where
  key a := (a.tenant_id, a.action_id)
  clash a b := a.tenant_id == b.tenant_id &&
    (a.business_key == b.business_key || a.idempotency_key == b.idempotency_key)
  check := ActionRecord.check

/-- `aftercare_approvals`. -/
@[simps]
def approvalSchema : Schema ApprovalRecord (Identifier × Identifier) where
  key a := (a.tenant_id, a.approval_id)
  clash a b := a.tenant_id == b.tenant_id &&
    (a.action_id == b.action_id || sameKey a.decision_idempotency_key b.decision_idempotency_key)
  check := ApprovalRecord.check

/-- `aftercare_reviews`, with one undecided review for each Run. -/
@[simps]
def reviewSchema : Schema ReviewRecord (Identifier × Identifier) where
  key r := (r.tenant_id, r.review_id)
  clash a b := a.tenant_id == b.tenant_id &&
    (sameKey a.decision_idempotency_key b.decision_idempotency_key ||
      (a.decision.isNone && b.decision.isNone && a.run_id == b.run_id))
  check := ReviewRecord.check

/-- `aftercare_review_overrides`. -/
@[simps]
def overrideSchema : Schema ReviewOverrideRecord (Identifier × Identifier) where
  key o := (o.tenant_id, o.override_id)
  clash a b := a.tenant_id == b.tenant_id && a.idempotency_key == b.idempotency_key
  check o := decide (0 < o.model_calls_add ∨ 0 < o.tool_calls_add ∨ 0 < o.cost_microusd_add ∨
    0 < o.deadline_extension_seconds)

/-- `aftercare_strategy_migrations`. -/
@[simps]
def migrationSchema : Schema StrategyMigrationRecord (Identifier × Identifier) where
  key m := (m.tenant_id, m.migration_id)
  clash a b := a.tenant_id == b.tenant_id && a.idempotency_key == b.idempotency_key
  check := StrategyMigrationRecord.check

/-! ## Execution admission -/

/-- The scope of an execution limit: all tenants, or one. -/
inductive LimitScope
  | global
  | tenant (tenant_id : Identifier)
deriving DecidableEq, Repr

/-- A row of `aftercare_admission_limits`. -/
structure LimitRow where
  scope : LimitScope
  max_active_slots : ℕ
deriving DecidableEq, Repr

/-- `aftercare_admission_limits`. -/
@[simps]
def limitSchema : Schema LimitRow LimitScope where
  key := LimitRow.scope
  clash _ _ := false
  check l := decide (0 < l.max_active_slots ∧ l.max_active_slots ≤ maxInt) &&
    match l.scope with
    | .global => true
    | .tenant tenant_id => tenant_id.val != "global"

/-- A row of `aftercare_execution_slots`. -/
structure SlotRow extends RunScope where
  owner : Identifier
  fencing_token : PositiveInt
  lease_until : Time
deriving DecidableEq, Repr

/-- `aftercare_execution_slots`. -/
@[simps]
def slotSchema : Schema SlotRow RunKey where
  key s := s.key
  clash _ _ := false
  check _ := true

/-- A row of `aftercare_tenant_fairness`. -/
structure FairnessRow where
  tenant_id : Identifier
  (last_dispatch_seq dispatch_count : ℕ)
deriving DecidableEq, Repr

/-- `aftercare_tenant_fairness`. -/
@[simps]
def fairnessSchema : Schema FairnessRow Identifier where
  key := FairnessRow.tenant_id
  clash _ _ := false
  check f := decide (f.last_dispatch_seq ≤ maxInt ∧ f.dispatch_count ≤ maxInt)

/-! ## The database -/

/-- The tables, and the next value of the dispatch sequence. -/
structure Database where
  cases : Table caseSchema
  sessions : Table sessionSchema
  admissions : Table admissionSchema
  runs : RunStore
  steps : Table stepSchema
  attempts : Table attemptSchema
  checkpoints : Table checkpointSchema
  waits : Table waitSchema
  wakeups : Table wakeupSchema
  inbox : Table inboxSchema
  events : EventStore
  actions : Table actionSchema
  approvals : Table approvalSchema
  reviews : Table reviewSchema
  overrides : Table overrideSchema
  migrations : Table migrationSchema
  limits : Table limitSchema
  slots : Table slotSchema
  fairness : Table fairnessSchema
  dispatch_seq : ℕ

/-- The database after the migrations, before any call. -/
def Database.empty : Database where
  cases := .empty
  sessions := .empty
  admissions := .empty
  runs := ⟨.empty, .empty, 1⟩
  steps := .empty
  attempts := .empty
  checkpoints := .empty
  waits := .empty
  wakeups := .empty
  inbox := .empty
  events := ⟨.empty, .empty, .empty⟩
  actions := .empty
  approvals := .empty
  reviews := .empty
  overrides := .empty
  migrations := .empty
  limits := .empty
  slots := .empty
  fairness := .empty
  dispatch_seq := 1

def Database.run (db : Database) (scope : RunScope) : Option RunRow :=
  (db.runs.runs.get scope.key).filter fun r => r.case_id == scope.case_id

end Aftercare
