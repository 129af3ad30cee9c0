import Aftercare.System.Succession

/-!
# Strategy migrations

A migration is a compare-and-set on the latest checkpoint of a Run in review. `Applies` is all that it does and all that
it has to find, and a key that was applied is replayed for good (`migration_compare_and_set`). `migrate` looks its key up
before it takes the locks and again under them; what the first lookup saw may be older, and that makes no difference.
-/

namespace Aftercare

open Relational

variable {db : Database} {clk : Clock Time} {now t₀ t : Time} {request : StrategyMigrationRequest}
  {m : StrategyMigrationRecord} {migrated_by : Identifier}

/-- A key finds its record, since no two records have one key. -/
theorem migrationByKey_eq_some {tenant_id key : Identifier} : migrationByKey db tenant_id key = some m ↔
    m ∈ db.migrations.rows ∧ m.tenant_id = tenant_id ∧ m.idempotency_key = key := by
  have hfound : ∀ x, migrationByKey db tenant_id key = some x →
      x ∈ db.migrations.rows ∧ x.tenant_id = tenant_id ∧ x.idempotency_key = key := fun x hx =>
    ⟨List.mem_of_find?_eq_some hx, by simpa using List.find?_some hx⟩
  refine ⟨hfound m, fun hrow => ?_⟩
  obtain ⟨hm, htenant, hkey⟩ := hrow
  cases hx : migrationByKey db tenant_id key with
  | none => exact absurd (List.find?_eq_none.mp hx m hm) (by simp [htenant, hkey])
  | some x =>
    obtain ⟨hmem, htenant', hkey'⟩ := hfound x hx
    by_contra hne
    have happart := db.migrations.apart.forall hmem hm fun h => hne (by rw [h])
    simpa [htenant, htenant', hkey, hkey'] using happart.2.1

/-- A recorded migration stays. -/
theorem exec_keeps_migration [Hashing] (db : Database) (clk : Clock Time) (c : Call) (hm : m ∈ db.migrations.rows) :
    m ∈ (committed db (exec db clk c)).migrations.rows := by
  cases h : exec db clk c with
  | error e => exact hm
  | ok r => exact (exec_reviewEffect h).2 m hm

/-- `migrate` when its first lookup saw the database as it was in `seen`; the second one is that of `migrate`. -/
def migrateSeen [Hashing] (seen db : Database) (clk : Clock Time) (now : Time) (request : StrategyMigrationRequest)
    (migrated_by : Identifier) : Result (Database × StrategyMigrationRecord × Bool) :=
  match migrationByKey seen request.tenant_id request.idempotency_key with
  | some existing => do
    require (sameMigration existing request = true)
      (.contract .conflict "strategy migration replay changed")
    pure (db, existing, true)
  | none => migrate db clk now request migrated_by

/-- What a call answers whose key has a record. -/
theorem migrate_of_key [Hashing] (h : migrationByKey db request.tenant_id request.idempotency_key = some m) :
    migrate db clk now request migrated_by = if sameMigration m request = true then .ok (db, m, true)
      else .error (.contract .conflict "strategy migration replay changed") := by
  unfold migrate
  rw [h]
  by_cases hsame : sameMigration m request = true <;> simp [require, hsame]

/-- A first checkpoint that is routed for a changed strategy. -/
def changedCheckpoint (next_step : NextStep) (available_at : Option Time) : Checkpoint :=
  let v1 : Identifier := ⟨"v1", Eq.refl true⟩
  { sampleScope with
    checkpoint_version := 1, input_version := .one, case_version := .one, saved_fencing_token := .one, step_id := none
    attempt_id := none, definition_version := v1, policy_version := v1, tool_schema_version := v1
    model_config_version := v1, protocol_version := v1, strategy_id := v1, protocol_ref := none, tool_results := []
    evidence_refs := [], action_ids := [], remaining_budget := ⟨8, 4, 1000, 300000000⟩, next_step := next_step
    route_reason := some .modelStrategyChanged, pending_tool := none, pending_proposal_json := none
    resume_next_step := none, wait_id := none, wait_generation := none, available_at := available_at }

/-- The second strategy for the Run of a checkpoint. -/
def sampleMigration (c : Checkpoint) : StrategyMigrationRequest :=
  { c with
    checkpoint_version := .one, old_strategy_id := c.strategy_id, old_model_config_version := c.model_config_version
    old_policy_version := c.policy_version, old_tool_schema_version := c.tool_schema_version
    new_strategy_id := ⟨"v2", Eq.refl true⟩, new_model_config_version := c.model_config_version
    new_policy_version := c.policy_version, new_tool_schema_version := c.tool_schema_version
    reason := ⟨"a new model", by decide⟩, idempotency_key := ⟨"key-1", Eq.refl true⟩ }

/-- The checkpoint is saved, the Run goes to review, and its strategy changes. -/
def changedCalls (c : Checkpoint) : List (Time × Call) :=
  sampleCalls ++ [(3, .saveCheckpoint c sampleClaim), (4, .transition sampleClaim .review ⟨none, none, none, none, none⟩),
    (5, .requestReview 5 sampleReview), (6, .migrate 6 (sampleMigration c) sampleOwner)]

end Aftercare
