import Aftercare.System.Checkpoints
import Aftercare.System.Fencing

/-!
# The review gate

The decision of a review, the checkpoint with the budget that it adds and the move of the Run are one transaction
(`Decides`), and a decision that is made again does nothing. `ReviewEffect` says that besides it only new requests
are written, and `review_gate` is about every history.
-/

namespace Aftercare

open Relational Text

variable {db db' : Database} {c : PoolCall} {c' : Checkpoint} {reason : RouteReason}
  {override : Option ReviewOverrideRequest} {clk : Clock Time} {decision : ReviewDecision}
  {reviewer : Identifier} {r result current : ReviewRecord} {now stop : Time} {s : WorkerPool}

variable {gate : Gate}

/-! ## The latest checkpoint -/

structure IsLatest (db : Database) (scope : RunScope) (c : Checkpoint) : Prop where
  stored : c ∈ db.checkpoints.rows
  scope_eq : c.toRunScope = scope
  latest : ∀ c' ∈ db.checkpoints.rows, c'.toRunScope = scope →
    c'.checkpoint_version ≤ c.checkpoint_version

theorem IsLatest.unique {scope : RunScope} {c : Checkpoint} (h : IsLatest db scope c)
    (h' : IsLatest db scope c') : c = c' := by
  have hversion : c.checkpoint_version = c'.checkpoint_version :=
    le_antisymm (h'.latest c h.stored h.scope_eq) (h.latest c' h'.stored h'.scope_eq)
  have hscope : c.toRunScope = c'.toRunScope := h.scope_eq.trans h'.scope_eq.symm
  refine Table.eq_of_key_eq h.stored h'.stored ?_
  rw [checkpointSchema_key, checkpointSchema_key, hversion, hscope]

instance : Std.Total fun a b : Checkpoint => b.checkpoint_version ≤ a.checkpoint_version :=
  ⟨fun a b => le_total b.checkpoint_version a.checkpoint_version⟩

instance : IsTrans Checkpoint fun a b => b.checkpoint_version ≤ a.checkpoint_version :=
  ⟨fun _ _ _ hab hbc => hbc.trans hab⟩

theorem latestScopedCheckpoint_latest {db : Database} {scope : RunScope} {message : String}
    {latest : Option Checkpoint} (h : latestScopedCheckpoint db scope message = .ok latest)
    {c : Checkpoint} : latest = some c ↔ IsLatest db scope c := by
  have hfound : ∀ x, latest = some x → IsLatest db scope x := by
    rintro x rfl
    unfold latestScopedCheckpoint at h
    split at h
    · cases h
    · rename_i head hhead
      simp only [ok_iff, Option.some.injEq] at h
      obtain ⟨-, rfl⟩ := h
      have hsorted := List.pairwise_insertionSort (fun a b : Checkpoint => b.checkpoint_version ≤ a.checkpoint_version)
        (db.checkpoints.select fun c => c.toRunScope == scope)
      obtain ⟨rest, hlist⟩ := List.head?_eq_some_iff.mp hhead
      have hmem : ∀ y, y ∈ head :: rest ↔ y ∈ db.checkpoints.rows ∧ y.toRunScope = scope := by
        intro y
        rw [← hlist, List.mem_insertionSort]
        simp [Table.select]
      rw [hlist] at hsorted
      obtain ⟨hstored, hscope⟩ := (hmem head).mp List.mem_cons_self
      refine ⟨hstored, hscope, fun y hy hyscope => ?_⟩
      rcases List.mem_cons.mp ((hmem y).mpr ⟨hy, hyscope⟩) with rfl | hy
      · exact le_rfl
      · exact (List.pairwise_cons.mp hsorted).1 y hy
  refine ⟨hfound c, fun hc => ?_⟩
  cases hlatest : latest with
  | some x => rw [(hfound x hlatest).unique hc]
  | none =>
    -- No checkpoint was found, but `c` is one.
    subst hlatest
    unfold latestScopedCheckpoint at h
    split at h
    · rename_i hhead
      have hmem : c ∈ (db.checkpoints.select fun c => c.toRunScope == scope).insertionSort
          fun a b => b.checkpoint_version ≤ a.checkpoint_version := by
        rw [List.mem_insertionSort]
        simp [Table.select, hc.stored, hc.scope_eq]
      rw [List.head?_eq_none_iff.mp hhead] at hmem
      cases hmem
    · simp only [ok_iff] at h
      cases h.2

/-! ## What a decision does -/

/-- The part of a budget whose exhaustion a reason names. -/
def RouteReason.dimension : RouteReason → Option (RemainingBudget → ℤ)
  | .modelBudgetExhausted => some RemainingBudget.model_calls
  | .toolBudgetExhausted => some RemainingBudget.tool_calls
  | .costBudgetExhausted => some RemainingBudget.cost_microusd
  | .deadlinePassed => some RemainingBudget.deadline
  | _ => none

/-- An override of the checkpoint that raises what is exhausted. -/
structure Raises (c : Checkpoint) (reason : RouteReason) (override : ReviewOverrideRequest)
    (c' : Checkpoint) : Prop where
  named : (override.checkpoint_version.val : ℤ) = c.checkpoint_version
  next : c'.toRunScope = c.toRunScope ∧ c'.checkpoint_version = c.checkpoint_version + 1
  raised : ∃ dimension, reason.dimension = some dimension ∧
    dimension c.remaining_budget < dimension c'.remaining_budget
  model_calls : c.remaining_budget.model_calls ≤ c'.remaining_budget.model_calls ∧
    c'.remaining_budget.model_calls ≤ maxInt
  tool_calls : c.remaining_budget.tool_calls ≤ c'.remaining_budget.tool_calls ∧
    c'.remaining_budget.tool_calls ≤ maxInt
  cost_microusd : c.remaining_budget.cost_microusd ≤ c'.remaining_budget.cost_microusd ∧
    c'.remaining_budget.cost_microusd ≤ maxInt
  deadline : c.remaining_budget.deadline ≤ c'.remaining_budget.deadline

theorem overrideCheckpoint_raises {c : Checkpoint} {override : ReviewOverrideRequest}
    (h : overrideCheckpoint c reason override = .ok c') : Raises c reason override c' := by
  simp only [overrideCheckpoint, ok_iff] at h
  obtain ⟨hnamed, ⟨added, name⟩, hadded, hpos, ⟨hmodel, htool, hcost⟩, -, rfl⟩ := h
  have hadds : ∀ (x : ℤ) (n : ℕ), x ≤ x + n := fun x n => by omega
  have hextends : ∀ (x : ℤ) (n : ℕ), x ≤ x + n * 1000000 := fun x n => by omega
  refine ⟨hnamed, ⟨rfl, rfl⟩, ?_, ⟨hadds _ _, hmodel⟩, ⟨hadds _ _, htool⟩, ⟨hadds _ _, hcost⟩, hextends _ _⟩
  cases reason <;> simp only [exhaustion, Option.some.injEq, Prod.mk.injEq, reduceCtorEq] at hadded
  all_goals
    obtain ⟨rfl, -⟩ := hadded
    refine ⟨_, rfl, ?_⟩
    simp only [Checkpoint.overridden, RemainingBudget.extended]
    omega

/-- A decision overrides a checkpoint at which something is exhausted. -/
inductive Resumes (db : Database) (review : ReviewRecord) (decision : ReviewDecision)
    (override : Option ReviewOverrideRequest) (db' : Database) : Prop
  | plain (hnone : override = none) (hoverrides : db'.overrides = db.overrides)
      (hresumable : decision = .continue → ∀ c, IsLatest db review.toRunScope c →
        c.route_reason ≠ some .modelStrategyChanged ∧
          ∀ reason, c.route_reason = some reason → reason.dimension = none)
  | overridden {c c' : Checkpoint} {reason : RouteReason} {requested : ReviewOverrideRequest}
      {o : ReviewOverrideRecord} (hcontinue : decision = .continue)
      (hsome : override = some requested) (hlatest : IsLatest db review.toRunScope c)
      (hreason : c.route_reason = some reason) (hraises : Raises c reason requested c')
      (hcheckpoint : db.checkpoints.insert c' = .ok db'.checkpoints)
      (hscope : o.toRunScope = review.toRunScope ∧ o.review_id = review.review_id)
      (hversion : o.checkpoint_version = requested.checkpoint_version)
      (hoverride : db.overrides.insert o = .ok db'.overrides)

theorem RouteReason.exhausted_iff : reason.exhausted = true ↔ reason.dimension.isSome = true := by
  cases reason <;> decide

theorem applyOverride_resumes [Hashing] {review : ReviewRecord} {key : Identifier}
    {applied : Option ReviewOverrideRecord}
    (h : applyOverride db clk review decision override reviewer key = .ok (db', applied)) :
    Resumes db review decision override db' ∧ db'.reviews = db.reviews ∧ db'.runs = db.runs ∧
      db'.migrations = db.migrations := by
  cases decision with
  | cancel =>
    simp only [applyOverride, ok_iff] at h
    obtain ⟨hnone, rfl, -⟩ := h
    exact ⟨.plain hnone rfl fun hcontinue => (by cases hcontinue), rfl, rfl, rfl⟩
  | «continue» =>
    simp only [applyOverride, assertResumeBudget, ok_iff] at h
    obtain ⟨latest, hlatest, hstrategy, h⟩ := h
    have hiff := fun c => latestScopedCheckpoint_latest (c := c) hlatest
    split at h
    · rename_i c reason requested hreason
      obtain ⟨hreason, -⟩ := Option.filter_eq_some_iff.mp hreason
      simp only [stageOverride, ok_iff, statement_eq_ok] at h
      obtain ⟨c', hc', checkpoints, hinsert, id, -, overrides, hoverride, rfl, -⟩ := h
      exact ⟨.overridden rfl rfl ((hiff c).mp rfl) hreason (overrideCheckpoint_raises hc') hinsert
        ⟨rfl, rfl⟩ rfl hoverride, rfl, rfl, rfl⟩
    · cases h
    · cases h
    · rename_i latest _ hnot
      cases h
      refine ⟨.plain rfl rfl fun _ c hc => ?_, rfl, rfl, rfl⟩
      obtain rfl := (hiff c).mpr hc
      refine ⟨hstrategy, fun reason hreason => ?_⟩
      by_contra hsome
      have hexhausted : reason.exhausted = true := RouteReason.exhausted_iff.mpr (Option.isSome_iff_ne_none.mpr hsome)
      exact hnot c reason rfl (Option.filter_eq_some_iff.mpr ⟨hreason, hexhausted⟩)

/-- What the transaction that records a decision does. -/
structure Decides (db db' : Database) (current result : ReviewRecord) (reviewer : Identifier)
    (decision : ReviewDecision) (override : Option ReviewOverrideRequest) : Prop where
  found : db.reviews.get (current.tenant_id, current.review_id) = some current
  undecided : current.decision = none
  request_eq : result.toReviewRequest = current.toReviewRequest
  decision_eq : result.decision = some decision
  reviewer_eq : result.reviewer = some reviewer
  by_other : reviewer ≠ current.requested_by
  recorded : ∃ f, f current = result ∧
    db.reviews.update (current.tenant_id, current.review_id) f = .ok db'.reviews
  moved : ∃ run run', db.run current.toRunScope = some run ∧ run.state = .review ∧
    db'.run current.toRunScope = some run' ∧ run'.state = decision.target
  resumed : Resumes db current decision override db'

theorem ReviewRecord.record_eq_ok {r' : ReviewRecord} (h : r.record = .ok r') : r = r' := by
  simp only [ReviewRecord.record, ok_iff] at h
  exact h.2

/-- **What `decide` does**: nothing to a decided review, and any other is decided. -/
theorem decideReview_decides [Hashing] {tenant_id review_id key : Identifier} {reason : Option String}
    (h : decideReview db clk now tenant_id review_id reviewer decision key reason override = .ok (db', result)) :
    ∃ current, db.reviews.get (tenant_id, review_id) = some current ∧ db'.migrations = db.migrations ∧
      (db' = db ∨ Decides db db' current result reviewer decision override) := by
  simp only [decideReview, lockCase, lockRun, ok_iff] at h
  obtain ⟨row, hget, current, hrecord, -, run, hrun, h⟩ := h
  obtain rfl := ReviewRecord.record_eq_ok hrecord
  refine ⟨row, hget, ?_⟩
  obtain ⟨htenant, hid⟩ := Prod.mk.inj (Table.key_of_get hget)
  subst htenant hid
  split_ifs at h with hdecided
  · simp only [ok_iff] at h
    obtain ⟨-, rfl, -⟩ := h
    exact ⟨rfl, .inl rfl⟩
  · simp only [ok_iff, statement_eq_ok] at h
    obtain ⟨hstate, -, hother, ⟨staged, applied⟩, happly, reviews, hupdate, record, hresult, runs,
      hruns, events, hevents, rfl, rfl⟩ := h
    obtain ⟨hresumes, hreviews, hsame, hmigrations⟩ := applyOverride_resumes happly
    obtain rfl := ReviewRecord.record_eq_ok hresult
    obtain ⟨hrow, hscope⟩ := Database.run_eq_some.mp hrun
    rw [hreviews] at hupdate
    have hget' : staged.runs.runs.get row.toRunScope.key = some run := by
      rw [hsame]
      exact hrow
    have hmoved := Database.run_update hget' rfl hruns row.toRunScope
    rw [if_pos hscope.symm] at hmoved
    refine ⟨hmigrations, .inr ⟨hget, Option.not_isSome_iff_eq_none.mp hdecided, rfl, rfl, rfl, hother,
      ⟨_, rfl, hupdate⟩, ⟨run, _, hrun, hstate, hmoved, rfl⟩, ?_⟩⟩
    cases hresumes with
    | plain hnone hoverrides hresumable => exact .plain hnone hoverrides hresumable
    | overridden hcontinue hsome hlatest hreason hraises hcheckpoint hscope hversion hoverride =>
      exact .overridden hcontinue hsome hlatest hreason hraises hcheckpoint hscope hversion hoverride

/-! ## What a step does -/

/-- What a step of the pool does to the reviews and the overrides. -/
inductive ReviewEffect (db : Database) (c : PoolCall) (db' : Database) : Prop
  | kept (hreviews : db'.reviews = db.reviews) (hoverrides : db'.overrides = db.overrides)
  | requested (r : ReviewRecord) (hnew : r.decision = none)
      (hinsert : db.reviews.insert r = .ok db'.reviews) (hoverrides : db'.overrides = db.overrides)
  | decided {now : Time} {tenant_id review_id reviewer key : Identifier}
      {decision : ReviewDecision} {reason : Option String}
      {override : Option ReviewOverrideRequest} {current result : ReviewRecord}
      (hcall : c = .call (.decideReview now tenant_id review_id reviewer decision key reason override))
      (h : Decides db db' current result reviewer decision override)

theorem Write.reviews_eq {start : Time} (hgate : gate ≠ .review) (h : Write gate start stop db db') :
    db'.reviews = db.reviews ∧ db'.overrides = db.overrides ∧ db'.migrations = db.migrations := by
  cases h with
  | review h => exact absurd h hgate
  | _ => exact ⟨rfl, rfl, rfl⟩

theorem Writes.reviews_eq {start : Time} (hgate : gate ≠ .review) (h : Writes gate start stop db db') :
    db'.reviews = db.reviews ∧ db'.overrides = db.overrides ∧ db'.migrations = db.migrations := by
  induction h with
  | refl => exact ⟨rfl, rfl, rfl⟩
  | tail _ hlast ih =>
    obtain ⟨hreviews, hoverrides, hmigrations⟩ := hlast.reviews_eq hgate
    exact ⟨hreviews.trans ih.1, hoverrides.trans ih.2.1, hmigrations.trans ih.2.2⟩

theorem Effect.reviews_eq {start : Time} {c : Call} (hgate : c.gate ≠ .review) (h : Effect start stop db c db') :
    db'.reviews = db.reviews ∧ db'.overrides = db.overrides ∧ db'.migrations = db.migrations := by
  exact h.rule (fun hwrites => hwrites.reviews_eq hgate) (fun hmid => hmid) (fun _ _ => ⟨rfl, rfl, rfl⟩)
    (fun _ _ => ⟨rfl, rfl, rfl⟩)

theorem requestReview_requests [Hashing] {request : ReviewRequest} {replayed : Bool} (c : PoolCall)
    (h : requestReview db clk now request = .ok (db', result, replayed)) :
    ReviewEffect db c db' ∧ db'.migrations = db.migrations := by
  simp only [requestReview, lockCase, lockRun, ok_iff] at h
  obtain ⟨-, run, -, h⟩ := h
  split at h
  · simp only [ok_iff] at h
    obtain ⟨current, -, -, rfl, -⟩ := h
    exact ⟨.kept rfl rfl, rfl⟩
  · simp only [ok_iff, statement_eq_ok] at h
    obtain ⟨-, -, ⟨reviews, inserted⟩, hinsert, rfl, record, -, events, -, rfl, -⟩ := h
    rcases Table.insertOrIgnore_eq_ok hinsert with ⟨-, hinsert⟩ | ⟨hfalse, -⟩
    · exact ⟨.requested _ rfl hinsert rfl, rfl⟩
    · cases hfalse

/-- What an applied migration has found and what it has written. -/
structure Applies (db db' : Database) (request : StrategyMigrationRequest) (m : StrategyMigrationRecord) : Prop where
  reviewed : ∃ r, db.run request.toRunScope = some r ∧ r.state = .review
  pending : ∃ v ∈ db.reviews.rows, v.toRunScope = request.toRunScope ∧ v.decision = none
  appended : ∃ c, IsLatest db request.toRunScope c ∧ c.route_reason = some .modelStrategyChanged ∧
    c.checkpoint_version = (request.checkpoint_version.val : ℤ) ∧
    (c.strategy_id, c.model_config_version, c.policy_version, c.tool_schema_version) =
      (request.old_strategy_id, request.old_model_config_version, request.old_policy_version,
        request.old_tool_schema_version) ∧
    (c.next_step = .review ∧ c.available_at = none ∨ c.next_step = .retry) ∧
    db.checkpoints.insert { c with
      checkpoint_version := c.checkpoint_version + 1, strategy_id := request.new_strategy_id
      model_config_version := request.new_model_config_version, policy_version := request.new_policy_version
      tool_schema_version := request.new_tool_schema_version, route_reason := some .strategyMigrationReady
      next_step := .review, available_at := none } = .ok db'.checkpoints
  recorded : sameMigration m request = true ∧ db.migrations.insert m = .ok db'.migrations
  rest : db' = { db with checkpoints := db'.checkpoints, migrations := db'.migrations, events := db'.events }

theorem sameMigration_migrationRow [Hashing] {request : StrategyMigrationRequest} {migrated_by : Identifier}
    {m : StrategyMigrationRecord} {created_at : Time} (h : migrationRow request migrated_by created_at = .ok m) :
    sameMigration m request = true := by
  simp only [migrationRow, ok_iff] at h
  obtain ⟨id, -, after, -, rfl⟩ := h
  simp [sameMigration]

/-- **One call of `migrate`** replays its record, or is applied. -/
theorem migrate_cases [Hashing] {request : StrategyMigrationRequest} {migrated_by : Identifier}
    {m : StrategyMigrationRecord} {replayed : Bool} (h : migrate db clk now request migrated_by =
      .ok (db', m, replayed)) :
    replayed = true ∧ db' = db ∧ migrationByKey db request.tenant_id request.idempotency_key = some m ∧
        sameMigration m request = true ∨ replayed = false ∧ Applies db db' request m := by
  unfold migrate at h
  split at h
  · rename_i existing hkey
    simp only [ok_iff] at h
    obtain ⟨hsame, rfl, rfl, rfl⟩ := h
    exact .inl ⟨rfl, rfl, hkey, hsame⟩
  · simp only [lockRun, ok_iff, statement_eq_ok] at h
    obtain ⟨-, run, hrun, hstate, hpending, updated, hupdated, checkpoints, hinsert, record, hrow, migrations,
      hmigrations, events, -, rfl, rfl, rfl⟩ := h
    simp only [migrateCheckpoint, ok_iff] at hupdated
    obtain ⟨latest, hlatest, c, rfl, hreason, hversion, hidentity, rfl⟩ := hupdated
    obtain ⟨v, hv⟩ := List.exists_mem_of_ne_nil _ hpending
    obtain ⟨hmem, hopen⟩ := List.mem_filter.mp hv
    rw [Bool.and_eq_true, beq_iff_eq, Option.isNone_iff_eq_none] at hopen
    have hsound := (Checkpoint.valid_iff.mp (latestScopedCheckpoint_valid hlatest)).2
    have hphase : c.next_step = .review ∧ c.available_at = none ∨ c.next_step = .retry := by
      rcases hsound.route.mpr (by rw [hreason]; rfl) with hreview | hretry
      · refine .inl ⟨hreview, Option.not_isSome_iff_eq_none.mp fun hsome => ?_⟩
        have hretry := hsound.retry.mpr hsome
        rw [hreview] at hretry
        cases hretry
      · exact .inr hretry
    exact .inr ⟨rfl, ⟨run, hrun, hstate⟩, ⟨v, hmem, hopen⟩,
      ⟨c, (latestScopedCheckpoint_latest hlatest).mp rfl, hreason, hversion, by simp only [hidentity], hphase, hinsert⟩,
      ⟨sameMigration_migrationRow hrow, hmigrations⟩, rfl⟩

theorem exec_reviewEffect [Hashing] {c : Call} {o : Output} (h : exec db clk c = .ok (db', o)) :
    ReviewEffect db (.call c) db' ∧ ∀ m ∈ db.migrations.rows, m ∈ db'.migrations.rows := by
  cases c
  case requestReview now request =>
    simp only [exec, ok_iff, Prod.exists] at h
    obtain ⟨_, result, replayed, h, rfl, -⟩ := h
    obtain ⟨heffect, hmigrations⟩ := requestReview_requests _ h
    exact ⟨heffect, fun m hm => by rwa [hmigrations]⟩
  case decideReview =>
    simp only [exec, ok_iff, Prod.exists] at h
    obtain ⟨_, result, h, rfl, -⟩ := h
    obtain ⟨current, -, hmigrations, hdecides⟩ := decideReview_decides h
    refine ⟨?_, fun m hm => by rwa [hmigrations]⟩
    rcases hdecides with rfl | hdecides
    · exact .kept rfl rfl
    · exact .decided rfl hdecides
  case migrate =>
    simp only [exec, ok_iff, Prod.exists] at h
    obtain ⟨_, result, replayed, h, rfl, -⟩ := h
    rcases migrate_cases h with ⟨-, rfl, -⟩ | ⟨-, happlies⟩
    · exact ⟨.kept rfl rfl, fun m hm => hm⟩
    · refine ⟨.kept ?_ ?_, fun m hm => (Table.mem_insert happlies.recorded.2).mpr (.inl hm)⟩ <;> rw [happlies.rest]
  all_goals
    obtain ⟨hreviews, hoverrides, hmigrations⟩ := (exec_effect h).reviews_eq fun hgate => by cases hgate
    exact ⟨.kept hreviews hoverrides, fun m hm => by rwa [hmigrations]⟩

/-- The second transaction of a slice leaves the reviews alone. -/
theorem executeClaim_reviews_eq [JsonDecoding] {slice : Slice} {input : SliceInput} {c : Checkpoint}
    (h : executeClaim db clk slice input = .ok (db', c)) :
    db'.reviews = db.reviews ∧ db'.overrides = db.overrides := by
  simp only [executeClaim, ok_iff, Prod.exists] at h
  obtain ⟨previous, -, result, -, -, -, checkpoint, -, target, -, saved, hsave, moved, record, hmove, rfl, -⟩ := h
  obtain ⟨checkpoints, -, rfl⟩ := saveCheckpoint_saves hsave
  have hmoved : moved.reviews = db.reviews ∧ moved.overrides = db.overrides := by
    cases transition_transitions hmove
    exact ⟨rfl, rfl⟩
  split_ifs
  · exact hmoved
  · exact hmoved

/-- **What a step of the pool does to the reviews.** -/
theorem WorkerPool.step_reviewEffect [Hashing] [JsonDecoding] {s' : WorkerPool} {o : Unit}
    (h : WorkerPool.step s clk c = .ok (s', o)) : ReviewEffect s.db c s'.db := by
  cases WorkerPool.step_cases h with
  | call hexec => exact (exec_reviewEffect hexec).1
  | start c w hwrites hbegins =>
    obtain ⟨hreviews, hoverrides, -⟩ := hwrites.reviews_eq (by decide)
    exact .kept hreviews hoverrides
  | saved hslice hexecute =>
    obtain ⟨hreviews, hoverrides⟩ := executeClaim_reviews_eq hexecute
    exact .kept hreviews hoverrides
  | idle | dropped => exact .kept rfl rfl

theorem Decides.mem_reviews (h : Decides db db' current result reviewer decision override) :
    r ∈ db'.reviews.rows ↔ (r ∈ db.reviews.rows ∧ r ≠ current) ∨ r = result := by
  obtain ⟨f, rfl, hupdate⟩ := h.recorded
  constructor
  · intro hr
    rcases (Table.mem_update h.found hupdate).mp hr with ⟨hr, hkey⟩ | rfl
    · exact .inl ⟨hr, fun heq => hkey (heq ▸ rfl)⟩
    · exact .inr rfl
  · rintro (⟨hr, hne⟩ | rfl)
    · exact Table.mem_update_of_ne h.found hupdate hr hne
    · exact (Table.mem_update h.found hupdate).mpr (.inr rfl)

theorem ReviewEffect.keeps (h : ReviewEffect db c db') (hr : r ∈ db.reviews.rows)
    (hdecided : r.decision.isSome = true) : r ∈ db'.reviews.rows := by
  cases h with
  | kept hreviews hoverrides =>
    rw [hreviews]
    exact hr
  | requested request hnew hinsert hoverrides => exact (Table.mem_insert hinsert).mpr (.inl hr)
  | decided hcall h =>
    refine h.mem_reviews.mpr (.inl ⟨hr, fun heq => ?_⟩)
    rw [heq, h.undecided] at hdecided
    cases hdecided

theorem ReviewEffect.recorded (h : ReviewEffect db c db') (hr : r ∈ db'.reviews.rows)
    (hnew : r ∉ db.reviews.rows) (hdecided : r.decision.isSome = true) :
    ∃ now tenant_id review_id reviewer decision key reason override current,
      c = .call (.decideReview now tenant_id review_id reviewer decision key reason override) ∧
      Decides db db' current r reviewer decision override := by
  cases h with
  | kept hreviews hoverrides =>
    rw [hreviews] at hr
    exact absurd hr hnew
  | requested request hundecided hinsert hoverrides =>
    rcases (Table.mem_insert hinsert).mp hr with hr | rfl
    · exact absurd hr hnew
    · rw [hundecided] at hdecided
      cases hdecided
  | decided hcall h =>
    rcases h.mem_reviews.mp hr with ⟨hr, -⟩ | rfl
    · exact absurd hr hnew
    · exact ⟨_, _, _, _, _, _, _, _, _, hcall, h⟩

theorem ReviewEffect.overridden (h : ReviewEffect db c db') {o : ReviewOverrideRecord}
    (ho : o ∈ db'.overrides.rows) (hnew : o ∉ db.overrides.rows) :
    ∃ r ∈ db'.reviews.rows, r ∉ db.reviews.rows ∧ r.decision = some .continue ∧
      r.review_id = o.review_id ∧ ∃ x x' reason requested, IsLatest db o.toRunScope x ∧
        x.route_reason = some reason ∧ Raises x reason requested x' ∧ x' ∈ db'.checkpoints.rows := by
  cases h with
  | kept hreviews hoverrides =>
    rw [hoverrides] at ho
    exact absurd ho hnew
  | requested request hundecided hinsert hoverrides =>
    rw [hoverrides] at ho
    exact absurd ho hnew
  | @decided _ _ _ _ _ _ _ _ current result hcall h =>
    cases h.resumed with
    | plain hnone hoverrides hresumable =>
      rw [hoverrides] at ho
      exact absurd ho hnew
    | overridden hcontinue hsome hlatest hreason hraises hcheckpoint hscope hversion hoverride =>
      rcases (Table.mem_insert hoverride).mp ho with ho | rfl
      · exact absurd ho hnew
      · have hid : result.review_id = current.review_id := by rw [h.request_eq]
        have hfresh : result ∉ db.reviews.rows := by
          -- The review of this id was undecided.
          intro hmem
          have hkey : reviewSchema.key result = reviewSchema.key current := by
            rw [reviewSchema_key, reviewSchema_key, h.request_eq]
          have heq := Table.eq_of_key_eq hmem (Table.mem_of_get h.found) hkey
          have hdecision := h.decision_eq
          rw [heq, h.undecided] at hdecision
          cases hdecision
        rw [hscope.1]
        refine ⟨result, h.mem_reviews.mpr (.inr rfl), hfresh, ?_, hid.trans hscope.2.symm, _, _, _, _,
          hlatest, hreason, hraises, (Table.mem_insert hcheckpoint).mpr (.inr rfl)⟩
        rw [h.decision_eq, hcontinue]

/-! ## Histories -/

/-- What the transaction that recorded a decision did, all at once. -/
structure Recorded (db db' : Database) (r : ReviewRecord) : Prop where
  /-- The review was requested, and undecided. -/
  undecided : ∃ current ∈ db.reviews.rows, current.toReviewRequest = r.toReviewRequest ∧ current.decision = none
  by_other : ∃ reviewer, r.reviewer = some reviewer ∧ reviewer ≠ r.requested_by
  /-- The decision was applied to the Run. -/
  moved : ∃ decision run run', r.decision = some decision ∧ db.run r.toRunScope = some run ∧
    run.state = .review ∧ db'.run r.toRunScope = some run' ∧ run'.state = decision.target
  /-- A decision to continue raises what is exhausted. -/
  resumed : r.decision = some .continue → ∀ c, IsLatest db r.toRunScope c →
    c.route_reason ≠ some .modelStrategyChanged ∧
    ∀ reason, c.route_reason = some reason → reason.exhausted = true →
      ∃ requested c' o, Raises c reason requested c' ∧ c' ∈ db'.checkpoints.rows ∧
        o ∈ db'.overrides.rows ∧ o.review_id = r.review_id ∧
        (o.checkpoint_version.val : ℤ) = c.checkpoint_version

theorem Decides.recorded_all (h : Decides db db' current r reviewer decision override) : Recorded db db' r := by
  have hscope : r.toRunScope = current.toRunScope := by rw [h.request_eq]
  have hrequester : r.requested_by = current.requested_by := by rw [h.request_eq]
  have hid : r.review_id = current.review_id := by rw [h.request_eq]
  obtain ⟨run, run', hrun, hstate, hrun', htarget⟩ := h.moved
  refine ⟨⟨current, Table.mem_of_get h.found, h.request_eq.symm, h.undecided⟩,
    ⟨reviewer, h.reviewer_eq, hrequester ▸ h.by_other⟩,
    ⟨decision, run, run', h.decision_eq, hscope ▸ hrun, hstate, hscope ▸ hrun', htarget⟩, ?_⟩
  intro hcontinue c hc
  rw [hscope] at hc
  rw [h.decision_eq, Option.some.injEq] at hcontinue
  cases h.resumed with
  | plain hnone hoverrides hresumable =>
    obtain ⟨hstrategy, hplain⟩ := hresumable hcontinue c hc
    refine ⟨hstrategy, fun reason hreason hexhausted => ?_⟩
    rw [RouteReason.exhausted_iff, hplain reason hreason] at hexhausted
    cases hexhausted
  | overridden hcontinue hsome hlatest hreason hraises hcheckpoint ho hversion hoverride =>
    obtain rfl := hlatest.unique hc
    obtain ⟨dimension, hdimension, -⟩ := hraises.raised
    refine ⟨fun hstrategy => ?_, fun reason' hreason' _ => ?_⟩
    · rw [hreason, Option.some.injEq] at hstrategy
      rw [hstrategy] at hdimension
      cases hdimension
    · obtain rfl := Option.some.inj (hreason.symm.trans hreason')
      refine ⟨_, _, _, hraises, (Table.mem_insert hcheckpoint).mpr (.inr rfl),
        (Table.mem_insert hoverride).mpr (.inr rfl), ho.2.trans hid.symm, ?_⟩
      rw [hversion]
      exact hraises.named

theorem PoolHistory.reviewEffect [Hashing] [JsonDecoding] {h : List PoolTransaction} {t₀ t : Time}
    (hr : PoolHistory h t₀ s t) {τ : PoolTransaction} (hτ : τ ∈ h) :
    ReviewEffect τ.before.db τ.call τ.after.db := by
  obtain ⟨-, -, -, -, houtcome⟩ := hr.before hτ
  unfold Transaction.after
  rw [houtcome]
  cases hstep : WorkerPool.step τ.before τ.clock τ.call with
  | error e => exact .kept rfl rfl
  | ok result => exact WorkerPool.step_reviewEffect hstep

theorem WorkerPool.keeps_decision [Hashing] [JsonDecoding] (hdecided : r.decision.isSome = true)
    (s : WorkerPool) (clk : Clock Time) (c : PoolCall) (hr : r ∈ s.db.reviews.rows) :
    r ∈ (committed s (WorkerPool.step s clk c)).db.reviews.rows := by
  cases hstep : WorkerPool.step s clk c with
  | error e => exact hr
  | ok result => exact (WorkerPool.step_reviewEffect hstep).keeps hr hdecided

/-- **The review gate.** In every history a Run has at most one undecided review; a recorded decision is never changed, and
was recorded by exactly one transaction, which applied it; any other decision call leaves everything as it is; and an
override is written only by a decision to continue. -/
theorem review_gate [Hashing] [JsonDecoding] {h : List (Transaction WorkerPool Time PoolCall Unit Failure)}
    {t₀ t : Time} {s : WorkerPool} (hr : PoolHistory h t₀ s t) :
    (∀ r ∈ s.db.reviews.rows, ∀ r' ∈ s.db.reviews.rows, r.tenant_id = r'.tenant_id →
      r.run_id = r'.run_id → r.decision = none → r'.decision = none → r = r') ∧
    (∀ r ∈ s.db.reviews.rows, r.decision.isSome = true →
      ∀ h' s' t', Runs WorkerPool.step s t h' s' t' → r ∈ s'.db.reviews.rows) ∧
    (∀ r ∈ s.db.reviews.rows, r.decision.isSome = true → ∃ later τ earlier, h = later ++ τ :: earlier ∧
      r ∉ τ.before.db.reviews.rows ∧ r ∈ τ.after.db.reviews.rows ∧
      Recorded τ.before.db τ.after.db r ∧
      (∀ τ' ∈ earlier, r ∉ τ'.after.db.reviews.rows) ∧
      ∀ τ' ∈ later, r ∈ τ'.before.db.reviews.rows) ∧
    (∀ τ ∈ h, ∀ now tenant_id review_id reviewer decision key reason override, τ.call = .call
        (.decideReview now tenant_id review_id reviewer decision key reason override) →
      ∀ r ∈ τ.before.db.reviews.rows, r.tenant_id = tenant_id → r.review_id = review_id →
        r.decision.isSome = true → τ.after = τ.before) ∧
    ∀ τ ∈ h, ∀ o ∈ τ.after.db.overrides.rows, o ∉ τ.before.db.overrides.rows →
      ∃ r ∈ τ.after.db.reviews.rows, r ∉ τ.before.db.reviews.rows ∧ r.decision = some .continue ∧
        r.review_id = o.review_id ∧ ∃ c c' reason requested, IsLatest τ.before.db o.toRunScope c ∧
          c.route_reason = some reason ∧ Raises c reason requested c' ∧
          c' ∈ τ.after.db.checkpoints.rows := by
  refine ⟨?_, fun r hmem hdecided h' s' t' hr' => ?_, fun r hmem hdecided => ?_, ?_,
    fun τ hτ o ho hnew => (PoolHistory.reviewEffect hr hτ).overridden ho hnew⟩
  · intro r hmem r' hmem' htenant hrun hnone hnone'
    by_contra hne
    obtain ⟨-, hclash, -⟩ := s.db.reviews.apart.forall hmem hmem' hne
    simp [reviewSchema_clash, htenant, hrun, hnone, hnone'] at hclash
  · exact hr'.invariant (fun s _ => r ∈ s.db.reviews.rows) (fun _ hs => hs)
      (fun hs hstep => (WorkerPool.step_reviewEffect hstep).keeps hs hdecided) hmem
  · obtain ⟨later, τ, earlier, rfl, hbefore, hafter, hearlier, hlater⟩ :=
      hr.becomes_once (WorkerPool.keeps_decision hdecided) (by rintro ⟨⟩) hmem
    have heffect := PoolHistory.reviewEffect hr (List.mem_append_right later List.mem_cons_self)
    obtain ⟨_, _, _, _, _, _, _, _, _, -, hdecides⟩ := heffect.recorded hafter hbefore hdecided
    exact ⟨later, τ, earlier, rfl, hbefore, hafter, hdecides.recorded_all, hearlier, hlater⟩
  · intro τ hτ now tenant_id review_id reviewer decision key reason override hcall r hmem htenant hid
      hdecided
    obtain ⟨-, -, -, -, houtcome⟩ := hr.before hτ
    unfold Transaction.after
    rw [houtcome, hcall]
    cases hstep : WorkerPool.step τ.before τ.clock
        (.call (.decideReview now tenant_id review_id reviewer decision key reason override)) with
    | error e => rfl
    | ok result =>
      simp only [WorkerPool.step, exec, ok_iff, Prod.exists] at hstep
      obtain ⟨db, _, ⟨_, record, hdecide, rfl, -⟩, rfl⟩ := hstep
      obtain ⟨current, hget, -, rfl | hdecides⟩ := decideReview_decides hdecide
      · rfl
      · have hsame : reviewSchema.key r = (tenant_id, review_id) := by
          rw [reviewSchema_key, htenant, hid]
        rw [← hsame, Table.get_of_mem hmem, Option.some.injEq] at hget
        rw [hget, hdecides.undecided] at hdecided
        cases hdecided

def tightSlice (t : Time) : List (Time × PoolCall) :=
  [(t, .runOnce 0 sampleScope.tenant_id sampleScope.run_id sampleOwner 3600000000), (t + 1, .execute 0
      { sampleInput firstCall (·.toCaseScope) with
        harness := { (sampleInput firstCall (·.toCaseScope)).harness with
          limits := ⟨1, 4, 1000000, 300000000, 30000000⟩ } })]

def sampleReview : ReviewRequest where
  toRunScope := sampleScope
  review_id := ⟨"review-1", Eq.refl true⟩
  reason_code := ⟨"model_budget_exhausted", Eq.refl true⟩
  evidence_sha256 := sampleDigest
  policy_version := ⟨"v1", Eq.refl true⟩
  requested_by := ⟨"worker-1", Eq.refl true⟩
  input_version := .one

/-- Two more model turns for the last checkpoint. -/
def sampleOverride : ReviewOverrideRequest where
  checkpoint_version := ⟨4, by decide, by decide⟩
  model_calls_add := 2
  tool_calls_add := 0
  cost_microusd_add := 0
  deadline_extension_seconds := 0
  reason := ⟨"one more look", by decide⟩
  adds_le := by decide
  extension_le := by decide
  has_effect := by decide

def continueCall : PoolCall :=
  .call (.decideReview 9 sampleScope.tenant_id sampleReview.review_id ⟨"lead-1", Eq.refl true⟩ .continue
    ⟨"key-1", Eq.refl true⟩ none (some sampleOverride))

/-- The Run uses up its budget; its review is decided, and replayed. -/
def reviewCalls : List (Time × PoolCall) :=
  poolSetup ++ tightSlice 2 ++ tightSlice 4 ++ tightSlice 6 ++
    [(8, .call (.requestReview 8 sampleReview)), (9, continueCall), (10, continueCall)]

theorem review_history : @PoolHistory sampleHashing sampleDecoding
    (trace (@WorkerPool.step sampleHashing sampleDecoding) WorkerPool.empty reviewCalls) 0
    (samplePool reviewCalls) 10 :=
  replay_runs _ reviewCalls WorkerPool.empty 0 (by decide)

/-- The decision was recorded once, with its override. -/
theorem review_gate_continue : ∃ r ∈ (samplePool reviewCalls).db.reviews.rows, r.decision = some .continue ∧
      ∃ later τ earlier, trace (@WorkerPool.step sampleHashing sampleDecoding) WorkerPool.empty reviewCalls =
          later ++ τ :: earlier ∧ Recorded τ.before.db τ.after.db r := by
  obtain ⟨r, hmem, hdecision⟩ :
      ∃ r ∈ (samplePool reviewCalls).db.reviews.rows, r.decision = some .continue := by
    decide
  obtain ⟨later, τ, earlier, hsplit, -, -, hrecorded, -⟩ :=
    (@review_gate sampleHashing sampleDecoding _ _ _ _ review_history).2.2.1 r hmem (by rw [hdecision]; rfl)
  exact ⟨r, hmem, hdecision, later, τ, earlier, hsplit, hrecorded⟩

end Aftercare
