import Mathlib.Data.Finset.Max
import Aftercare.Runtime.Accounts
import Aftercare.System.Reviewing

/-!
# The succession of checkpoints

Each checkpoint of a Run starts from the latest one, but a slice has read it in a transaction of its own. `Writing` is
the checkpoint that a step hands to the table. A pool is `Current` when a slice whose claim is the Run's own has read
the latest checkpoint, and then what is handed over is a new version (`checkpoint_versions_advance`).
-/

namespace Aftercare

open Relational Text

variable {db db' : Database} {decision : ReviewDecision} {override : Option ReviewOverrideRequest}
  {reviewer : Identifier} {t t₀ now stop : Time} {c : Checkpoint} {o : Unit} {w : ℕ} {slice : Slice}
  {r r' : RunRow} {h : List PoolTransaction}

variable {gate : Gate}

/-! ## What a step hands to the table -/

/-- The checkpoint that a step hands to the table of checkpoints. -/
inductive Writing [JsonDecoding] (s : WorkerPool) (clk : Clock Time) : PoolCall → Checkpoint → Prop
  /-- A worker saves its slice while it holds the lease. -/
  | slice {w : ℕ} {input : SliceInput} {slice : Slice} {c : Checkpoint}
      (hslice : s.workers w = some slice)
      (hadvance : RunSlice.advance ⟨slice.claim, input⟩ slice.previous = .ok c)
      (hholds : Holds s.db slice.claim (clk.read 0)) (hscope : c.toRunScope = slice.claim.toRunScope) :
      Writing s clk (.execute w input) c
  /-- A decision overrides the latest checkpoint of a Run in review. -/
  | override {now : Time} {tenant_id review_id reviewer key : Identifier} {decision : ReviewDecision}
      {reason : Option String} {requested : ReviewOverrideRequest} {review : ReviewRecord} {run : RunRow}
      {c : Checkpoint} (hreview : s.db.reviews.get (tenant_id, review_id) = some review)
      (hrun : s.db.run review.toRunScope = some run) (hstate : run.state = .review)
      (hlatest : IsLatest s.db review.toRunScope c) :
      Writing s clk (.call (.decideReview now tenant_id review_id reviewer decision key reason
        (some requested))) (c.overridden requested)
  /-- The strategy of a Run in review changes. -/
  | migration {now : Time} {request : StrategyMigrationRequest} {migrated_by : Identifier} {run : RunRow}
      {c : Checkpoint} (hrun : s.db.run request.toRunScope = some run) (hstate : run.state = .review)
      (hlatest : IsLatest s.db request.toRunScope c) :
      Writing s clk (.call (.migrate now request migrated_by)) (c.migrated request)
  /-- A host saves a checkpoint of its own, while it holds the lease. -/
  | host {c : Checkpoint} {claim : ExecutionClaim} (hholds : Holds s.db claim (clk.read 0))
      (hscope : c.toRunScope = claim.toRunScope) : Writing s clk (.call (.saveCheckpoint c claim)) c

def PoolCall.requested : PoolCall → Option ReviewOverrideRequest
  | .call (.decideReview _ _ _ _ _ _ _ override) => override
  | _ => none

/-- The override is recorded with its checkpoint. -/
def RecordsOverride (db db' : Database) (c : Checkpoint) : Option ReviewOverrideRequest → Prop
  | none => db'.overrides = db.overrides
  | some requested => ∃ o : ReviewOverrideRecord, db.overrides.insert o = .ok db'.overrides ∧
      o.toRunScope = c.toRunScope ∧ o.model_calls_add = requested.model_calls_add ∧
      o.tool_calls_add = requested.tool_calls_add ∧ o.cost_microusd_add = requested.cost_microusd_add

/-- After a slice the Run does not run, and is completed if so said. -/
def Parked (db : Database) (c : Checkpoint) : Prop :=
  ∃ r, db.run c.toRunScope = some r ∧ r.state ≠ .running ∧
    (c.next_step = .complete → r.state = .completed)

/-- At most the checkpoint of the step is written. -/
inductive Succeeds [JsonDecoding] (s : WorkerPool) (clk : Clock Time) (call : PoolCall)
    (s' : WorkerPool) : Prop
  | kept (hcheckpoints : s'.db.checkpoints = s.db.checkpoints)
      (hoverrides : s'.db.overrides = s.db.overrides)
  | written {c : Checkpoint} (h : Writing s clk call c)
      (hinsert : s.db.checkpoints.insert c = .ok s'.db.checkpoints)
      (hoverrides : RecordsOverride s.db s'.db c call.requested)
      (hparked : ∀ w input, call = .execute w input → Parked s'.db c)

/-! ## The calls of the review gate -/

/-- The next checkpoint has what the override adds. -/
structure StagesOverride (db db' : Database) (scope : RunScope) (requested : ReviewOverrideRequest)
    (c : Checkpoint) : Prop where
  latest : IsLatest db scope c
  valid : c.valid = true
  passed : ∃ reason, c.route_reason = some reason ∧
    overrideCheckpoint c reason requested = .ok (c.overridden requested)
  inserted : db.checkpoints.insert (c.overridden requested) = .ok db'.checkpoints
  recorded : RecordsOverride db db' (c.overridden requested) (some requested)

variable {clk : Clock Time} {s s' : WorkerPool}

theorem applyOverride_stages [Hashing] {review : ReviewRecord} {key : Identifier}
    {applied : Option ReviewOverrideRecord}
    (h : applyOverride db clk review decision override reviewer key = .ok (db', applied)) :
    (override = none ∧ db'.checkpoints = db.checkpoints ∧ db'.overrides = db.overrides) ∨
      ∃ requested c, override = some requested ∧ StagesOverride db db' review.toRunScope requested c := by
  cases decision with
  | cancel =>
    simp only [applyOverride, ok_iff] at h
    obtain ⟨hnone, rfl, -⟩ := h
    exact .inl ⟨hnone, rfl, rfl⟩
  | «continue» =>
    simp only [applyOverride, assertResumeBudget, ok_iff] at h
    obtain ⟨latest, hlatest, -, h⟩ := h
    split at h
    · rename_i c reason requested hreason
      obtain ⟨hreason, -⟩ := Option.filter_eq_some_iff.mp hreason
      have hc : IsLatest db review.toRunScope c := (latestScopedCheckpoint_latest hlatest).mp rfl
      simp only [stageOverride, ok_iff, statement_eq_ok] at h
      obtain ⟨c', hc', checkpoints, hinsert, id, -, overrides, hoverride, rfl, -⟩ := h
      have heq : c' = c.overridden requested := by
        simp only [overrideCheckpoint, ok_iff] at hc'
        obtain ⟨-, -, -, -, -, -, rfl⟩ := hc'
        rfl
      subst heq
      exact .inr ⟨requested, c, rfl, hc, latestScopedCheckpoint_valid hlatest, ⟨reason, hreason, hc'⟩,
        hinsert, _, hoverride, hc.scope_eq.symm, rfl, rfl, rfl⟩
    · cases h
    · cases h
    · cases h
      exact .inl ⟨rfl, rfl, rfl⟩

/-- A decision writes the override if it is made now. -/
theorem decideReview_stages [Hashing] {tenant_id review_id key : Identifier} {reason : Option String}
    {result : ReviewRecord}
    (h : decideReview db clk now tenant_id review_id reviewer decision key reason override = .ok (db', result)) :
    ∃ review run, db.reviews.get (tenant_id, review_id) = some review ∧ db.run review.toRunScope = some run ∧
      ((review.decision.isSome = true ∨ override = none) ∧ db'.checkpoints = db.checkpoints ∧
          db'.overrides = db.overrides ∨
        run.state = .review ∧ ∃ requested c, override = some requested ∧
          StagesOverride db db' review.toRunScope requested c) := by
  simp only [decideReview, lockCase, lockRun, ok_iff] at h
  obtain ⟨row, hget, current, hrecord, -, run, hrun, h⟩ := h
  obtain rfl := ReviewRecord.record_eq_ok hrecord
  refine ⟨row, run, hget, hrun, ?_⟩
  split_ifs at h with hdecided
  · simp only [ok_iff] at h
    obtain ⟨-, rfl, -⟩ := h
    exact .inl ⟨.inl hdecided, rfl, rfl⟩
  · simp only [ok_iff, statement_eq_ok] at h
    obtain ⟨hstate, -, -, ⟨staged, applied⟩, happly, reviews, -, record, -, runs, -, events, -, rfl, -⟩ := h
    rcases applyOverride_stages happly with ⟨hnone, hkept⟩ | ⟨requested, c, hsome, hstages⟩
    · exact .inl ⟨.inr hnone, hkept⟩
    · exact .inr ⟨hstate, requested, c, hsome, { hstages with }⟩

/-! ## The other steps -/

variable {start : Time}

theorem Write.checkpoints_eq (hgate : gate ≠ .review) (h : Write gate start stop db db') :
    db'.checkpoints = db.checkpoints := by
  cases h with
  | checkpoint h => exact absurd h hgate
  | _ => rfl

theorem Writes.checkpoints_eq (hgate : gate ≠ .review) (h : Writes gate start stop db db') :
    db'.checkpoints = db.checkpoints := by
  induction h with
  | refl => rfl
  | tail _ hlast ih => exact (hlast.checkpoints_eq hgate).trans ih

theorem Effect.kept {c : Call} (h : Effect start stop db c db') (hgate : c.gate ≠ .review)
    (hcall : ∀ saved claim, c ≠ .saveCheckpoint saved claim) :
    db'.checkpoints = db.checkpoints ∧ db'.overrides = db.overrides := by
  refine ⟨?_, (h.reviews_eq hgate).2.1⟩
  exact h.rule (fun hwrites => hwrites.checkpoints_eq hgate) (fun hmid => hmid) (fun _ _ => rfl)
    (fun hsaved _ => absurd hsaved (hcall _ _))

theorem saveCheckpoint_writing {claim : ExecutionClaim} (h : saveCheckpoint db clk c claim = .ok db') :
    Holds db claim (clk.read 0) ∧ c.toRunScope = claim.toRunScope ∧ Saves c db db' := by
  have hsaves := saveCheckpoint_saves h
  simp only [saveCheckpoint, ok_iff, requireLease_eq_ok] at h
  obtain ⟨⟨r, hr, hvalid⟩, hscope, -⟩ := h
  exact ⟨⟨r, hr, hvalid⟩, hscope, hsaves⟩

theorem exec_succeeds [Hashing] [JsonDecoding] {c : Call} {o : Output} (h : exec s.db clk c = .ok (db, o)) :
    Succeeds s clk (.call c) { s with db := db } := by
  have heffect := exec_effect h
  cases c
  case requestReview now request =>
    simp only [exec, ok_iff, Prod.exists] at h
    obtain ⟨_, result, replayed, h, rfl, -⟩ := h
    simp only [requestReview, ok_iff] at h
    obtain ⟨-, run, -, h⟩ := h
    split at h
    · simp only [ok_iff] at h
      obtain ⟨current, -, -, rfl, -⟩ := h
      exact .kept rfl rfl
    · simp only [ok_iff] at h
      obtain ⟨-, -, ⟨reviews, inserted⟩, -, -, record, -, events, -, rfl, -⟩ := h
      exact .kept rfl rfl
  case decideReview =>
    simp only [exec, ok_iff, Prod.exists] at h
    obtain ⟨_, result, h, rfl, -⟩ := h
    obtain ⟨review, run, hreview, hrun, ⟨-, hcheckpoints, hoverrides⟩ |
      ⟨hstate, requested, c, rfl, hstages⟩⟩ := decideReview_stages h
    · exact .kept hcheckpoints hoverrides
    · exact .written (.override hreview hrun hstate hstages.latest) hstages.inserted hstages.recorded
        fun _ _ hcall => by cases hcall
  case migrate =>
    simp only [exec, ok_iff, Prod.exists] at h
    obtain ⟨_, result, replayed, h, rfl, -⟩ := h
    rcases migrate_cases h with ⟨-, rfl, -⟩ | ⟨-, ⟨run, hrun, hstate⟩, -, ⟨c, hlatest, -, -, -, -, hinsert⟩, -, hrest⟩
    · exact .kept rfl rfl
    · have hoverrides := congrArg Database.overrides hrest
      exact .written (.migration hrun hstate hlatest) hinsert hoverrides fun _ _ hcall => by cases hcall
  case saveCheckpoint =>
    simp only [exec, ok_iff] at h
    obtain ⟨_, h, rfl, -⟩ := h
    obtain ⟨hholds, hscope, checkpoints, hinsert, rfl⟩ := saveCheckpoint_writing h
    exact .written (.host hholds hscope) hinsert rfl fun _ _ hcall => by cases hcall
  all_goals
    obtain ⟨hcheckpoints, hoverrides⟩ := heffect.kept (fun hgate => by cases hgate) fun _ _ hcall => by cases hcall
    exact .kept hcheckpoints hoverrides

theorem executeClaim_succeeds [JsonDecoding] {input : SliceInput} (hslice : s.workers w = some slice)
    (h : executeClaim s.db clk slice input = .ok (db, c)) :
    Writing s clk (.execute w input) c ∧ s.db.checkpoints.insert c = .ok db.checkpoints ∧
      db.overrides = s.db.overrides ∧ Parked db c ∧ StepRuns (clk.read 0) s.db db := by
  have hadvance := executeClaim_advance h
  have hoverrides := (executeClaim_reviews_eq h).2
  simp only [executeClaim, ok_iff, Prod.exists] at h
  obtain ⟨-, -, -, -, -, -, checkpoint, -, target, htarget, saved, hsave, moved, record, hmove, hdb, rfl⟩ := h
  obtain ⟨hholds, hscope, checkpoints, hinsert, rfl⟩ := saveCheckpoint_writing hsave
  -- Giving the slot back touches neither the checkpoints nor the Runs.
  have hsame : db.checkpoints = moved.checkpoints ∧ db.runs = moved.runs := by
    rw [← hdb]
    split_ifs <;> exact ⟨rfl, rfl⟩
  have hsteps := transition_transitions hmove
  cases hsteps with
  | @mk runs r clk' t hclk ht hr hcoherent hmem hrunning hlease hbinding hupdate =>
    have hupdate' : s.db.runs.update slice.claim.key (RunRow.moved target none none
        (if target = .retryAt then checkpoint.available_at else none)) clk' = .ok runs := hupdate
    have hr' : s.db.run slice.claim.toRunScope = some r := hr
    obtain ⟨hget, hrow⟩ := Database.run_eq_some.mp hr'
    have hmoved := Database.run_update hget rfl hupdate' slice.claim.toRunScope
    rw [if_pos hrow.symm] at hmoved
    have hrun : db.run checkpoint.toRunScope = some (r.moved target none none
        (if target = .retryAt then checkpoint.available_at else none)) := by
      rw [hscope, ← hmoved]
      unfold Database.run
      rw [hsame.2]
    refine ⟨.slice hslice hadvance hholds hscope, ?_, hoverrides, ⟨_, hrun, hrunning, ?_⟩, ?_⟩
    · rw [hsame.1]
      exact hinsert
    · intro hcomplete
      unfold runStateFor at htarget
      rw [hcomplete] at htarget
      cases htarget
      rfl
    · exact (StepRuns.of_update hget (.transition ⟨none, none, none, none, _⟩ hmem hrunning) hupdate').trans
        (.of_runs_eq hsame.2)

/-- **What a step does to the checkpoints of the Runs.** -/
theorem WorkerPool.step_succeeds [Hashing] [JsonDecoding]
    {c : PoolCall} (h : WorkerPool.step s clk c = .ok (s', o)) : Succeeds s clk c s' := by
  have hclosed : Gate.closed ≠ .review := by decide
  cases WorkerPool.step_cases h with
  | call hexec => exact exec_succeeds hexec
  | start c w hwrites hbegins =>
    exact .kept (hwrites.checkpoints_eq hclosed) (hwrites.reviews_eq hclosed).2.1
  | saved hslice hexecute =>
    obtain ⟨hwriting, hinsert, hoverrides, hparked, -⟩ := executeClaim_succeeds hslice hexecute
    exact .written hwriting hinsert hoverrides fun _ _ _ => hparked
  | idle | dropped => exact .kept rfl rfl

/-! ## The Runs and the slices under way -/

theorem WorkerPool.step_stepRuns [Hashing] [JsonDecoding] {c : PoolCall}
    (h : WorkerPool.step s clk c = .ok (s', o)) : StepRuns (clk.read 0) s.db s'.db := by
  cases WorkerPool.step_cases h with
  | call hexec => exact (exec_effect hexec).stepRuns
  | start c w hwrites hbegins => exact hwrites.stepRuns
  | saved hslice hexecute =>
    obtain ⟨-, -, -, -, hsteps⟩ := executeClaim_succeeds hslice hexecute
    exact hsteps
  | idle | dropped => exact .of_runs_eq rfl

/-- The claim was issued, and the latest checkpoint read. -/
structure Slice.Started (slice : Slice) (db : Database) : Prop where
  reached : Reached db slice.claim
  read : getLatest db slice.claim.tenant_id slice.claim.run_id = .ok slice.previous

theorem Issues.reached {claim : ExecutionClaim} (h : Issues db db' claim) : Reached db' claim := by
  obtain ⟨-, r', -, hr', -, htoken⟩ := h
  exact ⟨r', hr', htoken.le⟩

theorem Slice.Begins.started (h : slice.Begins clk db db') : slice.Started db' := by
  obtain ⟨claimed, claim, clk', lease, -, hissues, h⟩ := h
  simp only [openSlice, ok_iff, Prod.exists] at h
  obtain ⟨_, slot, hslot, previous, hlatest, rfl, rfl⟩ := h
  have hwrites : Writes .closed clk'.stop clk'.stop claimed _ := acquireSlot_writes hslot
  exact ⟨hissues.reached.evolves hwrites.stepRuns.evolves, hlatest⟩

theorem WorkerPool.step_workers [Hashing] [JsonDecoding]
    {c : PoolCall} (h : WorkerPool.step s clk c = .ok (s', o)) {v : ℕ} {x : Slice}
    (hx : s'.workers v = some x) : s.workers v = some x ∨ x.Started s'.db := by
  cases WorkerPool.step_cases h with
  | call | idle => exact .inl hx
  | start c w hwrites hbegins =>
    rw [WorkerPool.workers_setWorker] at hx
    split_ifs at hx
    · exact .inr (hbegins x hx).started
    · exact .inl hx
  | saved | dropped =>
    rw [WorkerPool.workers_setWorker] at hx
    split_ifs at hx
    exact .inl hx

theorem RunStep.completed (h : RunStep start r r') (hr : r.state = .completed) : r'.state = .completed := by
  cases h with
  | move h =>
    cases h with
    | claim owner leaseUntil h => simp [RunRow.claimable, hr] at h
    | wake hstate hdue =>
      rw [hr] at hstate
      cases hstate
    | review target hstate htarget =>
      rw [hr] at hstate
      cases hstate
  | renew leaseUntil hlease => exact hr
  | wake hwaiting =>
    rw [hr] at hwaiting
    cases hwaiting
  | transition args htarget hrunning =>
    rw [hr] at htarget
    cases htarget

theorem StepRuns.completed (h : StepRuns start db db') {scope : RunScope} (hr : db.run scope = some r)
    (hr' : db'.run scope = some r') (hstate : r.state = .completed) :
    r'.state = .completed := by
  obtain ⟨last, hlast, hsteps⟩ := h scope r hr
  rw [hr', Option.some.injEq] at hlast
  subst hlast
  clear hr'
  induction hsteps with
  | refl => exact hstate
  | tail _ hstep ih => exact hstep.completed ih

/-! ## The latest checkpoint of a Run -/

theorem Database.scope_eq_of_run {a b : RunScope} (ha : db.run a = some r) (hb : db.run b = some r')
    (htenant : a.tenant_id = b.tenant_id) (hrun : a.run_id = b.run_id) : a = b := by
  obtain ⟨hget, hscope⟩ := Database.run_eq_some.mp ha
  obtain ⟨hget', hscope'⟩ := Database.run_eq_some.mp hb
  have hkey : a.key = b.key := by rw [RunScope.key, RunScope.key, htenant, hrun]
  rw [hkey, hget', Option.some.injEq] at hget
  rw [← hscope, ← hscope', hget]

/-- `get_latest` reads the latest checkpoint of a Run of one case. -/
theorem getLatest_latest {scope : RunScope} {latest : Option Checkpoint}
    (hscope : ∀ c ∈ db.checkpoints.rows, c.tenant_id = scope.tenant_id → c.run_id = scope.run_id →
      c.toRunScope = scope) (h : getLatest db scope.tenant_id scope.run_id = .ok latest)
    (c : Checkpoint) :
    latest = some c ↔ IsLatest db scope c := by
  have hselect : (db.checkpoints.select fun c => c.tenant_id == scope.tenant_id && c.run_id == scope.run_id) =
      db.checkpoints.select fun c => c.toRunScope == scope := by
    refine List.filter_congr fun x hx => ?_
    rw [Bool.eq_iff_iff, Bool.and_eq_true, beq_iff_eq, beq_iff_eq, beq_iff_eq]
    exact ⟨fun hx' => hscope x hx hx'.1 hx'.2, fun hx' => by rw [← hx']; exact ⟨rfl, rfl⟩⟩
  have hread : latestScopedCheckpoint db scope "" = .ok latest := by
    unfold getLatest latestCheckpoint at h
    rw [hselect] at h
    unfold latestScopedCheckpoint
    cases hhead : ((db.checkpoints.select fun c => c.toRunScope == scope).insertionSort
        fun a b => b.checkpoint_version ≤ a.checkpoint_version).head? with
    | none =>
      rw [hhead] at h
      exact h
    | some x =>
      rw [hhead] at h
      simp only [Checkpoint.decode, ok_iff] at h
      obtain ⟨_, ⟨hvalid, rfl⟩, rfl⟩ := h
      simp [require, hvalid]
  exact latestScopedCheckpoint_latest hread

theorem exists_isLatest {scope : RunScope} (hc : c ∈ db.checkpoints.rows)
    (hscope : c.toRunScope = scope) : ∃ p, IsLatest db scope p := by
  classical
  obtain ⟨p, hp, hmax⟩ := Finset.exists_max_image (db.checkpoints.rows.toFinset.filter fun x => x.toRunScope = scope)
    (fun x => x.checkpoint_version) ⟨c, by simp [hc, hscope]⟩
  simp only [Finset.mem_filter, List.mem_toFinset] at hp hmax
  exact ⟨p, hp.1, hp.2, fun x hx hx' => hmax x ⟨hx, hx'⟩⟩

theorem isLatest_congr {scope : RunScope}
    (hrows : ∀ c : Checkpoint, c.toRunScope = scope → (c ∈ db'.checkpoints.rows ↔ c ∈ db.checkpoints.rows))
    (p : Checkpoint) : IsLatest db' scope p ↔ IsLatest db scope p := by
  constructor
  · intro h
    exact ⟨(hrows p h.scope_eq).mp h.stored, h.scope_eq, fun x hx hscope => h.latest x ((hrows x hscope).mpr hx) hscope⟩
  · intro h
    exact ⟨(hrows p h.scope_eq).mpr h.stored, h.scope_eq, fun x hx hscope => h.latest x ((hrows x hscope).mp hx) hscope⟩

theorem isLatest_insert_other {scope : RunScope} (hinsert : db.checkpoints.insert c = .ok db'.checkpoints)
    (hother : c.toRunScope ≠ scope) (p : Checkpoint) : IsLatest db' scope p ↔ IsLatest db scope p := by
  refine isLatest_congr (fun x hx => ?_) p
  rw [Table.mem_insert hinsert, or_iff_left]
  exact fun heq => hother (heq ▸ hx)

/-! ## Slices that are current -/

/-- A host parks a Run: the latest budget, under a new version. -/
structure Checkpoint.Parks (c : Checkpoint) (s : WorkerPool) (claim : ExecutionClaim) : Prop where
  phase : c.next_step = .wait
  next : ∃ p, IsLatest s.db c.toRunScope p ∧ p.checkpoint_version < c.checkpoint_version ∧
    c.remaining_budget = p.remaining_budget
  own : ∀ w slice, s.workers w = some slice → slice.claim.toRunScope = claim.toRunScope →
    slice.claim.fencing_token.val ≠ claim.fencing_token.val

/-- A host that saves a checkpoint of this Run parks it. -/
def PoolCall.Parks (s : WorkerPool) (scope : RunScope) : PoolCall → Prop
  | .call (.saveCheckpoint c claim) => c.toRunScope = scope → c.Parks s claim
  | _ => True

theorem reviewCalls_park : ∀ τ ∈ trace (@WorkerPool.step sampleHashing sampleDecoding) WorkerPool.empty reviewCalls,
    τ.call.Parks τ.before sampleScope := by
  have hparks : ∀ call ∈ reviewCalls.map Prod.snd, ∀ s : WorkerPool, call.Parks s sampleScope := by
    simp [reviewCalls, poolSetup, tightSlice, continueCall, PoolCall.Parks]
  exact fun τ hτ => hparks _ (call_mem_of_mem_trace hτ) _

/-- A slice under the Run's claim has read the latest checkpoint. -/
structure WorkerPool.Current (s : WorkerPool) (scope : RunScope) : Prop where
  owned : ∀ c ∈ s.db.checkpoints.rows, ∃ r, s.db.run c.toRunScope = some r
  completed : ∀ c ∈ s.db.checkpoints.rows, c.toRunScope = scope → c.next_step = .complete →
    ∀ r, s.db.run scope = some r → r.state = .completed
  reached : ∀ w slice, s.workers w = some slice → Reached s.db slice.claim
  current : ∀ w slice r, s.workers w = some slice → slice.claim.toRunScope = scope →
    s.db.run scope = some r → r.state = .running →
    r.fencing_token = slice.claim.fencing_token.val →
    ∀ c, slice.previous = some c ↔ IsLatest s.db scope c

theorem Writing.run [JsonDecoding] {call : PoolCall} (h : Writing s clk call c) : ∃ r, s.db.run c.toRunScope = some r ∧
      (r.state = .running ∨ r.state = .review) := by
  cases h with
  | slice hslice hadvance hholds hscope =>
    obtain ⟨r, hr, hvalid⟩ := hholds
    exact ⟨r, hscope ▸ hr, .inl (validOn_iff.mp hvalid).2.1⟩
  | override hreview hrun hstate hlatest => exact ⟨_, hlatest.scope_eq.symm ▸ hrun, .inr hstate⟩
  | migration hrun hstate hlatest => exact ⟨_, hlatest.scope_eq.symm ▸ hrun, .inr hstate⟩
  | host hholds hscope =>
    obtain ⟨r, hr, hvalid⟩ := hholds
    exact ⟨r, hscope ▸ hr, .inl (validOn_iff.mp hvalid).2.1⟩

namespace WorkerPool.Current

variable [JsonDecoding] {s s' : WorkerPool} {scope : RunScope} {clk : Clock Time} {call : PoolCall}

omit [JsonDecoding] in
theorem scope_eq (hs : s.Current scope) (hr : s.db.run scope = some r) (hc : c ∈ s.db.checkpoints.rows)
    (htenant : c.tenant_id = scope.tenant_id) (hrun : c.run_id = scope.run_id) : c.toRunScope = scope := by
  obtain ⟨r', hr'⟩ := hs.owned c hc
  exact Database.scope_eq_of_run hr' hr htenant hrun

theorem not_current (hs : s.Current scope) (hparks : call.Parks s scope) (h : Writing s clk call c)
    (hscope : c.toRunScope = scope) (hparked : ∀ w input, call = .execute w input → Parked s'.db c)
    (hevolves : EvolveRuns (clk.read 0) s.db s'.db) (hslice : s.workers w = some slice)
    (hclaim : slice.claim.toRunScope = scope) (hr' : s'.db.run scope = some r') (hrunning : r'.state = .running) :
    r'.fencing_token ≠ slice.claim.fencing_token.val := by
  intro htoken
  obtain ⟨r, hr, hle⟩ := hs.reached w slice hslice
  rw [hclaim] at hr
  obtain ⟨r'', hr'', hrow⟩ := hevolves scope r hr
  cases Option.some.inj (hr'.symm.trans hr'')
  have hsame : r'.fencing_token = r.fencing_token := by
    have := hrow.token
    omega
  obtain ⟨hstate, -⟩ := hrow.lease hrunning hsame
  cases h with
  | slice hslice hadvance hholds hscope' =>
    -- The slice that has committed has moved its Run.
    obtain ⟨row, hrow, hmoved, -⟩ := hparked _ _ rfl
    rw [hscope, hr', Option.some.injEq] at hrow
    exact hmoved (hrow ▸ hrunning)
  | override hreview hrun hreviewing hlatest | migration hrun hreviewing hlatest =>
    rw [← hlatest.scope_eq] at hrun
    cases Option.some.inj (hr.symm.trans (hscope ▸ hrun))
    rw [hreviewing] at hstate
    cases hstate
  | host hholds hscope' =>
    obtain ⟨row, hrow, hvalid⟩ := hholds
    rw [← hscope', hscope] at hrow
    cases Option.some.inj (hr.symm.trans hrow)
    obtain ⟨-, -, -, hown, -⟩ := validOn_iff.mp hvalid
    refine (hparks hscope).own w slice hslice (hclaim.trans (hscope.symm.trans hscope')) ?_
    rw [← htoken, hsame, hown]

theorem step [Hashing] {o : Unit} (hs : s.Current scope) (hparks : call.Parks s scope)
    (h : WorkerPool.step s clk call = .ok (s', o)) : s'.Current scope := by
  have hsteps := WorkerPool.step_stepRuns h
  have hevolves := hsteps.evolves
  have hsucceeds := WorkerPool.step_succeeds h
  have howned : ∀ c ∈ s'.db.checkpoints.rows, ∃ r, s'.db.run c.toRunScope = some r := by
    have hlater : ∀ c : Checkpoint, (∃ r, s.db.run c.toRunScope = some r) → ∃ r, s'.db.run c.toRunScope = some r := by
      rintro c ⟨r, hr⟩
      obtain ⟨r', hr', -⟩ := hevolves _ r hr
      exact ⟨r', hr'⟩
    intro c hc
    cases hsucceeds with
    | kept hcheckpoints hoverrides => exact hlater c (hs.owned c (hcheckpoints ▸ hc))
    | written hwriting hinsert hoverrides hparked =>
      rcases (Table.mem_insert hinsert).mp hc with hc | rfl
      · exact hlater c (hs.owned c hc)
      · obtain ⟨r, hr, -⟩ := hwriting.run
        exact hlater c ⟨r, hr⟩
  have hreached : ∀ w slice, s'.workers w = some slice → Reached s'.db slice.claim := by
    intro w slice hslice
    rcases WorkerPool.step_workers h hslice with hold | hstarted
    · exact (hs.reached w slice hold).evolves hevolves
    · exact hstarted.reached
  refine ⟨howned, fun c hc hscope hcomplete r' hr' => ?_, hreached,
    fun w slice r' hslice hclaim hr' hrunning htoken c => ?_⟩
  · have hkept : c ∈ s.db.checkpoints.rows → r'.state = .completed := by
      intro hold
      obtain ⟨r, hr⟩ := hs.owned c hold
      rw [hscope] at hr
      exact hsteps.completed hr hr' (hs.completed c hold hscope hcomplete r hr)
    cases hsucceeds with
    | kept hcheckpoints hoverrides => exact hkept (hcheckpoints ▸ hc)
    | written hwriting hinsert hoverrides hparked =>
      rcases (Table.mem_insert hinsert).mp hc with hc | rfl
      · exact hkept hc
      · cases hwriting with
        | slice hslice hadvance hholds hscope' =>
          obtain ⟨row, hrow, -, hdone⟩ := hparked _ _ rfl
          rw [hscope, hr', Option.some.injEq] at hrow
          rw [hrow]
          exact hdone hcomplete
        | override hreview hrun hstate hlatest => cases hcomplete
        | migration hrun hstate hlatest => cases hcomplete
        | host hholds hscope' =>
          rw [(hparks hscope).phase] at hcomplete
          cases hcomplete
  · rcases WorkerPool.step_workers h hslice with hold | hstarted
    · -- The Run is still under the claim of the slice, so it was before.
      obtain ⟨r, hr, hle⟩ := hs.reached w slice hold
      rw [hclaim] at hr
      obtain ⟨r'', hr'', hrow⟩ := hevolves scope r hr
      cases Option.some.inj (hr'.symm.trans hr'')
      have hsame : r'.fencing_token = r.fencing_token := by
        have := hrow.token
        omega
      have hbefore := hs.current w slice r hold hclaim hr (hrow.lease hrunning hsame).1 (hsame.symm.trans htoken) c
      cases hsucceeds with
      | kept hcheckpoints hoverrides =>
        rw [hbefore, isLatest_congr fun x _ => by rw [hcheckpoints]]
      | @written written hwriting hinsert hoverrides hparked =>
        by_cases hscope : written.toRunScope = scope
        · exact absurd htoken (hs.not_current hparks hwriting hscope hparked hevolves hold hclaim hr' hrunning)
        · rw [hbefore, isLatest_insert_other hinsert hscope]
    · have hread := hstarted.read
      rw [hclaim] at hread
      refine getLatest_latest (fun x hx htenant hrun => ?_) hread c
      obtain ⟨row, hrow⟩ := howned x hx
      exact Database.scope_eq_of_run hrow hr' htenant hrun

/-- **Every checkpoint that is written is a new version.** -/
theorem version_lt (hs : s.Current scope) (hparks : call.Parks s scope) {c' : Checkpoint}
    (h : Writing s clk call c) (hscope : c.toRunScope = scope) (hc' : c' ∈ s.db.checkpoints.rows)
    (hscope' : c'.toRunScope = scope) : c'.checkpoint_version < c.checkpoint_version := by
  cases h with
  | slice hslice hadvance hholds hclaim =>
    obtain ⟨r, hr, hvalid⟩ := hholds
    obtain ⟨-, hrunning, -, htoken, -⟩ := validOn_iff.mp hvalid
    rw [← hclaim, hscope] at hr
    -- The slice has read the latest checkpoint, which does not complete a Run that is running.
    obtain ⟨p, hp⟩ := exists_isLatest hc' hscope'
    have hprevious := (hs.current _ _ r hslice (hclaim.symm.trans hscope) hr hrunning htoken p).mpr hp
    obtain ⟨start, hstart, hversion, -⟩ := RunSlice.advance_books hadvance
    rw [hprevious] at hstart
    cases hstart
    have hopen : p.next_step ≠ .complete := by
      intro hcomplete
      have hstate := hs.completed p hp.stored hp.scope_eq hcomplete r hr
      rw [hrunning] at hstate
      cases hstate
    exact lt_of_le_of_lt (hp.latest c' hc' hscope') (hversion.resolve_right hopen)
  | override hreview hrun hstate hlatest | migration hrun hstate hlatest =>
    exact lt_of_le_of_lt (hlatest.latest c' hc' (hscope'.trans (hscope.symm.trans hlatest.scope_eq))) (Int.lt_succ _)
  | host hholds hclaim =>
    obtain ⟨p, hp, hlt, -⟩ := (hparks hscope).next
    exact lt_of_le_of_lt (hp.latest c' hc' (hscope'.trans hscope.symm)) hlt

end WorkerPool.Current

/-! ## Histories -/

/-- A slice under the Run's claim has read the latest checkpoint. -/
theorem PoolHistory.current [Hashing] [JsonDecoding] {s : WorkerPool} (hr : PoolHistory h t₀ s t)
    {scope : RunScope} (hparks : ∀ τ ∈ h, τ.call.Parks τ.before scope) : s.Current scope := by
  refine hr.invariant_of (fun s _ call => call.Parks s scope) (fun s _ => s.Current scope)
    (fun _ hs => hs) (fun hs hparks hstep => hs.step hparks hstep) hparks ⟨?_, ?_, ?_, ?_⟩
  · intro c hc
    cases hc
  · intro c hc
    cases hc
  · intro w slice hslice
    cases hslice
  · intro w slice r hslice
    cases hslice

theorem PoolHistory.current_before [Hashing] [JsonDecoding] {s : WorkerPool} (hr : PoolHistory h t₀ s t)
    {scope : RunScope} (hparks : ∀ τ ∈ h, τ.call.Parks τ.before scope) {τ : PoolTransaction} (hτ : τ ∈ h) :
    τ.before.Current scope ∧ τ.outcome = WorkerPool.step τ.before τ.clock τ.call := by
  obtain ⟨later, earlier, rfl⟩ := List.append_of_mem hτ
  obtain ⟨t', hbefore, -, houtcome⟩ := hr.split
  refine ⟨PoolHistory.current hbefore fun τ' hτ' => hparks τ' ?_, houtcome⟩
  exact List.mem_append_right later (List.mem_cons_of_mem _ hτ')

theorem insert_checkpoint_ne_unique {checkpoints : Table checkpointSchema}
    (h : checkpoints.get (c.tenant_id, c.run_id, c.checkpoint_version) = none) :
    checkpoints.insert c ≠ .error .unique := by
  have hapart : ∀ a ∈ checkpoints.rows, checkpointSchema.Apart a c :=
    fun a ha => ⟨Table.get_eq_none.mp h a ha, rfl, rfl⟩
  unfold Table.insert
  split_ifs
  · exact fun heq => by cases heq
  · exact fun heq => by cases heq

/-- **Checkpoint versions advance.** In every history in which hosts do no more than park the Run, everything that a step
hands to the table has a version above every checkpoint that is stored for the Run. -/
theorem checkpoint_versions_advance [Hashing] [JsonDecoding]
    {h : List (Transaction WorkerPool Time PoolCall Unit Failure)} {t₀ t : Time} {s : WorkerPool}
    (hr : PoolHistory h t₀ s t) (scope : RunScope) (hparks : ∀ τ ∈ h, τ.call.Parks τ.before scope) : ∀ τ ∈ h,
      (∀ c ∈ τ.after.db.checkpoints.rows, c ∉ τ.before.db.checkpoints.rows → Writing τ.before τ.clock τ.call c) ∧
      ∀ c, Writing τ.before τ.clock τ.call c → c.toRunScope = scope →
        (∀ c' ∈ τ.before.db.checkpoints.rows, c'.tenant_id = scope.tenant_id →
          c'.run_id = scope.run_id → c'.checkpoint_version < c.checkpoint_version) ∧
        τ.before.db.checkpoints.get (c.tenant_id, c.run_id, c.checkpoint_version) = none ∧
        τ.before.db.checkpoints.insert c ≠ .error .unique := by
  intro τ hτ
  obtain ⟨hcurrent, houtcome⟩ := PoolHistory.current_before hr hparks hτ
  constructor
  · intro c hc hnew
    unfold Transaction.after at hc
    rw [houtcome] at hc
    cases hstep : WorkerPool.step τ.before τ.clock τ.call with
    | error e =>
      rw [hstep] at hc
      exact absurd hc hnew
    | ok result =>
      rw [hstep] at hc
      cases WorkerPool.step_succeeds hstep with
      | kept hcheckpoints hoverrides =>
        rw [committed_ok, hcheckpoints] at hc
        exact absurd hc hnew
      | written hwriting hinsert hoverrides hparked =>
        rcases (Table.mem_insert hinsert).mp hc with hold | rfl
        · exact absurd hold hnew
        · exact hwriting
  · intro c hwriting hscope
    have hlt : ∀ c' ∈ τ.before.db.checkpoints.rows, c'.tenant_id = scope.tenant_id →
        c'.run_id = scope.run_id → c'.checkpoint_version < c.checkpoint_version := by
      intro c' hc' htenant hrun
      obtain ⟨r, hr, -⟩ := hwriting.run
      rw [hscope] at hr
      exact hcurrent.version_lt (hparks τ hτ) hwriting hscope hc' (hcurrent.scope_eq hr hc' htenant hrun)
    have hfree : τ.before.db.checkpoints.get (c.tenant_id, c.run_id, c.checkpoint_version) = none := by
      refine Table.get_eq_none.mpr fun c' hc' hkey => ?_
      rw [checkpointSchema_key] at hkey
      obtain ⟨htenant, hrun, hversion⟩ : c'.tenant_id = c.tenant_id ∧ c'.run_id = c.run_id ∧
          c'.checkpoint_version = c.checkpoint_version := by simpa using hkey
      rw [← hscope] at hlt
      have := hlt c' hc' htenant hrun
      omega
    exact ⟨hlt, hfree, insert_checkpoint_ne_unique hfree⟩

/-- The checkpoint of the override is above those of the slices. -/
theorem checkpoint_versions_advance_override :
    ∃ τ ∈ trace (@WorkerPool.step sampleHashing sampleDecoding) WorkerPool.empty reviewCalls,
      ∃ c ∈ τ.after.db.checkpoints.rows, c.checkpoint_version = 5 ∧
        ∀ c' ∈ τ.before.db.checkpoints.rows, c'.tenant_id = sampleScope.tenant_id →
          c'.run_id = sampleScope.run_id → c'.checkpoint_version < c.checkpoint_version := by
  obtain ⟨τ, hτ, c, hc, hnew, hscope, hversion⟩ :
      ∃ τ ∈ trace (@WorkerPool.step sampleHashing sampleDecoding) WorkerPool.empty reviewCalls,
        ∃ c ∈ τ.after.db.checkpoints.rows, c ∉ τ.before.db.checkpoints.rows ∧
          c.toRunScope = sampleScope ∧ c.checkpoint_version = 5 := by
    decide
  obtain ⟨hwritten, hadvance⟩ := @checkpoint_versions_advance sampleHashing sampleDecoding _ _ _ _
    review_history sampleScope reviewCalls_park τ hτ
  exact ⟨τ, hτ, c, hc, hversion, (hadvance c (hwritten c hc hnew) hscope).1⟩

end Aftercare
