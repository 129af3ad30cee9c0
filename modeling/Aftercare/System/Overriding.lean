import Aftercare.System.Succession

/-!
# Overrides that have an effect

A decision to continue adds to what is exhausted, and the next slice asks again. A deadline is extended from where
it was, so a short extension leaves it in the past (`short_extension_has_no_effect`). `override_effective_iff` says
when an override is enough.
-/

namespace Aftercare

open Relational Text

/-! ## Turns that are refused -/

variable {requested : ReviewOverrideRequest} {c : Checkpoint}

theorem ModelHarness.modelStep_admitted [JsonDecoding] {harness : ModelHarness} {c' : Checkpoint} {now : Time}
    (hdeadline : ¬c.remaining_budget.deadline ≤ now) (hcalls : ¬c.remaining_budget.model_calls < 1)
    (h : harness.modelStep c now = .ok c') :
    ∀ reason, c'.route_reason = some reason → reason.refuses = false := by
  obtain ⟨hrefused, -⟩ | ⟨charged, response, hturn, -⟩ := harness.modelStep_turn h
  · exact absurd hrefused (not_or.mpr ⟨hdeadline, hcalls⟩)
  · exact hturn.ends.admitted

/-- A slice of this checkpoint ends in a review for this reason. -/
def ModelHarness.stopsAgain [JsonDecoding] (harness : ModelHarness) (c : Checkpoint) (now : Time)
    (max_steps : ℤ) (reason : RouteReason) : Bool :=
  match runModelHarness harness c.toRunScope (some c) now max_steps with
  | .ok result => result.checkpoint.next_step == .review && result.checkpoint.route_reason == some reason
  | .error _ => false

/-- In the model phase a slice is its model step. -/
theorem runModelHarness_model [JsonDecoding] {harness : ModelHarness} {c : Checkpoint} {now : Time}
    {max_steps : ℤ} (hsteps : 1 ≤ max_steps) (hmodel : c.next_step = .model)
    (hstrategy : harness.strategyChanged c = false) (hhook : harness.beforeRun c.toRunScope = .ok ()) :
    runModelHarness harness c.toRunScope (some c) now max_steps = (do
      let c ← harness.modelStep c now
      pure (.of c (c.next_step == .complete))) := by
  have hopen : c.reopened = c := by
    unfold Checkpoint.reopened
    rw [if_neg (by simp [hmodel])]
  unfold runModelHarness
  simp only [require, hsteps, if_true, ok_bind, hstrategy, hopen, Bool.false_eq_true, if_false,
    ModelHarness.resume, hhook, attempt, ModelHarness.phase, hmodel]

theorem ModelHarness.stopsAgain_iff [JsonDecoding] {harness : ModelHarness} {c : Checkpoint} {now : Time}
    {max_steps : ℤ} (hsteps : 1 ≤ max_steps) (hmodel : c.next_step = .model)
    (hstrategy : harness.strategyChanged c = false) (hhook : harness.beforeRun c.toRunScope = .ok ()) :
    (harness.stopsAgain c now max_steps .deadlinePassed = true ↔ c.remaining_budget.deadline ≤ now) ∧
      (harness.stopsAgain c now max_steps .modelBudgetExhausted = true ↔
        ¬c.remaining_budget.deadline ≤ now ∧ c.remaining_budget.model_calls < 1) := by
  have hslice := @runModelHarness_model _ _ _ now _ hsteps hmodel hstrategy hhook
  by_cases hdeadline : c.remaining_budget.deadline ≤ now
  · have hstep : harness.modelStep c now = .ok (c.route .review .deadlinePassed c.remaining_budget none) := by
      unfold ModelHarness.modelStep
      simp only [if_pos hdeadline]
      rfl
    rw [hstep, ok_bind] at hslice
    simp [ModelHarness.stopsAgain, hslice, pure, Except.pure, HarnessResult.of, Checkpoint.route, hdeadline]
  · by_cases hcalls : c.remaining_budget.model_calls < 1
    · have hstep : harness.modelStep c now = .ok (c.route .review .modelBudgetExhausted c.remaining_budget none) := by
        unfold ModelHarness.modelStep
        simp only [if_neg hdeadline, if_pos hcalls]
        rfl
      rw [hstep, ok_bind] at hslice
      simp [ModelHarness.stopsAgain, hslice, pure, Except.pure, HarnessResult.of, Checkpoint.route, hdeadline, hcalls]
    · cases hstep : harness.modelStep c now with
      | error failure =>
        rw [hstep] at hslice
        have hraised : runModelHarness harness c.toRunScope (some c) now max_steps = .error failure := hslice
        simp [ModelHarness.stopsAgain, hraised, hdeadline, hcalls]
      | ok c' =>
        have hadmitted := ModelHarness.modelStep_admitted hdeadline hcalls hstep
        have hnot : ∀ reason : RouteReason, reason.refuses = true → c'.route_reason ≠ some reason := by
          intro reason hrefuses hreason
          rw [hadmitted reason hreason] at hrefuses
          cases hrefuses
        rw [hstep, ok_bind] at hslice
        simp [ModelHarness.stopsAgain, hslice, pure, Except.pure, HarnessResult.of, hdeadline, hcalls,
          hnot .deadlinePassed rfl, hnot .modelBudgetExhausted rfl]

/-! ## Overrides -/

theorem StagesOverride.adds {db db' : Database} {scope : RunScope} (h : StagesOverride db db' scope requested c)
    {reason : RouteReason} (hreason : c.route_reason = some reason) {added : ℕ} {name : String}
    (hadded : exhaustion requested reason = some (added, name)) : 0 < added := by
  obtain ⟨route, hroute, hpassed⟩ := h.passed
  rw [hreason, Option.some.injEq] at hroute
  subst hroute
  simp only [overrideCheckpoint, ok_iff] at hpassed
  obtain ⟨-, found, hfound, hpositive, -⟩ := hpassed
  rw [hadded, Option.some.injEq] at hfound
  rw [← hfound] at hpositive
  exact hpositive

theorem StagesOverride.latest_after {db db' : Database} {scope : RunScope}
    (h : StagesOverride db db' scope requested c) :
    IsLatest db' scope (c.overridden requested) := by
  refine ⟨(Table.mem_insert h.inserted).mpr (.inr rfl), h.latest.scope_eq, fun c' hc' hscope => ?_⟩
  rcases (Table.mem_insert h.inserted).mp hc' with hold | rfl
  · have hle := h.latest.latest c' hold hscope
    change c'.checkpoint_version ≤ c.checkpoint_version + 1
    omega
  · exact le_rfl

theorem decideReview_accepts [Hashing] {db db' : Database} {clk : Clock Time} {now : Time}
    {tenant_id review_id reviewer key : Identifier} {note : Option String}
    {requested : ReviewOverrideRequest} {decided review : ReviewRecord} {decision : ReviewDecision}
    (h : decideReview db clk now tenant_id review_id reviewer decision key note (some requested) = .ok (db', decided))
    (hreview : db.reviews.get (tenant_id, review_id) = some review)
    (hpending : review.decision = none) : ∃ c, StagesOverride db db' review.toRunScope requested c := by
  obtain ⟨review', run, hget, -, hkept | ⟨-, _, c, ⟨⟩, hstages⟩⟩ := decideReview_stages h <;>
    rw [hreview, Option.some.injEq] at hget <;> subst hget
  · rcases hkept.1 with hdecided | hnone
    · rw [hpending] at hdecided
      cases hdecided
    · cases hnone
  · exact ⟨c, hstages⟩

/-- **When an override is enough.** A slice of the checkpoint that an override leaves does not stop for the same reason
exactly when the reason was not the deadline, or the extended deadline is after the time of the slice. -/
theorem override_effective_iff [Hashing] [JsonDecoding] {db db' : Database} {clk : Clock Time}
    {now t : Time} {tenant_id review_id reviewer key : Identifier} {note : Option String}
    {requested : ReviewOverrideRequest} {decided review : ReviewRecord} {c c' : Checkpoint}
    {reason : RouteReason} {harness : ModelHarness} {max_steps : ℤ}
    (h : decideReview db clk now tenant_id review_id reviewer .continue key note (some requested) =
      .ok (db', decided))
    (hreview : db.reviews.get (tenant_id, review_id) = some review) (hpending : review.decision = none)
    (hstopped : IsLatest db review.toRunScope c) (hreason : c.route_reason = some reason)
    (hcase : reason = .modelBudgetExhausted ∨ reason = .deadlinePassed)
    (hresult : IsLatest db' review.toRunScope c') (hsteps : 1 ≤ max_steps)
    (hstrategy : harness.strategyChanged c = false)
    (hhook : harness.beforeRun review.toRunScope = .ok ()) :
    harness.stopsAgain c' t max_steps reason = false ↔
      (reason = .deadlinePassed →
        t < c.remaining_budget.deadline + requested.deadline_extension_seconds * 1000000) := by
  obtain ⟨stopped, hstages⟩ := decideReview_accepts h hreview hpending
  obtain rfl := hstages.latest.unique hstopped
  obtain rfl := hresult.unique hstages.latest_after
  have hscope : (stopped.overridden requested).toRunScope = review.toRunScope := hstopped.scope_eq
  have hunchanged : harness.strategyChanged (stopped.overridden requested) = false := hstrategy
  obtain ⟨hpassed, hexhausted⟩ :=
    @ModelHarness.stopsAgain_iff _ _ _ t _ hsteps rfl hunchanged (hscope ▸ hhook)
  rw [← Bool.not_eq_true]
  rcases hcase with rfl | rfl
  · -- At least one call was added to what was left.
    have hadds : 0 < requested.model_calls_add := hstages.adds hreason rfl
    have hleft : 0 ≤ stopped.remaining_budget.model_calls :=
      (Checkpoint.valid_iff.mp hstages.valid).2.budget.model_calls.1
    have hcalls : ¬(stopped.overridden requested).remaining_budget.model_calls < 1 := by
      change ¬stopped.remaining_budget.model_calls + (requested.model_calls_add : ℤ) < 1
      omega
    rw [hexhausted]
    exact iff_of_true (fun hrefused => hcalls hrefused.2) nofun
  · rw [hpassed, not_le]
    exact ⟨fun hlt _ => hlt, fun hlt => hlt rfl⟩

/-! ## A deadline that has passed -/

def sampleHarness : ModelHarness := (sampleInput firstCall (·.toCaseScope)).harness

/-- The tool answers, and the next slice is after the deadline. -/
def lateCalls : List (Time × PoolCall) :=
  poolSetup ++ sampleSlice 2 firstCall (·.toCaseScope) ++ sampleSlice 4 firstCall (·.toCaseScope) ++
    [(400000000, .runOnce 0 sampleScope.tenant_id sampleScope.run_id sampleOwner 3600000000),
      (400000001, .execute 0 { sampleInput firstCall (·.toCaseScope) with execution_time := 400000000 }),
      (400000002, .call (.requestReview 400000002 sampleReview))]

/-- More time for the checkpoint that the last slice saved. -/
def extension (seconds : ℕ) (h : seconds ≤ maxOverrideDeadlineExtensionSeconds) : ReviewOverrideRequest :=
  { sampleOverride with
    deadline_extension_seconds := seconds, extension_le := h, has_effect := .inl (by decide) }

def lateDecision (requested : ReviewOverrideRequest) : Result (Database × ReviewRecord) :=
  @decideReview sampleHashing (samplePool lateCalls).db (.still 400000003) 400000003
    sampleScope.tenant_id sampleReview.review_id ⟨"lead-1", Eq.refl true⟩ .continue
    ⟨"key-1", Eq.refl true⟩ none (some requested)

theorem lateCalls_stopped : ∃ review,
    (samplePool lateCalls).db.reviews.get (sampleScope.tenant_id, sampleReview.review_id) =
        some review ∧ review.decision = none ∧ review.toRunScope = sampleScope ∧
      ∀ c, IsLatest (samplePool lateCalls).db sampleScope c →
        c.route_reason = some .deadlinePassed ∧ c.remaining_budget.deadline = 300000000 ∧
          sampleHarness.strategyChanged c = false := by
  have hreview : ∃ review ∈ (samplePool lateCalls).db.reviews.get (sampleScope.tenant_id, sampleReview.review_id),
      review.decision = none ∧ review.toRunScope = sampleScope := by
    decide
  have hlast : ∃ c ∈ (samplePool lateCalls).db.checkpoints.rows, c.toRunScope = sampleScope ∧
      c.checkpoint_version = 4 := by
    decide
  have hrows : ∀ c ∈ (samplePool lateCalls).db.checkpoints.rows, 4 ≤ c.checkpoint_version →
      c.route_reason = some .deadlinePassed ∧ c.remaining_budget.deadline = 300000000 ∧
        sampleHarness.strategyChanged c = false := by
    decide
  obtain ⟨review, hget, hpending, hscope⟩ := hreview
  obtain ⟨last, hlast, hsame, hversion⟩ := hlast
  refine ⟨review, hget, hpending, hscope, fun c hc => hrows c hc.stored ?_⟩
  rw [← hversion]
  exact hc.latest last hlast hsame

theorem lateDecision_stages (hok : (lateDecision requested).isOk = true) :
    ∃ db' decided c, lateDecision requested = .ok (db', decided) ∧
        StagesOverride (samplePool lateCalls).db db' sampleScope requested c ∧
        c.route_reason = some .deadlinePassed ∧ c.remaining_budget.deadline = 300000000 ∧
        sampleHarness.strategyChanged c = false := by
  obtain ⟨review, hreview, hpending, hscope, hstopped⟩ := lateCalls_stopped
  cases h : lateDecision requested with
  | error e => rw [h] at hok; cases hok
  | ok result =>
    obtain ⟨c, hstages⟩ := @decideReview_accepts sampleHashing _ _ _ _ _ _ _ _ _ _ _ _ _ h hreview hpending
    rw [hscope] at hstages
    exact ⟨_, _, c, rfl, hstages, hstopped c hstages.latest⟩

/-- The override of an hour is enough. -/
theorem override_effective_iff_hour : ∃ db' decided c',
    lateDecision (extension 3600 (by decide)) = .ok (db', decided) ∧
      IsLatest db' sampleScope c' ∧
      @ModelHarness.stopsAgain sampleDecoding sampleHarness c' 400000003 8 .deadlinePassed = false := by
  obtain ⟨review, hreview, hpending, hscope, -⟩ := lateCalls_stopped
  obtain ⟨db', decided, c, h, hstages, hreason, hdeadline, hstrategy⟩ :=
    lateDecision_stages (show (lateDecision (extension 3600 (by decide))).isOk = true by decide)
  refine ⟨db', decided, _, h, hstages.latest_after, ?_⟩
  refine (@override_effective_iff sampleHashing sampleDecoding _ _ _ _ 400000003 _ _ _ _ _ _ _ _ c _ _
    sampleHarness 8 h hreview hpending (hscope ▸ hstages.latest) hreason (.inr rfl)
    (hscope ▸ hstages.latest_after) (by decide) hstrategy rfl).mpr fun _ => ?_
  rw [hdeadline]
  decide

/-- The Run stops again at once for the same reason. -/
theorem short_extension_has_no_effect : (∃ t, @PoolHistory sampleHashing sampleDecoding
      (trace (@WorkerPool.step sampleHashing sampleDecoding) WorkerPool.empty lateCalls) 0
      (samplePool lateCalls) t) ∧
    ∃ db' decided c c', lateDecision (extension 1 (by decide)) = .ok (db', decided) ∧
      IsLatest (samplePool lateCalls).db sampleScope c ∧ c.route_reason = some .deadlinePassed ∧
      sampleHarness.strategyChanged c = false ∧ sampleHarness.beforeRun sampleScope = .ok () ∧
      IsLatest db' sampleScope c' ∧
      @ModelHarness.stopsAgain sampleDecoding sampleHarness c' 400000003 8 .deadlinePassed = true := by
  obtain ⟨db', decided, c, h, hstages, hreason, hdeadline, hstrategy⟩ :=
    lateDecision_stages (show (lateDecision (extension 1 (by decide))).isOk = true by decide)
  refine ⟨⟨_, replay_runs (@WorkerPool.step sampleHashing sampleDecoding) lateCalls WorkerPool.empty 0
    (by decide)⟩, db', decided, c, _, h, hstages.latest, hreason, hstrategy, rfl, hstages.latest_after, ?_⟩
  refine (@ModelHarness.stopsAgain_iff sampleDecoding sampleHarness (c.overridden _) 400000003 8
    (by decide) rfl hstrategy rfl).1.mpr ?_
  change c.remaining_budget.deadline + 1 * 1000000 ≤ _
  rw [hdeadline]
  decide

end Aftercare
