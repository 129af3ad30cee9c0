import Aftercare.Runtime.Slices
import Aftercare.Runtime.Turns

/-!
# What a slice books

A slice calls the provider at most once, at `ModelHarness.request` and nowhere else
(`runModelHarness_answering`). `Outcome` says once what a slice can end with, and `Books` what follows for the
budget: a turn costs one model call, and its price if the budget covers it.
-/

namespace Aftercare

open Relational Text Investigation

/-! ## The request of a slice -/

/-- The request of the model phase, if it gets that far. -/
def ModelHarness.modelRequest (harness : ModelHarness) (c : Checkpoint) (now : Time) : Option ResponsesRequest :=
  if c.remaining_budget.deadline ≤ now then none
  else if c.remaining_budget.model_calls < 1 then none
  else match harness.render_input c with
    | .error _ => none
    | .ok input => (responsesRequest harness.model input harness.tools).toOption

/-- The checkpoint that a slice brings to its phase, if of its strategy. -/
def ModelHarness.opened (harness : ModelHarness) (scope : RunScope) (checkpoint : Option Checkpoint)
    (now : Time) : Option Checkpoint :=
  match checkpoint with
  | none => (initialCheckpoint harness scope now).toOption
  | some c => if c.toRunScope = scope ∧ harness.strategyChanged c = false then some c.reopened else none

/-- The request that a slice hands to the provider, if any. -/
def ModelHarness.request (harness : ModelHarness) (scope : RunScope) (checkpoint : Option Checkpoint)
    (now : Time) (max_steps : ℤ) : Option ResponsesRequest :=
  if max_steps < 1 then none
  else (harness.opened scope checkpoint now).bind fun c =>
    if (harness.beforeRun c.toRunScope).isOk = true ∧ c.next_step = .model then
      harness.modelRequest c now
    else none

/-- What the provider reports as the cost of a request, or nothing. -/
def ModelHarness.reported (harness : ModelHarness) (request : ResponsesRequest) : Option ℕ :=
  (harness.complete request).toOption.bind fun response => cost response harness.pricing

/-- The cost that a request takes, if it is reported and covered. -/
def ModelHarness.charge (harness : ModelHarness) (request : ResponsesRequest) (budget : RemainingBudget) : ℕ :=
  (harness.complete request).toOption.elim 0 fun response => harness.priceOf response budget

variable {harness : ModelHarness} {c c' : Checkpoint} {now : Time}

def ModelHarness.answering (harness : ModelHarness)
    (complete : ResponsesRequest → Except ProviderFailure NormalizedResponse) : ModelHarness :=
  { harness with complete := complete }

theorem ModelHarness.modelStep_answering [JsonDecoding]
    {complete : ResponsesRequest → Except ProviderFailure NormalizedResponse}
    (h : ∀ request ∈ harness.modelRequest c now, complete request = harness.complete request) :
    (harness.answering complete).modelStep c now = harness.modelStep c now := by
  unfold ModelHarness.modelRequest at h
  unfold ModelHarness.modelStep
  simp only
  split_ifs with hdeadline hcalls
  · rfl
  · rfl
  rw [if_neg hdeadline, if_neg hcalls] at h
  change (attempt (harness.render_input c) >>= _) = _
  cases hinput : harness.render_input c with
  | error e => cases e <;> rfl
  | ok input =>
    rw [hinput] at h
    have hcall : (harness.answering complete).callProvider input = harness.callProvider input := by
      unfold ModelHarness.callProvider ModelHarness.answering
      cases hrequest : responsesRequest harness.model input harness.tools with
      | error e => rfl
      | ok request =>
        simp only [hrequest] at h
        exact h request rfl
    simp only [attempt, ok_bind, hcall]
    rfl

theorem ModelHarness.resume_answering [JsonDecoding]
    {complete : ResponsesRequest → Except ProviderFailure NormalizedResponse}
    (h : ∀ request, (harness.beforeRun c.toRunScope).isOk = true → c.next_step = .model →
      harness.modelRequest c now = some request → complete request = harness.complete request) :
    (harness.answering complete).resume c now = harness.resume c now := by
  unfold ModelHarness.resume
  change (attempt (harness.beforeRun c.toRunScope) >>= _) = _
  cases hhook : harness.beforeRun c.toRunScope with
  | error e => cases e <;> rfl
  | ok u =>
    rw [hhook] at h
    simp only [attempt, ok_bind]
    unfold ModelHarness.phase
    cases hphase : c.next_step <;> simp only
    case model =>
      rw [ModelHarness.modelStep_answering fun request hrequest => h request rfl hphase hrequest]
    all_goals rfl

variable {scope : RunScope}

/-! ## What a slice ends with -/

/-- The end of a turn that called the provider with a request. -/
structure PaidTurn (harness : ModelHarness) (request : ResponsesRequest) (c c' : Checkpoint) : Prop
    extends Turned c c' where
  cost : c'.remaining_budget.cost_microusd =
    c.remaining_budget.cost_microusd - harness.charge request c.remaining_budget
  tools : c'.remaining_budget.tool_calls = c.remaining_budget.tool_calls

/-- The hook or the renderer fails in a way that is retried. -/
def ModelHarness.FailsTransiently (harness : ModelHarness) (c : Checkpoint) : Prop :=
  ∃ code message, (harness.beforeRun c.toRunScope = .error (.contract code message) ∨
    harness.render_input c = .error (.contract code message)) ∧ code.transient = true

/-- The end of a slice, its request, and whether it has a proposal. -/
inductive Outcome (harness : ModelHarness) (now : Time) (c : Checkpoint) :
    Option ResponsesRequest → Bool → Checkpoint → Prop
  /-- There is nothing to do. -/
  | done (hphase : c.next_step = .complete) : Outcome harness now c none false c
  /-- There is a proposal to assess. -/
  | handed (hphase : c.next_step = .evaluate) : Outcome harness now c none true c
  /-- The checkpoint is routed as it is. -/
  | routed (next_step : NextStep) (reason : RouteReason) (available_at : Option Time)
      (hnext : next_step = .review ∨ next_step = .retry ∧ harness.FailsTransiently c) :
      Outcome harness now c none false (c.route next_step reason c.remaining_budget available_at)
  /-- The provider was called, and the turn is paid for. -/
  | paid {request : ResponsesRequest} {c' : Checkpoint} (hphase : c.next_step = .model)
      (hrequest : harness.modelRequest c now = some request)
      (hdeadline : now < c.remaining_budget.deadline) (hcalls : 1 ≤ c.remaining_budget.model_calls)
      (hpaid : PaidTurn harness request c c') : Outcome harness now c (some request) false c'
  /-- A tool has answered. -/
  | answered (result : ToolResultReference) (hphase : c.next_step = .tool)
      (htools : c.remaining_budget.tool_calls ≠ 0) :
      Outcome harness now c none false (c.answered result)

theorem Outcome.review (reason : RouteReason) :
    Outcome harness now c none false (c.route .review reason c.remaining_budget none) :=
  .routed .review reason none (.inl rfl)

theorem ModelHarness.routeFailure_outcome {code : ErrorCode} {reason : RouteReason}
    (hfails : code.transient = true → harness.FailsTransiently c)
    (h : harness.routeFailure c now code reason = .ok c') : Outcome harness now c none false c' := by
  unfold ModelHarness.routeFailure at h
  split_ifs at h with htransient
  · simp only [ok_iff] at h
    obtain ⟨available_at, -, rfl⟩ := h
    exact .routed _ _ _ (.inr ⟨rfl, hfails htransient⟩)
  · cases h
    exact .review reason

/-- **The model phase.** -/
theorem ModelHarness.modelStep_outcome [JsonDecoding] (hphase : c.next_step = .model)
    (h : harness.modelStep c now = .ok c') : Outcome harness now c (harness.modelRequest c now) false c' := by
  cases hwanted : harness.modelRequest c now with
  | none =>
    unfold ModelHarness.modelRequest at hwanted
    unfold ModelHarness.modelStep at h
    simp only at h
    split_ifs at h hwanted with hdeadline hcalls
    · cases h
      exact .review _
    · cases h
      exact .review _
    rw [bind_eq_ok] at h
    obtain ⟨outcome, hrendered, h⟩ := h
    cases outcome with
    | error code =>
      obtain ⟨message, hraised⟩ := attempt_eq_code.mp hrendered
      exact harness.routeFailure_outcome (fun htransient => ⟨code, message, .inr hraised, htransient⟩) h
    | ok input =>
      -- The request was not built, and what that raises leaves the turn.
      rw [attempt_eq_value.mp hrendered] at hwanted
      simp only [ModelHarness.callProvider] at h hwanted
      cases hrequest : responsesRequest harness.model input harness.tools with
      | error failure =>
        simp only [hrequest] at h
        unfold responsesRequest identifier require at hrequest
        split_ifs at hrequest <;> cases hrequest <;> cases h
      | ok request =>
        rw [hrequest] at hwanted
        cases hwanted
  | some request =>
    have hcalled := hwanted
    unfold ModelHarness.modelRequest at hcalled
    split_ifs at hcalled with hdeadline hcalls
    refine .paid hphase hwanted (not_le.mp hdeadline) (not_lt.mp hcalls) ?_
    unfold ModelHarness.modelStep at h
    simp only [if_neg hdeadline, if_neg hcalls] at h
    cases hinput : harness.render_input c with
    | error failure =>
      rw [hinput] at hcalled
      cases hcalled
    | ok input =>
      have hrequest : responsesRequest harness.model input harness.tools = .ok request := by
        simp only [hinput] at hcalled
        cases hbuilt : responsesRequest harness.model input harness.tools <;>
          simp_all [Except.toOption]
      simp only [hinput, attempt, ok_bind, ModelHarness.callProvider, hrequest] at h
      cases hanswer : harness.complete request with
      | error failure =>
        simp only [hanswer] at h
        have hends := (harness.failedTurn_turn h).ends
        refine ⟨hends.turned rfl rfl, ?_, by rw [hends.budget]; rfl⟩
        rw [hends.budget, ModelHarness.charge, hanswer]
        simp [RemainingBudget.spentOneCall, Except.toOption]
      | ok response =>
        simp only [hanswer] at h
        have hends := (harness.answeredTurn_turn h).ends
        refine ⟨hends.turned rfl rfl, ?_, by rw [hends.budget]⟩
        rw [hends.budget, ModelHarness.charge, hanswer]
        rfl

/-- **The tool phase.** -/
theorem ModelHarness.toolStep_outcome [JsonDecoding] (hphase : c.next_step = .tool)
    (h : harness.toolStep c now = .ok c') : Outcome harness now c none false c' := by
  simp only [ModelHarness.toolStep, ok_iff] at h
  obtain ⟨tool, -, checked, hchecked, h⟩ := h
  cases checked with
  | error code =>
    cases h
    exact .review _
  | ok arguments =>
    rw [bind_eq_ok] at h
    obtain ⟨executed, -, h⟩ := h
    cases executed with
    | error code =>
      cases h
      exact .review _
    | ok artifact =>
      simp only [ok_iff] at h
      obtain ⟨step_id, -, attempt_id, -, rfl⟩ := h
      exact .answered _ hphase (validateToolRequest_budget (attempt_eq_value.mp hchecked))

variable {result : HarnessResult} {s : RunSlice} {previous : Option Checkpoint}

theorem evaluateStep_outcome [JsonDecoding] (hphase : c.next_step = .evaluate) (h : evaluateStep c = .ok result) :
    Outcome harness now c none result.proposal.isSome result.checkpoint := by
  unfold evaluateStep at h
  simp only at h
  split at h
  · cases h
    exact .review _
  · rw [bind_eq_ok] at h
    obtain ⟨parsed, -, h⟩ := h
    cases parsed with
    | error code =>
      cases h
      exact .review _
    | ok proposal =>
      cases h
      exact .handed hphase

theorem ModelHarness.phase_outcome [JsonDecoding]
    (hopen : c.next_step ≠ .review ∧ c.next_step ≠ .retry) (h : harness.phase c now = .ok result) :
    Outcome harness now c (if c.next_step = .model then harness.modelRequest c now else none)
      result.proposal.isSome result.checkpoint := by
  unfold ModelHarness.phase at h
  split at h <;> rename_i hphase
  case h_1 =>
    cases h
    rw [if_neg (by rw [hphase]; decide)]
    exact .done hphase
  case h_2 => exact absurd hphase hopen.1
  case h_3 => exact absurd hphase hopen.2
  case h_4 =>
    simp only [ok_iff] at h
    obtain ⟨c', hstep, rfl⟩ := h
    rw [if_pos hphase]
    exact harness.modelStep_outcome hphase hstep
  case h_5 =>
    simp only [ok_iff] at h
    obtain ⟨c', hstep, rfl⟩ := h
    rw [if_neg (by rw [hphase]; decide)]
    exact harness.toolStep_outcome hphase hstep
  case h_6 =>
    rw [if_neg (by rw [hphase]; decide)]
    exact evaluateStep_outcome hphase h
  case h_7 => cases h

theorem ModelHarness.resume_outcome [JsonDecoding] (hopen : c.next_step ≠ .review ∧ c.next_step ≠ .retry)
    (h : harness.resume c now = .ok result) : Outcome harness now c
      (if (harness.beforeRun c.toRunScope).isOk = true ∧ c.next_step = .model then
        harness.modelRequest c now else none) result.proposal.isSome result.checkpoint := by
  simp only [ModelHarness.resume, bind_eq_ok] at h
  obtain ⟨hook, hhook, h⟩ := h
  cases hook with
  | error code =>
    simp only [ok_iff] at h
    obtain ⟨c', hroute, rfl⟩ := h
    obtain ⟨message, hraised⟩ := attempt_eq_code.mp hhook
    rw [if_neg (by rw [hraised]; simp [Except.isOk, Except.toBool])]
    exact harness.routeFailure_outcome (fun htransient => ⟨code, message, .inl hraised, htransient⟩) hroute
  | ok _ =>
    have hphase := harness.phase_outcome hopen h
    rw [attempt_eq_value.mp hhook]
    simpa [Except.isOk, Except.toBool] using hphase

/-- Opening a checkpoint again leaves its Run, version and budget. -/
theorem Checkpoint.reopened_kept (c : Checkpoint) :
    c.reopened.toRunScope = c.toRunScope ∧ c.reopened.checkpoint_version = c.checkpoint_version ∧
      c.reopened.remaining_budget = c.remaining_budget ∧
      c.reopened.next_step ≠ .review ∧ c.reopened.next_step ≠ .retry := by
  unfold Checkpoint.reopened
  split_ifs with hrouted
  · exact ⟨rfl, rfl, rfl, by simp, by simp⟩
  · exact ⟨rfl, rfl, rfl, fun h => hrouted (.inl h), fun h => hrouted (.inr h)⟩

theorem initialCheckpoint_eq_ok (h : initialCheckpoint harness scope now = .ok c) :
    c.toRunScope = scope ∧ c.checkpoint_version = 1 ∧ c.next_step = .model ∧
      c.remaining_budget.model_calls = harness.limits.model_calls ∧
      c.remaining_budget.tool_calls = harness.limits.tool_calls ∧
      c.remaining_budget.cost_microusd = harness.limits.cost_microusd := by
  simp only [initialCheckpoint, remainingBudget, ok_iff] at h
  obtain ⟨_, -, _, ⟨-, rfl⟩, _, -, _, -, _, -, _, -, rfl⟩ := h
  exact ⟨rfl, rfl, rfl, rfl, rfl, rfl⟩

/-- **One slice**, from its checkpoint or from the one that a first slice starts with. A checkpoint of
another strategy is routed before the rest of the harness sees it. -/
theorem runModelHarness_outcome [JsonDecoding] {checkpoint : Option Checkpoint} {max_steps : ℤ}
    (h : runModelHarness harness scope checkpoint now max_steps = .ok result) :
    ∃ c, c.toRunScope = scope ∧ (checkpoint = none ∧ initialCheckpoint harness scope now = .ok c ∨
        ∃ stored, checkpoint = some stored ∧ c = stored.reopened) ∧
      Outcome harness now c (harness.request scope checkpoint now max_steps) result.proposal.isSome
        result.checkpoint := by
  simp only [runModelHarness, ok_iff] at h
  obtain ⟨hsteps, h⟩ := h
  unfold ModelHarness.request
  rw [if_neg (not_lt.mpr hsteps)]
  cases checkpoint with
  | none =>
    rw [bind_eq_ok] at h
    obtain ⟨c, hinitial, h⟩ := h
    obtain ⟨hscope, -, hmodel, -⟩ := initialCheckpoint_eq_ok hinitial
    refine ⟨c, hscope, .inl ⟨rfl, hinitial⟩, ?_⟩
    rw [ModelHarness.opened, hinitial]
    exact harness.resume_outcome (by rw [hmodel]; decide) h
  | some stored =>
    simp only [ok_iff] at h
    obtain ⟨hscope, h⟩ := h
    obtain ⟨hscope', -, -, hopen⟩ := stored.reopened_kept
    refine ⟨stored.reopened, hscope'.trans hscope, .inr ⟨stored, rfl, rfl⟩, ?_⟩
    rw [ModelHarness.opened]
    split_ifs at h with hchanged
    · cases h
      rw [if_neg (by simp [hchanged])]
      -- The route overwrites what opening the checkpoint again changes.
      have hsame : stored.route .review .modelStrategyChanged stored.remaining_budget none =
          stored.reopened.route .review .modelStrategyChanged stored.reopened.remaining_budget none := by
        unfold Checkpoint.reopened
        split_ifs <;> rfl
      rw [HarnessResult.of, hsame]
      exact .review _
    · rw [if_pos ⟨hscope, by simpa using hchanged⟩]
      exact harness.resume_outcome hopen h

/-! ## What a slice of a Run books -/

/-- The request of a slice of a Run, if any. -/
def RunSlice.request (s : RunSlice) (previous : Option Checkpoint) : Option ResponsesRequest :=
  match Slice.resume ⟨s.claim, none, previous⟩ s.input.resume_next_step with
  | .error _ => none
  | .ok start => s.input.harness.request s.claim.toRunScope start s.input.execution_time
      s.input.max_steps

/-- The checkpoint that a slice of a Run brings to its phase. -/
inductive RunSlice.Opens (s : RunSlice) : Option Checkpoint → Checkpoint → Prop
  | first {c : Checkpoint} (h : initialCheckpoint s.input.harness s.claim.toRunScope
      s.input.execution_time = .ok c) : Opens s none c
  | next {stored resumed : Checkpoint} (h : resumeWait stored s.input.resume_next_step = .ok resumed) :
      Opens s (some stored) resumed.reopened

theorem SliceInput.assess_eq_ok [JsonDecoding] {input : SliceInput}
    {proposal : Option InvestigationProposal} (h : input.assess c proposal = .ok c') :
    proposal.isSome = false ∧ c' = c ∨ proposal.isSome = true ∧ ∃ next_step reason,
      (next_step = .review ∨ next_step = .complete) ∧ c' = c.assessed next_step reason := by
  unfold SliceInput.assess at h
  split at h
  · cases h
    exact .inl ⟨rfl, rfl⟩
  simp only [ok_iff] at h
  obtain ⟨-, payload, -, stored, -, -, h⟩ := h
  refine .inr ⟨rfl, ?_⟩
  unfold SliceInput.judge at h
  simp only at h
  split at h
  · cases h
    exact ⟨_, _, .inl rfl, rfl⟩
  · rw [bind_eq_ok] at h
    obtain ⟨outcome, -, h⟩ := h
    cases outcome with
    | error code =>
      cases h
      exact ⟨_, _, .inl rfl, rfl⟩
    | ok assessment =>
      simp only [ok_iff] at h
      obtain ⟨-, rfl⟩ := h
      exact ⟨_, _, .inr rfl, rfl⟩

/-- **What a slice of a Run saves**: the outcome of its phase under the token of its claim, or the
assessment of the proposal that it handed over. -/
theorem RunSlice.advance_outcome [JsonDecoding] (h : s.advance previous = .ok c') :
    ∃ c mid handed, s.Opens previous c ∧ c.toRunScope = s.claim.toRunScope ∧
      Outcome s.input.harness s.input.execution_time c (s.request previous) handed mid ∧
      (handed = false ∧ c' = { mid with saved_fencing_token := s.claim.fencing_token } ∨
        handed = true ∧ ∃ next_step reason, (next_step = .review ∨ next_step = .complete) ∧
          c' = Checkpoint.assessed { mid with saved_fencing_token := s.claim.fencing_token } next_step reason) := by
  simp only [RunSlice.advance, ok_iff] at h
  obtain ⟨start, hstart, result, hresult, -, hassess⟩ := h
  obtain ⟨c, hscope, hopens, houtcome⟩ := runModelHarness_outcome hresult
  refine ⟨c, result.checkpoint, result.proposal.isSome, ?_, hscope, ?_, SliceInput.assess_eq_ok hassess⟩
  · unfold Slice.resume at hstart
    cases previous with
    | none =>
      cases hstart
      rcases hopens with ⟨-, hinitial⟩ | ⟨stored, hsome, -⟩
      · exact .first hinitial
      · cases hsome
    | some stored =>
      simp only [ok_iff] at hstart
      obtain ⟨resumed, hresumed, rfl⟩ := hstart
      rcases hopens with ⟨hnone, -⟩ | ⟨_, hsome, rfl⟩
      · cases hnone
      · cases hsome
        exact .next hresumed
  · rw [RunSlice.request, hstart]
    exact houtcome

/-- What a slice with this request, or none, does to a budget. -/
structure Books (harness : ModelHarness) (request : Option ResponsesRequest)
    (b b' : RemainingBudget) : Prop where
  model_calls : b'.model_calls = b.model_calls - (if request.isSome = true then 1 else 0)
  callable : request.isSome = true → 1 ≤ b.model_calls
  tool_calls : b'.tool_calls = b.tool_calls ∨ b.tool_calls ≠ 0 ∧ b'.tool_calls = b.tool_calls - 1
  cost_microusd : b'.cost_microusd = b.cost_microusd - (request.elim 0 fun r => harness.charge r b : ℕ)

theorem Books.refl (b : RemainingBudget) : Books harness none b b := ⟨by simp, nofun, .inl rfl, by simp⟩

theorem Outcome.books {request : Option ResponsesRequest} {handed : Bool}
    (h : Outcome harness now c request handed c') :
    Books harness request c.remaining_budget c'.remaining_budget := by
  cases h with
  | done hphase => exact .refl _
  | handed hphase => exact .refl _
  | routed next_step reason available_at hnext => exact .refl _
  | paid hphase hrequest hdeadline hcalls hpaid =>
    exact ⟨hpaid.calls, fun _ => hcalls, .inl hpaid.tools, hpaid.cost⟩
  | answered result hphase htools =>
    exact ⟨by simp [Checkpoint.answered], nofun, .inr ⟨htools, rfl⟩, by simp [Checkpoint.answered]⟩

theorem Outcome.version {request : Option ResponsesRequest} {handed : Bool}
    (h : Outcome harness now c request handed c') : c' = c ∧ (c.next_step = .complete ∨ handed = true) ∨
      c'.checkpoint_version = c.checkpoint_version + 1 := by
  cases h with
  | done hphase => exact .inl ⟨rfl, .inl hphase⟩
  | handed hphase => exact .inl ⟨rfl, .inr rfl⟩
  | routed next_step reason available_at hnext => exact .inr rfl
  | paid hphase hrequest hdeadline hcalls hpaid => exact .inr hpaid.version
  | answered result hphase htools => exact .inr rfl

/-- The stored checkpoint, or that of the limits. -/
def RunSlice.start (s : RunSlice) (previous : Option Checkpoint) : Option Checkpoint :=
  previous.or (initialCheckpoint s.input.harness s.claim.toRunScope s.input.execution_time).toOption

/-- Leaving a wait keeps the budget, and does not lower the version. -/
theorem resumeWait_kept {resume_next_step : Option StepKind} (h : resumeWait c resume_next_step = .ok c') :
    c'.remaining_budget = c.remaining_budget ∧ c.checkpoint_version ≤ c'.checkpoint_version ∧
      (c'.next_step = .complete → c.next_step = .complete) := by
  unfold resumeWait at h
  split_ifs at h
  · simp only [ok_iff] at h
    obtain ⟨-, kind, -, rfl⟩ := h
    refine ⟨rfl, ?_, fun hcomplete => ?_⟩
    · show c.checkpoint_version ≤ c.checkpoint_version + 1
      omega
    · have hphase : kind.phase = .complete := hcomplete
      cases kind <;> cases hphase
  · cases h
    exact ⟨rfl, le_rfl, id⟩

theorem RunSlice.Opens.start (h : s.Opens previous c) :
    ∃ c₀, s.start previous = some c₀ ∧ c.remaining_budget = c₀.remaining_budget ∧
      c₀.checkpoint_version ≤ c.checkpoint_version ∧
      (c.next_step = .complete → c₀.next_step = .complete) := by
  cases h with
  | first hinitial =>
    refine ⟨c, ?_, rfl, le_rfl, id⟩
    rw [RunSlice.start, hinitial]
    rfl
  | @next stored resumed hresumed =>
    obtain ⟨-, hversion, hbudget, -⟩ := resumed.reopened_kept
    obtain ⟨hbudget', hversion', hcomplete'⟩ := resumeWait_kept hresumed
    refine ⟨stored, rfl, hbudget.trans hbudget', hversion'.trans hversion.ge, fun hcomplete => ?_⟩
    refine hcomplete' ?_
    unfold Checkpoint.reopened at hcomplete
    split_ifs at hcomplete
    exact hcomplete

/-- **What a slice of a Run books**, under a new version. -/
theorem RunSlice.advance_books [JsonDecoding] (h : s.advance previous = .ok c') : ∃ c, s.start previous = some c ∧
      (c.checkpoint_version < c'.checkpoint_version ∨ c.next_step = .complete) ∧
      Books s.input.harness (s.request previous) c.remaining_budget c'.remaining_budget := by
  obtain ⟨opened, mid, handed, hopens, -, houtcome, hsaved⟩ := RunSlice.advance_outcome h
  obtain ⟨c, hstart, hbudget, hversion, hcomplete⟩ := hopens.start
  have hbooks := houtcome.books
  rw [hbudget] at hbooks
  refine ⟨c, hstart, ?_, ?_⟩
  · have hassessed : ∀ next_step reason,
        (Checkpoint.assessed { mid with saved_fencing_token := s.claim.fencing_token } next_step
          reason).checkpoint_version = mid.checkpoint_version + 1 := fun _ _ => rfl
    rcases houtcome.version with ⟨rfl, hsame⟩ | hnext
    · rcases hsaved with ⟨hfalse, rfl⟩ | ⟨-, next_step, reason, -, rfl⟩
      · rw [hfalse] at hsame
        exact .inr (hcomplete (hsame.resolve_right Bool.false_ne_true))
      · have hone := hassessed next_step reason
        exact .inl (by omega)
    · rcases hsaved with ⟨-, rfl⟩ | ⟨-, next_step, reason, -, rfl⟩
      · exact .inl (by show _ < mid.checkpoint_version; omega)
      · have hone := hassessed next_step reason
        exact .inl (by omega)
  · rcases hsaved with ⟨-, rfl⟩ | ⟨-, next_step, reason, -, rfl⟩
    · exact hbooks
    · exact hbooks

end Aftercare
