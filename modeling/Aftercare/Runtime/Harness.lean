import Aftercare.Domain.Payloads

/-!
# The model harness

`runtime/model_harness.py`: one slice of a Run, from its checkpoint to the next one. Everything outside is a field
of `ModelHarness` and may return anything or raise; a `ContractViolation` becomes a route, any other exception
leaves the harness. The result is sound when its input is (`runModelHarness_sound`), under two conditions that the
harness does not check, `FreshCalls` and `OwnArtifacts`.
-/

namespace Aftercare

open Relational Text Investigation

variable {c c' : Checkpoint} {b budget : RemainingBudget} {now : Time} {tool : ToolRequest}

/-! ## The provider -/

/-- `ResponsesInputItem.role`. -/
inductive InputRole
  | user
  | assistant
  | system
deriving DecidableEq, Repr

structure ResponsesInputItem where
  role : InputRole
  content : String
  content_present : content ≠ ""
deriving DecidableEq, Repr

inductive ResponsesInput
  | text (text : String)
  | items (items : List ResponsesInputItem)
deriving DecidableEq, Repr

/-- `ToolSpec`, without the schema of its parameters. -/
structure ToolSpec where
  name : Identifier
deriving DecidableEq, Repr

structure ResponsesRequest where
  model : Identifier
  input : ResponsesInput
  tools : List ToolSpec
deriving DecidableEq, Repr

/-- `ResponsesRequest.input_is_present`. -/
def ResponsesInput.present : ResponsesInput → Bool
  | .text s => s != ""
  | .items list => !list.isEmpty

def responsesRequest (model : String) (input : ResponsesInput) (tools : List ToolSpec) :
    Result ResponsesRequest := do
  let model ← identifier "ResponsesRequest" model
  require (input.present = true) (.validation "ResponsesRequest")
  pure ⟨model, input, tools⟩

/-- `ResponseUsage`, with its `total_matches` validator. -/
structure ResponseUsage where
  (input_tokens output_tokens total_tokens : ℕ)
  total_matches : total_tokens = input_tokens + output_tokens
deriving DecidableEq, Repr

/-- `ToolCall`. The arguments are the pairs of a `dict`. -/
structure ToolCall where
  (call_id name : Identifier)
  arguments : List (String × Json)

/-- `NormalizedResponse`, without its events and its copy for audits. -/
structure NormalizedResponse where
  response_id : Identifier
  text : String
  tool_calls : List ToolCall
  usage : Option ResponseUsage

/-- A `ProviderError` with its status, or any other failure. -/
inductive ProviderFailure
  | provider (status_code : Option ℤ)
  | raised (failure : Failure)
deriving DecidableEq, Repr

/-- The caught failures, with `retryable` of `normalize_error`. -/
def ProviderFailure.normalizeError : ProviderFailure → Result Bool
  | .provider status_code =>
    pure (status_code.any fun status => [408, 409, 429, 500, 502, 503, 504].contains status)
  | .raised (.contract _ _) => pure false
  | .raised failure => .error failure

/-! ## The harness -/

structure HarnessLimits where
  (model_calls tool_calls cost_microusd ttl retry_backoff : ℤ)
deriving DecidableEq, Repr

structure ModelPricing where
  (input_microusd_per_token output_microusd_per_token : ℕ)
deriving DecidableEq, Repr

/-- The arguments of `run_model_harness` that a deployment binds. -/
structure ModelHarness where
  model : String
  model_config_version : Option String
  (strategy_id policy_version tool_schema_version : String)
  tools : List ToolSpec
  limits : HarnessLimits
  pricing : ModelPricing
  before_run : Option (RunScope → Result Unit)
  render_input : Checkpoint → Result ResponsesInput
  complete : ResponsesRequest → Except ProviderFailure NormalizedResponse
  execute : ToolRequest → RunScope → Time → Result ArtifactReference

structure HarnessResult where
  checkpoint : Checkpoint
  tool_calls : ℕ
  completed : Bool
  proposal : Option InvestigationProposal

/-- `model_config_version or model`. -/
def ModelHarness.configVersion (harness : ModelHarness) : String :=
  match harness.model_config_version with
  | none => harness.model
  | some version => if version = "" then harness.model else version

/-- Validate a `RemainingBudget`. -/
def remainingBudget (budget : RemainingBudget) : Result RemainingBudget := do
  require (nonNegativeInt budget.model_calls = true ∧ nonNegativeInt budget.tool_calls = true ∧
    nonNegativeInt budget.cost_microusd = true) (.validation "RemainingBudget")
  pure budget

def initialCheckpoint (harness : ModelHarness) (scope : RunScope) (now : Time) : Result Checkpoint := do
  let limits := harness.limits
  let deadline ← addDuration now limits.ttl
  let budget ← remainingBudget
    ⟨limits.model_calls, limits.tool_calls, limits.cost_microusd, deadline⟩
  let policy_version ← identifier "Checkpoint" harness.policy_version
  let tool_schema_version ← identifier "Checkpoint" harness.tool_schema_version
  let strategy_id ← identifier "Checkpoint" harness.strategy_id
  let model_config_version ← identifier "Checkpoint" harness.configVersion
  pure
    { toRunScope := scope
      checkpoint_version := 1, input_version := .one, case_version := .one
      saved_fencing_token := .one, step_id := none, attempt_id := none
      definition_version := ⟨"model-v1", Eq.refl true⟩, policy_version := policy_version
      tool_schema_version := tool_schema_version, model_config_version := model_config_version
      protocol_version := ⟨"runtime-v1", Eq.refl true⟩, strategy_id := strategy_id
      protocol_ref := none, tool_results := [], evidence_refs := [], action_ids := []
      remaining_budget := budget, next_step := .model, route_reason := none, pending_tool := none
      pending_proposal_json := none, resume_next_step := none, wait_id := none
      wait_generation := none, available_at := none }

def cost (response : NormalizedResponse) (pricing : ModelPricing) : Option ℕ :=
  response.usage.map fun usage => usage.input_tokens * pricing.input_microusd_per_token +
    usage.output_tokens * pricing.output_microusd_per_token

def RemainingBudget.spentOneCall (budget : RemainingBudget) : RemainingBudget :=
  { budget with model_calls := budget.model_calls - 1 }

/-- `_route`; a review leaves out `available_at`. -/
def Checkpoint.route (c : Checkpoint) (next_step : NextStep) (reason : RouteReason)
    (budget : RemainingBudget) (available_at : Option Time) : Checkpoint :=
  { c with
    checkpoint_version := c.checkpoint_version + 1, remaining_budget := budget
    next_step := next_step, route_reason := some reason, pending_tool := none
    pending_proposal_json := none, available_at := available_at }

/-- The codes of a failure that the harness retries. -/
def ErrorCode.transient : ErrorCode → Bool
  | .retryable | .rateLimited | .outcomeUnknown => true
  | _ => false

/-- A retry after the back-off, or a review. -/
def ModelHarness.routeFailure (harness : ModelHarness) (c : Checkpoint) (now : Time)
    (code : ErrorCode) (reason : RouteReason) : Result Checkpoint :=
  if code.transient then do
    let available_at ← addDuration now harness.limits.retry_backoff
    pure (c.route .retry reason c.remaining_budget (some available_at))
  else pure (c.route .review reason c.remaining_budget none)

/-! ## The model phase -/

/-- The provider failed, and the attempt is charged. -/
def ModelHarness.failedTurn (harness : ModelHarness) (c : Checkpoint) (now : Time)
    (failure : ProviderFailure) : Result Checkpoint := do
  let charged := c.remaining_budget.spentOneCall
  let rejected := c.route .review .providerError charged none
  let retryable ← failure.normalizeError
  if retryable = true then do
    let available_at ← addDuration now harness.limits.retry_backoff
    if available_at ≤ c.remaining_budget.deadline then
      pure (c.route .retry .providerRetryableError charged (some available_at))
    else pure rejected
  else pure rejected

/-- Validate the `ToolRequest` of a call. -/
def ToolCall.request (call : ToolCall) : Result ToolRequest :=
  let arguments_json := (Json.object call.arguments).dumps
  if h : arguments_json.length ≤ 65536 then .ok ⟨call.call_id, call.name, arguments_json, h⟩
  else .error (.validation "ToolRequest")

def Checkpoint.asked (c : Checkpoint) (tool : ToolRequest) (charged : RemainingBudget) : Checkpoint :=
  { c with
    checkpoint_version := c.checkpoint_version + 1, remaining_budget := charged
    next_step := .tool, route_reason := none, available_at := none, pending_tool := some tool }

def Checkpoint.proposed (c : Checkpoint) (proposal : InvestigationProposal)
    (charged : RemainingBudget) : Checkpoint :=
  { c with
    checkpoint_version := c.checkpoint_version + 1, remaining_budget := charged
    next_step := .evaluate, route_reason := none
    pending_proposal_json := some proposal.dumpJson, available_at := none }

def chargedTurn [JsonDecoding] (c : Checkpoint) (response : NormalizedResponse)
    (charged : RemainingBudget) : Result Checkpoint :=
  match response.tool_calls with
  | _ :: _ :: _ => pure (c.route .review .intentRejected charged none)
  | [call] =>
    if c.remaining_budget.tool_calls < 1 then
      pure (c.route .review .toolBudgetExhausted charged none)
    else do
      let tool ← call.request
      pure (c.asked tool charged)
  | [] =>
    if response.text = "" then pure (c.route .review .emptyTurn charged none)
    else do
      match ← attempt (parseInvestigationProposal response.text) with
      | .error _ => pure (c.route .review .proposalRejected charged none)
      | .ok proposal => pure (c.proposed proposal charged)

def ModelHarness.answeredTurn [JsonDecoding] (harness : ModelHarness) (c : Checkpoint)
    (response : NormalizedResponse) : Result Checkpoint :=
  let budget := c.remaining_budget
  match cost response harness.pricing with
  | none => pure (c.route .review .emptyTurn budget.spentOneCall none)
  | some cost =>
    if budget.cost_microusd < cost then
      pure (c.route .review .costBudgetExhausted budget.spentOneCall none)
    else chargedTurn c response
      { budget with
        model_calls := budget.model_calls - 1, cost_microusd := budget.cost_microusd - cost }

/-- The call of the provider, for which a request has to be built. -/
def ModelHarness.callProvider (harness : ModelHarness) (input : ResponsesInput) :
    Except ProviderFailure NormalizedResponse :=
  match responsesRequest harness.model input harness.tools with
  | .error failure => .error (.raised failure)
  | .ok request => harness.complete request

def ModelHarness.modelStep [JsonDecoding] (harness : ModelHarness) (c : Checkpoint) (now : Time) :
    Result Checkpoint :=
  let budget := c.remaining_budget
  if budget.deadline ≤ now then pure (c.route .review .deadlinePassed budget none)
  else if budget.model_calls < 1 then
    pure (c.route .review .modelBudgetExhausted budget none)
  else do
    match ← attempt (harness.render_input c) with
    | .error code => harness.routeFailure c now code .inputRejected
    | .ok input =>
      match harness.callProvider input with
      | .error failure => harness.failedTurn c now failure
      | .ok response => harness.answeredTurn c response

/-! ## The tool phase -/

def Checkpoint.answered (c : Checkpoint) (result : ToolResultReference) : Checkpoint :=
  { c with
    checkpoint_version := c.checkpoint_version + 1, tool_results := c.tool_results ++ [result]
    remaining_budget :=
      { c.remaining_budget with tool_calls := c.remaining_budget.tool_calls - 1 }
    next_step := .model, pending_tool := none, route_reason := none, available_at := none }

def ModelHarness.toolStep [JsonDecoding] (harness : ModelHarness) (c : Checkpoint) (now : Time) :
    Result Checkpoint := do
  let pending ← fetch c.pending_tool (.contract .conflict "tool step without a pending tool")
  let budget := c.remaining_budget
  match ← attempt (validateToolRequest pending true (harness.tools.map (·.name)) budget now) with
  | .error _ => pure (c.route .review .intentRejected budget none)
  | .ok _ =>
    match ← attempt (harness.execute pending c.toRunScope now) with
    | .error _ => pure (c.route .review .executorRejected budget none)
    | .ok artifact => do
      let index := toString (c.tool_results.length + 1)
      let step_id ← identifier "ToolResultReference" ("tool-step-" ++ index)
      let attempt_id ← identifier "ToolResultReference" ("tool-attempt-" ++ index)
      pure (c.answered ⟨pending.call_id, step_id, attempt_id, .succeeded, artifact⟩)

/-! ## One slice -/

def HarnessResult.of (c : Checkpoint) (completed : Bool) : HarnessResult :=
  ⟨c, c.tool_results.length, completed, none⟩

/-- The proposal is handed over; the checkpoint stays. -/
def evaluateStep [JsonDecoding] (c : Checkpoint) : Result HarnessResult :=
  let rejected := c.route .review .proposalRejected c.remaining_budget none
  match c.pending_proposal_json with
  | none => pure (.of rejected false)
  | some payload => do
    match ← attempt (parseInvestigationProposal payload) with
    | .error _ => pure (.of rejected false)
    | .ok proposal => pure ⟨c, c.tool_results.length, false, some proposal⟩

/-- The body of the loop, whose branches all leave it. -/
def ModelHarness.phase [JsonDecoding] (harness : ModelHarness) (c : Checkpoint) (now : Time) :
    Result HarnessResult :=
  match c.next_step with
  | .complete => pure (.of c true)
  | .review | .retry => pure (.of c false)
  | .model => do
    let c ← harness.modelStep c now
    pure (.of c (c.next_step == .complete))
  | .tool => do
    let c ← harness.toolStep c now
    pure (.of c (c.next_step == .complete))
  | .evaluate => evaluateStep c
  | .wait => .error (.contract .conflict "model harness cannot resume this step")

/-- A checkpoint that was routed tries the model phase again. -/
def Checkpoint.reopened (c : Checkpoint) : Checkpoint :=
  if c.next_step = .review ∨ c.next_step = .retry then
    { c with next_step := .model, route_reason := none, available_at := none }
  else c

/-- The hook in front of a slice, which need not be there. -/
def ModelHarness.beforeRun (harness : ModelHarness) (scope : RunScope) : Result Unit :=
  match harness.before_run with
  | none => pure ()
  | some hook => hook scope

/-- The checkpoint was written under another strategy. -/
def ModelHarness.strategyChanged (harness : ModelHarness) (c : Checkpoint) : Bool :=
  c.strategy_id.val != harness.strategy_id || c.model_config_version.val != harness.configVersion

/-- A checkpoint with the scope and the strategy of the harness. -/
def ModelHarness.resume [JsonDecoding] (harness : ModelHarness) (c : Checkpoint) (now : Time) :
    Result HarnessResult := do
  match ← attempt (harness.beforeRun c.toRunScope) with
  | .error code => do
    let c ← harness.routeFailure c now code .executorRejected
    pure (.of c false)
  | .ok _ => harness.phase c now

def runModelHarness [JsonDecoding] (harness : ModelHarness) (scope : RunScope)
    (checkpoint : Option Checkpoint) (now : Time) (max_steps : ℤ) : Result HarnessResult := do
  require (1 ≤ max_steps) (.contract .invalidInput "max_steps must be positive")
  match checkpoint with
  | none => do
    let c ← initialCheckpoint harness scope now
    harness.resume c now
  | some c => do
    require (c.toRunScope = scope) (.contract .forbidden "checkpoint scope mismatch")
    if harness.strategyChanged c = true then
      pure (.of (c.route .review .modelStrategyChanged c.remaining_budget none) false)
    else harness.resume c.reopened now

/-! ## Checkpoints that the harness takes -/

/-- In no wait, and sound but for a tool phase without its tool. -/
structure Checkpoint.Open (c : Checkpoint) : Prop extends c.Kept where
  phase : c.next_step ≠ .wait
  wait : c.resume_next_step = none ∧ c.wait_id = none ∧ c.wait_generation = none
  retry : c.next_step = .retry ↔ c.available_at.isSome = true
  route : c.next_step = .review ∨ c.next_step = .retry ↔ c.route_reason.isSome = true
  tool : c.pending_tool.isSome = true → c.next_step = .tool
  fresh : ∀ tool ∈ c.pending_tool, ∀ r ∈ c.tool_results, r.call_id ≠ tool.call_id
  proposal : ∀ p ∈ c.pending_proposal_json, p.length ≤ 65536 ∧ c.next_step = .evaluate

theorem Checkpoint.Open.sound (hc : c.Open) (htool : c.next_step = .tool → c.pending_tool.isSome = true) : c.Sound where
  toKept := hc.toKept
  wait := by
    rw [if_neg hc.phase]
    exact hc.wait
  retry := hc.retry
  route := hc.route
  tool := by
    rw [hc.wait.1]
    simp only [reduceCtorEq, or_false]
    exact ⟨htool, hc.tool⟩
  fresh := hc.fresh
  proposal p hp := ⟨(hc.proposal p hp).1, .inl (hc.proposal p hp).2⟩

theorem Checkpoint.Sound.open (hc : c.Sound) (hphase : c.next_step ≠ .wait) : c.Open := by
  have hwait := hc.wait
  rw [if_neg hphase] at hwait
  have htool := hc.tool
  have hproposal := hc.proposal
  rw [hwait.1] at htool hproposal
  simp only [reduceCtorEq, or_false] at htool hproposal
  exact
    { hc.toKept with
      phase := hphase, wait := hwait, retry := hc.retry, route := hc.route, tool := htool.mpr
      fresh := hc.fresh, proposal := hproposal }

theorem Checkpoint.Open.no_tool (hc : c.Open) (h : c.next_step ≠ .tool) : c.pending_tool = none :=
  Option.not_isSome_iff_eq_none.mp fun hsome => h (hc.tool hsome)

theorem Checkpoint.Open.no_proposal (hc : c.Open) (h : c.next_step ≠ .evaluate) : c.pending_proposal_json = none :=
  Option.eq_none_iff_forall_not_mem.mpr fun p hp => h (hc.proposal p hp).2

theorem Checkpoint.Open.route_sound (hc : c.Open) {next_step : NextStep} (reason : RouteReason)
    {available_at : Option Time} (hbudget : budget.InRange) (hnext : next_step = .review ∨ next_step = .retry)
    (hretry : next_step = .retry ↔ available_at.isSome = true) :
    (c.route next_step reason budget available_at).Sound := by
  have hphase : next_step ≠ .wait ∧ next_step ≠ .tool := by
    rcases hnext with rfl | rfl <;> decide
  have hopen : (c.route next_step reason budget available_at).Open :=
    { attempt := hc.attempt, refs := hc.refs, unique := hc.unique, budget := hbudget
      phase := hphase.1, wait := hc.wait, retry := hretry, route := iff_of_true hnext rfl
      tool := by simp [Checkpoint.route]
      fresh := by simp [Checkpoint.route]
      proposal := by simp [Checkpoint.route] }
  exact hopen.sound fun htool => absurd htool hphase.2

theorem Checkpoint.Open.review_sound (hc : c.Open) (reason : RouteReason) (hbudget : budget.InRange) :
    (c.route .review reason budget none).Sound :=
  hc.route_sound reason hbudget (.inl rfl) (by decide)

theorem Checkpoint.Open.retry_sound (hc : c.Open) (reason : RouteReason) (hbudget : budget.InRange)
    (available_at : Time) : (c.route .retry reason budget (some available_at)).Sound :=
  hc.route_sound reason hbudget (.inr rfl) (by simp)

theorem Checkpoint.Open.reopened (hc : c.Open) : c.reopened.Open := by
  unfold Checkpoint.reopened
  split_ifs with hrouted
  · have htool : c.next_step ≠ .tool := by rcases hrouted with h | h <;> rw [h] <;> decide
    have hevaluate : c.next_step ≠ .evaluate := by rcases hrouted with h | h <;> rw [h] <;> decide
    have hnone := hc.no_tool htool
    have hempty := hc.no_proposal hevaluate
    exact
      { hc.toKept with
        phase := by simp, wait := hc.wait, retry := by simp, route := by simp
        tool := by simp [hnone], fresh := hc.fresh, proposal := by simp [hempty] }
  · exact hc

/-! ## What the harness does not check -/

/-- No tool is asked for under a call id that has a result. -/
def ModelHarness.FreshCalls (harness : ModelHarness) (c : Checkpoint) : Prop :=
  ∀ request response call, harness.complete request = .ok response → response.tool_calls = [call] →
    ∀ r ∈ c.tool_results, r.call_id ≠ call.call_id

/-- The executor answers for the case it was asked for. -/
def ModelHarness.OwnArtifacts (harness : ModelHarness) : Prop :=
  ∀ request scope now artifact, harness.execute request scope now = .ok artifact →
    artifact.toCaseScope = scope.toCaseScope

/-! ## What a turn leaves -/

/-- Reasons to refuse a turn before the provider is called. -/
def RouteReason.refuses : RouteReason → Bool
  | .deadlinePassed | .modelBudgetExhausted => true
  | _ => false

/-- The price of an answered call, if it is known and covered. -/
def ModelHarness.priceOf (harness : ModelHarness) (response : NormalizedResponse)
    (budget : RemainingBudget) : ℕ :=
  ((cost response harness.pricing).filter fun paid : ℕ =>
    decide ((paid : ℤ) ≤ budget.cost_microusd)).getD 0

/-- A turn routes the checkpoint, or does what its response asks for. -/
inductive Turn [JsonDecoding] (c : Checkpoint) (charged : RemainingBudget) :
    Option NormalizedResponse → Checkpoint → Prop
  | review {response : Option NormalizedResponse} {reason : RouteReason} (hreason : reason.refuses = false) :
      Turn c charged response (c.route .review reason charged none)
  | retry {reason : RouteReason} (hreason : reason.refuses = false) (available_at : Time) :
      Turn c charged none (c.route .retry reason charged (some available_at))
  | asked {response : NormalizedResponse} {call : ToolCall} {tool : ToolRequest}
      (hcalls : response.tool_calls = [call]) (htool : call.request = .ok tool) :
      Turn c charged (some response) (c.asked tool charged)
  | proposed {response : NormalizedResponse} {proposal : InvestigationProposal}
      (hparsed : parseInvestigationProposal response.text = .ok proposal) :
      Turn c charged (some response) (c.proposed proposal charged)

section

variable [JsonDecoding] {harness : ModelHarness} {response : NormalizedResponse} {charged : RemainingBudget}

theorem ModelHarness.routeFailure_turn {code : ErrorCode} {reason : RouteReason} (hreason : reason.refuses = false)
    (h : harness.routeFailure c now code reason = .ok c') : Turn c c.remaining_budget none c' := by
  unfold ModelHarness.routeFailure at h
  split_ifs at h
  · simp only [ok_iff] at h
    obtain ⟨available_at, -, rfl⟩ := h
    exact .retry hreason available_at
  · cases h
    exact .review hreason

theorem ModelHarness.failedTurn_turn {failure : ProviderFailure} (h : harness.failedTurn c now failure = .ok c') :
    Turn c c.remaining_budget.spentOneCall none c' := by
  simp only [ModelHarness.failedTurn, bind_eq_ok] at h
  obtain ⟨retryable, -, h⟩ := h
  split_ifs at h
  · simp only [bind_eq_ok] at h
    obtain ⟨available_at, -, h⟩ := h
    split_ifs at h
    · cases h
      exact .retry rfl available_at
    · cases h
      exact .review rfl
  · cases h
    exact .review rfl

theorem chargedTurn_turn (h : chargedTurn c response charged = .ok c') : Turn c charged (some response) c' := by
  unfold chargedTurn at h
  split at h
  · cases h
    exact .review rfl
  · rename_i call hcalls
    split_ifs at h
    · cases h
      exact .review rfl
    · simp only [ok_iff] at h
      obtain ⟨tool, htool, rfl⟩ := h
      exact .asked hcalls htool
  · split_ifs at h
    · cases h
      exact .review rfl
    · rw [bind_eq_ok] at h
      obtain ⟨outcome, hparsed, h⟩ := h
      cases outcome with
      | error code =>
        cases h
        exact .review rfl
      | ok proposal =>
        cases h
        exact .proposed (attempt_eq_value.mp hparsed)

theorem ModelHarness.answeredTurn_turn (h : harness.answeredTurn c response = .ok c') :
    Turn c { c.remaining_budget with
      model_calls := c.remaining_budget.model_calls - 1
      cost_microusd := c.remaining_budget.cost_microusd - harness.priceOf response c.remaining_budget }
      (some response) c' := by
  unfold ModelHarness.answeredTurn at h
  unfold ModelHarness.priceOf
  simp only at h
  split at h
  · rename_i hunknown
    cases h
    rw [hunknown, Option.filter_none, Option.getD_none, Int.natCast_zero, Int.sub_zero]
    exact .review rfl
  · rename_i paid hpaid
    rw [hpaid]
    split_ifs at h with hcovered
    · cases h
      rw [Option.filter_some, if_neg (by simpa using hcovered), Option.getD_none, Int.natCast_zero, Int.sub_zero]
      exact .review rfl
    · rw [Option.filter_some, if_pos (by simpa using hcovered)]
      exact chargedTurn_turn h

end

/-! ## The model phase is sound -/

theorem RemainingBudget.InRange.spentOneCall (hb : b.InRange) (hcalls : ¬b.model_calls < 1) :
    b.spentOneCall.InRange := by
  obtain ⟨⟨hmodel, hmodel'⟩, htool, hcost⟩ := hb
  refine ⟨⟨?_, ?_⟩, htool, hcost⟩
  · show 0 ≤ b.model_calls - 1
    omega
  · show b.model_calls - 1 ≤ maxInt
    omega

theorem RemainingBudget.InRange.charged (hb : b.InRange) {cost : ℕ} (hcalls : ¬b.model_calls < 1)
    (hcost : ¬b.cost_microusd < cost) : RemainingBudget.InRange
      { b with model_calls := b.model_calls - 1, cost_microusd := b.cost_microusd - cost } := by
  obtain ⟨hmodel, htool, -⟩ := hb.spentOneCall hcalls
  obtain ⟨-, -, hpaid, hpaid'⟩ := hb
  refine ⟨hmodel, htool, ?_, ?_⟩
  · show 0 ≤ b.cost_microusd - cost
    omega
  · show b.cost_microusd - cost ≤ maxInt
    omega

variable {harness : ModelHarness} {result : HarnessResult}

theorem ModelHarness.priceOf_le {response : NormalizedResponse} (hb : b.InRange) :
    (harness.priceOf response b : ℤ) ≤ b.cost_microusd := by
  obtain ⟨-, -, hcost, -⟩ := hb
  unfold ModelHarness.priceOf
  cases hprice : (cost response harness.pricing).filter fun paid : ℕ => decide ((paid : ℤ) ≤ b.cost_microusd) with
  | none => exact hcost
  | some paid => exact of_decide_eq_true (Option.filter_eq_some_iff.mp hprice).2

/-- A model step refuses the turn, or takes it. -/
theorem ModelHarness.modelStep_turn [JsonDecoding] (h : harness.modelStep c now = .ok c') :
    ((c.remaining_budget.deadline ≤ now ∨ c.remaining_budget.model_calls < 1) ∧
      ∃ reason, c' = c.route .review reason c.remaining_budget none) ∨
    ∃ charged response, Turn c charged response c' ∧ (c.remaining_budget.InRange → charged.InRange) ∧
      ∀ r ∈ response, ∃ input, harness.callProvider input = .ok r := by
  unfold ModelHarness.modelStep at h
  simp only at h
  split_ifs at h with hdeadline hcalls
  · cases h
    exact .inl ⟨.inl hdeadline, _, rfl⟩
  · cases h
    exact .inl ⟨.inr hcalls, _, rfl⟩
  rw [bind_eq_ok] at h
  obtain ⟨outcome, -, h⟩ := h
  cases outcome with
  | error code => exact .inr ⟨_, none, harness.routeFailure_turn rfl h, id, by simp⟩
  | ok input =>
    simp only at h
    split at h
    · exact .inr ⟨_, none, harness.failedTurn_turn h, fun hb => hb.spentOneCall hcalls, by simp⟩
    · rename_i response hresponse
      refine .inr ⟨_, some response, harness.answeredTurn_turn h, fun hb => ?_, ?_⟩
      · exact hb.charged hcalls (not_lt.mpr (harness.priceOf_le hb))
      · rintro _ ⟨⟩
        exact ⟨input, hresponse⟩

theorem ToolCall.request_call_id {call : ToolCall} (h : call.request = .ok tool) : tool.call_id = call.call_id := by
  unfold ToolCall.request at h
  simp only at h
  split_ifs at h
  cases h
  rfl

variable {charged : RemainingBudget}

theorem Checkpoint.Open.asked_sound (hc : c.Open) (hphase : c.next_step = .model) (hcharged : charged.InRange)
    (hfresh : ∀ r ∈ c.tool_results, r.call_id ≠ tool.call_id) : (c.asked tool charged).Sound := by
  have hempty := hc.no_proposal (by rw [hphase]; decide)
  have hopen : (c.asked tool charged).Open :=
    { attempt := hc.attempt, refs := hc.refs, unique := hc.unique, budget := hcharged
      phase := by simp [Checkpoint.asked]
      wait := hc.wait
      retry := by simp [Checkpoint.asked]
      route := by simp [Checkpoint.asked]
      tool := fun _ => rfl
      fresh := by
        intro t ht
        cases ht
        exact hfresh
      proposal := by simp [Checkpoint.asked, hempty] }
  exact hopen.sound fun _ => rfl

theorem Checkpoint.Open.proposed_sound (hc : c.Open) (hphase : c.next_step = .model)
    (proposal : InvestigationProposal) (hcharged : charged.InRange) :
    (c.proposed proposal charged).Sound := by
  have hnone := hc.no_tool (by rw [hphase]; decide)
  have hopen : (c.proposed proposal charged).Open :=
    { attempt := hc.attempt, refs := hc.refs, unique := hc.unique, budget := hcharged
      phase := by simp [Checkpoint.proposed]
      wait := hc.wait
      retry := by simp [Checkpoint.proposed]
      route := by simp [Checkpoint.proposed]
      tool := by simp [Checkpoint.proposed, hnone]
      fresh := hc.fresh
      proposal := by
        intro p hp
        cases hp
        exact ⟨proposal.length_dumpJson, rfl⟩ }
  exact hopen.sound fun htool => by cases htool

theorem Turn.sound [JsonDecoding] {response : Option NormalizedResponse} (hc : c.Open) (hcharged : charged.InRange)
    (hasks : ∀ r ∈ response, c.next_step = .model ∧
      ∀ call, r.tool_calls = [call] → ∀ result ∈ c.tool_results, result.call_id ≠ call.call_id)
    (h : Turn c charged response c') : c'.Sound := by
  cases h with
  | review hreason => exact hc.review_sound _ hcharged
  | retry hreason available_at => exact hc.retry_sound _ hcharged available_at
  | asked hcalls htool =>
    refine hc.asked_sound (hasks _ rfl).1 hcharged ?_
    rw [ToolCall.request_call_id htool]
    exact (hasks _ rfl).2 _ hcalls
  | proposed hparsed => exact hc.proposed_sound (hasks _ rfl).1 _ hcharged

/-- **The model phase** leaves a sound checkpoint, under a fresh call id. -/
theorem ModelHarness.modelStep_sound [JsonDecoding] (hc : c.Open) (hphase : c.next_step = .model)
    (hfresh : harness.FreshCalls c) (h : harness.modelStep c now = .ok c') : c'.Sound := by
  obtain ⟨-, reason, rfl⟩ | ⟨charged, response, hturn, hcharged, hanswer⟩ := harness.modelStep_turn h
  · exact hc.review_sound _ hc.budget
  · refine hturn.sound hc (hcharged hc.budget) fun r hr => ⟨hphase, fun call hcall => ?_⟩
    obtain ⟨input, hinput⟩ := hanswer r hr
    unfold ModelHarness.callProvider at hinput
    split at hinput
    · cases hinput
    · exact hfresh _ r call hinput hcall

/-! ## The tool phase is sound -/

theorem Checkpoint.Open.answered_sound (hc : c.Open) (hphase : c.next_step = .tool)
    (htool : c.pending_tool = some tool) {result : ToolResultReference}
    (hcall : result.call_id = tool.call_id) (hcase : result.artifact.toCaseScope = c.toCaseScope)
    (hbudget : c.remaining_budget.tool_calls ≠ 0) : (c.answered result).Sound := by
  have hempty := hc.no_proposal (by rw [hphase]; decide)
  have hrefs : ∀ ref ∈ (c.answered result).refs, ref.toCaseScope = c.toCaseScope := by
    intro ref href
    have hor : ref = result.artifact ∨ ref ∈ c.refs := by
      simp only [Checkpoint.refs, Checkpoint.answered, List.map_append, List.map_cons,
        List.map_nil, List.mem_append, List.mem_singleton] at href ⊢
      tauto
    rcases hor with rfl | href
    · exact hcase
    · exact hc.refs ref href
  have hunique : ((c.answered result).tool_results.map (·.call_id)).Nodup := by
    have hnew : result.call_id ∉ c.tool_results.map (·.call_id) := by
      rw [hcall, List.mem_map]
      rintro ⟨r, hr, heq⟩
      exact hc.fresh tool htool r hr heq
    show ((c.tool_results ++ [result]).map (·.call_id)).Nodup
    rw [List.map_append, List.map_singleton]
    exact hc.unique.append (List.nodup_singleton _) (by simpa using hnew)
  have hrange : (c.answered result).remaining_budget.InRange := by
    obtain ⟨hmodel, ⟨hleft, hleft'⟩, hcost⟩ := hc.budget
    refine ⟨hmodel, ⟨?_, ?_⟩, hcost⟩
    · show 0 ≤ c.remaining_budget.tool_calls - 1
      omega
    · show c.remaining_budget.tool_calls - 1 ≤ maxInt
      omega
  have hopen : (c.answered result).Open :=
    { attempt := hc.attempt, refs := hrefs, unique := hunique, budget := hrange
      phase := by simp [Checkpoint.answered]
      wait := hc.wait
      retry := by simp [Checkpoint.answered]
      route := by simp [Checkpoint.answered]
      tool := by simp [Checkpoint.answered]
      fresh := by simp [Checkpoint.answered]
      proposal := by simp [Checkpoint.answered, hempty] }
  exact hopen.sound fun htool => by cases htool

/-- **The tool phase** leaves a sound checkpoint, for its case. -/
theorem ModelHarness.toolStep_sound [JsonDecoding] (hc : c.Open) (hphase : c.next_step = .tool)
    (hown : harness.OwnArtifacts) (h : harness.toolStep c now = .ok c') : c'.Sound := by
  simp only [ModelHarness.toolStep, ok_iff] at h
  obtain ⟨tool, htool, checked, hchecked, h⟩ := h
  cases checked with
  | error code =>
    cases h
    exact hc.review_sound _ hc.budget
  | ok arguments =>
    rw [bind_eq_ok] at h
    obtain ⟨executed, hexecuted, h⟩ := h
    cases executed with
    | error code =>
      cases h
      exact hc.review_sound _ hc.budget
    | ok artifact =>
      simp only [ok_iff] at h
      obtain ⟨step_id, -, attempt_id, -, rfl⟩ := h
      have hartifact := hown _ _ _ _ (attempt_eq_value.mp hexecuted)
      have hbudget := validateToolRequest_budget (attempt_eq_value.mp hchecked)
      exact hc.answered_sound hphase htool rfl hartifact hbudget

/-! ## A slice is sound -/

theorem evaluateStep_sound [JsonDecoding] (hc : c.Open) (hphase : c.next_step = .evaluate)
    (h : evaluateStep c = .ok result) : result.checkpoint.Sound := by
  unfold evaluateStep at h
  simp only at h
  split at h
  · cases h
    exact hc.review_sound _ hc.budget
  · rw [bind_eq_ok] at h
    obtain ⟨parsed, -, h⟩ := h
    cases parsed with
    | error code =>
      cases h
      exact hc.review_sound _ hc.budget
    | ok proposal =>
      cases h
      exact hc.sound fun htool => by rw [hphase] at htool; cases htool

theorem ModelHarness.phase_sound [JsonDecoding] (hc : c.Open) (hfresh : harness.FreshCalls c)
    (hown : harness.OwnArtifacts) (h : harness.phase c now = .ok result) : result.checkpoint.Sound := by
  have hclosed : c.next_step ≠ .tool → c.Sound := fun hne => hc.sound fun htool => absurd htool hne
  unfold ModelHarness.phase at h
  split at h <;> rename_i hphase
  case h_1 => cases h; exact hclosed (by rw [hphase]; decide)
  case h_2 => cases h; exact hclosed (by rw [hphase]; decide)
  case h_3 => cases h; exact hclosed (by rw [hphase]; decide)
  case h_4 =>
    simp only [ok_iff] at h
    obtain ⟨c', hstep, rfl⟩ := h
    exact harness.modelStep_sound hc hphase hfresh hstep
  case h_5 =>
    simp only [ok_iff] at h
    obtain ⟨c', hstep, rfl⟩ := h
    exact harness.toolStep_sound hc hphase hown hstep
  case h_6 => exact evaluateStep_sound hc hphase h
  case h_7 => cases h

theorem ModelHarness.resume_sound [JsonDecoding] (hc : c.Open) (hfresh : harness.FreshCalls c)
    (hown : harness.OwnArtifacts) (h : harness.resume c now = .ok result) : result.checkpoint.Sound := by
  simp only [ModelHarness.resume, bind_eq_ok] at h
  obtain ⟨hook, -, h⟩ := h
  cases hook with
  | error code =>
    simp only [ok_iff] at h
    obtain ⟨c', hroute, rfl⟩ := h
    exact (harness.routeFailure_turn rfl hroute).sound hc hc.budget (by simp)
  | ok _ => exact harness.phase_sound hc hfresh hown h

theorem initialCheckpoint_open {scope : RunScope} (h : initialCheckpoint harness scope now = .ok c) :
    c.Open ∧ c.tool_results = [] := by
  simp only [initialCheckpoint, remainingBudget, ok_iff] at h
  obtain ⟨deadline, -, budget, ⟨⟨hmodel, htool, hcost⟩, rfl⟩, policy, -, tools, -, strategy, -, config, -, rfl⟩ := h
  refine ⟨?_, rfl⟩
  exact
    { attempt := by simp, refs := by simp [Checkpoint.refs], unique := by simp
      budget := ⟨of_decide_eq_true hmodel, of_decide_eq_true htool, of_decide_eq_true hcost⟩
      phase := by simp, wait := ⟨rfl, rfl, rfl⟩, retry := by simp, route := by simp
      tool := by simp, fresh := by simp, proposal := by simp }

/-- **One slice**: the checkpoint that the harness returns is sound. -/
theorem runModelHarness_sound [JsonDecoding] {scope : RunScope} {checkpoint : Option Checkpoint} {max_steps : ℤ}
    (hopen : ∀ c ∈ checkpoint, c.Open) (hfresh : ∀ c ∈ checkpoint, harness.FreshCalls c)
    (hown : harness.OwnArtifacts) (h : runModelHarness harness scope checkpoint now max_steps = .ok result) :
    result.checkpoint.Sound := by
  simp only [runModelHarness, ok_iff] at h
  obtain ⟨-, h⟩ := h
  cases checkpoint with
  | none =>
    rw [bind_eq_ok] at h
    obtain ⟨c, hc, h⟩ := h
    obtain ⟨hinitial, hresults⟩ := initialCheckpoint_open hc
    have hnone : harness.FreshCalls c := by
      intro request response call _ _ r hr
      rw [hresults] at hr
      cases hr
    exact harness.resume_sound hinitial hnone hown h
  | some c =>
    have hc : c.Open := hopen c rfl
    simp only [ok_iff] at h
    obtain ⟨-, h⟩ := h
    split_ifs at h
    · cases h
      exact hc.review_sound _ hc.budget
    · have hfresh' : harness.FreshCalls c.reopened := by
        unfold Checkpoint.reopened
        split_ifs <;> exact hfresh c rfl
      exact harness.resume_sound hc.reopened hfresh' hown h

end Aftercare
