import Aftercare.Domain.Runtime

/-!
# Checkpoints

The records of `domain/protocol.py`. A `Checkpoint` is built by chains of `model_copy`, which does not
validate, so its counters are plain integers and nothing about it is proved by its type. What a reader
of the stored payload validates is `Checkpoint.valid`: the ranges of the fields and
`coherentCheckpoint`.
-/

namespace Aftercare

open Relational

structure ArtifactReference extends CaseScope where
  reference_id : Identifier
  sha256 : Sha256
deriving DecidableEq, Repr

structure ToolRequest where
  (call_id name : Identifier)
  arguments_json : String
  arguments_length : arguments_json.length ≤ 65536
deriving DecidableEq, Repr

structure RemainingBudget where
  (model_calls tool_calls cost_microusd : ℤ)
  deadline : Time
deriving DecidableEq, Repr

/-- `ToolResultReference.outcome`. -/
inductive ToolOutcome
  | succeeded
  | error
  | unknown
deriving DecidableEq, Repr

structure ToolResultReference where
  (call_id step_id attempt_id : Identifier)
  outcome : ToolOutcome
  artifact : ArtifactReference
deriving DecidableEq, Repr

inductive RouteReason
  | modelBudgetExhausted
  | toolBudgetExhausted
  | costBudgetExhausted
  | deadlinePassed
  | providerRetryableError
  | providerError
  | modelStrategyChanged
  | strategyMigrationReady
  | emptyTurn
  | intentRejected
  | inputRejected
  | proposalRejected
  | assessmentRejected
  | executorRejected
deriving DecidableEq, Repr

inductive NextStep
  | model
  | tool
  | evaluate
  | wait
  | retry
  | review
  | complete
deriving DecidableEq, Repr

structure Checkpoint extends RunScope where
  checkpoint_version : ℤ
  (input_version case_version saved_fencing_token : PositiveInt)
  (step_id attempt_id : Option Identifier)
  (definition_version policy_version tool_schema_version model_config_version protocol_version : Identifier)
  strategy_id : Identifier
  protocol_ref : Option ArtifactReference
  tool_results : List ToolResultReference
  evidence_refs : List ArtifactReference
  action_ids : List Identifier
  remaining_budget : RemainingBudget
  next_step : NextStep
  route_reason : Option RouteReason
  pending_tool : Option ToolRequest
  pending_proposal_json : Option String
  resume_next_step : Option StepKind
  wait_id : Option Identifier
  wait_generation : Option PositiveInt
  available_at : Option Time
deriving DecidableEq, Repr

/-- A number in the range of `NonNegativeInt`. -/
def nonNegativeInt (n : ℤ) : Bool := decide (0 ≤ n ∧ n ≤ maxInt)

/-- The ranges of the fields that a `model_copy` may have left. -/
def Checkpoint.fieldsValid (c : Checkpoint) : Bool :=
  decide (1 ≤ c.checkpoint_version ∧ c.checkpoint_version ≤ maxInt) &&
    nonNegativeInt c.remaining_budget.model_calls &&
    nonNegativeInt c.remaining_budget.tool_calls &&
    nonNegativeInt c.remaining_budget.cost_microusd &&
    maxLength 65536 c.pending_proposal_json

def Checkpoint.refs (c : Checkpoint) : List ArtifactReference :=
  c.tool_results.map (·.artifact) ++ c.evidence_refs ++ c.protocol_ref.toList

def Checkpoint.coherentCheckpoint (c : Checkpoint) : Bool :=
  (c.attempt_id.isNone || c.step_id.isSome) &&
    (if c.next_step = .wait then c.wait_id.isSome && c.wait_generation.isSome
    else c.resume_next_step.isNone) &&
    (c.next_step == .wait || (c.wait_id.isNone && c.wait_generation.isNone)) &&
    (c.next_step == .retry) == c.available_at.isSome &&
    (c.next_step == .review || c.next_step == .retry) == c.route_reason.isSome &&
    (c.next_step == .tool || c.resume_next_step == some .tool) == c.pending_tool.isSome &&
    c.pending_tool.all (fun tool => c.tool_results.all fun r => r.call_id != tool.call_id) &&
    (c.pending_proposal_json.isNone || (c.next_step == .evaluate || c.resume_next_step == some .evaluate)) &&
    c.refs.all (fun ref => ref.toCaseScope == c.toCaseScope) &&
    decide (c.tool_results.map (·.call_id)).Nodup

/-- What `model_validate_json` of a stored payload requires. -/
def Checkpoint.valid (c : Checkpoint) : Bool := c.fieldsValid && c.coherentCheckpoint

/-! ## What a valid checkpoint is -/

/-- The counters of a budget are in the range of `NonNegativeInt`. -/
structure RemainingBudget.InRange (b : RemainingBudget) : Prop where
  model_calls : 0 ≤ b.model_calls ∧ b.model_calls ≤ maxInt
  tool_calls : 0 ≤ b.tool_calls ∧ b.tool_calls ≤ maxInt
  cost_microusd : 0 ≤ b.cost_microusd ∧ b.cost_microusd ≤ maxInt

structure Checkpoint.Kept (c : Checkpoint) : Prop where
  attempt : c.attempt_id.isSome = true → c.step_id.isSome = true
  refs : ∀ ref ∈ c.refs, ref.toCaseScope = c.toCaseScope
  unique : (c.tool_results.map (·.call_id)).Nodup
  budget : c.remaining_budget.InRange

/-- The rules of a checkpoint, but for the range of its version. -/
structure Checkpoint.Sound (c : Checkpoint) : Prop extends c.Kept where
  wait : if c.next_step = .wait then c.wait_id.isSome = true ∧ c.wait_generation.isSome = true
    else c.resume_next_step = none ∧ c.wait_id = none ∧ c.wait_generation = none
  retry : c.next_step = .retry ↔ c.available_at.isSome = true
  route : c.next_step = .review ∨ c.next_step = .retry ↔ c.route_reason.isSome = true
  tool : c.next_step = .tool ∨ c.resume_next_step = some .tool ↔ c.pending_tool.isSome = true
  fresh : ∀ tool ∈ c.pending_tool, ∀ r ∈ c.tool_results, r.call_id ≠ tool.call_id
  proposal : ∀ p ∈ c.pending_proposal_json, p.length ≤ 65536 ∧
    (c.next_step = .evaluate ∨ c.resume_next_step = some .evaluate)

theorem Checkpoint.wait_iff (c : Checkpoint) : (if c.next_step = .wait then c.wait_id.isSome && c.wait_generation.isSome
      else c.resume_next_step.isNone) = true ∧
      (c.next_step == .wait || (c.wait_id.isNone && c.wait_generation.isNone)) = true ↔
    if c.next_step = .wait then c.wait_id.isSome = true ∧ c.wait_generation.isSome = true
      else c.resume_next_step = none ∧ c.wait_id = none ∧ c.wait_generation = none := by
  split_ifs with h <;> simp [h]

theorem Checkpoint.valid_iff {c : Checkpoint} :
    c.valid = true ↔ (1 ≤ c.checkpoint_version ∧ c.checkpoint_version ≤ maxInt) ∧ c.Sound := by
  have hwait := c.wait_iff
  have hretry : ((c.next_step == .retry) == c.available_at.isSome) = true ↔
      (c.next_step = .retry ↔ c.available_at.isSome = true) := by
    rw [beq_iff_eq, Bool.eq_iff_iff, beq_iff_eq]
  have hroute : ((c.next_step == .review || c.next_step == .retry) == c.route_reason.isSome) =
      true ↔ (c.next_step = .review ∨ c.next_step = .retry ↔ c.route_reason.isSome = true) := by
    rw [beq_iff_eq, Bool.eq_iff_iff, Bool.or_eq_true, beq_iff_eq, beq_iff_eq]
  have htool : ((c.next_step == .tool || c.resume_next_step == some .tool) == c.pending_tool.isSome) = true ↔
      (c.next_step = .tool ∨ c.resume_next_step = some .tool ↔ c.pending_tool.isSome = true) := by
    rw [beq_iff_eq, Bool.eq_iff_iff, Bool.or_eq_true, beq_iff_eq, beq_iff_eq]
  have hproposal : (maxLength 65536 c.pending_proposal_json = true ∧ (c.pending_proposal_json.isNone ||
      (c.next_step == .evaluate || c.resume_next_step == some .evaluate)) = true) ↔
      ∀ p ∈ c.pending_proposal_json, p.length ≤ 65536 ∧
        (c.next_step = .evaluate ∨ c.resume_next_step = some .evaluate) := by
    cases c.pending_proposal_json <;> simp [maxLength]
  constructor
  · intro h
    simp only [Checkpoint.valid, Checkpoint.fieldsValid, Checkpoint.coherentCheckpoint, Bool.and_eq_true] at h
    obtain ⟨⟨⟨⟨⟨hversion, hmodel⟩, htools⟩, hcost⟩, hlength⟩, ⟨⟨⟨⟨⟨⟨⟨⟨⟨hattempt, hw⟩, hw'⟩, hr⟩, hro⟩,
      ht⟩, hfresh⟩, hprop⟩, hrefs⟩, hunique⟩⟩ := h
    exact ⟨of_decide_eq_true hversion,
      { attempt := by simpa [or_iff_not_imp_left, Option.isSome_iff_ne_none] using hattempt
        refs := by simpa using hrefs
        unique := of_decide_eq_true hunique
        budget := ⟨of_decide_eq_true hmodel, of_decide_eq_true htools, of_decide_eq_true hcost⟩
        wait := hwait.mp ⟨hw, hw'⟩
        retry := hretry.mp hr
        route := hroute.mp hro
        tool := htool.mp ht
        fresh := by simpa [Option.all_eq_true] using hfresh
        proposal := hproposal.mp ⟨hlength, hprop⟩ }⟩
  · rintro ⟨hversion, h⟩
    obtain ⟨hw, hw'⟩ := hwait.mpr h.wait
    obtain ⟨hlength, hprop⟩ := hproposal.mpr h.proposal
    have hattempt : (c.attempt_id.isNone || c.step_id.isSome) = true := by
      have := h.attempt
      cases ha : c.attempt_id <;> simp_all
    simp only [Checkpoint.valid, Checkpoint.fieldsValid, Checkpoint.coherentCheckpoint, Bool.and_eq_true]
    exact ⟨⟨⟨⟨⟨decide_eq_true hversion, decide_eq_true h.budget.model_calls⟩,
      decide_eq_true h.budget.tool_calls⟩, decide_eq_true h.budget.cost_microusd⟩, hlength⟩,
      ⟨⟨⟨⟨⟨⟨⟨⟨⟨hattempt, hw⟩, hw'⟩, hretry.mpr h.retry⟩, hroute.mpr h.route⟩, htool.mpr h.tool⟩,
      by simpa [Option.all_eq_true] using h.fresh⟩, hprop⟩, by simpa using h.refs⟩, decide_eq_true h.unique⟩⟩

end Aftercare
